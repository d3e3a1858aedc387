import KudiCore.Identity.User

/-!
# Refresh tokens

| here | there |
| --- | --- |
| `RefreshToken` | `modules/identity/domain/entities/refresh-token.entity.ts`, and its rows |
| `RefreshTokenMapper` | `modules/identity/infrastructure/mappers/refresh-token.mapper.ts`, the identity both ways |

A raw token is never stored: `tokenHash` is the hash of it. `expiresAt` and the other times are milliseconds.
-/

namespace Kudi.Identity

structure RefreshToken where
  id : String
  userId : String
  tokenHash : String
  family : String
  expiresAt : Nat
  revokedAt : Option Nat
  replacedByTokenId : Option String
  ipAddress : Option String
  userAgent : Option String
  createdAt : Nat
deriving DecidableEq, Repr

def REFRESH_TOKEN_TTL_MS : Nat := 7 * 24 * 60 * 60 * 1000

namespace RefreshToken

def isExpired (t : RefreshToken) (now : Nat) : Bool := t.expiresAt ≤ now

def isRevoked (t : RefreshToken) : Bool := t.revokedAt.isSome

def isActive (t : RefreshToken) (now : Nat) : Bool := !t.isExpired now && !t.isRevoked

/-- An empty id is no successor. -/
def revoke (t : RefreshToken) (now : Nat) (replacedByTokenId : String) : RefreshToken :=
  { t with
    revokedAt := some now
    replacedByTokenId := if replacedByTokenId = "" then t.replacedByTokenId else some replacedByTokenId }

/-- What `updateMany` does to a row that it matches. -/
def revokedRow (t : RefreshToken) (now : Nat) : RefreshToken := { t with revokedAt := some now }

end RefreshToken

namespace RefreshTokenMapper

abbrev toDomain (r : RefreshToken) : RefreshToken := r
abbrev toPersistence (t : RefreshToken) : RefreshToken := t

end RefreshTokenMapper

end Kudi.Identity
