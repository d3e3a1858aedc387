import KudiCore.Identity.Runtime

/-!
# Logging in, staying logged in, logging out

| here | there |
| --- | --- |
| `PrismaRefreshTokenRepository` | `modules/identity/infrastructure/persistence/prisma-refresh-token.repository.ts` |
| `PrismaUserRepository`         | `modules/identity/infrastructure/persistence/prisma-user.repository.ts` |
| `LoginHandler`                 | `modules/identity/application/commands/login/login.handler.ts` |
| `RefreshAccessTokenHandler`    | `modules/identity/application/commands/refresh-token/refresh-token.handler.ts` |
| `LogoutHandler`                | `modules/identity/application/commands/logout/logout.handler.ts` |
| `ChangePasswordHandler`        | `modules/identity/application/commands/change-password/change-password.handler.ts` |

`hashRefreshToken` is SHA-256, computed in place. The methods of the aggregate that read the clock are programs here.
-/

namespace Kudi.Identity

open Interleave

variable (services : Services)

/-! ## Repositories -/

namespace PrismaRefreshTokenRepository

def findByTokenHash (tokenHash : String) : Handler (Option RefreshToken) := do
  let record ← Prog.await (Op.refreshToken (.findUnique tokenHash))
  return record.map RefreshTokenMapper.toDomain

def save (token : RefreshToken) : Handler Unit :=
  Prog.await (Op.refreshToken (.upsert (RefreshTokenMapper.toPersistence token)))

def revokeFamily (family : String) : Handler Unit := do
  let now ← Prog.await Op.dateNow
  let _ ← Prog.await (Op.refreshToken (.updateMany (.ofFamily family) now))
  return ()

def revokeAllForUser (userId : String) : Handler Unit := do
  let now ← Prog.await Op.dateNow
  let _ ← Prog.await (Op.refreshToken (.updateMany (.ofUserId userId) now))
  return ()

end PrismaRefreshTokenRepository

namespace PrismaUserRepository

/-- `record ? UserMapper.toDomain(record) : null`. -/
def load : Option UserRecord → Handler (Option User)
  | none => return none
  | some record => do
    let user ← Prog.ofExcept (UserMapper.toDomain services record)
    return some user

def findById (id : String) : Handler (Option User) := do
  let record ← Prog.await (Op.user (.findById id))
  load services record

def findByEmail (email : Email) : Handler (Option User) := do
  let record ← Prog.await (Op.user (.findByEmail email.value))
  load services record

def save (user : User) : Handler Unit := Prog.await (Op.user (.upsert (UserMapper.toPersistence user)))

end PrismaUserRepository

/-! ## The aggregates' methods -/

namespace User

/-- `this.props.lockedUntil && this.props.lockedUntil > new Date()`. -/
def assertLockExpired (u : User) : Handler Unit :=
  match u.lockedUntil with
  | none => return ()
  | some lockedUntil => do
    let now ← Prog.await Op.dateNow
    if lockedUntil > now then throw (accountLocked lockedUntil) else return ()

def assertCanAttemptLogin (u : User) : Handler User :=
  if u.status = .LOCKED then do
    u.assertLockExpired
    let now ← Prog.await Op.dateNow
    return u.unlock now
  else if u.status ≠ .ACTIVE ∧ u.status ≠ .PENDING_VERIFICATION then throw (userNotActive u.status)
  else return u

def recordFailedLogin (u : User) (ipAddress : Option String) : Handler User := do
  let now ← Prog.await Op.dateNow
  let u := u.countFailedLogin now ipAddress
  if u.failedLoginAttempts ≥ MAX_FAILED_LOGIN_ATTEMPTS then
    let now ← Prog.await Op.dateNow
    return u.lock (now + LOCKOUT_DURATION_MS)
  else return u

end User

namespace RefreshToken

/-- `RefreshToken.issue`, `expiresAt` included; a token without a family starts one. -/
def issue (userId tokenHash : String) (family : Option String) (ipAddress userAgent : Option String) :
    Handler RefreshToken := do
  let now ← Prog.await Op.dateNow
  let id ← Prog.await Op.randomUUID
  let family ← match family with
    | some family => pure family
    | none => Prog.await Op.randomUUID
  let createdAt ← Prog.await Op.dateNow
  return { id, userId, tokenHash, family, expiresAt := now + REFRESH_TOKEN_TTL_MS, revokedAt := none,
           replacedByTokenId := none, ipAddress, userAgent, createdAt }

end RefreshToken

/-- `events.forEach((event) => this.eventBus.publish(event))`. -/
def publishAll : List IdentityEvent → Handler Unit
  | [] => return ()
  | event :: events => do
    Prog.await (Op.publish event)
    publishAll events

/-! ## The handlers -/

structure AuthUserDto where
  id : String
  email : String
  firstName : String
  lastName : String
  role : UserRole
  status : UserStatus
deriving DecidableEq, Repr

structure AuthResponseDto where
  accessToken : String
  refreshToken : String
  accessTokenExpiresIn : Nat
  user : AuthUserDto
deriving DecidableEq, Repr

def AuthResponseDto.of (user : User) (signed : SignedToken) (refreshToken : String) : AuthResponseDto :=
  { accessToken := signed.token, refreshToken, accessTokenExpiresIn := signed.expiresIn,
    user := { id := user.id, email := user.email.value, firstName := user.firstName, lastName := user.lastName,
              role := user.role, status := user.status } }

def signAccessToken (user : User) : Handler SignedToken :=
  Prog.await (Op.signAccessToken { sub := user.id, email := user.email.value, role := user.role })

structure RefreshAccessTokenCommand where
  refreshToken : String
  ipAddress : Option String
  userAgent : Option String
deriving DecidableEq, Repr

namespace RefreshAccessTokenHandler

/-- Old token for new. -/
def rotate (command : RefreshAccessTokenCommand) (existingToken : RefreshToken) (user : User) :
    Handler AuthResponseDto := do
  let newRawRefreshToken ← Prog.await Op.generateOpaqueRefreshToken
  let newTokenHash := services.hashRefreshToken newRawRefreshToken
  let newRefreshToken ← RefreshToken.issue user.id newTokenHash (some existingToken.family) command.ipAddress
    command.userAgent
  let now ← Prog.await Op.dateNow
  PrismaRefreshTokenRepository.save (existingToken.revoke now newRefreshToken.id)
  PrismaRefreshTokenRepository.save newRefreshToken
  let signed ← signAccessToken user
  return .of user signed newRawRefreshToken

def execute (command : RefreshAccessTokenCommand) : Handler AuthResponseDto := do
  let presentedHash := services.hashRefreshToken command.refreshToken
  match ← PrismaRefreshTokenRepository.findByTokenHash presentedHash with
  | none => throw invalidRefreshToken
  | some existingToken =>
    if existingToken.isRevoked then do
      PrismaRefreshTokenRepository.revokeFamily existingToken.family
      throw invalidRefreshToken
    else do
      let now ← Prog.await Op.dateNow
      if existingToken.isExpired now then throw invalidRefreshToken
      else
        match ← PrismaUserRepository.findById services existingToken.userId with
        | none => throw invalidRefreshToken
        | some user =>
          let user ← user.assertCanAttemptLogin
          rotate services command existingToken user

end RefreshAccessTokenHandler

structure LoginCommand where
  email : String
  password : String
  ipAddress : Option String
  userAgent : Option String
deriving DecidableEq, Repr

namespace LoginHandler

/-- The password does not match. -/
def refuse (command : LoginCommand) (user : User) : Handler AuthResponseDto := do
  let user ← user.recordFailedLogin command.ipAddress
  PrismaUserRepository.save user
  publishAll user.domainEvents
  throw invalidCredentials

/-- It does. -/
def accept (command : LoginCommand) (user : User) : Handler AuthResponseDto := do
  let loginAt ← Prog.await Op.dateNow
  let now ← Prog.await Op.dateNow
  let user := user.recordSuccessfulLogin loginAt now command.ipAddress command.userAgent
  PrismaUserRepository.save user
  let signed ← signAccessToken user
  let rawRefreshToken ← Prog.await Op.generateOpaqueRefreshToken
  let refreshTokenHash := services.hashRefreshToken rawRefreshToken
  let refreshToken ← RefreshToken.issue user.id refreshTokenHash none command.ipAddress command.userAgent
  PrismaRefreshTokenRepository.save refreshToken
  publishAll user.domainEvents
  return .of user signed rawRefreshToken

def execute (command : LoginCommand) : Handler AuthResponseDto := do
  let email ← Prog.ofExcept (Email.create services command.email)
  match ← PrismaUserRepository.findByEmail services email with
  | none => do
    let _ ← Prog.await (Op.compare command.password "$2b$12$invalidsaltinvalidsaltinvalidsalt")
    throw invalidCredentials
  | some user => do
    let user ← user.assertCanAttemptLogin
    let passwordMatches ← Prog.await (Op.compare command.password user.passwordHash.value)
    if passwordMatches then accept services command user else refuse command user

end LoginHandler

structure LogoutCommand where
  refreshToken : String
deriving DecidableEq, Repr

def LogoutHandler.execute (command : LogoutCommand) : Handler Unit := do
  let tokenHash := services.hashRefreshToken command.refreshToken
  match ← PrismaRefreshTokenRepository.findByTokenHash tokenHash with
  | none => return ()
  | some existingToken =>
    if existingToken.isRevoked then return ()
    else PrismaRefreshTokenRepository.revokeFamily existingToken.family

structure ChangePasswordCommand where
  userId : String
  currentPassword : String
  newPassword : String
deriving DecidableEq, Repr

def ChangePasswordHandler.execute (command : ChangePasswordCommand) : Handler Unit := do
  match ← PrismaUserRepository.findById services command.userId with
  | none => throw userNotFound
  | some user => do
    let currentMatches ← Prog.await (Op.compare command.currentPassword user.passwordHash.value)
    if !currentMatches then throw invalidCredentials
    else
      let newPlainPassword ← Prog.ofExcept (PlainPassword.create command.newPassword)
      let newHash ← Prog.await (Op.hash newPlainPassword.value)
      let hashedPassword ← Prog.ofExcept (HashedPassword.fromHash newHash)
      let now ← Prog.await Op.dateNow
      let user := user.changePassword hashedPassword now
      PrismaUserRepository.save user
      PrismaRefreshTokenRepository.revokeAllForUser user.id
      publishAll user.domainEvents

/-! ## All of them -/

inductive SessionRequest where
  | login (command : LoginCommand)
  | refresh (command : RefreshAccessTokenCommand)
  | logout (command : LogoutCommand)
  | changePassword (command : ChangePasswordCommand)

/-- What the client gets: a session, or nothing. -/
def SessionRequest.program : SessionRequest → Handler (Option AuthResponseDto)
  | .login command => do
    let session ← LoginHandler.execute services command
    return some session
  | .refresh command => do
    let session ← RefreshAccessTokenHandler.execute services command
    return some session
  | .logout command => do
    LogoutHandler.execute services command
    return none
  | .changePassword command => do
    ChangePasswordHandler.execute services command
    return none

/-! ## A sample -/

/-- The answers to a refresh that goes through. -/
def sampleRefresh (raw id : String) : List Ans :=
  [.ok, .ok, .ok, .token raw, .ok, .uuid id, .ok, .ok, .ok, .ok, .signed ⟨"jwt", 900⟩]

/-- ... and what the user gets. -/
def sampleSession (raw : String) : AuthResponseDto :=
  { accessToken := "jwt", refreshToken := raw, accessTokenExpiresIn := 900,
    user := { id := "user", email := "ada@kudi.ng", firstName := "Ada", lastName := "Obi", role := .CUSTOMER,
              status := .ACTIVE } }

end Kudi.Identity
