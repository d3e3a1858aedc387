import KudiCore.Interleave.Triple
import KudiCore.Interleave.Table
import KudiCore.Identity.RefreshToken

/-!
# What the identity handlers call

| here | there |
| --- | --- |
| `RefreshTokenCall` | `prisma.refreshToken`, as `prisma-refresh-token.repository.ts` calls it |
| `UserCall` | `prisma.user`, as `prisma-user.repository.ts` calls it |
| `Op` | one awaited (or otherwise fallible) call |
| `Ans` | what the outside world decides about one call |
| `Store` | the tables and the clock |
| `exec` | one call: atomic, as PostgreSQL executes one statement |

The calls are those of the Prisma delegates, of bcrypt, of `jwtService.signAsync`, of `randomBytes`, of `randomUUID`,
of the clock and of `EventBus.publish`.

No handler opens a transaction. The foreign key from tokens to users is left out: no user is ever deleted.

`drawn`, `reads` and `journal` are history variables that no call reads: the random strings handed out, the user rows
that have been loaded, and the order in which token families have been loaded and revoked.
-/

namespace Kudi.Identity

open Interleave

/-! ## Calls and their results -/

/-- The `where` of an `updateMany`, together with `revokedAt: null`. -/
inductive TokenFilter where
  | ofFamily (family : String)
  | ofUserId (userId : String)
deriving DecidableEq, Repr

def TokenFilter.covers : TokenFilter → RefreshToken → Bool
  | .ofFamily family, t => t.family == family
  | .ofUserId userId, t => t.userId == userId

/-- `findUnique` is by token hash, `upsert` by id. -/
inductive RefreshTokenCall where
  | findUnique (tokenHash : String)
  | upsert (data : RefreshToken)
  | updateMany (filter : TokenFilter) (revokedAt : Nat)

@[reducible] def RefreshTokenCall.Res : RefreshTokenCall → Type
  | .findUnique _ => Option RefreshToken
  | .upsert _ => Unit
  | .updateMany .. => Nat

inductive UserCall where
  | findById (id : String)
  | findByEmail (email : String)
  | upsert (data : UserRecord)

@[reducible] def UserCall.Res : UserCall → Type
  | .findById _ => Option UserRecord
  | .findByEmail _ => Option UserRecord
  | .upsert _ => Unit

structure AccessTokenPayload where
  sub : String
  email : String
  role : UserRole
deriving DecidableEq, Repr

structure SignedToken where
  token : String
  expiresIn : Nat
deriving DecidableEq, Repr

inductive Op where
  | refreshToken (q : RefreshTokenCall)
  | user (q : UserCall)
  | compare (plainText hash : String)
  | hash (plainText : String)
  | signAccessToken (payload : AccessTokenPayload)
  | generateOpaqueRefreshToken
  | randomUUID
  | dateNow
  | publish (event : IdentityEvent)

@[reducible] def Op.Res : Op → Type
  | .refreshToken q => q.Res
  | .user q => q.Res
  | .compare .. => Bool
  | .hash _ => String
  | .signAccessToken _ => SignedToken
  | .generateOpaqueRefreshToken => String
  | .randomUUID => String
  | .dateNow => Nat
  | .publish _ => Unit

/-- An `async` method. -/
abbrev Handler (α : Type) := Prog Op.Res Err Err α

/-! ## The store -/

inductive TokenStep where
  | presented (i : PId) (family : String)
  | revoked (family : String)
deriving DecidableEq

structure Store where
  users : Table UserRecord.id
  refreshTokens : Table RefreshToken.id
  clock : Nat
  drawn : List String
  reads : List (PId × UserRecord)
  journal : List TokenStep

inductive Ans where
  | ok
  | fail (e : Err)
  | uuid (s : String)
  | token (raw : String)
  | hash (h : String)
  | signed (t : SignedToken)

def Ans.isFail : Ans → Bool
  | .fail _ => true
  | _ => false

/-- The calls that can be rejected; the others are local computations. -/
def Op.fallible : Op → Bool
  | .generateOpaqueRefreshToken | .randomUUID | .dateNow => false
  | _ => true

def uniqueViolation : Err := .prismaKnown "P2002" "Unique constraint failed"

/-! ## Executing one call -/

/-- `updateMany`, on one row. -/
def TokenFilter.revokes (filter : TokenFilter) (revokedAt : Nat) (t : RefreshToken) : RefreshToken :=
  if filter.covers t && !t.isRevoked then t.revokedRow revokedAt else t

theorem TokenFilter.revokes_id (filter : TokenFilter) (revokedAt : Nat) (t : RefreshToken) :
    (filter.revokes revokedAt t).id = t.id := by
  unfold TokenFilter.revokes
  split <;> rfl

/-- The families that a revocation covers. -/
def Store.families (s : Store) : TokenFilter → List String
  | .ofFamily family => [family]
  | .ofUserId userId => (s.refreshTokens.rows.filter fun t => t.userId == userId).map (·.family)

def Store.revokeMany (s : Store) (filter : TokenFilter) (revokedAt : Nat) : Store :=
  { s with
    refreshTokens := s.refreshTokens.mapRows (filter.revokes revokedAt) (filter.revokes_id revokedAt)
    journal := s.journal ++ (s.families filter).map .revoked }

/-- What finding a token adds to the journal. -/
def presented (i : PId) : Option RefreshToken → List TokenStep
  | some t => [.presented i t.family]
  | none => []

def execRefreshToken (i : PId) (q : RefreshTokenCall) (s : Store) : Except Err q.Res × Store :=
  match q with
  | .findUnique tokenHash =>
    let found := s.refreshTokens.rows.find? fun t => t.tokenHash = tokenHash
    (.ok found, { s with journal := s.journal ++ presented i found })
  | .upsert data =>
    if s.refreshTokens.rows.any fun t =>
      t.id != data.id && t.tokenHash == data.tokenHash then (.error uniqueViolation, s)
    else (.ok (), { s with refreshTokens := s.refreshTokens.put data })
  | .updateMany filter revokedAt =>
    (.ok (s.refreshTokens.rows.countP fun t => filter.covers t && !t.isRevoked), s.revokeMany filter revokedAt)

def Store.read (s : Store) (i : PId) (found : Option UserRecord) : Store :=
  { s with reads := s.reads ++ (found.map fun r => (i, r)).toList }

def execUser (i : PId) (q : UserCall) (s : Store) : Except Err q.Res × Store :=
  match q with
  | .findById id => (.ok (s.users.find? id), s.read i (s.users.find? id))
  | .findByEmail email =>
    let found := s.users.rows.find? fun r => r.email = email
    (.ok found, s.read i found)
  | .upsert data =>
    if s.users.rows.any fun r => r.id != data.id && (r.email == data.email || r.phoneNumber == data.phoneNumber) then
      (.error uniqueViolation, s)
    else (.ok (), { s with users := s.users.put data })

def exec (services : Services) (i : PId) : Ans → (op : Op) → Store → Option (Except Err op.Res × Store)
  | .fail e, op, s => if op.fallible then some (.error e, s) else none
  | .ok, .refreshToken q, s => some (execRefreshToken i q s)
  | .ok, .user q, s => some (execUser i q s)
  | .ok, .compare plainText hash, s => some (.ok (services.compare plainText hash), s)
  | .hash h, .hash _, s => some (.ok h, s)
  | .signed t, .signAccessToken _, s => some (.ok t, s)
  | .token raw, .generateOpaqueRefreshToken, s => some (.ok raw, { s with drawn := raw :: s.drawn })
  | .uuid u, .randomUUID, s => some (.ok u, { s with drawn := u :: s.drawn })
  | .ok, .dateNow, s => some (.ok s.clock, s)
  | .ok, .publish _, s => some (.ok (), s)
  | _, _, _ => none

/-- Time passes. -/
def tick (ms : Nat) (s : Store) : Store := { s with clock := s.clock + ms }

/-- The row of a token that the call saves. -/
def Op.savedToken? : Op → Option RefreshToken
  | .refreshToken (.upsert data) => some data
  | _ => none

/-- A random string is a new one, and no id is empty. -/
def Fresh (s : Store) : Ans → Prop
  | .uuid u => u ≠ "" ∧ u ∉ s.drawn
  | .token raw => raw ∉ s.drawn
  | _ => True

instance (s : Store) (a : Ans) : Decidable (Fresh s a) := by
  unfold Fresh
  split <;> infer_instance

/-- Any schedule whose steps meet `allow`. -/
def scheduleOf (services : Services) (allow : Store → PId → Ans → Op → Prop) :
    System Op.Res Err Store Ans Nat :=
  ⟨exec services, tick, allow⟩

/-- Every schedule in which random strings are new. -/
def freshSchedule (services : Services) : System Op.Res Err Store Ans Nat :=
  scheduleOf services fun s _ a _ => Fresh s a

instance (services : Services) (s : Store) (i : PId) (a : Ans) (op : Op) :
    Decidable ((freshSchedule services).allow s i a op) := inferInstanceAs (Decidable (Fresh s a))

/-! ## What a call leaves alone -/

/-- The calls on the table of tokens. -/
def Op.ofTokens : Op → Bool
  | .refreshToken _ => true
  | _ => false

/-- Neither the rows of tokens nor their journal have changed, and what had been drawn is remembered. -/
structure Store.SameTokens (s s' : Store) : Prop where
  refreshTokens : s'.refreshTokens = s.refreshTokens
  journal : s'.journal = s.journal
  drawn : s.drawn ⊆ s'.drawn

theorem Store.SameTokens.refl (s : Store) : s.SameTokens s := ⟨rfl, rfl, List.Subset.refl _⟩

section
variable {services : Services} {i : PId} {a : Ans} {s s' : Store}

theorem exec_fail {op : Op} {r : Except Err op.Res} {e : Err} (h : exec services i (.fail e) op s = some (r, s')) :
    r = .error e ∧ s' = s := by
  simp only [exec] at h
  split at h
  · simp only [Option.some.injEq, Prod.mk.injEq] at h
    exact ⟨h.1.symm, h.2.symm⟩
  · cases h

theorem exec_sameTokens {op : Op} {r : Except Err op.Res} (hop : op.ofTokens = false)
    (h : exec services i a op s = some (r, s')) : s.SameTokens s' := by
  cases a with
  | fail e => exact (exec_fail h).2 ▸ .refl s
  | ok =>
    cases op with
    | refreshToken q => cases hop
    | user q =>
      cases q with
      | findById id =>
        cases h
        exact ⟨rfl, rfl, List.Subset.refl _⟩
      | findByEmail email =>
        cases h
        exact ⟨rfl, rfl, List.Subset.refl _⟩
      | upsert data =>
        simp only [exec, execUser, Option.some.injEq] at h
        split at h <;> cases h
        · exact .refl s
        · exact ⟨rfl, rfl, List.Subset.refl _⟩
    | compare p h' =>
      cases h
      exact .refl s
    | dateNow =>
      cases h
      exact .refl s
    | publish e =>
      cases h
      exact .refl s
    | _ => cases h
  | uuid u =>
    cases op <;> cases h
    exact ⟨rfl, rfl, List.subset_cons_self _ _⟩
  | token raw =>
    cases op <;> cases h
    exact ⟨rfl, rfl, List.subset_cons_self _ _⟩
  | hash u =>
    cases op <;> cases h
    exact .refl s
  | signed u =>
    cases op <;> cases h
    exact .refl s

theorem exec_refreshToken {q : RefreshTokenCall} {x : q.Res}
    (h : exec services i a (.refreshToken q) s = some (.ok x, s')) : execRefreshToken i q s = (.ok x, s') := by
  cases a with
  | ok => exact Option.some.inj h
  | fail e => exact nomatch (exec_fail h).1
  | _ => cases h

theorem exec_token_find {tokenHash : String} {found : Option RefreshToken}
    (h : exec services i a (.refreshToken (.findUnique tokenHash)) s = some (.ok found, s')) :
    found = s.refreshTokens.rows.find? (fun t => t.tokenHash = tokenHash) ∧
      s' = { s with journal := s.journal ++ presented i found } := by
  cases exec_refreshToken h
  exact ⟨rfl, rfl⟩

theorem exec_token_upsert {data : RefreshToken} {x : Unit}
    (h : exec services i a (.refreshToken (.upsert data)) s = some (.ok x, s')) :
    (∀ t ∈ s.refreshTokens.rows, t.tokenHash = data.tokenHash → t.id = data.id) ∧
      s' = { s with refreshTokens := s.refreshTokens.put data } := by
  have h := exec_refreshToken h
  simp only [execRefreshToken] at h
  split at h
  · cases h
  · rename_i hunique
    simp only [List.any_eq_true, Bool.and_eq_true, bne_iff_ne, ne_eq, beq_iff_eq, not_exists, not_and] at hunique
    refine ⟨fun t ht hhash => ?_, (congrArg Prod.snd h).symm⟩
    by_contra hid
    exact hunique t ht hid hhash

theorem exec_token_updateMany {filter : TokenFilter} {revokedAt : Nat} {n : Nat}
    (h : exec services i a (.refreshToken (.updateMany filter revokedAt)) s = some (.ok n, s')) :
    s' = s.revokeMany filter revokedAt := by
  cases exec_refreshToken h
  rfl

theorem exec_user {q : UserCall} {x : q.Res} (h : exec services i a (.user q) s = some (.ok x, s')) :
    execUser i q s = (.ok x, s') := by
  cases a with
  | ok => exact Option.some.inj h
  | fail e => exact nomatch (exec_fail h).1
  | _ => cases h

theorem exec_user_findById {id : String} {found : Option UserRecord}
    (h : exec services i a (.user (.findById id)) s = some (.ok found, s')) :
    found = s.users.find? id ∧ s' = s.read i found := by
  cases exec_user h
  exact ⟨rfl, rfl⟩

/-- A rejected call changes nothing. -/
theorem exec_error {op : Op} {e : Err} (h : exec services i a op s = some (.error e, s')) : s' = s := by
  cases a with
  | fail e' => exact (exec_fail h).2
  | ok =>
    cases op with
    | refreshToken q =>
      cases q with
      | upsert data =>
        simp only [exec, execRefreshToken, Option.some.injEq] at h
        split at h <;> cases h
        rfl
      | _ => cases h
    | user q =>
      cases q with
      | upsert data =>
        simp only [exec, execUser, Option.some.injEq] at h
        split at h <;> cases h
        rfl
      | _ => cases h
    | _ => cases h
  | uuid u => cases op <;> cases h
  | token u => cases op <;> cases h
  | hash u => cases op <;> cases h
  | signed u => cases op <;> cases h

theorem exec_randomUUID {u : String} (h : exec services i a .randomUUID s = some (.ok u, s')) :
    a = .uuid u ∧ s' = { s with drawn := u :: s.drawn } := by
  cases a with
  | uuid u' =>
    cases h
    exact ⟨rfl, rfl⟩
  | fail e => exact nomatch (exec_fail h).1
  | _ => cases h

theorem exec_generate {raw : String} (h : exec services i a .generateOpaqueRefreshToken s = some (.ok raw, s')) :
    a = .token raw ∧ s' = { s with drawn := raw :: s.drawn } := by
  cases a with
  | token u' =>
    cases h
    exact ⟨rfl, rfl⟩
  | fail e => exact nomatch (exec_fail h).1
  | _ => cases h

theorem exec_dateNow {t : Nat} (h : exec services i a .dateNow s = some (.ok t, s')) : t = s.clock ∧ s' = s := by
  cases a with
  | ok =>
    cases h
    exact ⟨rfl, rfl⟩
  | fail e => exact nomatch (exec_fail h).1
  | _ => cases h

end

/-! ## A sample -/

/-- Hash functions that can be looked through. -/
def sampleServices : Services := ⟨fun raw => "#" ++ raw, fun plainText hash => hash == "#" ++ plainText, fun s => s⟩

def sampleUser : UserRecord :=
  { id := "user", email := "ada@kudi.ng", phoneNumber := "+2348012345678", passwordHash := "#correct horse",
    firstName := "Ada", lastName := "Obi", role := .CUSTOMER, status := .ACTIVE, failedLoginAttempts := 0,
    lockedUntil := none, lastLoginAt := none, createdAt := 0, updatedAt := 0 }

/-- Raw token `raw-0`, the first of its family. -/
def sampleToken : RefreshToken :=
  { id := "token-0", userId := "user", tokenHash := "#raw-0", family := "family", expiresAt := REFRESH_TOKEN_TTL_MS,
    revokedAt := none, replacedByTokenId := none, ipAddress := none, userAgent := none, createdAt := 0 }

/-- One user, logged in. -/
def sampleStore : Store :=
  { users := Table.empty.put sampleUser, refreshTokens := Table.empty.put sampleToken, clock := 0,
    drawn := ["token-0", "family", "raw-0"], reads := [], journal := [] }

end Kudi.Identity
