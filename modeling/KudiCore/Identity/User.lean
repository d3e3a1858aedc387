import KudiCore.Shared.Money

/-!
# The `User` aggregate

| here | there |
| --- | --- |
| `Email`, `PhoneNumber`, `PlainPassword`, `HashedPassword` | `modules/identity/domain/value-objects/*.vo.ts` |
| `UserRole`, `UserStatus` | `modules/identity/domain/enums/*.ts` |
| `IdentityEvent` | `modules/identity/domain/events/*.ts`, as far as `User` records them |
| `User` | `modules/identity/domain/entities/user.entity.ts` |
| `UserRecord`, `UserMapper` | `model User` in `schema.prisma`, `infrastructure/mappers/user.mapper.ts` |
| `Services` | `hashRefreshToken`, bcrypt's `compare`, and `toLowerCase`, which is Unicode's |

Where a method reads the clock (`new Date()`, `Date.now()`), it takes what it has read.
-/

namespace Kudi.Identity

structure Services where
  hashRefreshToken : String → String
  compare : String → String → Bool
  toLowerCase : String → String

/-! ## Strings -/

/-- What `trim` removes, and `\s` matches. -/
def isSpace (c : Char) : Bool :=
  (0x9 ≤ c.toNat && c.toNat ≤ 0xD) || (0x2000 ≤ c.toNat && c.toNat ≤ 0x200A) ||
    [0x20, 0xA0, 0x1680, 0x2028, 0x2029, 0x202F, 0x205F, 0x3000, 0xFEFF].contains c.toNat

def trim (cs : List Char) : List Char := ((cs.dropWhile isSpace).reverse.dropWhile isSpace).reverse

/-- `s.length`: UTF-16 code units. -/
def length (cs : List Char) : Nat := (cs.map fun c => if c.toNat < 0x10000 then 1 else 2).sum

/-- `n` in decimal, with leading zeros. -/
def padStart (width n : Nat) : String :=
  String.ofList (List.replicate (width - (toString n).length) '0') ++ toString n

/-- Year, month and day of the `days`-th day since 1970-01-01, in eras of 400 years that begin on 1 March. -/
def civil (days : Nat) : Nat × Nat × Nat :=
  let shifted := days + 719468
  let dayOfEra := shifted % 146097
  let yearOfEra := (dayOfEra - dayOfEra / 1460 + dayOfEra / 36524 - dayOfEra / 146096) / 365
  let dayOfYear := dayOfEra - (365 * yearOfEra + yearOfEra / 4 - yearOfEra / 100)
  let m := (5 * dayOfYear + 2) / 153
  let month := if m < 10 then m + 3 else m - 9
  let year := yearOfEra + shifted / 146097 * 400
  (if month ≤ 2 then year + 1 else year, month, dayOfYear - (153 * m + 2) / 5 + 1)

/-- `new Date(ms).toISOString()`. -/
def toISOString (ms : Nat) : String :=
  let (year, month, day) := civil (ms / 86400000)
  let years := if year < 10000 then padStart 4 year else "+" ++ padStart 6 year
  let ofDay := ms % 86400000
  s!"{years}-{padStart 2 month}-{padStart 2 day}T{padStart 2 (ofDay / 3600000)}:{padStart 2 (ofDay / 60000 % 60)}:" ++
    s!"{padStart 2 (ofDay / 1000 % 60)}.{padStart 3 (ofDay % 1000)}Z"

example : toISOString 951827696789 = "2000-02-29T12:34:56.789Z" := by decide

/-! ## Exceptions -/

def invalidCredentials : Err := .exception "InvalidCredentialsException" "Invalid email or password"
    "INVALID_CREDENTIALS"

def invalidRefreshToken : Err :=
  .exception "InvalidRefreshTokenException" "Refresh token is invalid, expired, or has already been used"
    "INVALID_REFRESH_TOKEN"

def accountLocked (unlocksAt : Nat) : Err :=
  .exception "AccountLockedException"
    s!"Account is locked due to repeated failed login attempts until {toISOString unlocksAt}" "ACCOUNT_LOCKED"

/-- `new NotFoundException('User not found')`. -/
def userNotFound : Err := .error "User not found"

/-! ## Value objects -/

structure Email where
  value : String
deriving DecidableEq, Repr

/-- `/^[^\s@]+@[^\s@]+\.[^\s@]+$/`. -/
def Email.isWellFormed (cs : List Char) : Bool :=
  match cs.takeWhile (· != '@'), cs.dropWhile (· != '@') with
  | mailbox, '@' :: domain =>
    !mailbox.isEmpty && !mailbox.any isSpace && !domain.any (fun c => isSpace c || c == '@') &&
      domain.tail.dropLast.contains '.'
  | _, _ => false

def Email.create (services : Services) (rawEmail : String) : Except Err Email :=
  let normalized := services.toLowerCase (String.ofList (trim rawEmail.toList))
  if !Email.isWellFormed normalized.toList then
    .error (domainException s!"Invalid email address: {rawEmail}" "INVALID_EMAIL")
  else if length normalized.toList > 254 then
    .error (domainException "Email address exceeds maximum length" "INVALID_EMAIL")
  else .ok ⟨normalized⟩

structure PhoneNumber where
  value : String
deriving DecidableEq, Repr

/-- `/^\+[1-9]\d{7,14}$/`. -/
def PhoneNumber.isE164 : List Char → Bool
  | '+' :: c :: digits => '1' ≤ c && c ≤ '9' && digits.all isDigit && 7 ≤ digits.length && digits.length ≤ 14
  | _ => false

def PhoneNumber.create (rawNumber : String) : Except Err PhoneNumber :=
  let normalized := (trim rawNumber.toList).filter fun c => !(isSpace c || c == '-')
  if !PhoneNumber.isE164 normalized then
    .error (domainException s!"Invalid phone number, expected E.164 format: {rawNumber}" "INVALID_PHONE_NUMBER")
  else .ok ⟨String.ofList normalized⟩

structure PlainPassword where
  value : String
deriving DecidableEq, Repr

def PlainPassword.create (rawPassword : String) : Except Err PlainPassword :=
  if length rawPassword.toList < 10 then
    .error (domainException "Password must be at least 10 characters" "WEAK_PASSWORD")
  else .ok ⟨rawPassword⟩

structure HashedPassword where
  value : String
deriving DecidableEq, Repr

def HashedPassword.fromHash (hash : String) : Except Err HashedPassword :=
  if hash = "" then .error (domainException "Password hash cannot be empty" "INVALID_PASSWORD_HASH")
  else .ok ⟨hash⟩

/-! ## `User` -/

inductive UserRole where
  | CUSTOMER | SUPPORT_AGENT | COMPLIANCE_OFFICER | ADMIN | SUPER_ADMIN
deriving DecidableEq, Repr

inductive UserStatus where
  | PENDING_VERIFICATION | ACTIVE | SUSPENDED | LOCKED | DEACTIVATED
deriving DecidableEq, Repr

def UserStatus.value : UserStatus → String
  | .PENDING_VERIFICATION => "PENDING_VERIFICATION"
  | .ACTIVE => "ACTIVE"
  | .SUSPENDED => "SUSPENDED"
  | .LOCKED => "LOCKED"
  | .DEACTIVATED => "DEACTIVATED"

def userNotActive (status : UserStatus) : Err :=
  .exception "UserNotActiveException" s!"User account is not active (current status: {status.value})" "USER_NOT_ACTIVE"

inductive IdentityEvent where
  | userRegistered (aggregateId email : String) (role : UserRole)
  | userLoggedIn (aggregateId : String) (ipAddress userAgent : Option String)
  | userLoginFailed (aggregateId : String) (failedAttemptCount : Nat) (ipAddress : Option String)
  | userAccountLocked (aggregateId : String) (unlocksAt : Nat)
  | passwordChanged (aggregateId : String)
deriving DecidableEq, Repr

structure User where
  id : String
  email : Email
  phoneNumber : PhoneNumber
  passwordHash : HashedPassword
  firstName : String
  lastName : String
  role : UserRole
  status : UserStatus
  failedLoginAttempts : Nat
  lockedUntil : Option Nat
  lastLoginAt : Option Nat
  createdAt : Nat
  updatedAt : Nat
  domainEvents : List IdentityEvent
deriving DecidableEq, Repr

def MAX_FAILED_LOGIN_ATTEMPTS : Nat := 5
def LOCKOUT_DURATION_MS : Nat := 15 * 60 * 1000

namespace User

def addDomainEvent (u : User) (e : IdentityEvent) : User := { u with domainEvents := u.domainEvents ++ [e] }

/-- `id` is the UUID it draws. -/
def register (now : Nat) (id : String) (email : Email) (phoneNumber : PhoneNumber) (passwordHash : HashedPassword)
    (firstName lastName : String) (role : Option UserRole) : User :=
  { id, email, phoneNumber, passwordHash, firstName, lastName, role := role.getD .CUSTOMER,
    status := .PENDING_VERIFICATION, failedLoginAttempts := 0, lockedUntil := none, lastLoginAt := none,
    createdAt := now, updatedAt := now,
    domainEvents := [.userRegistered id email.value (role.getD .CUSTOMER)] }

/-- The lock has run out. -/
def unlock (u : User) (now : Nat) : User :=
  { u with
    status := .ACTIVE
    failedLoginAttempts := 0
    lockedUntil := none
    updatedAt := now }

def recordSuccessfulLogin (u : User) (loginAt now : Nat) (ipAddress userAgent : Option String) : User :=
  { u with
    failedLoginAttempts := 0
    lockedUntil := none
    status := if u.status = UserStatus.LOCKED then .ACTIVE else u.status
    lastLoginAt := some loginAt
    updatedAt := now }.addDomainEvent (.userLoggedIn u.id ipAddress userAgent)

/-- One more failed attempt. -/
def countFailedLogin (u : User) (now : Nat) (ipAddress : Option String) : User :=
  { u with
    failedLoginAttempts := u.failedLoginAttempts + 1
    updatedAt := now }.addDomainEvent (.userLoginFailed u.id (u.failedLoginAttempts + 1) ipAddress)

/-- One too many. -/
def lock (u : User) (lockedUntil : Nat) : User :=
  { u with
    status := .LOCKED
    lockedUntil := some lockedUntil }.addDomainEvent (.userAccountLocked u.id lockedUntil)

def changePassword (u : User) (newPasswordHash : HashedPassword) (now : Nat) : User :=
  { u with
    passwordHash := newPasswordHash
    updatedAt := now }.addDomainEvent (.passwordChanged u.id)

end User

/-! ## Rows -/

structure UserRecord where
  id : String
  email : String
  phoneNumber : String
  passwordHash : String
  firstName : String
  lastName : String
  role : UserRole
  status : UserStatus
  failedLoginAttempts : Nat
  lockedUntil : Option Nat
  lastLoginAt : Option Nat
  createdAt : Nat
  updatedAt : Nat
deriving DecidableEq, Repr

namespace UserMapper

def toDomain (services : Services) (r : UserRecord) : Except Err User := do
  let email ← Email.create services r.email
  let phoneNumber ← PhoneNumber.create r.phoneNumber
  let passwordHash ← HashedPassword.fromHash r.passwordHash
  return { id := r.id, email, phoneNumber, passwordHash, firstName := r.firstName, lastName := r.lastName,
           role := r.role, status := r.status, failedLoginAttempts := r.failedLoginAttempts,
           lockedUntil := r.lockedUntil, lastLoginAt := r.lastLoginAt, createdAt := r.createdAt,
           updatedAt := r.updatedAt, domainEvents := [] }

def toPersistence (u : User) : UserRecord :=
  { id := u.id, email := u.email.value, phoneNumber := u.phoneNumber.value, passwordHash := u.passwordHash.value,
    firstName := u.firstName, lastName := u.lastName, role := u.role, status := u.status,
    failedLoginAttempts := u.failedLoginAttempts, lockedUntil := u.lockedUntil, lastLoginAt := u.lastLoginAt,
    createdAt := u.createdAt, updatedAt := u.updatedAt }

end UserMapper

/-- A row that can be loaded: all but its value objects is copied. -/
theorem UserMapper.toDomain_ok {services : Services} {r : UserRecord} {u : User}
    (h : UserMapper.toDomain services r = .ok u) :
    ∃ email phoneNumber passwordHash, u =
      { id := r.id, email, phoneNumber, passwordHash, firstName := r.firstName, lastName := r.lastName,
        role := r.role, status := r.status, failedLoginAttempts := r.failedLoginAttempts,
        lockedUntil := r.lockedUntil, lastLoginAt := r.lastLoginAt, createdAt := r.createdAt,
        updatedAt := r.updatedAt, domainEvents := [] } := by
  unfold UserMapper.toDomain at h
  cases hemail : Email.create services r.email with
  | error e => simp [hemail, bind, Except.bind] at h
  | ok email =>
    cases hphone : PhoneNumber.create r.phoneNumber with
    | error e => simp [hemail, hphone, bind, Except.bind] at h
    | ok phone =>
      cases hhash : HashedPassword.fromHash r.passwordHash with
      | error e => simp [hemail, hphone, hhash, bind, Except.bind] at h
      | ok hash =>
        simp only [hemail, hphone, hhash, bind, Except.bind, pure, Except.pure, Except.ok.injEq] at h
        exact ⟨email, phone, hash, h.symm⟩

/-- A user keeps the id of its row. -/
theorem UserMapper.toDomain_id {services : Services} {r : UserRecord} {u : User}
    (h : UserMapper.toDomain services r = .ok u) : u.id = r.id := by
  obtain ⟨email, phone, hash, rfl⟩ := UserMapper.toDomain_ok h
  rfl

end Kudi.Identity
