import KudiCore.Accounts.Lifecycle
import KudiCore.Transfers.Transfer
import KudiCore.Identity.User
import KudiCore.Shared.Amounts

/-!
# Rows and aggregates

| here | there |
| --- | --- |
| `TransferProps`, `AccountProps`   | the interfaces of these names, the timestamps and `accountType` included |
| `PrismaTransfer`, `PrismaAccount` | the rows, with the same columns |
| `TransferReference.generate`      | `modules/transfers/domain/value-objects/transfer-reference.vo.ts:24` |
| `TransferOperation`, `UserOperation` | the public mutators of `transfer.entity.ts` and `user.entity.ts` |

Loading a row runs the constructors of its value objects again, on what they had made of their arguments when the
aggregate was new. That is safe if each of them makes of its own result the same again (`Rereads`).
-/

namespace Kudi

/-- What `create` has made of a raw value it makes again of the value it holds. -/
def Rereads {ρ α : Type} (create : ρ → Except Err α) (getValue : α → ρ) : Prop :=
  ∀ raw a, create raw = .ok a → create (getValue a) = .ok a

/-! ## Value objects -/

namespace TransferReference

def hexDigit (n : Nat) : Char :=
  ['0', '1', '2', '3', '4', '5', '6', '7', '8', '9', 'A', 'B', 'C', 'D', 'E', 'F'].getD n '0'

/-- `randomBytes(8).toString('hex').toUpperCase()`. -/
def random (bytes : Vector UInt8 8) : List Char :=
  bytes.toList.flatMap fun b => [hexDigit (b.toNat / 16), hexDigit (b.toNat % 16)]

theorem hexDigit_matches {n : Nat} (h : n < 16) :
    (isDigit (hexDigit n) || ('A' ≤ hexDigit n && hexDigit n ≤ 'Z')) = true := by
  revert n
  decide

theorem random_length (bytes : Vector UInt8 8) : (random bytes).length = 16 := by
  simp [random, List.length_flatMap, List.map_const']

theorem generate_valid (bytes : Vector UInt8 8) :
    isTransferReference ("KUDI-" ++ String.ofList (random bytes)) = true := by
  have htoList : ("KUDI-" ++ String.ofList (random bytes)).toList = ['K', 'U', 'D', 'I', '-'] ++ random bytes := by
    rw [String.toList_append, String.toList_ofList, String.toList_ofList]
  have hlength := random_length bytes
  have hall : ∀ c ∈ random bytes, (isDigit c || ('A' ≤ c && c ≤ 'Z')) = true := by
    intro c hc
    obtain ⟨b, -, hc⟩ := List.mem_flatMap.1 hc
    have hb : b.toNat < 256 := b.toNat_lt
    simp only [List.mem_cons, List.not_mem_nil, or_false] at hc
    rcases hc with rfl | rfl
    · exact hexDigit_matches (by omega)
    · exact hexDigit_matches (by omega)
  simp only [isTransferReference, htoList, List.cons_append, List.nil_append, List.take_succ_cons,
    List.take_zero, List.drop_succ_cons, List.drop_zero, hlength, beq_self_eq_true, Bool.true_and]
  exact List.all_eq_true.2 hall

def generate (bytes : Vector UInt8 8) : TransferReference :=
  ⟨"KUDI-" ++ String.ofList (random bytes), generate_valid bytes⟩

end TransferReference

namespace Identity

theorem HashedPassword.rereads : Rereads HashedPassword.fromHash HashedPassword.value := by
  intro hash password h
  unfold HashedPassword.fromHash at h
  split at h
  · cases h
  · rename_i hne
    cases h
    exact if_neg hne

theorem isSpace_of_printable {c : Char} (hlow : 0x21 ≤ c.toNat) (hhigh : c.toNat ≤ 0x7E) : isSpace c = false := by
  simp only [isSpace, List.contains_eq_mem, List.mem_cons, List.not_mem_nil, or_false, Bool.or_eq_false_iff,
    Bool.and_eq_false_iff, decide_eq_false_iff_not]
  omega

theorem trim_of_noSpace {cs : List Char} (h : ∀ c ∈ cs, isSpace c = false) : trim cs = cs := by
  have hkept : ∀ xs : List Char, (∀ c ∈ xs, isSpace c = false) → xs.dropWhile isSpace = xs := by
    intro xs hxs
    cases xs with
    | nil => rfl
    | cons x xs => exact List.dropWhile_cons_of_neg (by simp [hxs x List.mem_cons_self])
  rw [trim, hkept cs h, hkept cs.reverse fun c hc => h c (List.mem_reverse.1 hc), List.reverse_reverse]

/-! ### Email addresses -/

theorem Email.noSpace_of_isWellFormed {cs : List Char} (h : Email.isWellFormed cs = true) :
    ∀ c ∈ cs, isSpace c = false := by
  unfold Email.isWellFormed at h
  split at h
  · rename_i mailbox domain hmailbox hdomain
    simp only [Bool.and_eq_true, Bool.not_eq_true', List.any_eq_false, Bool.or_eq_true, not_or] at h
    obtain ⟨⟨⟨-, hmailboxChars⟩, hdomainChars⟩, -⟩ := h
    intro c hc
    rw [← List.takeWhile_append_dropWhile (p := (· != '@')) (l := cs), hdomain, List.mem_append, List.mem_cons] at hc
    rcases hc with hc | rfl | hc
    · exact Bool.eq_false_iff.2 (hmailboxChars c hc)
    · decide
    · exact Bool.eq_false_iff.2 (hdomainChars c hc).1
  · cases h

/-- What an `Email` holds. -/
theorem Email.create_ok {services : Services} {rawEmail : String} {email : Email} :
    Email.create services rawEmail = .ok email ↔
      email.value = services.toLowerCase (String.ofList (trim rawEmail.toList)) ∧
        Email.isWellFormed email.value.toList = true ∧ length email.value.toList ≤ 254 := by
  obtain ⟨value⟩ := email
  simp only [Email.create]
  split
  · rename_i hwrong
    constructor
    · intro h
      cases h
    · rintro ⟨rfl, hwell, -⟩
      simp [hwell] at hwrong
  · rename_i hwell
    split
    · rename_i hlong
      constructor
      · intro h
        cases h
      · rintro ⟨rfl, -, hlength⟩
        omega
    · rename_i hlength
      simp only [Except.ok.injEq, Email.mk.injEq]
      constructor
      · rintro rfl
        exact ⟨rfl, by simpa using hwell, by omega⟩
      · rintro ⟨rfl, -, -⟩
        rfl

theorem Email.rereads {services : Services}
    (hlower : ∀ s, services.toLowerCase (services.toLowerCase s) = services.toLowerCase s) :
    Rereads (Email.create services) Email.value := by
  intro rawEmail email h
  obtain ⟨hvalue, hwell, hlength⟩ := Email.create_ok.1 h
  refine Email.create_ok.2 ⟨?_, hwell, hlength⟩
  rw [trim_of_noSpace (Email.noSpace_of_isWellFormed hwell), String.ofList_toList, hvalue, hlower]

/-! ### Phone numbers -/

theorem isSpace_of_isDigit {c : Char} (h : isDigit c = true) : isSpace c = false ∧ c ≠ '-' := by
  obtain ⟨hlow, hhigh⟩ := isDigit_iff.1 h
  have h0 : '0'.toNat = 48 := rfl
  have h9 : '9'.toNat = 57 := rfl
  refine ⟨isSpace_of_printable (by omega) (by omega), ?_⟩
  rintro rfl
  cases h

/-- A sign or a digit, which is neither a space nor a hyphen. -/
theorem PhoneNumber.kept_of_isE164 {cs : List Char} (h : PhoneNumber.isE164 cs = true) :
    ∀ c ∈ cs, isSpace c = false ∧ c ≠ '-' := by
  unfold PhoneNumber.isE164 at h
  split at h
  · rename_i first digits
    simp only [Bool.and_eq_true, List.all_eq_true, decide_eq_true_eq] at h
    obtain ⟨⟨⟨⟨hlow, hhigh⟩, hdigits⟩, -⟩, -⟩ := h
    have hfirst : isDigit first = true := by
      rw [isDigit, Bool.and_eq_true, decide_eq_true_iff, decide_eq_true_iff]
      exact ⟨Char.le_trans (by decide) hlow, hhigh⟩
    intro c hc
    rcases List.mem_cons.1 hc with rfl | hc
    · decide
    · rcases List.mem_cons.1 hc with rfl | hc
      · exact isSpace_of_isDigit hfirst
      · exact isSpace_of_isDigit (hdigits c hc)
  · cases h

/-- What a `PhoneNumber` holds. -/
theorem PhoneNumber.create_ok {rawNumber : String} {phone : PhoneNumber} :
    PhoneNumber.create rawNumber = .ok phone ↔
      phone.value.toList = (trim rawNumber.toList).filter (fun c => !(isSpace c || c == '-')) ∧
        PhoneNumber.isE164 phone.value.toList = true := by
  obtain ⟨value⟩ := phone
  simp only [PhoneNumber.create]
  split
  · rename_i hwrong
    constructor
    · intro h
      cases h
    · rintro ⟨hvalue, he164⟩
      rw [← hvalue, he164] at hwrong
      cases hwrong
  · rename_i he164
    simp only [Except.ok.injEq, PhoneNumber.mk.injEq]
    constructor
    · rintro rfl
      rw [String.toList_ofList]
      exact ⟨rfl, by simpa using he164⟩
    · rintro ⟨hvalue, -⟩
      rw [← hvalue, String.ofList_toList]

theorem PhoneNumber.rereads : Rereads PhoneNumber.create PhoneNumber.value := by
  intro rawNumber phone h
  obtain ⟨-, he164⟩ := PhoneNumber.create_ok.1 h
  have hkept := PhoneNumber.kept_of_isE164 he164
  refine PhoneNumber.create_ok.2 ⟨?_, he164⟩
  rw [trim_of_noSpace fun c hc => (hkept c hc).1]
  exact (List.filter_eq_self.2 fun c hc => by simp [hkept c hc]).symm

end Identity

/-! ## Transfers -/

structure TransferProps extends Transfer where
  updatedAt : Nat
deriving DecidableEq

structure PrismaTransfer extends TransferRecord where
  updatedAt : Nat
deriving DecidableEq, Repr

def PrismaTransfer.toDomain (record : PrismaTransfer) : Except Err TransferProps := do
  let transfer ← TransferMapper.toDomain record.toTransferRecord
  return { transfer with updatedAt := record.updatedAt }

inductive TransferOperation where
  | markProcessing (providerReference : String)
  | markSuccessful
  | markFailed (reason : String)
  | markReversed (reason : String)

namespace TransferOperation

def apply : TransferOperation → Transfer → Except Err Transfer
  | .markProcessing providerReference, t => t.markProcessing providerReference
  | .markSuccessful, t => t.markSuccessful
  | .markFailed reason, t => t.markFailed reason
  | .markReversed reason, t => t.markReversed reason

/-- No mutator touches the money. -/
theorem apply_keeps {op : TransferOperation} {t t' : Transfer} (h : op.apply t = .ok t') :
    t'.amount = t.amount ∧ t'.fee = t.fee := by
  by_cases hopen : t.status.isTerminal = false
  · cases op with
    | markProcessing providerReference =>
      rw [apply, Transfer.markProcessing_of hopen] at h
      cases h
      exact ⟨rfl, rfl⟩
    | markSuccessful =>
      rw [apply, Transfer.markSuccessful_of hopen] at h
      cases h
      exact ⟨rfl, rfl⟩
    | markFailed reason =>
      rw [apply, Transfer.markFailed_of hopen] at h
      cases h
      exact ⟨rfl, rfl⟩
    | markReversed reason =>
      rw [apply, Transfer.markReversed_of hopen] at h
      cases h
      exact ⟨rfl, rfl⟩
  · have hrefused : ∀ action, t.assertNotTerminal action = .error (invalidTransferState t.id t.status action) := by
      simp [Transfer.assertNotTerminal, hopen]
    cases op <;>
      simp [apply, Transfer.markProcessing, Transfer.markSuccessful, Transfer.markFailed, Transfer.markReversed,
        hrefused, bind, Except.bind] at h

end TransferOperation

namespace TransferProps

def toPersistence (props : TransferProps) : PrismaTransfer :=
  { TransferMapper.toPersistence props.toTransfer with updatedAt := props.updatedAt }

def initiateInternal (now : Nat) (bytes : Vector UInt8 8)
    (id initiatorUserId sourceAccountId destinationAccountId : String) (amount fee : Money) (narration : String) :
    TransferProps :=
  { Transfer.initiateInternal now (.generate bytes) id initiatorUserId sourceAccountId destinationAccountId amount fee
      narration with updatedAt := now }

def initiateExternal (now : Nat) (bytes : Vector UInt8 8) (id initiatorUserId sourceAccountId : String)
    (recipient : ExternalRecipient) (amount fee : Money) (narration : String) : TransferProps :=
  { Transfer.initiateExternal now (.generate bytes) id initiatorUserId sourceAccountId recipient amount fee
      narration with updatedAt := now }

/-- Every mutator reads the clock (`touch`). -/
def perform (now : Nat) (op : TransferOperation) (props : TransferProps) : Except Err TransferProps := do
  let transfer ← op.apply props.toTransfer
  return { transfer with updatedAt := now }

/-- After `pullDomainEvents`. -/
def pulled (props : TransferProps) : TransferProps := { props with toTransfer := props.toTransfer.pullDomainEvents.2 }

/-- What the constructors and mutators make. -/
inductive Produced : TransferProps → Prop where
  | initiateInternal {now : Nat} {bytes : Vector UInt8 8}
      {id initiatorUserId sourceAccountId destinationAccountId : String} {amount fee : Money} {narration : String} :
      fee.currency = amount.currency →
        Produced (.initiateInternal now bytes id initiatorUserId sourceAccountId destinationAccountId amount fee
          narration)
  | initiateExternal {now : Nat} {bytes : Vector UInt8 8} {id initiatorUserId sourceAccountId : String}
      {recipient : ExternalRecipient} {amount fee : Money} {narration : String} :
      fee.currency = amount.currency →
        Produced (.initiateExternal now bytes id initiatorUserId sourceAccountId recipient amount fee narration)
  | reconstitute {record : PrismaTransfer} {props : TransferProps} : record.toDomain = .ok props → Produced props
  | perform {now : Nat} {op : TransferOperation} {props props' : TransferProps} :
      Produced props → props.perform now op = .ok props' → Produced props'
  | pulled {props : TransferProps} : Produced props → Produced props.pulled

theorem toDomain_toPersistence {props : TransferProps} (h : props.fee.currency = props.amount.currency) :
    props.toPersistence.toDomain = .ok props.pulled := by
  unfold PrismaTransfer.toDomain
  rw [show props.toPersistence.toTransferRecord = TransferMapper.toPersistence props.toTransfer from rfl,
    TransferMapper.toDomain_toPersistence h]
  rfl

theorem Produced.sameCurrency {props : TransferProps} (h : Produced props) :
    props.fee.currency = props.amount.currency := by
  induction h with
  | initiateInternal hfee => exact hfee
  | initiateExternal hfee => exact hfee
  | @reconstitute record props h =>
    cases hload : TransferMapper.toDomain record.toTransferRecord with
    | error e =>
      rw [PrismaTransfer.toDomain, hload] at h
      cases h
    | ok transfer =>
      rw [PrismaTransfer.toDomain, hload] at h
      cases h
      have hloads := TransferMapper.toDomain_ok hload
      exact (congrArg Money.currency hloads.fee).trans (congrArg Money.currency hloads.amount).symm
  | @perform now op props props' _ h ih =>
    cases happly : op.apply props.toTransfer with
    | error e =>
      rw [TransferProps.perform, happly] at h
      cases h
    | ok transfer =>
      rw [TransferProps.perform, happly] at h
      cases h
      obtain ⟨hamount, hfee⟩ := TransferOperation.apply_keeps happly
      show transfer.fee.currency = transfer.amount.currency
      rw [hfee, hamount]
      exact ih
  | pulled _ ih => exact ih

end TransferProps

/-! ## Accounts -/

inductive AccountType where
  | WALLET | SAVINGS | CURRENT
deriving DecidableEq, Repr

structure AccountProps extends Account where
  accountType : AccountType
  createdAt : Nat
  updatedAt : Nat
deriving DecidableEq

structure PrismaAccount extends AccountRecord where
  accountType : AccountType
  createdAt : Nat
  updatedAt : Nat
deriving DecidableEq, Repr

def PrismaAccount.toDomain (record : PrismaAccount) : Except Err AccountProps := do
  let account ← AccountMapper.toDomain record.toAccountRecord
  return { account with
           accountType := record.accountType, createdAt := record.createdAt, updatedAt := record.updatedAt }

namespace AccountProps

def toPersistence (props : AccountProps) : PrismaAccount :=
  { AccountMapper.toPersistence props.toAccount with
    accountType := props.accountType, createdAt := props.createdAt, updatedAt := props.updatedAt }

/-- `Account.open`. -/
def opened (now : Nat) (id userId : String) (accountNumber : AccountNumber) (accountType : AccountType)
    (currency : Currency) : AccountProps :=
  { Account.opened id userId accountNumber currency with accountType, createdAt := now, updatedAt := now }

def perform (now : Nat) (op : AccountOperation) (props : AccountProps) : Except Err AccountProps := do
  let account ← op.apply props.toAccount
  return { props with toAccount := account, updatedAt := now }

def pulled (props : AccountProps) : AccountProps := { props with toAccount := props.toAccount.pullDomainEvents.2 }

inductive Produced : AccountProps → Prop where
  | opened {now : Nat} {id userId : String} {accountNumber : AccountNumber} {accountType : AccountType}
      {currency : Currency} : Produced (.opened now id userId accountNumber accountType currency)
  | reconstitute {record : PrismaAccount} {props : AccountProps} : record.toDomain = .ok props → Produced props
  | perform {now : Nat} {op : AccountOperation} {props props' : AccountProps} :
      Produced props → props.perform now op = .ok props' → Produced props'
  | pulled {props : AccountProps} : Produced props → Produced props.pulled

theorem toDomain_toPersistence {props : AccountProps} (h : props.balance.currency = props.currency) :
    props.toPersistence.toDomain = .ok props.pulled := by
  unfold PrismaAccount.toDomain
  rw [show props.toPersistence.toAccountRecord = AccountMapper.toPersistence props.toAccount from rfl,
    AccountMapper.toDomain_toPersistence h]
  rfl

theorem Produced.sameCurrency {props : AccountProps} (h : Produced props) :
    props.balance.currency = props.currency := by
  induction h with
  | opened => rfl
  | @reconstitute record props h =>
    cases hload : AccountMapper.toDomain record.toAccountRecord with
    | error e =>
      rw [PrismaAccount.toDomain, hload] at h
      cases h
    | ok account =>
      rw [PrismaAccount.toDomain, hload] at h
      cases h
      exact (AccountMapper.toDomain_ok hload).2.1
  | @perform now op props props' _ h ih =>
    cases happly : op.apply props.toAccount with
    | error e =>
      rw [AccountProps.perform, happly] at h
      cases h
    | ok account =>
      rw [AccountProps.perform, happly] at h
      cases h
      exact (AccountOperation.apply_keeps ih happly).2.2.1
  | pulled _ ih => exact ih

end AccountProps

/-! ## Users -/

namespace Identity

/-- The public mutators in their parts: `unlock` is what `assertCanAttemptLogin` does to a lock that has run out,
`recordFailedLogin` is `countFailedLogin` and then perhaps `lock`. -/
inductive UserOperation where
  | unlock (now : Nat)
  | recordSuccessfulLogin (loginAt now : Nat) (ipAddress userAgent : Option String)
  | countFailedLogin (now : Nat) (ipAddress : Option String)
  | lock (lockedUntil : Nat)
  | changePassword (newPasswordHash : HashedPassword) (now : Nat)

def UserOperation.apply : UserOperation → User → User
  | .unlock now, u => u.unlock now
  | .recordSuccessfulLogin loginAt now ipAddress userAgent, u => u.recordSuccessfulLogin loginAt now ipAddress userAgent
  | .countFailedLogin now ipAddress, u => u.countFailedLogin now ipAddress
  | .lock lockedUntil, u => u.lock lockedUntil
  | .changePassword newPasswordHash now, u => u.changePassword newPasswordHash now

/-- A `HashedPassword` in the arguments comes from `fromHash`. -/
def UserOperation.Hashed : UserOperation → Prop
  | .changePassword newPasswordHash _ => ∃ hash, HashedPassword.fromHash hash = .ok newPasswordHash
  | _ => True

namespace User

/-- After `pullDomainEvents`. -/
def pulled (u : User) : User := { u with domainEvents := [] }

inductive Produced (services : Services) : User → Prop where
  | register {now : Nat} {id rawEmail rawNumber hash firstName lastName : String} {email : Email}
      {phoneNumber : PhoneNumber} {passwordHash : HashedPassword} {role : Option UserRole} :
      Email.create services rawEmail = .ok email → PhoneNumber.create rawNumber = .ok phoneNumber →
        HashedPassword.fromHash hash = .ok passwordHash →
          Produced services (register now id email phoneNumber passwordHash firstName lastName role)
  | reconstitute {record : UserRecord} {u : User} : UserMapper.toDomain services record = .ok u → Produced services u
  | perform {op : UserOperation} {u : User} : Produced services u → op.Hashed → Produced services (op.apply u)
  | pulled {u : User} : Produced services u → Produced services u.pulled

/-- Its value objects come from their constructors. -/
structure Created (services : Services) (u : User) : Prop where
  email : ∃ rawEmail, Email.create services rawEmail = .ok u.email
  phoneNumber : ∃ rawNumber, PhoneNumber.create rawNumber = .ok u.phoneNumber
  passwordHash : ∃ hash, HashedPassword.fromHash hash = .ok u.passwordHash

section
variable {services : Services} {u : User}

theorem created_of_toDomain {record : UserRecord} (h : UserMapper.toDomain services record = .ok u) :
    Created services u := by
  unfold UserMapper.toDomain at h
  cases hemail : Email.create services record.email with
  | error e => simp [hemail, bind, Except.bind] at h
  | ok email =>
    cases hphone : PhoneNumber.create record.phoneNumber with
    | error e => simp [hemail, hphone, bind, Except.bind] at h
    | ok phoneNumber =>
      cases hhash : HashedPassword.fromHash record.passwordHash with
      | error e => simp [hemail, hphone, hhash, bind, Except.bind] at h
      | ok passwordHash =>
        simp only [hemail, hphone, hhash, bind, Except.bind, pure, Except.pure, Except.ok.injEq] at h
        subst h
        exact ⟨⟨_, hemail⟩, ⟨_, hphone⟩, ⟨_, hhash⟩⟩

theorem Produced.created (h : Produced services u) : Created services u := by
  induction h with
  | register hemail hphone hhash => exact ⟨⟨_, hemail⟩, ⟨_, hphone⟩, ⟨_, hhash⟩⟩
  | reconstitute h => exact created_of_toDomain h
  | @perform op u _ hhashed ih =>
    cases op with
    | changePassword newPasswordHash now => exact ⟨ih.email, ih.phoneNumber, hhashed⟩
    | unlock | recordSuccessfulLogin | countFailedLogin | lock => exact ⟨ih.email, ih.phoneNumber, ih.passwordHash⟩
  | pulled _ ih => exact ⟨ih.email, ih.phoneNumber, ih.passwordHash⟩

theorem toDomain_toPersistence
    (hlower : ∀ s, services.toLowerCase (services.toLowerCase s) = services.toLowerCase s)
    (h : Created services u) : UserMapper.toDomain services (UserMapper.toPersistence u) = .ok u.pulled := by
  obtain ⟨⟨rawEmail, hemail⟩, ⟨rawNumber, hphone⟩, ⟨hash, hhash⟩⟩ := h
  have hemail : Email.create services (UserMapper.toPersistence u).email = .ok u.email :=
    Email.rereads hlower rawEmail u.email hemail
  have hphone : PhoneNumber.create (UserMapper.toPersistence u).phoneNumber = .ok u.phoneNumber :=
    PhoneNumber.rereads rawNumber u.phoneNumber hphone
  have hhash : HashedPassword.fromHash (UserMapper.toPersistence u).passwordHash = .ok u.passwordHash :=
    HashedPassword.rereads hash u.passwordHash hhash
  unfold UserMapper.toDomain
  rw [hemail, hphone, hhash]
  rfl

end

end User

end Identity

/-! ## All three -/

/-- **Whatever the constructors and mutators make, its row loads, and loads as the same.** -/
theorem written_rows_load {services : Identity.Services}
    (hlower : ∀ s, services.toLowerCase (services.toLowerCase s) = services.toLowerCase s) :
    (∀ transfer : TransferProps, transfer.Produced → transfer.toPersistence.toDomain = .ok transfer.pulled) ∧
      (∀ account : AccountProps, account.Produced → account.toPersistence.toDomain = .ok account.pulled) ∧
      ∀ user : Identity.User, user.Produced services →
        Identity.UserMapper.toDomain services (Identity.UserMapper.toPersistence user) = .ok user.pulled := by
  refine ⟨fun transfer h => ?_, fun account h => ?_, fun user h => ?_⟩
  · exact TransferProps.toDomain_toPersistence h.sameCurrency
  · exact AccountProps.toDomain_toPersistence h.sameCurrency
  · exact Identity.User.toDomain_toPersistence hlower h.created

/-! ### One of each -/

theorem toLower_toLower (c : Char) : c.toLower.toLower = c.toLower := by
  by_cases hupper : 65 ≤ c.toNat ∧ c.toNat ≤ 90
  · have hall : ∀ n < 91, 65 ≤ n → (Char.ofNat n).toLower.toLower = (Char.ofNat n).toLower := by decide
    have hc := hall c.toNat (Nat.lt_succ_of_le hupper.2) hupper.1
    rwa [Char.ofNat_toNat] at hc
  · have hself : c.toLower = c := dif_neg fun h => hupper ⟨h.1, h.2⟩
    rw [hself, hself]

/-- With the lower case of ASCII. -/
def sampleLower : Identity.Services :=
  ⟨fun raw => raw, fun plainText hash => hash == plainText, fun s => String.ofList (s.toList.map Char.toLower)⟩

theorem sampleLower_lowers (s : String) :
    sampleLower.toLowerCase (sampleLower.toLowerCase s) = sampleLower.toLowerCase s := by
  have htwice : Char.toLower ∘ Char.toLower = Char.toLower := funext toLower_toLower
  simp [sampleLower, htwice]

def sampleRegistered : Identity.User :=
  .register 0 "user" ⟨"ada@bank.ng"⟩ ⟨"+2348035550101"⟩ ⟨"#secret"⟩ "Ada" "Obi" none

theorem sampleRegistered_produced : sampleRegistered.Produced sampleLower :=
  have hemail : Identity.Email.create sampleLower " Ada@Bank.NG " = .ok ⟨"ada@bank.ng"⟩ := by decide
  have hphone : Identity.PhoneNumber.create "+234 803-555 0101" = .ok ⟨"+2348035550101"⟩ := by decide
  .register hemail hphone (show Identity.HashedPassword.fromHash "#secret" = .ok ⟨"#secret"⟩ from rfl)

/-- To a recipient without a name. -/
def sampleSent : TransferProps :=
  .initiateExternal 0 (.replicate 8 0xA5) "transfer" "user" "acc" ⟨"044", "0123456789", none, by decide, by decide⟩
    ⟨500000, .NGN⟩ ⟨2500, .NGN⟩ "rent"

def sampleOpened : AccountProps := .opened 0 "acc" "user" sampleNumber .WALLET .NGN

theorem written_rows_load_sample : sampleSent.toPersistence.toDomain = .ok sampleSent.pulled ∧
    sampleOpened.toPersistence.toDomain = .ok sampleOpened.pulled ∧
    Identity.UserMapper.toDomain sampleLower (Identity.UserMapper.toPersistence sampleRegistered) =
      .ok sampleRegistered.pulled := by
  obtain ⟨htransfers, haccounts, husers⟩ := written_rows_load sampleLower_lowers
  exact ⟨htransfers sampleSent (.initiateExternal rfl), haccounts sampleOpened .opened,
    husers sampleRegistered sampleRegistered_produced⟩

end Kudi
