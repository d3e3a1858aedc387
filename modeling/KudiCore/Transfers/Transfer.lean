import KudiCore.Shared.Money

/-!
# The `Transfer` aggregate

| here | there |
| --- | --- |
| `TransactionStatus` | `shared/enums/transaction-status.enum.ts` |
| `TransferReference` | `modules/transfers/domain/value-objects/transfer-reference.vo.ts` |
| `ExternalRecipient` | `modules/transfers/domain/value-objects/external-recipient.vo.ts` |
| `Transfer` | `modules/transfers/domain/entities/transfer.entity.ts` (`updatedAt` is never read and is left out) |
| `TransferEvent` | `modules/transfers/domain/events/*.ts` |
| `TransferRecord` | `model Transfer` in `schema.prisma`, the same columns |
| `TransferMapper` | `modules/transfers/infrastructure/mappers/transfer.mapper.ts` |
| `TransferResponseDto` | `modules/transfers/application/dto/transfer-response.dto.ts`, its two timestamps left out |
-/

namespace Kudi

inductive TransactionStatus where
  | PENDING | PROCESSING | SUCCESSFUL | FAILED | REVERSED | CANCELLED
deriving DecidableEq, Repr

def TransactionStatus.value : TransactionStatus → String
  | .PENDING => "PENDING"
  | .PROCESSING => "PROCESSING"
  | .SUCCESSFUL => "SUCCESSFUL"
  | .FAILED => "FAILED"
  | .REVERSED => "REVERSED"
  | .CANCELLED => "CANCELLED"

/-- `TERMINAL_STATUSES` (transfer.entity.ts:14, confirm-external-transfer.handler.ts:24). -/
def TransactionStatus.isTerminal : TransactionStatus → Bool
  | .SUCCESSFUL | .FAILED | .REVERSED | .CANCELLED => true
  | .PENDING | .PROCESSING => false

inductive TransferType where
  | INTERNAL | EXTERNAL
deriving DecidableEq, Repr

/-! ## Exceptions -/

def invalidTransferState (transferId : String) (status : TransactionStatus) (attemptedAction : String) : Err :=
  .exception "InvalidTransferStateException"
    s!"Cannot {attemptedAction} transfer {transferId}: it is already {status.value}" "INVALID_TRANSFER_STATE"

def payoutProviderException (providerMessage : String) : Err :=
  .exception "PayoutProviderException" s!"Payout provider rejected the transfer: {providerMessage}"
    "PAYOUT_PROVIDER_ERROR"

def selfTransferNotAllowed : Err :=
  .exception "SelfTransferNotAllowedException" "Source and destination accounts cannot be the same"
    "SELF_TRANSFER_NOT_ALLOWED"

def transferNotFound (identifier : String) : Err :=
  .exception "TransferNotFoundException" s!"Transfer not found: {identifier}" "TRANSFER_NOT_FOUND"

def unauthorizedTransfer : Err :=
  .exception "UnauthorizedTransferException" "You may only initiate transfers from accounts you own"
    "UNAUTHORIZED_TRANSFER"

/-! ## Value objects -/

/-- `/^KUDI-[A-Z0-9]{16}$/`. -/
def isTransferReference (s : String) : Bool :=
  s.toList.take 5 == ['K', 'U', 'D', 'I', '-'] && (s.toList.drop 5).length == 16 &&
    (s.toList.drop 5).all fun c => isDigit c || ('A' ≤ c && c ≤ 'Z')

structure TransferReference where
  value : String
  valid : isTransferReference value = true
deriving DecidableEq

def TransferReference.create (rawReference : String) : Except Err TransferReference :=
  if h : isTransferReference rawReference = true then .ok ⟨rawReference, h⟩
  else .error (domainException s!"Invalid transfer reference: {rawReference}" "INVALID_TRANSFER_REFERENCE")

theorem TransferReference.create_value (r : TransferReference) : TransferReference.create r.value = .ok r := by
  simp [create, r.valid]

/-- `/^\d{n}$/`. -/
def isDigits (n : Nat) (s : String) : Bool := s.toList.length == n && s.toList.all isDigit

theorem isDigits_ne_empty {n : Nat} {s : String} (h : isDigits (n + 1) s = true) : s ≠ "" := by
  rintro rfl
  simp [isDigits] at h

structure ExternalRecipient where
  bankCode : String
  accountNumber : String
  accountName : Option String
  bankCodeValid : isDigits 3 bankCode = true
  accountNumberValid : isDigits 10 accountNumber = true
deriving DecidableEq

def ExternalRecipient.create (bankCode accountNumber : String) (accountName : Option String) :
    Except Err ExternalRecipient :=
  if hb : isDigits 3 bankCode = true then
    if ha : isDigits 10 accountNumber = true then .ok ⟨bankCode, accountNumber, accountName, hb, ha⟩
    else .error (domainException
      s!"Invalid recipient account number, expected 10 digits: {accountNumber}"
      "INVALID_RECIPIENT_ACCOUNT_NUMBER")
  else .error (domainException s!"Invalid bank code, expected 3 digits: {bankCode}" "INVALID_BANK_CODE")

theorem ExternalRecipient.create_value (r : ExternalRecipient) :
    ExternalRecipient.create r.bankCode r.accountNumber r.accountName = .ok r := by
  simp [create, r.bankCodeValid, r.accountNumberValid]

/-! ## The aggregate -/

inductive TransferEvent where
  | initiated (transferId reference : String) (type : TransferType) (sourceAccountId : String) (amount : Money)
  | completed (transferId reference : String)
  | failed (transferId reference reason : String)
  | reversed (transferId reference : String)
deriving DecidableEq, Repr

structure Transfer where
  id : String
  reference : TransferReference
  type : TransferType
  initiatorUserId : String
  sourceAccountId : String
  destinationAccountId : Option String
  externalRecipient : Option ExternalRecipient
  amount : Money
  fee : Money
  narration : String
  status : TransactionStatus
  failureReason : Option String
  providerReference : Option String
  version : Nat
  createdAt : Nat
  domainEvents : List TransferEvent
deriving DecidableEq

namespace Transfer

/-- `initiateInternal` and `initiateExternal` differ in the type and in which end is set; `now`,
`reference` and `id` are the clock and the two random values they draw. -/
def initiate (type : TransferType) (now : Nat) (reference : TransferReference)
    (id initiatorUserId sourceAccountId : String) (destinationAccountId : Option String)
    (externalRecipient : Option ExternalRecipient) (amount fee : Money) (narration : String) : Transfer :=
  { id, reference, type, initiatorUserId, sourceAccountId, destinationAccountId, externalRecipient, amount,
    fee, narration, status := .PENDING, failureReason := none, providerReference := none, version := 0,
    createdAt := now, domainEvents := [.initiated id reference.value type sourceAccountId amount] }

def initiateInternal (now : Nat) (reference : TransferReference)
    (id initiatorUserId sourceAccountId destinationAccountId : String) (amount fee : Money)
    (narration : String) : Transfer :=
  initiate .INTERNAL now reference id initiatorUserId sourceAccountId (some destinationAccountId) none amount
    fee narration

def initiateExternal (now : Nat) (reference : TransferReference) (id initiatorUserId sourceAccountId : String)
    (recipient : ExternalRecipient) (amount fee : Money) (narration : String) : Transfer :=
  initiate .EXTERNAL now reference id initiatorUserId sourceAccountId none (some recipient) amount fee narration

def touch (t : Transfer) : Transfer := { t with version := t.version + 1 }

def addDomainEvent (t : Transfer) (e : TransferEvent) : Transfer :=
  { t with domainEvents := t.domainEvents ++ [e] }

def pullDomainEvents (t : Transfer) : List TransferEvent × Transfer :=
  (t.domainEvents, { t with domainEvents := [] })

def assertNotTerminal (t : Transfer) (attemptedAction : String) : Except Err Unit :=
  if t.status.isTerminal then .error (invalidTransferState t.id t.status attemptedAction) else .ok ()

def markProcessing (t : Transfer) (providerReference : String) : Except Err Transfer := do
  t.assertNotTerminal "mark as processing"
  let t := { t with status := .PROCESSING }
  let t := if providerReference = "" then t else { t with providerReference := some providerReference }
  return t.touch

def markSuccessful (t : Transfer) : Except Err Transfer := do
  t.assertNotTerminal "mark as successful"
  return ({ t with status := .SUCCESSFUL }.touch).addDomainEvent (.completed t.id t.reference.value)

def markFailed (t : Transfer) (reason : String) : Except Err Transfer := do
  t.assertNotTerminal "mark as failed"
  return ({ t with status := .FAILED, failureReason := some reason }.touch).addDomainEvent
    (.failed t.id t.reference.value reason)

def markReversed (t : Transfer) (reason : String) : Except Err Transfer := do
  t.assertNotTerminal "mark as reversed"
  return ({ t with status := .REVERSED, failureReason := some reason }.touch).addDomainEvent
    (.reversed t.id t.reference.value)

variable {t t' : Transfer} {reason : String}

theorem assertNotTerminal_of (h : t.status.isTerminal = false) (action : String) :
    t.assertNotTerminal action = .ok () := by
  simp [assertNotTerminal, h]

theorem markSuccessful_of (h : t.status.isTerminal = false) : t.markSuccessful =
    .ok { t with
      status := .SUCCESSFUL
      version := t.version + 1
      domainEvents := t.domainEvents ++ [.completed t.id t.reference.value] } := by
  simp [markSuccessful, assertNotTerminal_of h, touch, addDomainEvent, bind, Except.bind, pure, Except.pure]

theorem markReversed_of (h : t.status.isTerminal = false) (reason : String) : t.markReversed reason =
    .ok { t with
      status := .REVERSED
      failureReason := some reason
      version := t.version + 1
      domainEvents := t.domainEvents ++ [.reversed t.id t.reference.value] } := by
  simp [markReversed, assertNotTerminal_of h, touch, addDomainEvent, bind, Except.bind, pure, Except.pure]

theorem markProcessing_of (h : t.status.isTerminal = false) (providerReference : String) :
    t.markProcessing providerReference =
      .ok { t with
        status := .PROCESSING
        providerReference := if providerReference = "" then t.providerReference else some providerReference
        version := t.version + 1 } := by
  by_cases hp : providerReference = "" <;>
    simp [markProcessing, assertNotTerminal_of h, touch, bind, Except.bind, pure, Except.pure, hp]

theorem markReversed_terminal (h : t.status.isTerminal = true) (reason : String) :
    t.markReversed reason = .error (invalidTransferState t.id t.status "mark as reversed") := by
  simp [markReversed, assertNotTerminal, h, bind, Except.bind]

theorem markReversed_ok (h : t.markReversed reason = .ok t') :
    t.status.isTerminal = false ∧ t'.id = t.id ∧ t'.version = t.version + 1 ∧
      t'.providerReference = t.providerReference ∧ t'.status = .REVERSED := by
  by_cases hopen : t.status.isTerminal = false
  · rw [markReversed_of hopen] at h
    cases h
    exact ⟨hopen, rfl, rfl, rfl, rfl⟩
  · rw [markReversed_terminal (by simpa using hopen)] at h
    cases h

theorem markFailed_of (h : t.status.isTerminal = false) (reason : String) : t.markFailed reason =
    .ok { t with
      status := .FAILED
      failureReason := some reason
      version := t.version + 1
      domainEvents := t.domainEvents ++ [.failed t.id t.reference.value reason] } := by
  simp [markFailed, assertNotTerminal_of h, touch, addDomainEvent, bind, Except.bind, pure, Except.pure]

end Transfer

/-! ## Rows -/

structure TransferRecord where
  id : String
  reference : String
  type : TransferType
  initiatorUserId : String
  sourceAccountId : String
  destinationAccountId : Option String
  recipientBankCode : Option String
  recipientAccountNumber : Option String
  recipientAccountName : Option String
  amountMinorUnits : Int
  feeMinorUnits : Int
  currency : Currency
  narration : String
  status : TransactionStatus
  failureReason : Option String
  providerReference : Option String
  version : Nat
  createdAt : Nat
deriving DecidableEq, Repr

namespace TransferMapper

/-- A column that is set and not the empty string. -/
def truthy : Option String → Option String
  | some "" => none
  | x => x

def recipientOf (record : TransferRecord) : Except Err (Option ExternalRecipient) :=
  match truthy record.recipientBankCode, truthy record.recipientAccountNumber with
  | some bankCode, some accountNumber =>
    (ExternalRecipient.create bankCode accountNumber record.recipientAccountName).map some
  | _, _ => .ok none

def toDomain (record : TransferRecord) : Except Err Transfer := do
  let externalRecipient ← recipientOf record
  let reference ← TransferReference.create record.reference
  let amount ← Money.fromMinorUnits record.amountMinorUnits record.currency
  let fee ← Money.fromMinorUnits record.feeMinorUnits record.currency
  return { id := record.id, reference, type := record.type, initiatorUserId := record.initiatorUserId,
           sourceAccountId := record.sourceAccountId, destinationAccountId := record.destinationAccountId,
           externalRecipient, amount, fee, narration := record.narration, status := record.status,
           failureReason := record.failureReason, providerReference := record.providerReference,
           version := record.version, createdAt := record.createdAt, domainEvents := [] }

def toPersistence (transfer : Transfer) : TransferRecord :=
  { id := transfer.id, reference := transfer.reference.value, type := transfer.type,
    initiatorUserId := transfer.initiatorUserId, sourceAccountId := transfer.sourceAccountId,
    destinationAccountId := transfer.destinationAccountId,
    recipientBankCode := transfer.externalRecipient.map (·.bankCode),
    recipientAccountNumber := transfer.externalRecipient.map (·.accountNumber),
    recipientAccountName := transfer.externalRecipient.bind (·.accountName),
    amountMinorUnits := transfer.amount.minorUnits, feeMinorUnits := transfer.fee.minorUnits,
    currency := transfer.amount.currency, narration := transfer.narration, status := transfer.status,
    failureReason := transfer.failureReason, providerReference := transfer.providerReference,
    version := transfer.version, createdAt := transfer.createdAt }

/-- What a loaded aggregate shares with its row. -/
structure Loads (r : TransferRecord) (t : Transfer) : Prop where
  id : t.id = r.id
  reference : t.reference.value = r.reference
  sourceAccountId : t.sourceAccountId = r.sourceAccountId
  amount : t.amount = ⟨r.amountMinorUnits.toNat, r.currency⟩
  fee : t.fee = ⟨r.feeMinorUnits.toNat, r.currency⟩
  status : t.status = r.status
  providerReference : t.providerReference = r.providerReference
  version : t.version = r.version
  domainEvents : t.domainEvents = []

theorem toDomain_ok {r : TransferRecord} {t : Transfer} (h : toDomain r = .ok t) : Loads r t := by
  unfold toDomain at h
  cases hr : recipientOf r with
  | error e => simp [hr, bind, Except.bind] at h
  | ok rec =>
    cases hf : TransferReference.create r.reference with
    | error e => simp [hr, hf, bind, Except.bind] at h
    | ok ref =>
      cases ha : Money.fromMinorUnits r.amountMinorUnits r.currency with
      | error e => simp [hr, hf, ha, bind, Except.bind] at h
      | ok amount =>
        cases hfee : Money.fromMinorUnits r.feeMinorUnits r.currency with
        | error e => simp [hr, hf, ha, hfee, bind, Except.bind] at h
        | ok fee =>
          simp only [hr, hf, ha, hfee, bind, Except.bind, pure, Except.pure, Except.ok.injEq] at h
          subst h
          have href : ref.value = r.reference := by
            unfold TransferReference.create at hf
            split at hf
            · simp only [Except.ok.injEq] at hf
              exact hf ▸ rfl
            · cases hf
          exact ⟨rfl, href, rfl, (Money.fromMinorUnits_ok.1 ha).2, (Money.fromMinorUnits_ok.1 hfee).2, rfl,
            rfl, rfl, rfl⟩

theorem toDomain_type {r : TransferRecord} {t : Transfer} (h : toDomain r = .ok t) : t.type = r.type := by
  unfold toDomain at h
  cases hr : recipientOf r with
  | error e => simp [hr, bind, Except.bind] at h
  | ok rec =>
    cases hf : TransferReference.create r.reference with
    | error e => simp [hr, hf, bind, Except.bind] at h
    | ok ref =>
      cases ha : Money.fromMinorUnits r.amountMinorUnits r.currency with
      | error e => simp [hr, hf, ha, bind, Except.bind] at h
      | ok amount =>
        cases hfee : Money.fromMinorUnits r.feeMinorUnits r.currency with
        | error e => simp [hr, hf, ha, hfee, bind, Except.bind] at h
        | ok fee =>
          simp only [hr, hf, ha, hfee, bind, Except.bind, pure, Except.pure, Except.ok.injEq] at h
          exact h ▸ rfl

/-- A row that loads has no negative amounts. -/
theorem toDomain_amounts {r : TransferRecord} {t : Transfer} (h : toDomain r = .ok t) :
    (t.amount.minorUnits : Int) = r.amountMinorUnits ∧ (t.fee.minorUnits : Int) = r.feeMinorUnits := by
  unfold toDomain at h
  cases hr : recipientOf r with
  | error e => simp [hr, bind, Except.bind] at h
  | ok rec =>
    cases hf : TransferReference.create r.reference with
    | error e => simp [hr, hf, bind, Except.bind] at h
    | ok ref =>
      cases ha : Money.fromMinorUnits r.amountMinorUnits r.currency with
      | error e => simp [hr, hf, ha, bind, Except.bind] at h
      | ok amount =>
        cases hfee : Money.fromMinorUnits r.feeMinorUnits r.currency with
        | error e => simp [hr, hf, ha, hfee, bind, Except.bind] at h
        | ok fee =>
          simp only [hr, hf, ha, hfee, bind, Except.bind, pure, Except.pure, Except.ok.injEq] at h
          obtain ⟨hn, rfl⟩ := Money.fromMinorUnits_ok.1 ha
          obtain ⟨hn', rfl⟩ := Money.fromMinorUnits_ok.1 hfee
          subst h
          exact ⟨Int.toNat_of_nonneg hn, Int.toNat_of_nonneg hn'⟩

/-- The three columns of a recipient make the recipient again, and no columns none. -/
theorem recipientOf_written {record : TransferRecord} {recipient : Option ExternalRecipient}
    (hbank : record.recipientBankCode = recipient.map (·.bankCode))
    (hnumber : record.recipientAccountNumber = recipient.map (·.accountNumber))
    (hname : record.recipientAccountName = recipient.bind (·.accountName)) : recipientOf record = .ok recipient := by
  unfold recipientOf
  rw [hbank, hnumber, hname]
  cases recipient with
  | none => rfl
  | some recipient =>
    have hb := isDigits_ne_empty recipient.bankCodeValid
    have ha := isDigits_ne_empty recipient.accountNumberValid
    simp [truthy, hb, ha, ExternalRecipient.create_value, Except.map]

/-- A saved aggregate loads again as itself, its events apart. -/
theorem toDomain_toPersistence {t : Transfer} (h : t.fee.currency = t.amount.currency) :
    toDomain (toPersistence t) = .ok { t with domainEvents := [] } := by
  have hrecipient : recipientOf (toPersistence t) = .ok t.externalRecipient := recipientOf_written rfl rfl rfl
  have hreference : TransferReference.create (toPersistence t).reference = .ok t.reference := t.reference.create_value
  have hamount : Money.fromMinorUnits (toPersistence t).amountMinorUnits (toPersistence t).currency = .ok t.amount :=
    Money.fromMinorUnits_cast ..
  have hfee : Money.fromMinorUnits (toPersistence t).feeMinorUnits (toPersistence t).currency = .ok t.fee := by
    rw [toPersistence, ← h]
    exact Money.fromMinorUnits_cast ..
  unfold toDomain
  rw [hrecipient, hreference, hamount, hfee]
  rfl

end TransferMapper

/-! ## The response -/

structure TransferResponseDto where
  id : String
  reference : String
  type : TransferType
  sourceAccountId : String
  destinationAccountId : Option String
  recipientBankCode : Option String
  recipientAccountNumber : Option String
  amount : String
  fee : String
  currency : Currency
  narration : String
  status : TransactionStatus
  failureReason : Option String
deriving DecidableEq, Repr

def TransferResponseDto.fromDomain (transfer : Transfer) : TransferResponseDto :=
  { id := transfer.id, reference := transfer.reference.value, type := transfer.type,
    sourceAccountId := transfer.sourceAccountId, destinationAccountId := transfer.destinationAccountId,
    recipientBankCode := transfer.externalRecipient.map (·.bankCode),
    recipientAccountNumber := transfer.externalRecipient.map (·.accountNumber),
    amount := transfer.amount.toMajorUnitsString, fee := transfer.fee.toMajorUnitsString,
    currency := transfer.amount.currency, narration := transfer.narration, status := transfer.status,
    failureReason := transfer.failureReason }

end Kudi
