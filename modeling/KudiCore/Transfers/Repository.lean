import KudiCore.Accounts.Handlers
import KudiCore.Ledger.Recorder

/-!
# Storage, fees and the payout provider of the transfers module

| here | there |
| --- | --- |
| `PrismaTransferRepository` | `modules/transfers/infrastructure/persistence/prisma-transfer.repository.ts` |
| `FlatRateFeeCalculator` | `modules/transfers/infrastructure/services/flat-rate-fee-calculator.service.ts` |
| `FlutterwavePayoutProvider` | `modules/transfers/infrastructure/services/flutterwave-payout-provider.service.ts` |
| `draw` | the clock and the random values that `Transfer.initiateInternal` and `initiateExternal` start with |

With the provider goes `integrations/payment-gateway/flutterwave/transfers/flutterwave-transfer.mapper.ts`.
-/

namespace Kudi

open Interleave

namespace PrismaTransferRepository

/-- `record ? TransferMapper.toDomain(record) : null`. -/
def toDomainOrNull : Option TransferRecord → Handler (Option Transfer)
  | none => return none
  | some record => return some (← Prog.ofExcept (TransferMapper.toDomain record))

def findById (id : String) : Handler (Option Transfer) := do
  toDomainOrNull (← Prog.await (Op.transfer .prisma (.findUnique id)))

def findByProviderReference (providerReference : String) : Handler (Option Transfer) := do
  toDomainOrNull (← Prog.await (Op.transfer .prisma (.findFirst providerReference)))

/-- `save`: a zero-match update of a row that does not exist is a first-time create. -/
def save (transfer : Transfer) : Handler Unit :=
  let data := TransferMapper.toPersistence transfer
  if transfer.version = 0 then Prog.await (Op.transfer .prisma (.create data))
  else do
    let count ← Prog.await (Op.transfer .prisma (.updateMany (data.version - 1) data))
    if count = 0 then do
      let existing ← Prog.await (Op.transfer .prisma (.findUnique data.id))
      match existing with
      | none => Prog.await (Op.transfer .prisma (.create data))
      | some _ => Prog.throw (concurrentModification "Transfer" data.id)
    else return ()

end PrismaTransferRepository

/-- The external schedule's fee: ₦10 up to ₦5,000, ₦25 up to ₦50,000, ₦50 above. -/
def FlatRateFeeCalculator.calculate (amount : Money) (transferType : TransferType) : Except Err Money :=
  if transferType = .INTERNAL then .ok (Money.zero amount.currency)
  else if amount.minorUnits ≤ 5000 * 100 then Money.fromDecimalString "10.00" amount.currency
  else if amount.minorUnits ≤ 50000 * 100 then Money.fromDecimalString "25.00" amount.currency
  else Money.fromDecimalString "50.00" amount.currency

structure PayoutInitiationResult where
  providerReference : String
  isImmediatelySettled : Bool
deriving DecidableEq, Repr

def FlutterwavePayoutProvider.initiatePayout (reference : String) (recipient : ExternalRecipient) (amount : Money)
    (narration : String) : Handler PayoutInitiationResult := do
  let response ← Prog.await (Op.payout
    { bankCode := recipient.bankCode, accountNumber := recipient.accountNumber,
      amountMajorUnits := amount.toMajorUnitsString, currency := amount.currency, reference, narration })
  match response.success, response.data with
  | true, some data => return ⟨toString data.id, data.status = .SUCCESSFUL⟩
  | _, _ => Prog.throw (payoutProviderException response.message)

/-- `new Date()`, `randomUUID()`, `TransferReference.generate()`. -/
def draw {α : Type} (initiate : Nat → TransferReference → String → α) : Handler α := do
  let now ← Prog.await Op.dateNow
  let id ← Prog.await Op.randomUUID
  let reference ← Prog.await Op.generateReference
  return initiate now reference id

/-! ## The calls made -/

section
variable {T : Op → Prop}

theorem PrismaTransferRepository.toDomainOrNull_calls (record : Option TransferRecord) :
    (toDomainOrNull record).Calls T := by
  cases record with
  | none => trivial
  | some record => exact .bind (.ofExcept _) fun _ => trivial

theorem PrismaTransferRepository.findById_calls (h : ∀ id, T (.transfer .prisma (.findUnique id))) (id : String) :
    (findById id).Calls T := .bind (.await (h _)) toDomainOrNull_calls

theorem PrismaTransferRepository.findByProviderReference_calls (h : ∀ q, T (.transfer .prisma q))
    (providerReference : String) : (findByProviderReference providerReference).Calls T :=
  .bind (.await (h _)) toDomainOrNull_calls

theorem PrismaTransferRepository.save_calls (h : ∀ q, T (.transfer .prisma q)) (transfer : Transfer) :
    (save transfer).Calls T := by
  unfold save
  split
  · exact .await (h _)
  · refine .bind (.await (h _)) fun count => ?_
    split
    · refine .bind (.await (h _)) fun existing => ?_
      cases existing with
      | none => exact .await (h _)
      | some r => trivial
    · trivial

theorem FlutterwavePayoutProvider.initiatePayout_calls (h : ∀ r, T (.payout r)) (reference : String)
    (recipient : ExternalRecipient) (amount : Money) (narration : String) :
    (initiatePayout reference recipient amount narration).Calls T :=
  .bind (.await (h _)) fun response => by
    split <;> trivial

theorem draw_calls {α : Type} (hn : T .dateNow) (hu : T .randomUUID) (hr : T .generateReference)
    (initiate : Nat → TransferReference → String → α) : (draw initiate).Calls T :=
  .bind (.await hn) fun _ => .bind (.await hu) fun _ => .bind (.await hr) fun _ => trivial

theorem draw_unfailing {α : Type} (initiate : Nat → TransferReference → String → α) :
    (draw initiate).Unfailing :=
  .bind (.await _) fun _ => .bind (.await _) fun _ => .bind (.await _) fun _ => trivial

theorem draw_returns {α : Type} (initiate : Nat → TransferReference → String → α) :
    (draw initiate).Returns fun a => ∃ now reference id, a = initiate now reference id :=
  .bind (Prog.returns_true _) fun now _ => .bind (Prog.returns_true _) fun id _ =>
    .bind (Prog.returns_true _) fun reference _ => ⟨now, reference, id, rfl⟩

end

end Kudi
