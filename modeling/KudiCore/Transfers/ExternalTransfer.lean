import KudiCore.Transfers.InternalExecutor

/-!
# External transfers

| here | there |
| --- | --- |
| `InitiateExternalTransferHandler` | `modules/transfers/application/commands/initiate-external-transfer` |
| `ConfirmExternalTransferHandler` | `modules/transfers/application/commands/confirm-external-transfer` |

A saga: the hold, the transfer row and the clearing journal are three separate writes, then the
payout is attempted, and what fails from there on is compensated. The `catch` reads `transfer` as
far as the `try` block got with it.
-/

namespace Kudi

open Interleave

/-- Every posting of both handlers. -/
def postTransferJournal (transfer : Transfer) (narration : String) (legs : List LedgerPostingLeg) : Handler Unit :=
  PrismaLedgerRecorderService.post
    { reference := transfer.reference.value, narration, userId := transfer.initiatorUserId,
      entryType := .TRANSFER, legs } .prisma

/-- The compensating credit, its save and its journal; the events recorded on the account. A source
account that cannot be found is logged and passed over. -/
def compensate (transfer : Transfer) (totalDebit : Except Err Money) (narration : String) :
    Handler (List AccountEvent) := do
  let refreshedSource ← PrismaAccountRepository.findById transfer.sourceAccountId
  match refreshedSource with
  | none => return []
  | some refreshedSource =>
    let totalDebit ← Prog.ofExcept totalDebit
    let refreshedSource ←
      Prog.ofExcept (refreshedSource.credit totalDebit s!"reversal:{transfer.reference.value}")
    PrismaAccountRepository.save refreshedSource
    postTransferJournal transfer narration
      (reversalLegs refreshedSource.id refreshedSource.balance totalDebit)
    return refreshedSource.domainEvents

structure InitiateExternalTransferCommand where
  initiatorUserId : String
  sourceAccountId : String
  bankCode : String
  recipientAccountNumber : String
  recipientAccountName : String
  amount : String
  narration : String
  idempotencyKey : Option String

namespace InitiateExternalTransferHandler

/-- Up to the saved hold (Step 1): the debited account, the recipient, amount, fee and total. -/
def hold (command : InitiateExternalTransferCommand) :
    Handler (Account × ExternalRecipient × Money × Money × Money) := do
  let sourceAccount ← PrismaAccountRepository.findById command.sourceAccountId
  match sourceAccount with
  | none => Prog.throw (accountNotFound command.sourceAccountId)
  | some sourceAccount =>
    if sourceAccount.userId ≠ command.initiatorUserId then Prog.throw unauthorizedTransfer
    else do
      let amount ← Prog.ofExcept (Money.fromDecimalString command.amount sourceAccount.currency)
      KycTransferLimitCheckerService.assertWithinLimits command.initiatorUserId command.sourceAccountId amount
      let fee ← Prog.ofExcept (FlatRateFeeCalculator.calculate amount .EXTERNAL)
      let totalDebit ← Prog.ofExcept (amount.add fee)
      let recipient ← Prog.ofExcept
        (ExternalRecipient.create command.bankCode command.recipientAccountNumber
          (some command.recipientAccountName))
      let sourceAccount ← Prog.ofExcept
        (sourceAccount.debit totalDebit s!"pending-external-payout:{command.recipientAccountNumber}")
      PrismaAccountRepository.save sourceAccount
      return (sourceAccount, recipient, amount, fee, totalDebit)

/-- Step 2: the PENDING row and the clearing journal. -/
def record (command : InitiateExternalTransferCommand) (sourceAccount : Account) (recipient : ExternalRecipient)
    (amount fee totalDebit : Money) : Handler Transfer := do
  let transfer ← draw fun now reference id =>
    Transfer.initiateExternal now reference id command.initiatorUserId command.sourceAccountId recipient amount
      fee command.narration
  PrismaTransferRepository.save transfer
  postTransferJournal transfer command.narration
    (holdLegs sourceAccount.id sourceAccount.balance totalDebit)
  return transfer

/-- The `try` block of Step 3 once the provider has accepted: settled, or PROCESSING. -/
def markAccepted (command : InitiateExternalTransferCommand) (totalDebit : Money) (transfer : Transfer)
    (payoutResult : PayoutInitiationResult) : Program (Err × Transfer) Transfer :=
  if payoutResult.isImmediatelySettled then do
    let settled ← during transfer (Prog.ofExcept transfer.markSuccessful)
    during settled (postTransferJournal transfer command.narration
      (settlementLegs totalDebit transfer.amount transfer.fee))
    return settled
  else during transfer (Prog.ofExcept (transfer.markProcessing payoutResult.providerReference))

/-- The rest of the `try` block: save and publish. -/
def accepted (command : InitiateExternalTransferCommand) (totalDebit : Money) (events : List DomainEvent)
    (transfer : Transfer) (payoutResult : PayoutInitiationResult) : Program (Err × Transfer) Transfer := do
  let marked ← markAccepted command totalDebit transfer payoutResult
  during marked (PrismaTransferRepository.save marked)
  during marked.pullDomainEvents.2
    (publishAll (events ++ marked.pullDomainEvents.1.map .transfer))
  return marked.pullDomainEvents.2

/-- The `catch` block of Step 3. -/
def reverse {α : Type} (command : InitiateExternalTransferCommand) (totalDebit : Money)
    (events : List DomainEvent) (payoutError : Err) (transfer : Transfer) : Handler α := do
  let accountEvents ← compensate transfer (.ok totalDebit) s!"reversal: {command.narration}"
  let transfer ← Prog.ofExcept (transfer.markReversed (payoutError.messageOr "Payout provider error"))
  PrismaTransferRepository.save transfer
  publishAll (events ++ accountEvents.map .account ++ transfer.pullDomainEvents.1.map .transfer)
  Prog.throw payoutError

/-- Step 3: the payout. -/
def payOut (command : InitiateExternalTransferCommand) (recipient : ExternalRecipient) (totalDebit : Money)
    (events : List DomainEvent) (transfer : Transfer) : Handler Transfer :=
  let attempted : Program (Err × Transfer) Transfer := do
    let payoutResult ← during transfer
      (FlutterwavePayoutProvider.initiatePayout transfer.reference.value recipient transfer.amount
        command.narration)
    accepted command totalDebit events transfer payoutResult
  attempted.tryCatch fun thrown => reverse command totalDebit events thrown.1 thrown.2

def doExecute (command : InitiateExternalTransferCommand) : Handler (String × TransferResponseDto) := do
  let (sourceAccount, recipient, amount, fee, totalDebit) ← hold command
  let transfer ← record command sourceAccount recipient amount fee totalDebit
  let events := sourceAccount.pullDomainEvents.1.map .account ++ transfer.pullDomainEvents.1.map .transfer
  let transfer ← payOut command recipient totalDebit events transfer.pullDomainEvents.2
  return (transfer.id, TransferResponseDto.fromDomain transfer)

def execute (fuel : Nat) (command : InitiateExternalTransferCommand) : Handler TransferResponseDto :=
  IdempotencyGuardService.run command.initiatorUserId "transfer.external" command.idempotencyKey fuel
    ⟨doExecute command, rehydrateTransfer⟩

end InitiateExternalTransferHandler

structure ConfirmExternalTransferCommand where
  providerReference : String
  isSuccessful : Bool
  failureReason : Option String

namespace ConfirmExternalTransferHandler

/-- The success branch. -/
def settle (transfer : Transfer) : Handler Unit := do
  let transfer ← Prog.ofExcept transfer.markSuccessful
  PrismaTransferRepository.save transfer
  let totalDebit ← Prog.ofExcept (transfer.amount.add transfer.fee)
  postTransferJournal transfer "external payout confirmed by webhook"
    (settlementLegs totalDebit transfer.amount transfer.fee)
  publishAll (transfer.pullDomainEvents.1.map .transfer)

/-- The late failure. -/
def reverse (failureReason : Option String) (transfer : Transfer) : Handler Unit := do
  let accountEvents ← compensate transfer (transfer.amount.add transfer.fee)
    "external payout failed at provider (late webhook)"
  let transfer ← Prog.ofExcept (transfer.markReversed (failureReason.getD "Payout failed at provider"))
  PrismaTransferRepository.save transfer
  publishAll (accountEvents.map .account ++ transfer.pullDomainEvents.1.map .transfer)

def execute (command : ConfirmExternalTransferCommand) : Handler Unit := do
  let transfer ← PrismaTransferRepository.findByProviderReference command.providerReference
  match transfer with
  | none => Prog.throw (transferNotFound command.providerReference)
  | some transfer =>
    if transfer.status.isTerminal then return ()
    else if command.isSuccessful then settle transfer
    else reverse command.failureReason transfer

end ConfirmExternalTransferHandler

/-! ## The calls made -/

section
variable {T : Op → Prop}

theorem postTransferJournal_calls (hu : T .randomUUID) (hl : ∀ q, T (.ledgerEntry .prisma q)) (transfer : Transfer)
    (narration : String) (legs : List LedgerPostingLeg) : (postTransferJournal transfer narration legs).Calls T :=
  PrismaLedgerRecorderService.post_calls hu (fun _ => hl _) fun _ => hl _

theorem compensate_calls (ha : ∀ q, T (.account .prisma q)) (hu : T .randomUUID)
    (hl : ∀ q, T (.ledgerEntry .prisma q)) (transfer : Transfer) (totalDebit : Except Err Money)
    (narration : String) :
    (compensate transfer totalDebit narration).Calls T := by
  refine .bind (PrismaAccountRepository.findById_calls (fun _ => ha _) _) fun account => ?_
  cases account with
  | none => trivial
  | some account =>
    exact .bind (.ofExcept _) fun _ => .bind (.ofExcept _) fun _ =>
      .bind (PrismaAccountRepository.save_calls ha _) fun _ =>
      .bind (postTransferJournal_calls hu hl _ _ _) fun _ => trivial

theorem InitiateExternalTransferHandler.hold_calls (ha : ∀ q, T (.account .prisma q)) (hk : ∀ q, T (.kyc .prisma q))
    (hd : T .dateNow) (hs : ∀ id statuses since, T (.transfer .prisma (.sumSince id statuses since)))
    (command : InitiateExternalTransferCommand) : (hold command).Calls T := by
  refine .bind (PrismaAccountRepository.findById_calls (fun _ => ha _) _) fun account => ?_
  cases account with
  | none => trivial
  | some account =>
    dsimp only
    split
    · trivial
    · exact .bind (.ofExcept _) fun _ =>
        .bind (KycTransferLimitCheckerService.assertWithinLimits_calls hk hd hs _ _ _) fun _ =>
        .bind (.ofExcept _) fun _ => .bind (.ofExcept _) fun _ => .bind (.ofExcept _) fun _ =>
        .bind (.ofExcept _) fun _ => .bind (PrismaAccountRepository.save_calls ha _) fun _ => trivial

end

end Kudi
