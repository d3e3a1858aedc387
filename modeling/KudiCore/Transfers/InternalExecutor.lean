import KudiCore.Transfers.Repository
import KudiCore.Idempotency.Guard

/-!
# Internal transfers

| here | there |
| --- | --- |
| `PrismaInternalTransferExecutor` | its service in `modules/transfers/infrastructure/services` |
| `InitiateInternalTransferHandler` | `modules/transfers/application/commands/initiate-internal-transfer` |

The executor's `catch` reads `transfer` as far as the `try` block got with it, so what the block
throws is paired with it.
-/

namespace Kudi

open Interleave

structure InternalTransferParams where
  initiatorUserId : String
  sourceAccountId : String
  destinationAccountId : String
  amount : Money
  fee : Money
  narration : String

structure InternalTransferExecutionResult where
  transfer : Transfer
  events : List DomainEvent

namespace PrismaInternalTransferExecutor

/-- `tx.account.findUnique`, or `AccountNotFoundException`. -/
def requireRecord (id : String) : Handler AccountRecord := do
  let record ← Prog.await (Op.account .tx (.findUnique id))
  match record with
  | none => Prog.throw (accountNotFound id)
  | some record => return record

/-- The transaction up to the ledger posting; the two accounts as saved. -/
def moveFunds (params : InternalTransferParams) (transfer : Transfer) : Handler (Account × Account) := do
  let sourceRecord ← requireRecord params.sourceAccountId
  let destinationRecord ← requireRecord params.destinationAccountId
  let sourceAccount ← Prog.ofExcept (AccountMapper.toDomain sourceRecord)
  let destinationAccount ← Prog.ofExcept (AccountMapper.toDomain destinationRecord)
  if sourceAccount.userId ≠ params.initiatorUserId then Prog.throw unauthorizedTransfer
  else do
    let totalDebit ← Prog.ofExcept (params.amount.add params.fee)
    let sourceAccount ← Prog.ofExcept (sourceAccount.debit totalDebit transfer.reference.value)
    MaxBalanceGuardService.assertWithinLimit destinationAccount params.amount .tx
    let destinationAccount ← Prog.ofExcept (destinationAccount.credit params.amount transfer.reference.value)
    PrismaAccountRepository.update sourceAccount .tx
    PrismaAccountRepository.update destinationAccount .tx
    PrismaLedgerRecorderService.post
      { reference := transfer.reference.value, narration := params.narration, userId := params.initiatorUserId,
        entryType := .TRANSFER,
        legs := internalLegs sourceAccount.id sourceAccount.balance destinationAccount.id
          destinationAccount.balance totalDebit params.amount params.fee } .tx
    return (sourceAccount, destinationAccount)

/-- The transaction: the funds moved, the transfer row inserted as SUCCESSFUL. -/
def body (params : InternalTransferParams) (transfer : Transfer) :
    Program (Err × Transfer) (Transfer × List DomainEvent) := do
  let accounts ← during transfer (moveFunds params transfer)
  let completed ← during transfer (Prog.ofExcept transfer.markSuccessful)
  during completed (Prog.await (Op.transfer .tx (.create (TransferMapper.toPersistence completed))))
  return (completed, (accounts.1.domainEvents ++ accounts.2.domainEvents).map .account)

def moved (params : InternalTransferParams) (transfer : Transfer) :
    Program (Err × Transfer) (Transfer × List DomainEvent) :=
  transaction (fun error => (error, transfer)) (fun result error => (error, result.1)) (body params transfer)

/-- The `catch` block. -/
def recordFailure {α : Type} (error : Err) (transfer : Transfer) : Handler α := do
  let transfer ← Prog.ofExcept (transfer.markFailed (error.messageOr "Internal transfer failed"))
  PrismaTransferRepository.save transfer
  Prog.throw error

def execute (params : InternalTransferParams) : Handler InternalTransferExecutionResult := do
  let transfer ← draw fun now reference id =>
    Transfer.initiateInternal now reference id params.initiatorUserId params.sourceAccountId
      params.destinationAccountId params.amount params.fee params.narration
  let result ← (moved params transfer).tryCatch fun thrown => recordFailure thrown.1 thrown.2
  return { transfer := result.1.pullDomainEvents.2,
           events := result.1.pullDomainEvents.1.map .transfer ++ result.2 }

theorem moveFunds_calls {T : Op → Prop} (ha : ∀ q, T (.account .tx q)) (hk : ∀ q, T (.kyc .tx q))
    (hu : T .randomUUID)
    (hl : ∀ q, T (.ledgerEntry .tx q)) (params : InternalTransferParams) (transfer : Transfer) :
    (moveFunds params transfer).Calls T := by
  have required : ∀ id, (requireRecord id).Calls T := fun id =>
    .bind (.await (ha _)) fun record => by cases record <;> trivial
  refine .bind (required _) fun sourceRecord => .bind (required _) fun destinationRecord => ?_
  refine .bind (.ofExcept _) fun sourceAccount => .bind (.ofExcept _) fun destinationAccount => ?_
  split
  · trivial
  · refine .bind (.ofExcept _) fun totalDebit => .bind (.ofExcept _) fun sourceAccount => ?_
    refine .bind (MaxBalanceGuardService.assertWithinLimit_calls hk _ _) fun _ => ?_
    refine .bind (.ofExcept _) fun destinationAccount => ?_
    refine .bind (PrismaAccountRepository.update_calls ha _) fun _ => ?_
    refine .bind (PrismaAccountRepository.update_calls ha _) fun _ => ?_
    exact .bind (PrismaLedgerRecorderService.post_calls hu (fun _ => hl _) fun _ => hl _) fun _ => trivial

end PrismaInternalTransferExecutor

structure InitiateInternalTransferCommand where
  initiatorUserId : String
  sourceAccountId : String
  destinationAccountId : String
  amount : String
  narration : String
  idempotencyKey : Option String

/-- The `rehydrate` of both initiating handlers. -/
def rehydrateTransfer (resourceId : Option String) : Handler TransferResponseDto := do
  let transfer ← PrismaTransferRepository.findById (resourceId.getD "")
  match transfer with
  | none => Prog.throw (accountNotFound (resourceId.getD ""))
  | some transfer => return TransferResponseDto.fromDomain transfer

theorem rehydrateTransfer_calls {T : Op → Prop} (h : ∀ id, T (.transfer .prisma (.findUnique id)))
    (resourceId : Option String) : (rehydrateTransfer resourceId).Calls T :=
  .bind (PrismaTransferRepository.findById_calls h _) fun t => by cases t <;> trivial

namespace InitiateInternalTransferHandler

def doExecute (command : InitiateInternalTransferCommand) : Handler (String × TransferResponseDto) :=
  if command.sourceAccountId = command.destinationAccountId then Prog.throw selfTransferNotAllowed
  else do
    let sourceAccount ← PrismaAccountRepository.findById command.sourceAccountId
    match sourceAccount with
    | none => Prog.throw (accountNotFound command.sourceAccountId)
    | some sourceAccount =>
      if sourceAccount.userId ≠ command.initiatorUserId then Prog.throw unauthorizedTransfer
      else do
        let amount ← Prog.ofExcept (Money.fromDecimalString command.amount sourceAccount.currency)
        KycTransferLimitCheckerService.assertWithinLimits command.initiatorUserId command.sourceAccountId amount
        let fee ← Prog.ofExcept (FlatRateFeeCalculator.calculate amount .INTERNAL)
        let result ← PrismaInternalTransferExecutor.execute
          { initiatorUserId := command.initiatorUserId, sourceAccountId := command.sourceAccountId,
            destinationAccountId := command.destinationAccountId, amount, fee, narration := command.narration }
        publishAll result.events
        return (result.transfer.id, TransferResponseDto.fromDomain result.transfer)

def execute (fuel : Nat) (command : InitiateInternalTransferCommand) : Handler TransferResponseDto :=
  IdempotencyGuardService.run command.initiatorUserId "transfer.internal" command.idempotencyKey fuel
    ⟨doExecute command, rehydrateTransfer⟩

end InitiateInternalTransferHandler

end Kudi
