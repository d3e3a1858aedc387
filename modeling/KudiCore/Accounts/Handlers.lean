import KudiCore.Compliance.Limits

/-!
# The account command handlers

| here | there |
| --- | --- |
| `PrismaAccountRepository` | `modules/accounts/infrastructure/persistence/prisma-account.repository.ts` |
| `*AccountHandler.execute` | `modules/accounts/application/commands/*/*.handler.ts` |
| `AccountResponseDto` | `modules/accounts/application/dto/account-response.dto.ts`, less what `Account` leaves out |
-/

namespace Kudi

open Interleave

def concurrentModification (kind id : String) : Err :=
  domainException s!"{kind} {id} was modified concurrently; please retry" "CONCURRENT_MODIFICATION"

namespace PrismaAccountRepository

def findById (id : String) : Handler (Option Account) := do
  let record ← Prog.await (Op.account .prisma (.findUnique id))
  match record with
  | none => return none
  | some record => return some (← Prog.ofExcept (AccountMapper.toDomain record))

def findAllByUserId (userId : String) : Handler (List Account) := do
  let records ← Prog.await (Op.account .prisma (.findMany userId))
  Prog.ofExcept (records.mapM AccountMapper.toDomain)

def existsByAccountNumber (accountNumber : AccountNumber) : Handler Bool := do
  let count ← Prog.await (Op.account .prisma (.count accountNumber.value))
  return decide (0 < count)

/-- The conditioned update, the same in `save` and in `saveAccountInTransaction`. -/
def update (account : Account) (client : Client) : Handler Unit := do
  let data := AccountMapper.toPersistence account
  let count ← Prog.await (Op.account client (.updateMany (data.version - 1) data account.domainEvents))
  if count = 0 then Prog.throw (concurrentModification "Account" data.id)

def save (account : Account) : Handler Unit :=
  if account.version = 0 then Prog.await (Op.account .prisma (.create (AccountMapper.toPersistence account)))
  else update account .prisma

/-! ### The calls made -/

section
variable {T : Op → Prop}

theorem findById_calls (h : ∀ id, T (.account .prisma (.findUnique id))) (id : String) : (findById id).Calls T :=
  .bind (.await (h _)) fun record => by
    cases record with
    | none => trivial
    | some record => exact .bind (.ofExcept _) fun _ => trivial

theorem update_calls {client : Client} (h : ∀ q, T (.account client q)) (account : Account) :
    (update account client).Calls T := .bind (.await (h _)) fun count => by
  split <;> trivial

theorem save_calls (h : ∀ q, T (.account .prisma q)) (account : Account) : (save account).Calls T := by
  unfold save
  split
  · exact .await (h _)
  · exact update_calls h account

end

end PrismaAccountRepository

structure AccountResponseDto where
  id : String
  userId : String
  accountNumber : String
  currency : Currency
  balance : String
  status : AccountStatus
deriving DecidableEq, Repr

def AccountResponseDto.fromDomain (account : Account) : AccountResponseDto :=
  { id := account.id, userId := account.userId, accountNumber := account.accountNumber.value,
    currency := account.currency, balance := account.balance.toMajorUnitsString, status := account.status }

/-! ## The handlers -/

/-- The frame of every handler below: load the account or fail, `mutate` it, save it, publish. -/
def mutateAccount (accountId : String) (mutate : Account → Handler Account) : Handler AccountResponseDto := do
  let account ← PrismaAccountRepository.findById accountId
  match account with
  | none => Prog.throw (accountNotFound accountId)
  | some account =>
    let account ← mutate account
    PrismaAccountRepository.save account
    publishAll (account.pullDomainEvents.1.map .account)
    return AccountResponseDto.fromDomain account.pullDomainEvents.2

structure CreditAccountCommand where
  accountId : String
  amount : String
  currency : Currency
  reference : String

def CreditAccountHandler.execute (command : CreditAccountCommand) : Handler AccountResponseDto :=
  mutateAccount command.accountId fun account => do
    let amount ← Prog.ofExcept (Money.fromDecimalString command.amount command.currency)
    MaxBalanceGuardService.assertWithinLimit account amount .prisma
    Prog.ofExcept (account.credit amount command.reference)

structure DebitAccountCommand where
  accountId : String
  amount : String
  currency : Currency
  reference : String

def DebitAccountHandler.execute (command : DebitAccountCommand) : Handler AccountResponseDto :=
  mutateAccount command.accountId fun account => do
    let amount ← Prog.ofExcept (Money.fromDecimalString command.amount command.currency)
    Prog.ofExcept (account.debit amount command.reference)

structure FreezeAccountCommand where
  accountId : String
  reason : String

def FreezeAccountHandler.execute (command : FreezeAccountCommand) : Handler AccountResponseDto :=
  mutateAccount command.accountId fun account => return account.freeze command.reason

structure UnfreezeAccountCommand where
  accountId : String

def UnfreezeAccountHandler.execute (command : UnfreezeAccountCommand) : Handler AccountResponseDto :=
  mutateAccount command.accountId fun account => return account.unfreeze

structure CloseAccountCommand where
  accountId : String

def CloseAccountHandler.execute (command : CloseAccountCommand) : Handler AccountResponseDto :=
  mutateAccount command.accountId fun account => Prog.ofExcept account.close

structure ActivateAccountCommand where
  accountId : String

def ActivateAccountHandler.execute (command : ActivateAccountCommand) : Handler AccountResponseDto :=
  mutateAccount command.accountId fun account => return account.activate

end Kudi
