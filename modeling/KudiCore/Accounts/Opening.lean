import KudiCore.Accounts.Handlers
import KudiCore.Compliance.KycProfile

/-!
# Opening and activating accounts

| here | there |
| --- | --- |
| `NubanAccountNumberGenerator` | `modules/accounts/infrastructure/services/nuban-account-number-generator.service.ts` |
| `OpenAccountHandler` | `modules/accounts/application/commands/open-account/open-account.handler.ts` |
| `KycTierUpgradedHandler` | `modules/accounts/application/event-handlers/kyc-tier-upgraded.handler.ts` |

`accountType` is left out, as in `Account`, and so are the log lines.

`commandBus.execute(new ActivateAccountCommand(id))` is awaited, so it is the activation's own
program in place.
-/

namespace Kudi

open Interleave Protocol

namespace NubanAccountNumberGenerator

/-- `NUBAN_WEIGHTS`. -/
def nubanWeights : List Nat := [3, 7, 3, 3, 7, 3, 3, 7, 3]

/-- `s.padStart(6, '0')`. -/
def padStart6 (s : String) : String := String.ofList (List.replicate (6 - s.length) '0') ++ s

def buildWithChecksum (bankCode serial : String) : String :=
  let digits := (bankCode ++ serial).toList.map fun c => c.toNat - '0'.toNat
  let remainder := (List.zipWith (· * ·) digits nubanWeights).sum % 10
  let checkDigit := if remainder = 0 then 0 else 10 - remainder
  bankCode ++ serial ++ toString checkDigit

/-- The loop over the attempts; `serials` are the values that `randomInt(0, 1_000_000)` returns. -/
def attempts (bankCode : String) : List (Fin 1000000) → Handler AccountNumber
  | [] => Prog.throw (.error "Unable to generate a unique account number after multiple attempts")
  | n :: serials => do
    let candidate := buildWithChecksum bankCode (padStart6 (toString n.val))
    let accountNumber ← Prog.ofExcept (AccountNumber.create candidate)
    let taken ← PrismaAccountRepository.existsByAccountNumber accountNumber
    if taken then attempts bankCode serials else return accountNumber

/-- `MAX_GENERATION_ATTEMPTS` is 10. -/
def generate (bankCode : String) (randomInt : Fin 10 → Fin 1000000) : Handler AccountNumber :=
  attempts bankCode (List.ofFn randomInt)

end NubanAccountNumberGenerator

def sampleSerials : Fin 10 → Fin 1000000 := fun _ => 123456

structure OpenAccountCommand where
  userId : String
  currency : Currency

/-- `bankCode` is configuration. -/
def OpenAccountHandler.execute (bankCode : String) (randomInt : Fin 10 → Fin 1000000) (command : OpenAccountCommand) :
    Handler AccountResponseDto := do
  let accountNumber ← NubanAccountNumberGenerator.generate bankCode randomInt
  let id ← Prog.await Op.randomUUID
  let account := Account.opened id command.userId accountNumber command.currency
  PrismaAccountRepository.save account
  publishAll (account.pullDomainEvents.1.map .account)
  return AccountResponseDto.fromDomain account.pullDomainEvents.2

namespace KycTierUpgradedHandler

/-- `try { await commandBus.execute(…) } catch { log }` for each of the accounts. -/
def activateAll : List Account → Handler Unit
  | [] => return ()
  | account :: accounts => do
    let activation : Handler Unit := do
      let _ ← ActivateAccountHandler.execute ⟨account.id⟩
      return ()
    activation.tryCatch fun _ => return ()
    activateAll accounts

def handle (event : KycTierUpgradedEvent) : Handler Unit :=
  if event.newTier ≠ .TIER_2 ∧ event.newTier ≠ .TIER_3 then return ()
  else do
    let accounts ← PrismaAccountRepository.findAllByUserId event.userId
    activateAll (accounts.filter fun account => account.status = .PENDING_VERIFICATION)

end KycTierUpgradedHandler

/-! ## The event handler under a protocol -/

section
variable {P : Protocol Op.Res Err} {i : PId} {Q : P.State → Except Err Unit → Prop}
  {K : P.State → String → Prop}

/-- `K st id` lets account `id` be activated, and activations keep it. -/
theorem activateAll_obeys_of
    (hactivate : ∀ st id, K st id →
      P.Obeys i (fun st' _ => ∀ id', K st id' → K st' id') (ActivateAccountHandler.execute ⟨id⟩) st)
    (hQ : ∀ st x, Q st x) : ∀ (accounts : List Account) (st : P.State), (∀ a ∈ accounts, K st a.id) →
      P.Obeys i Q (KycTierUpgradedHandler.activateAll accounts) st
  | [], st, _ => hQ st _
  | account :: accounts, st, hK => by
    refine Obeys.bind (R := fun st' _ => ∀ id', K st id' → K st' id') ?_ (fun st' _ hkeep => ?_)
      fun st' _ _ => hQ st' _
    · refine Obeys.tryCatch (R := fun st' _ => ∀ id', K st id' → K st' id') ?_ (fun _ _ h => h) fun _ _ h => h
      exact (hactivate st account.id (hK account List.mem_cons_self)).bind (fun _ _ h => h) fun _ _ h => h
    · exact activateAll_obeys_of hactivate hQ accounts st' fun a ha => hkeep a.id (hK a (List.mem_cons_of_mem _ ha))

theorem handle_obeys_of {event : KycTierUpgradedEvent} {st : P.State}
    (hlist : P.ok i st (.account .prisma (.findMany event.userId)))
    (hlisted : ∀ rows accounts, P.yields i st (.account .prisma (.findMany event.userId)) (.ok rows) →
      rows.mapM AccountMapper.toDomain = .ok accounts →
      ∀ a ∈ accounts, K (P.next i st (.account .prisma (.findMany event.userId)) (.ok rows)) a.id)
    (hactivate : ∀ st' id, K st' id →
      P.Obeys i (fun st'' _ => ∀ id', K st' id' → K st'' id') (ActivateAccountHandler.execute ⟨id⟩) st')
    (hQ : ∀ st x, Q st x) : P.Obeys i Q (KycTierUpgradedHandler.handle event) st := by
  unfold KycTierUpgradedHandler.handle
  split
  · exact hQ st _
  · refine Obeys.bind (R := fun st' x => ∀ accounts, x = .ok accounts → ∀ a ∈ accounts, K st' a.id) ?_
      (fun st' accounts hK => ?_) fun st' _ _ => hQ st' _
    · refine .await_bind hlist (fun rows hy => .ofExcept fun accounts ha => hlisted rows accounts hy ha) nofun
    · exact activateAll_obeys_of hactivate hQ _ st' fun a ha => hK accounts rfl a (List.mem_of_mem_filter ha)

end

end Kudi
