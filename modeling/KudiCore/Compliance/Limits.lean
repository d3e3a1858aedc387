import KudiCore.Runtime

/-!
# KYC-tier limits

| here | there |
| --- | --- |
| `KycTierResolverService` | `modules/compliance/infrastructure/services/kyc-tier-resolver.service.ts` |
| `KycTierLimits`, the defaults | `modules/compliance/domain/policies/kyc-tier-limits.policy.ts` |
| `KycTierLimitMapper` | `modules/compliance/infrastructure/mappers/kyc-tier-limit.mapper.ts` |
| `PrismaKycTierLimitRepository` | `modules/compliance/infrastructure/persistence/prisma-kyc-tier-limit.repository.ts` |
| `MaxBalanceGuardService` | `modules/accounts/infrastructure/services/max-balance-guard.service.ts` |
| `KycTransferLimitCheckerService` | `modules/transfers/infrastructure/services/kyc-transfer-limit-checker.service.ts` |

With the checker goes `sumSourceAmountSince` of the transfer repository.
-/

namespace Kudi

open Interleave

structure KycTierLimits where
  perTransactionLimit : Option Money
  dailyTransferLimit : Option Money
  maxBalance : Option Money
deriving DecidableEq, Repr

/-- `DEFAULT_LIMITS_MAJOR_UNITS_NGN`. -/
structure DefaultLimits where
  perTransaction : Option String
  daily : Option String
  maxBalance : Option String

def defaultLimitsMajorUnitsNGN : KycTier → DefaultLimits
  | .TIER_1 => ⟨some "50000", some "50000", some "300000"⟩
  | .TIER_2 => ⟨some "200000", some "200000", some "500000"⟩
  | .TIER_3 => ⟨some "5000000", some "5000000", none⟩

/-- `x === null ? null : f(x)`. -/
def orNull {α β : Type} (f : α → Except Err β) : Option α → Except Err (Option β)
  | none => .ok none
  | some x => (f x).map some

def toMoneyOrNull (majorUnits : Option String) (currency : Currency) : Except Err (Option Money) :=
  orNull (Money.fromDecimalString · currency) majorUnits

def getDefaultKycTierLimits (tier : KycTier) (currency : Currency) : Except Err KycTierLimits := do
  let config := defaultLimitsMajorUnitsNGN tier
  let perTransactionLimit ← toMoneyOrNull config.perTransaction currency
  let dailyTransferLimit ← toMoneyOrNull config.daily currency
  let maxBalance ← toMoneyOrNull config.maxBalance currency
  return { perTransactionLimit, dailyTransferLimit, maxBalance }

def KycTierLimitMapper.toDomain (record : KycTierLimitRecord) : Except Err KycTierLimits := do
  let perTransactionLimit ← orNull (Money.fromMinorUnits · record.currency) record.perTransactionLimit
  let dailyTransferLimit ← orNull (Money.fromMinorUnits · record.currency) record.dailyTransferLimit
  let maxBalance ← orNull (Money.fromMinorUnits · record.currency) record.maxBalance
  return { perTransactionLimit, dailyTransferLimit, maxBalance }

def KycTierResolverService.resolveTier (userId : String) (client : Client) : Handler KycTier := do
  let profile ← Prog.await (Op.kyc client (.findProfile userId))
  return (profile.map (·.tier)).getD .TIER_1

def PrismaKycTierLimitRepository.findByTier (tier : KycTier) (currency : Currency) (client : Client) :
    Handler KycTierLimits := do
  let record ← Prog.await (Op.kyc client (.findTierLimit tier))
  match record with
  | some record => Prog.ofExcept (KycTierLimitMapper.toDomain record)
  | none => Prog.ofExcept (getDefaultKycTierLimits tier currency)

/-! ## The ceiling on credits -/

def maxBalanceExceeded (tier : KycTier) : Err :=
  .exception "MaxBalanceExceededException"
    (s!"This credit would exceed the maximum balance allowed for your current verification level " ++
      s!"({tier.value}). Upgrade your verification to hold more.")
    "MAX_BALANCE_EXCEEDED"

namespace MaxBalanceGuardService

/-- The check itself, once the limits are known. -/
def check (limits : KycTierLimits) (tier : KycTier) (account : Account) (amount : Money) : Except Err Unit :=
  match limits.maxBalance with
  | none => .ok ()
  | some maxBalance => do
    if !(← maxBalance.isGreaterThanOrEqualTo (← account.balance.add amount)) then
      throw (maxBalanceExceeded tier)

def assertWithinLimit (account : Account) (amount : Money) (client : Client) : Handler Unit := do
  let tier ← KycTierResolverService.resolveTier account.userId client
  let limits ← PrismaKycTierLimitRepository.findByTier tier account.currency client
  Prog.ofExcept (check limits tier account amount)

end MaxBalanceGuardService

/-! ## The ceilings on transfers -/

def transferLimitExceeded (limitType : String) (tier : KycTier) : Err :=
  .exception "TransferLimitExceededException"
    (s!"This transfer exceeds your {limitType} limit for your current verification level " ++
      s!"({tier.value}). Upgrade your verification to send more.")
    "TRANSFER_LIMIT_EXCEEDED"

/-- `sumSourceAmountSince` of the transfer repository (prisma-transfer.repository.ts:83). -/
def PrismaTransferRepository.sumSourceAmountSince (sourceAccountId : String) (since : Int) (currency : Currency) :
    Handler Money := do
  let sum ← Prog.await (Op.transfer .prisma (.sumSince sourceAccountId [.SUCCESSFUL, .PROCESSING] since))
  Prog.ofExcept (Money.fromMinorUnits (sum.getD 0) currency)

namespace KycTransferLimitCheckerService

/-- `ROLLING_WINDOW_MS`. -/
def rollingWindowMs : Nat := 24 * 60 * 60 * 1000

/-- `limit && !limit.isGreaterThanOrEqualTo(amount)` throws. -/
def checkLimit (limit : Option Money) (limitType : String) (tier : KycTier) (amount : Money) : Except Err Unit :=
  match limit with
  | none => .ok ()
  | some limit => do
    if !(← limit.isGreaterThanOrEqualTo amount) then
      throw (transferLimitExceeded limitType tier)

def assertWithinLimits (userId sourceAccountId : String) (amount : Money) : Handler Unit := do
  let tier ← KycTierResolverService.resolveTier userId .prisma
  let limits ← PrismaKycTierLimitRepository.findByTier tier amount.currency .prisma
  Prog.ofExcept (checkLimit limits.perTransactionLimit "per-transaction" tier amount)
  match limits.dailyTransferLimit with
  | none => return ()
  | some dailyTransferLimit =>
    let now ← Prog.await Op.dateNow
    let alreadyTransferredToday ← PrismaTransferRepository.sumSourceAmountSince sourceAccountId
      ((now : Int) - rollingWindowMs) amount.currency
    let projectedTotal ← Prog.ofExcept (alreadyTransferredToday.add amount)
    Prog.ofExcept (checkLimit (some dailyTransferLimit) "daily" tier projectedTotal)

end KycTransferLimitCheckerService

/-! ## The calls made -/

section
variable {T : Op → Prop} {client : Client}

theorem KycTierResolverService.resolveTier_calls (h : ∀ q, T (.kyc client q)) (userId : String) :
    (resolveTier userId client).Calls T := .bind (.await (h _)) fun _ => trivial

theorem PrismaKycTierLimitRepository.findByTier_calls (h : ∀ q, T (.kyc client q)) (tier : KycTier)
    (currency : Currency) : (findByTier tier currency client).Calls T :=
  .bind (.await (h _)) fun record => by cases record <;> exact .ofExcept _

theorem MaxBalanceGuardService.assertWithinLimit_calls (h : ∀ q, T (.kyc client q)) (account : Account)
    (amount : Money) : (assertWithinLimit account amount client).Calls T :=
  .bind (KycTierResolverService.resolveTier_calls h _) fun _ =>
    .bind (PrismaKycTierLimitRepository.findByTier_calls h _ _) fun _ => .ofExcept _

theorem KycTransferLimitCheckerService.assertWithinLimits_calls (h : ∀ q, T (.kyc .prisma q)) (hd : T .dateNow)
    (hs : ∀ id statuses since, T (.transfer .prisma (.sumSince id statuses since)))
    (userId sourceAccountId : String) (amount : Money) :
    (assertWithinLimits userId sourceAccountId amount).Calls T :=
  .bind (KycTierResolverService.resolveTier_calls h _) fun _ =>
    .bind (PrismaKycTierLimitRepository.findByTier_calls h _ _) fun limits =>
      .bind (.ofExcept _) fun _ => by
        cases limits.dailyTransferLimit with
        | none => trivial
        | some limit =>
          exact .bind (.await hd) fun _ => .bind (.bind (.await (hs _ _ _)) fun _ => .ofExcept _) fun _ =>
            .bind (.ofExcept _) fun _ => .ofExcept _

end

end Kudi
