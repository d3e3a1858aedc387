import Mathlib.Data.List.ReduceOption
import KudiCore.Concurrency.MaxBalance
import KudiCore.Transfers.Sequential

/-!
# The currency of the limits

`findByTier(tier, currency)` builds the default limits in the currency it is asked for, and those of a stored row in
the row's. Both guards compare them with amounts of the account's currency, and `Money` compares no two currencies.
-/

namespace Kudi

open Interleave

/-! ## Limits of one currency -/

/-- All limits there are, in `currency`. -/
def KycTierLimits.In (limits : KycTierLimits) (currency : Currency) : Prop :=
  ∀ limit ∈ [limits.perTransactionLimit, limits.dailyTransferLimit, limits.maxBalance].reduceOption,
    limit.currency = currency

/-- The limits that a row sets. -/
def KycTierLimitRecord.figures (r : KycTierLimitRecord) : List Int :=
  [r.perTransactionLimit, r.dailyTransferLimit, r.maxBalance].reduceOption

/-- The row of the tier, if there is one, is of the currency, sets no limit, or sets a negative one and cannot be
read. -/
def RowFits (rows : Table KycTierLimitRecord.tier) (tier : KycTier) (currency : Currency) : Prop :=
  ∀ r, rows.find? tier = some r → r.currency = currency ∨ r.figures = [] ∨ ∃ n ∈ r.figures, n < 0

section
variable {α : Type} {f : α → Except Err Money} {x y z : Option α} {limits : KycTierLimits}

theorem orNull_ok {m : Option Money} (h : orNull f x = .ok m) :
    (∀ b ∈ m, ∃ a ∈ x, f a = .ok b) ∧ ∀ a ∈ x, ∃ b ∈ m, f a = .ok b := by
  cases x with
  | none =>
    cases h
    exact ⟨fun b hb => (by cases hb), fun a ha => (by cases ha)⟩
  | some a =>
    cases hf : f a with
    | error e => simp [orNull, hf, Except.map] at h
    | ok b =>
      simp only [orNull, hf, Except.map, Except.ok.injEq] at h
      subst h
      refine ⟨fun b' hb => ?_, fun a' ha => ?_⟩
      · cases hb
        exact ⟨a, rfl, hf⟩
      · cases ha
        exact ⟨b, rfl, hf⟩

theorem orNull_of (h : ∀ a ∈ x, ∃ b, f a = .ok b) : ∃ m, orNull f x = .ok m := by
  cases x with
  | none => exact ⟨none, rfl⟩
  | some a =>
    obtain ⟨b, hb⟩ := h a rfl
    exact ⟨some b, by simp [orNull, hb, Except.map]⟩

/-- Three limits, each read by `f`: the mapper, and the defaults. -/
def readLimits (f : α → Except Err Money) (x y z : Option α) : Except Err KycTierLimits := do
  let perTransactionLimit ← orNull f x
  let dailyTransferLimit ← orNull f y
  let maxBalance ← orNull f z
  return { perTransactionLimit, dailyTransferLimit, maxBalance }

theorem readLimits_ok (h : readLimits f x y z = .ok limits) : orNull f x = .ok limits.perTransactionLimit ∧
    orNull f y = .ok limits.dailyTransferLimit ∧ orNull f z = .ok limits.maxBalance := by
  unfold readLimits at h
  cases hx : orNull f x with
  | error e => simp [hx, bind, Except.bind] at h
  | ok a =>
    cases hy : orNull f y with
    | error e => simp [hx, hy, bind, Except.bind] at h
    | ok b =>
      cases hz : orNull f z with
      | error e => simp [hx, hy, hz, bind, Except.bind] at h
      | ok c =>
        simp only [hx, hy, hz, bind, Except.bind, pure, Except.pure, Except.ok.injEq] at h
        subst h
        exact ⟨rfl, rfl, rfl⟩

theorem mem_reduceOption {β : Type} {a : β} {x y z : Option β} : a ∈ [x, y, z].reduceOption ↔
    a ∈ x ∨ a ∈ y ∨ a ∈ z := by
  rw [List.reduceOption_mem_iff]
  simp [eq_comm, Option.mem_def]

/-- The limits are read from figures, all of them. -/
theorem readLimits_reads (h : readLimits f x y z = .ok limits) :
    (∀ b ∈ [limits.perTransactionLimit, limits.dailyTransferLimit, limits.maxBalance].reduceOption,
      ∃ a ∈ [x, y, z].reduceOption, f a = .ok b) ∧
    ∀ a ∈ [x, y, z].reduceOption,
      ∃ b ∈ [limits.perTransactionLimit, limits.dailyTransferLimit, limits.maxBalance].reduceOption,
        f a = .ok b := by
  obtain ⟨hx, hy, hz⟩ := readLimits_ok h
  simp only [mem_reduceOption]
  constructor
  · rintro b (hb | hb | hb)
    · obtain ⟨a, ha, hf⟩ := (orNull_ok hx).1 b hb
      exact ⟨a, .inl ha, hf⟩
    · obtain ⟨a, ha, hf⟩ := (orNull_ok hy).1 b hb
      exact ⟨a, .inr (.inl ha), hf⟩
    · obtain ⟨a, ha, hf⟩ := (orNull_ok hz).1 b hb
      exact ⟨a, .inr (.inr ha), hf⟩
  · rintro a (ha | ha | ha)
    · obtain ⟨b, hb, hf⟩ := (orNull_ok hx).2 a ha
      exact ⟨b, .inl hb, hf⟩
    · obtain ⟨b, hb, hf⟩ := (orNull_ok hy).2 a ha
      exact ⟨b, .inr (.inl hb), hf⟩
    · obtain ⟨b, hb, hf⟩ := (orNull_ok hz).2 a ha
      exact ⟨b, .inr (.inr hb), hf⟩

theorem readLimits_of (h : ∀ a ∈ [x, y, z].reduceOption, ∃ b, f a = .ok b) :
    ∃ limits, readLimits f x y z = .ok limits := by
  simp only [mem_reduceOption] at h
  obtain ⟨a, ha⟩ := orNull_of fun a hx => h a (.inl hx)
  obtain ⟨b, hb⟩ := orNull_of fun a hy => h a (.inr (.inl hy))
  obtain ⟨c, hc⟩ := orNull_of fun a hz => h a (.inr (.inr hz))
  exact ⟨⟨a, b, c⟩, by simp [readLimits, ha, hb, hc, bind, Except.bind, pure, Except.pure]⟩

theorem readLimits_error {e : Err} (h : readLimits f x y z = .error e) :
    ∃ a ∈ [x, y, z].reduceOption, f a = .error e := by
  have orNull_error : ∀ {w : Option α}, orNull f w = .error e → ∃ a ∈ w, f a = .error e := by
    intro w hw
    cases w with
    | none => cases hw
    | some a =>
      refine ⟨a, rfl, ?_⟩
      cases hf : f a with
      | ok b => simp [orNull, hf, Except.map] at hw
      | error e' => simpa [orNull, hf, Except.map] using hw
  simp only [mem_reduceOption]
  unfold readLimits at h
  cases hx : orNull f x with
  | error e' =>
    simp only [hx, bind, Except.bind, Except.error.injEq] at h
    obtain ⟨a, ha, hf⟩ := orNull_error (h ▸ hx)
    exact ⟨a, .inl ha, hf⟩
  | ok a =>
    cases hy : orNull f y with
    | error e' =>
      simp only [hx, hy, bind, Except.bind, Except.error.injEq] at h
      obtain ⟨a, ha, hf⟩ := orNull_error (h ▸ hy)
      exact ⟨a, .inr (.inl ha), hf⟩
    | ok b =>
      cases hz : orNull f z with
      | error e' =>
        simp only [hx, hy, hz, bind, Except.bind, Except.error.injEq] at h
        obtain ⟨a, ha, hf⟩ := orNull_error (h ▸ hz)
        exact ⟨a, .inr (.inr ha), hf⟩
      | ok c => simp [hx, hy, hz, bind, Except.bind, pure, Except.pure] at h

end

theorem toDomain_eq_readLimits (r : KycTierLimitRecord) : KycTierLimitMapper.toDomain r =
    readLimits (Money.fromMinorUnits · r.currency) r.perTransactionLimit r.dailyTransferLimit r.maxBalance := rfl

theorem defaults_eq_readLimits (tier : KycTier) (currency : Currency) : getDefaultKycTierLimits tier currency =
    readLimits (Money.fromDecimalString · currency) (defaultLimitsMajorUnitsNGN tier).perTransaction
      (defaultLimitsMajorUnitsNGN tier).daily (defaultLimitsMajorUnitsNGN tier).maxBalance := rfl

/-! ## What `findByTier` finds -/

def negativeAmount : Err := domainException "Money amount cannot be negative" "INVALID_MONEY_AMOUNT"

theorem Money.fromMinorUnits_error {n : Int} {c : Currency} {e : Err} (h : Money.fromMinorUnits n c = .error e) :
    e = negativeAmount := by
  unfold Money.fromMinorUnits at h
  split at h <;> cases h
  rfl

section
variable {rows : Table KycTierLimitRecord.tier} {tier : KycTier} {currency : Currency} {limits : KycTierLimits}

theorem limitsOf_some {r : KycTierLimitRecord} (hrow : rows.find? tier = some r) : limitsOf rows tier currency =
    readLimits (Money.fromMinorUnits · r.currency) r.perTransactionLimit r.dailyTransferLimit r.maxBalance := by
  rw [limitsOf, hrow]
  exact toDomain_eq_readLimits r

theorem limitsOf_none (hrow : rows.find? tier = none) : limitsOf rows tier currency =
    readLimits (Money.fromDecimalString · currency) (defaultLimitsMajorUnitsNGN tier).perTransaction
      (defaultLimitsMajorUnitsNGN tier).daily (defaultLimitsMajorUnitsNGN tier).maxBalance := by
  rw [limitsOf, hrow]
  exact defaults_eq_readLimits tier currency

theorem limitsOf_in (h : limitsOf rows tier currency = .ok limits) (hfits : RowFits rows tier currency) :
    limits.In currency := by
  intro limit hlimit
  cases hrow : rows.find? tier with
  | none =>
    rw [limitsOf_none hrow] at h
    obtain ⟨s, -, hs⟩ := (readLimits_reads h).1 limit hlimit
    exact Money.fromDecimalString_currency hs
  | some r =>
    rw [limitsOf_some hrow] at h
    obtain ⟨n, hn, hread⟩ := (readLimits_reads h).1 limit hlimit
    rcases hfits r hrow with hc | hempty | ⟨n', hn', hneg⟩
    · rw [(Money.fromMinorUnits_ok.1 hread).2]
      exact hc
    · rw [KycTierLimitRecord.figures] at hempty
      rw [hempty] at hn
      cases hn
    · obtain ⟨m, -, hm⟩ := (readLimits_reads h).2 n' hn'
      exact absurd (Money.fromMinorUnits_ok.1 hm).1 (by omega)

/-- A row of another currency that sets a limit is read as it stands. -/
theorem limitsOf_not_in (h : ¬ RowFits rows tier currency) :
    ∃ limits, limitsOf rows tier currency = .ok limits ∧ ¬ limits.In currency := by
  simp only [RowFits, not_forall, not_or, not_exists, not_and, not_lt] at h
  obtain ⟨r, hrow, hc, hfigures, hnonneg⟩ := h
  obtain ⟨limits, hlimits⟩ := readLimits_of (f := (Money.fromMinorUnits · r.currency))
    fun n hn => ⟨_, Money.fromMinorUnits_ok.2 ⟨hnonneg n hn, rfl⟩⟩
  obtain ⟨n, hn⟩ := List.exists_mem_of_ne_nil _ hfigures
  refine ⟨limits, ?_, fun hin => ?_⟩
  · rw [limitsOf_some hrow]
    exact hlimits
  · obtain ⟨m, hm, hread⟩ := (readLimits_reads hlimits).2 n hn
    obtain ⟨-, rfl⟩ := Money.fromMinorUnits_ok.1 hread
    exact hc (hin _ hm)

/-- Only a negative figure cannot be read. -/
theorem limitsOf_error {e : Err} (h : limitsOf rows tier currency = .error e) : e = negativeAmount := by
  cases hrow : rows.find? tier with
  | none =>
    rw [limitsOf_none hrow] at h
    obtain ⟨s, hs, he⟩ := readLimits_error h
    have hdefaults : ∀ tier, ∀ s ∈ [(defaultLimitsMajorUnitsNGN tier).perTransaction,
        (defaultLimitsMajorUnitsNGN tier).daily, (defaultLimitsMajorUnitsNGN tier).maxBalance].reduceOption,
        (decimalParts? s).isSome = true := by
      intro tier
      cases tier <;> decide
    obtain ⟨parts, hparts⟩ := Option.isSome_iff_exists.1 (hdefaults tier s hs)
    simp [Money.fromDecimalString, hparts] at he
  | some r =>
    rw [limitsOf_some hrow] at h
    obtain ⟨n, -, hn⟩ := readLimits_error h
    exact Money.fromMinorUnits_error hn

/-! ## The comparisons -/

/-- A rejection on the figures: a limit is exceeded, or a stored figure is negative. -/
def OnFigures (tier : KycTier) (e : Err) : Prop :=
  e = transferLimitExceeded "per-transaction" tier ∨ e = transferLimitExceeded "daily" tier ∨
    e = maxBalanceExceeded tier ∨ e = negativeAmount

theorem not_onFigures (tier : KycTier) (a b : Currency) : ¬ OnFigures tier (Money.currencyMismatch a b) := by
  simp [OnFigures, Money.currencyMismatch, transferLimitExceeded, maxBalanceExceeded, negativeAmount, domainException]

theorem checkLimit_onFigures {limit : Option Money} {limitType : String} {amount : Money}
    (h : ∀ m ∈ limit, m.currency = amount.currency) :
    KycTransferLimitCheckerService.checkLimit limit limitType tier amount = .ok () ∨
      KycTransferLimitCheckerService.checkLimit limit limitType tier amount =
        .error (transferLimitExceeded limitType tier) := by
  cases limit with
  | none => exact .inl rfl
  | some m =>
    have hcompare := Money.isGreaterThanOrEqualTo_ok.2 ⟨h m rfl, rfl⟩
    by_cases hle : amount.minorUnits ≤ m.minorUnits
    · left
      simp [KycTransferLimitCheckerService.checkLimit, hcompare, hle, bind, Except.bind, pure, Except.pure]
    · right
      simp [KycTransferLimitCheckerService.checkLimit, hcompare, hle, bind, Except.bind, throw, throwThe,
        MonadExceptOf.throw]

theorem check_onFigures {account : Account} {amount : Money} (h : ∀ m ∈ limits.maxBalance, m.currency = currency)
    (hbalance : account.balance.currency = currency) (hamount : amount.currency = currency) :
    MaxBalanceGuardService.check limits tier account amount = .ok () ∨
      MaxBalanceGuardService.check limits tier account amount = .error (maxBalanceExceeded tier) := by
  unfold MaxBalanceGuardService.check
  cases hmax : limits.maxBalance with
  | none => exact .inl rfl
  | some m =>
    have hadd := Money.add_ok.2 ⟨hbalance.trans hamount.symm, rfl⟩
    have hm : m.currency = account.balance.currency := (h m hmax).trans hbalance.symm
    have hcompare : m.isGreaterThanOrEqualTo ⟨account.balance.minorUnits + amount.minorUnits,
      account.balance.currency⟩ =
        .ok (decide (account.balance.minorUnits + amount.minorUnits ≤ m.minorUnits)) :=
      Money.isGreaterThanOrEqualTo_ok.2 ⟨hm, rfl⟩
    by_cases hle : account.balance.minorUnits + amount.minorUnits ≤ m.minorUnits
    · left
      simp [hadd, hcompare, hle, bind, Except.bind, pure, Except.pure]
    · right
      simp [hadd, hcompare, hle, bind, Except.bind, throw, throwThe, MonadExceptOf.throw]

end

/-! ## The guards -/

/-- The tiers and the limits that a guard looks up. -/
def HasLimits (profiles : Table KycProfileRecord.userId) (rows : Table KycTierLimitRecord.tier) (s : Store) : Prop :=
  s.db.kycProfiles = profiles ∧ s.db.kycTierLimits = rows

section
variable {profiles : Table KycProfileRecord.userId} {rows : Table KycTierLimitRecord.tier} {i : PId} {client : Client}
  {tier : KycTier} {currency : Currency}

theorem HasLimits.passes {s s' : Store} (h : TimePasses s s') (hs : HasLimits profiles rows s) :
    HasLimits profiles rows s' := by
  obtain ⟨ms, rfl⟩ := h
  exact hs

theorem HasLimits.exec {s s' : Store} {a : Ans} {op : Op} {r : Except Err op.Res} (hs : HasLimits profiles rows s)
    (hx : exec i a op s = some (r, s')) : HasLimits profiles rows s' := by
  obtain ⟨hp, hl⟩ := exec_kyc_kept hx
  exact ⟨hp.trans hs.1, hl.trans hs.2⟩

/-- A call that only the outside world can reject, where it does not. -/
theorem unrejected {op : Op} {s s' : Store} {a : Ans} {e : Err} (hop : op.constrained = false)
    (ha : noFailures.allow s i a op) (hx : noFailures.exec i a op s = some (.error e, s')) : False := by
  have hfail := isFail_of_error hop hx
  rw [show a.isFail = false from ha] at hfail
  cases hfail

theorem resolveTier_triple (userId : String) : Triple noFailures TimePasses i (HasLimits profiles rows)
    (KycTierResolverService.resolveTier userId client)
    (fun tier s => tier = tierHeld profiles userId ∧ HasLimits profiles rows s) fun _ _ => False := by
  refine .bind (M := fun profile s => profile = profiles.find? userId ∧ HasLimits profiles rows s)
    (.await .passes (fun hs _ hx => ⟨?_, hs.exec hx⟩) fun _ ha hx => unrejected rfl ha hx) fun profile => .pure ?_
  · rw [exec_kyc_findProfile hx, hs.1]
  · rintro s ⟨rfl, hs⟩
    exact ⟨rfl, hs⟩

theorem findByTier_triple (tier : KycTier) (currency : Currency) :
    Triple noFailures TimePasses i (HasLimits profiles rows)
    (PrismaKycTierLimitRepository.findByTier tier currency client)
    (fun limits s => limitsOf rows tier currency = .ok limits ∧ HasLimits profiles rows s)
    fun e _ => limitsOf rows tier currency = .error e := by
  refine .bind (M := fun record s => record = rows.find? tier ∧ HasLimits profiles rows s)
    (.await .passes (fun hs _ hx => ⟨?_, hs.exec hx⟩) fun _ ha hx => (unrejected rfl ha hx).elim) fun record => ?_
  · rw [exec_kyc_findTierLimit hx, hs.2]
  · refine .of_and fun hrecord => ?_
    cases record with
    | none =>
      refine .ofExcept (fun limits s h hs => ⟨?_, hs⟩) fun e s h _ => ?_ <;> rw [limitsOf, ← hrecord] <;> exact h
    | some record =>
      refine .ofExcept (fun limits s h hs => ⟨?_, hs⟩) fun e s h _ => ?_ <;> rw [limitsOf, ← hrecord] <;> exact h

/-- **The guard on transfers accepts, or rejects on the figures.** -/
theorem assertWithinLimits_triple {userId : String} {amount : Money} (sourceAccountId : String)
    (htier : tierHeld profiles userId = tier) (hfits : RowFits rows tier amount.currency) :
    Triple noFailures TimePasses i (HasLimits profiles rows)
      (KycTransferLimitCheckerService.assertWithinLimits userId sourceAccountId amount) (fun _ _ => True)
      fun e _ => OnFigures tier e := by
  refine .bind ((resolveTier_triple userId).mono (fun _ h => h) (fun _ _ h => h) fun _ _ h => h.elim) fun found =>
    .of_and fun hfound => ?_
  obtain rfl : found = tier := hfound.trans htier
  refine .bind ((findByTier_triple found amount.currency).mono (fun _ h => h) (fun _ _ h => h)
    fun e _ h => .inr (.inr (.inr (limitsOf_error h)))) fun limits => .of_and fun hlimits => ?_
  have hin : limits.In amount.currency := limitsOf_in hlimits hfits
  simp only [KycTierLimits.In, mem_reduceOption] at hin
  have rejected : ∀ {limit : Option Money} {limitType : String} {m : Money} {e : Err},
    (∀ l ∈ limit, l.currency = m.currency) →
      KycTransferLimitCheckerService.checkLimit limit limitType found m = .error e →
        e = transferLimitExceeded limitType found := by
    intro limit limitType m e hl he
    rcases checkLimit_onFigures hl with h | h <;> rw [h] at he <;> cases he
    rfl
  refine .ofExcept_bind (fun _ _ => ?_) fun e _ he _ => .inl (rejected (fun l hl => hin l (.inl hl)) he)
  cases hdaily : limits.dailyTransferLimit with
  | none => exact .pure fun _ _ => trivial
  | some daily =>
    refine .bind (M := fun _ => HasLimits profiles rows)
      (.await .passes (fun hs _ hx => hs.exec hx) fun _ ha hx => (unrejected rfl ha hx).elim) fun now => ?_
    refine .bind (M := fun already s => already.currency = amount.currency ∧ HasLimits profiles rows s) ?_
      fun already => .of_and fun halready => ?_
    · refine .bind (M := fun _ => HasLimits profiles rows)
        (.await .passes (fun hs _ hx => hs.exec hx) fun _ ha hx => (unrejected rfl ha hx).elim) fun sum => ?_
      refine .ofExcept (fun m s hm hs => ⟨?_, hs⟩) fun e _ he _ =>
        .inr (.inr (.inr (Money.fromMinorUnits_error he)))
      rw [(Money.fromMinorUnits_ok.1 hm).2]
    · refine .ofExcept_bind (fun projected hprojected => ?_) fun e _ he _ => ?_
      · have hcurrency : daily.currency = projected.currency := by
          rw [(Money.add_ok.1 hprojected).2]
          exact (hin daily (.inr (.inl hdaily))).trans halready.symm
        refine .ofExcept (fun _ _ _ _ => trivial) fun e _ he _ => .inr (.inl (rejected (fun l hl => ?_) he))
        cases hl
        exact hcurrency
      · rw [Money.add_ok.2 ⟨halready, rfl⟩] at he
        cases he

/-- ... and so does the one on credits. -/
theorem assertWithinLimit_triple {account : Account} {amount : Money} (htier : tierHeld profiles account.userId = tier)
    (hbalance : account.balance.currency = account.currency) (hamount : amount.currency = account.currency)
    (hfits : RowFits rows tier account.currency) :
    Triple noFailures TimePasses i (HasLimits profiles rows)
      (MaxBalanceGuardService.assertWithinLimit account amount client) (fun _ _ => True) fun e _ =>
        OnFigures tier e := by
  refine .bind ((resolveTier_triple account.userId).mono (fun _ h => h) (fun _ _ h => h) fun _ _ h => h.elim)
    fun found =>
    .of_and fun hfound => ?_
  obtain rfl : found = tier := hfound.trans htier
  refine .bind ((findByTier_triple found account.currency).mono (fun _ h => h) (fun _ _ h => h)
    fun e _ h => .inr (.inr (.inr (limitsOf_error h)))) fun limits => .of_and fun hlimits => ?_
  have hin : limits.In account.currency := limitsOf_in hlimits hfits
  simp only [KycTierLimits.In, mem_reduceOption] at hin
  refine .ofExcept (fun _ _ _ _ => trivial) fun e _ he _ => .inr (.inr (.inl ?_))
  rcases check_onFigures (fun m hm => hin m (.inr (.inr hm))) hbalance hamount with h | h <;> rw [h] at he <;> cases he
  rfl

end

/-! ## The currency asked for -/

/-- What `findByTier` returns is in the currency that it is asked for. -/
def FindsIn (rows : Table KycTierLimitRecord.tier) (tier : KycTier) (currency : Currency) : Prop :=
  ∀ client i s tr limits s', s.db.kycTierLimits = rows →
    Run anySchedule TimePasses i (PrismaKycTierLimitRepository.findByTier tier currency client) s tr (.ok limits) s' →
      limits.In currency

/-- A guard accepts, or rejects on the figures. -/
def Decides (tier : KycTier) (x : Except Err Unit) : Prop := x = .ok () ∨ ∃ e, x = .error e ∧ OnFigures tier e

/-- So does that on transfers, of an amount in `currency`, if no call is refused. -/
def TransfersDecided (rows : Table KycTierLimitRecord.tier) (tier : KycTier) (currency : Currency) : Prop :=
  ∀ userId sourceAccountId amount i s tr x s', s.db.kycTierLimits = rows →
    tierHeld s.db.kycProfiles userId = tier →
    amount.currency = currency →
    Run noFailures TimePasses i (KycTransferLimitCheckerService.assertWithinLimits userId sourceAccountId
      amount) s tr x s' →
      Decides tier x

/-- ... and that on credits, to an account in `currency`. -/
def CreditsDecided (rows : Table KycTierLimitRecord.tier) (tier : KycTier) (currency : Currency) : Prop :=
  ∀ row account amount client i s tr x s', s.db.kycTierLimits = rows → AccountMapper.toDomain row = .ok account →
    account.currency = currency → tierHeld s.db.kycProfiles account.userId = tier → amount.currency = currency →
    Run noFailures TimePasses i (MaxBalanceGuardService.assertWithinLimit account amount client) s tr x s' →
      Decides tier x

theorem decides_of_triple {i : PId} {K : Store → Prop} {tier : KycTier} {p : Handler Unit} {s s' : Store}
    {tr : List (Event Op.Res Err Store)} {x : Except Err Unit}
    (hp : Triple noFailures TimePasses i K p (fun _ _ => True) fun e _ => OnFigures tier e) (hK : K s)
    (hr : Run noFailures TimePasses i p s tr x s') : Decides tier x := by
  rcases hp.run hr hK with ⟨⟨⟩, rfl, -⟩ | ⟨e, rfl, he⟩
  · exact .inl rfl
  · exact .inr ⟨e, rfl, he⟩

theorem findByTier_ok {tier : KycTier} {currency : Currency} {client : Client} {i : PId} {s s' : Store}
    {tr : List (Event Op.Res Err Store)} {limits : KycTierLimits}
    (hr : Run anySchedule TimePasses i (PrismaKycTierLimitRepository.findByTier tier currency client) s tr
      (.ok limits) s') :
    limitsOf s.db.kycTierLimits tier currency = .ok limits := by
  obtain ⟨s1, a, r, s2, rest, ⟨ms, rfl⟩, -, hx, -, ⟨record, rfl, h⟩ | ⟨e, -, -, he, -⟩⟩ := hr.await_bind
  · have hrecord := exec_kyc_findTierLimit hx
    rw [show (tick ms s).db = s.db from rfl] at hrecord
    rw [limitsOf, ← hrecord]
    cases record with
    | none => exact h.ofExcept.2.1.symm
    | some record => exact h.ofExcept.2.1.symm
  · cases he

theorem findByTier_run {rows : Table KycTierLimitRecord.tier} {tier : KycTier} {currency : Currency}
    {limits : KycTierLimits}
    (h : limitsOf rows tier currency = .ok limits) : ∃ s tr s', s.db.kycTierLimits = rows ∧
      Run anySchedule TimePasses 0 (PrismaKycTierLimitRepository.findByTier tier currency .prisma) s tr
        (.ok limits) s' := by
  let s : Store := .init { Db.empty with kycTierLimits := rows } 0
  have hx : ∀ record, rows.find? tier = record →
      exec 0 .ok (.kyc .prisma (.findTierLimit tier)) s = some (.ok record, s) := by
    rintro record rfl
    rfl
  rw [limitsOf] at h
  cases hrow : rows.find? tier with
  | none =>
    rw [hrow] at h
    refine ⟨s, [⟨.kyc .prisma (.findTierLimit tier), .ok none, s, s⟩], s, rfl, s, .ok, .ok none, s, [],
      ⟨0, rfl⟩, trivial, hx none hrow, rfl, ?_⟩
    show Run anySchedule TimePasses 0 (Prog.ofExcept (getDefaultKycTierLimits tier currency) : Handler _) s [] _ s
    rw [show getDefaultKycTierLimits tier currency = _ from h]
    exact ⟨rfl, rfl, rfl⟩
  | some record =>
    rw [hrow] at h
    refine ⟨s, [⟨.kyc .prisma (.findTierLimit tier), .ok (some record), s, s⟩], s, rfl, s, .ok,
      .ok (some record), s, [], ⟨0, rfl⟩, trivial,
      hx (some record) hrow, rfl, ?_⟩
    show Run anySchedule TimePasses 0 (Prog.ofExcept (KycTierLimitMapper.toDomain record) : Handler _) s [] _ s
    rw [show KycTierLimitMapper.toDomain record = _ from h]
    exact ⟨rfl, rfl, rfl⟩

/-- **The limits are in the currency asked for, and the guards decide on the figures, exactly where the row of the tier
is of that currency**, or says nothing. -/
theorem limits_in_currency_iff (rows : Table KycTierLimitRecord.tier) (tier : KycTier) (currency : Currency) :
    (FindsIn rows tier currency ∧ TransfersDecided rows tier currency ∧ CreditsDecided rows tier currency) ↔
      RowFits rows tier currency := by
  constructor
  · rintro ⟨hfinds, -⟩
    by_contra hfits
    obtain ⟨limits, hlimits, hin⟩ := limitsOf_not_in hfits
    obtain ⟨s, tr, s', hrows, hr⟩ := findByTier_run hlimits
    exact hin (hfinds .prisma 0 s tr limits s' hrows hr)
  · intro hfits
    refine ⟨fun client i s tr limits s' hrows hr => ?_, ?_, ?_⟩
    · exact limitsOf_in (hrows ▸ findByTier_ok hr) hfits
    · rintro userId sourceAccountId amount i s tr x s' hrows htier rfl hr
      exact decides_of_triple (assertWithinLimits_triple sourceAccountId htier hfits) ⟨rfl, hrows⟩ hr
    · rintro row account amount client i s tr x s' hrows hload rfl htier hamount hr
      exact decides_of_triple (assertWithinLimit_triple htier (AccountMapper.toDomain_ok hload).2.1 hamount hfits)
        ⟨rfl, hrows⟩ hr

/-- TIER_1 has its limits in naira. -/
def sampleNairaLimits : Table KycTierLimitRecord.tier :=
  Table.empty.put ⟨.TIER_1, .NGN, some 5000000, some 5000000, some 30000000⟩

/-- $10.00 are held against them. -/
theorem naira_limits_for_dollars : ¬ RowFits sampleNairaLimits .TIER_1 .USD ∧ ∃ tr s',
    Run noFailures TimePasses 0 (KycTransferLimitCheckerService.assertWithinLimits "user" "acc" ⟨1000, .USD⟩)
      (.init { Db.empty with kycTierLimits := sampleNairaLimits } 0) tr
        (.error (Money.currencyMismatch .NGN .USD)) s' ∧
    ¬ TransfersDecided sampleNairaLimits .TIER_1 .USD := by
  have hplay : (playRun noFailures 0 [.ok, .ok]
      (KycTransferLimitCheckerService.assertWithinLimits "user" "acc" ⟨1000, .USD⟩)
      (.init { Db.empty with kycTierLimits := sampleNairaLimits } 0)).any fun r =>
        r.2.1 = .error (Money.currencyMismatch .NGN .USD) := by decide +kernel
  obtain ⟨tr, x, s', hrun, rfl⟩ :=
    playRun_seen (Q := fun _ x (_ : Store) => x = .error (Money.currencyMismatch .NGN .USD)) hplay
  have hat : ∀ s : Store, TimePasses s s := fun s => ⟨0, rfl⟩
  have hrun := run_of_play hat hrun
  refine ⟨fun h => ?_, tr, s', hrun, fun h => ?_⟩
  · rcases h ⟨.TIER_1, .NGN, some 5000000, some 5000000, some 30000000⟩ (by decide) with h | h | ⟨n, hn, hneg⟩
    · cases h
    · cases h
    · revert n
      decide
  · rcases h "user" "acc" ⟨1000, .USD⟩ 0 _ tr _ s' rfl rfl rfl hrun with h | ⟨e, he, hon⟩
    · cases h
    · cases he
      exact not_onFigures _ _ _ hon

end Kudi
