import KudiCore.Concurrency.InternalTransfer

/-!
# The ceiling on balances

| here | there |
| --- | --- |
| `maxBalanceOf`        | what `MaxBalanceGuardService.assertWithinLimit` compares the credited balance with |
| `CeilingHappening.upgraded` | a KYC profile is saved with another tier, never a lower one |
| `RefundFits`          | the justification at `confirm-external-transfer.handler.ts:108` |

A guarded credit is checked against the tier that its program has read; tiers only rise, and so do their ceilings. A
refund is not checked: it returns what a hold has taken, but other credits may have filled the gap since.
-/

namespace Kudi

open Interleave Protocol

/-! ## The ceiling -/

def KycTier.level : KycTier → Nat
  | .TIER_1 => 1
  | .TIER_2 => 2
  | .TIER_3 => 3

/-- The tier that `resolveTier` finds. -/
def tierHeld (profiles : Table KycProfileRecord.userId) (userId : String) : KycTier :=
  ((profiles.find? userId).map (·.tier)).getD .TIER_1

/-- The limits that `findByTier` finds. -/
def limitsOf (limits : Table KycTierLimitRecord.tier) (tier : KycTier) (currency : Currency) :
    Except Err KycTierLimits :=
  match limits.find? tier with
  | some record => KycTierLimitMapper.toDomain record
  | none => getDefaultKycTierLimits tier currency

/-- The ceiling of a tier, in minor units. -/
def ceilingOf (limits : Table KycTierLimitRecord.tier) (tier : KycTier) (currency : Currency) : Option Nat :=
  match limitsOf limits tier currency with
  | .ok limits => limits.maxBalance.map (·.minorUnits)
  | .error _ => none

/-- The ceiling that the holder of the account is under. -/
def maxBalanceOf (db : Db) (row : AccountRecord) : Option Nat :=
  ceilingOf db.kycTierLimits (tierHeld db.kycProfiles row.userId) row.currency

def UnderCeiling (db : Db) (row : AccountRecord) : Prop := ∀ cap ∈ maxBalanceOf db row, row.balance ≤ cap

instance (db : Db) (row : AccountRecord) : Decidable (UnderCeiling db row) :=
  inferInstanceAs (Decidable (∀ cap ∈ maxBalanceOf db row, _))

/-- A higher tier has no lower ceiling. -/
def CeilingsRise (limits : Table KycTierLimitRecord.tier) : Prop :=
  ∀ t t' : KycTier, t.level ≤ t'.level → ∀ currency, ∀ cap' ∈ ceilingOf limits t' currency,
    ∃ cap ∈ ceilingOf limits t currency, cap ≤ cap'

/-! ## The programs -/

inductive MoneyRequest where
  | credit (command : CreditAccountCommand)
  | internal (fuel : Nat) (command : InitiateInternalTransferCommand)
  | external (fuel : Nat) (command : InitiateExternalTransferCommand)
  | confirmation (command : ConfirmExternalTransferCommand)

namespace MoneyRequest

def program : MoneyRequest → Handler Unit
  | .credit command => forget (CreditAccountHandler.execute command)
  | .internal fuel command => forget (InitiateInternalTransferHandler.execute fuel command)
  | .external fuel command => forget (InitiateExternalTransferHandler.execute fuel command)
  | .confirmation command => ConfirmExternalTransferHandler.execute command

/-- The handlers with a compensating credit. -/
def refunds : MoneyRequest → Bool
  | .external .. | .confirmation _ => true
  | _ => false

end MoneyRequest

inductive CeilingHappening where
  | tick (ms : Nat)
  | upgraded (userId : String) (tier : KycTier)

def CeilingHappening.act : CeilingHappening → Store → Store
  | .tick ms, s => Kudi.tick ms s
  | .upgraded userId tier, s =>
    if (tierHeld s.db.kycProfiles userId).level ≤ tier.level then
      { s with db := { s.db with kycProfiles := s.db.kycProfiles.put ⟨userId, tier⟩ } }
    else s

/-- The schedules whose steps meet `allow`, with upgrades in between. -/
def ceilingSchedule (allow : Store → PId → Ans → Op → Prop) : System Op.Res Err Store Ans CeilingHappening :=
  ⟨exec, CeilingHappening.act, allow⟩

/-- What the events of a save credit. -/
def creditedBy (events : List AccountEvent) : Nat := (events.map AccountEvent.creditedAmount).sum

/-- Where a compensating credit lands, the stored balance and the credit together are within the ceiling. -/
def RefundFits (requests : PId → MoneyRequest) (s : Store) (i : PId) (a : Ans) (op : Op) : Prop :=
  match op with
  | .account .prisma (.updateMany _ data events) =>
    (requests i).refunds = true → 0 < creditedBy events → lands s i a op →
      ∀ row ∈ s.db.accounts.find? data.id, UnderCeiling s.db { row with balance := row.balance + creditedBy events }
  | _ => True

instance (requests : PId → MoneyRequest) (s : Store) (i : PId) (a : Ans) (op : Op) :
    Decidable ((ceilingSchedule (RefundFits requests)).allow s i a op) :=
  match op with
  | .account .prisma (.updateMany version data events) =>
    inferInstanceAs (Decidable ((requests i).refunds = true → 0 < creditedBy events →
      lands s i a (.account .prisma (.updateMany version data events)) →
        ∀ row ∈ s.db.accounts.find? data.id, UnderCeiling s.db
          { row with balance := row.balance + creditedBy events }))
  | .account .prisma (.findUnique _) | .account .prisma (.findMany _) | .account .prisma (.count _)
  | .account .prisma (.create _) | .account .tx _ | .transfer .. | .ledgerEntry .. | .idempotencyKey _ | .kyc ..
  | .transaction _ | .payout _ | .publish _ | .randomUUID | .generateReference | .dateNow | .mark _ => isTrue trivial

/-! ## The protocol -/

structure Checked where
  rows : List AccountRecord
  /-- Tiers that have been read, each with its user. -/
  tiers : List (String × KycTier)

/-- The balance of `data` is within the ceiling of a tier that its holder has had. -/
def Cleared (limits : Table KycTierLimitRecord.tier) (tiers : List (String × KycTier)) (data : AccountRecord) : Prop :=
  ∃ t ∈ tiers, t.1 = data.userId ∧ ∀ cap ∈ ceilingOf limits t.2 data.currency, data.balance ≤ cap

def ceilingProtocol (requests : PId → MoneyRequest) (limits : Table KycTierLimitRecord.tier) :
    Protocol Op.Res Err where
  State := Checked
  ok i st op := match op with
    | .account c (.updateMany version data events) =>
      ∃ r ∈ st.rows, version = r.version ∧ data.id = r.id ∧ data.userId = r.userId ∧
        data.currency = r.currency ∧
        (data.balance ≤ r.balance ∨ Cleared limits st.tiers data ∨
          (requests i).refunds = true ∧ c = .prisma ∧ data.balance = r.balance + creditedBy events)
    | .account _ (.create _) => False
    | _ => True
  yields _ _ op r := match op, r with
    | .kyc _ (.findTierLimit tier), .ok record => record = limits.find? tier
    | _, _ => True
  next _ st op r := match op, r with
    | .kyc _ (.findProfile userId), .ok profile =>
      { st with tiers := (userId, (profile.map (·.tier)).getD .TIER_1) :: st.tiers }
    | _, _ => { st with rows := loaded st.rows op r }

/-! ## The invariant -/

section
variable {db db' : Db} {row data r : AccountRecord}

theorem UnderCeiling.congr (h : UnderCeiling db row)
    (hkyc : db'.kycProfiles = db.kycProfiles ∧ db'.kycTierLimits = db.kycTierLimits) : UnderCeiling db' row := by
  unfold UnderCeiling maxBalanceOf
  rw [hkyc.1, hkyc.2]
  exact h

theorem UnderCeiling.of_le (h : UnderCeiling db r) (huser : data.userId = r.userId)
    (hcurrency : data.currency = r.currency)
    (hle : data.balance ≤ r.balance) : UnderCeiling db data := by
  intro cap hcap
  unfold maxBalanceOf at hcap
  rw [huser, hcurrency] at hcap
  exact hle.trans (h cap hcap)

/-- A tier that has been read is no higher than the tier there is. -/
theorem UnderCeiling.of_cleared (hrise : CeilingsRise db.kycTierLimits) {tiers : List (String × KycTier)}
    (htiers : ∀ t ∈ tiers, t.2.level ≤ (tierHeld db.kycProfiles t.1).level)
    (h : Cleared db.kycTierLimits tiers data) : UnderCeiling db data := by
  obtain ⟨t, ht, huser, hle⟩ := h
  intro cap hcap
  obtain ⟨cap0, hcap0, hcaps⟩ := hrise t.2 _ (huser ▸ htiers t ht) data.currency cap hcap
  exact (hle cap0 hcap0).trans (by exact_mod_cast hcaps)

theorem UnderCeiling.upgraded (h : UnderCeiling db row) (hrise : CeilingsRise db.kycTierLimits)
    (hlimits : db'.kycTierLimits = db.kycTierLimits)
    (hlevel : (tierHeld db.kycProfiles row.userId).level ≤ (tierHeld db'.kycProfiles row.userId).level) :
    UnderCeiling db' row := by
  intro cap hcap
  unfold maxBalanceOf at hcap
  rw [hlimits] at hcap
  obtain ⟨cap0, hcap0, hcaps⟩ := hrise _ _ hlevel row.currency cap hcap
  exact (h cap0 hcap0).trans (by exact_mod_cast hcaps)

end

/-- The stored rows, and those that the open transactions have written. -/
structure UnderCeilings (s : Store) : Prop where
  rows : ∀ row ∈ s.db.accounts.rows, UnderCeiling s.db row
  staged : ∀ i, ∀ w ∈ s.staged i, ∀ row, accountRow w = some row → UnderCeiling s.db row

structure CeilingInv (limits : Table KycTierLimitRecord.tier) (db0 : Db) (s : Store) (sts : PId → Copies)
    (checked : PId → Checked) : Prop where
  loads : LoadsInv db0 s sts fun i => (checked i).rows
  limits : s.db.kycTierLimits = limits
  tiers : ∀ i, ∀ t ∈ (checked i).tiers, t.2.level ≤ (tierHeld s.db.kycProfiles t.1).level
  under : UnderCeilings s

section
variable {requests : PId → MoneyRequest} {limits : Table KycTierLimitRecord.tier} {db0 : Db} {s s' : Store}
  {sts : PId → Copies} {checked : PId → Checked} {i : PId} {a : Ans} {op : Op} {r : Except Err op.Res}

theorem UnderCeilings.of_rows (h : UnderCeilings s)
    (hkyc : s'.db.kycProfiles = s.db.kycProfiles ∧ s'.db.kycTierLimits = s.db.kycTierLimits)
    (hrows : ∀ row ∈ s'.db.accounts.rows, row ∈ s.db.accounts.rows ∨ UnderCeiling s.db row)
    (hstaged : ∀ j, ∀ w ∈ s'.staged j, w ∈ s.staged j ∨ ∀ row, accountRow w = some row →
      UnderCeiling s.db row) :
    UnderCeilings s' where
  rows row hrow := ((hrows row hrow).elim (h.rows row) id).congr hkyc
  staged j w hw row hr := ((hstaged j w hw).elim (fun hw => h.staged j w hw row hr) fun hw => hw row hr).congr hkyc

/-- What program `i` sees. -/
theorem UnderCeilings.view (h : UnderCeilings s) {c : Client} {db : Db} (hv : s.view i c = some db) {id : String}
    {row : AccountRecord} (hrow : db.accounts.find? id = some row) : UnderCeiling s.db row := by
  cases c with
  | prisma =>
    rw [(AccountsInv.view_row hv).2 rfl] at hrow
    exact h.rows row (Table.mem_of_find? hrow)
  | tx =>
    rw [(AccountsInv.view_row hv).1 rfl] at hrow
    rcases Table.find?_of_replay hrow with hrow | ⟨w, hw, hr⟩
    · exact h.rows row (Table.mem_of_find? hrow)
    · exact h.staged i w hw row hr

theorem UnderCeilings.write (h : UnderCeilings s) {c : Client} {w : Write}
    (hw : ∀ row, accountRow w = some row → UnderCeiling s.db row) : UnderCeilings (s.write i c w) := by
  cases c with
  | prisma =>
    refine h.of_rows ⟨Db.apply_kycProfiles _ _, Db.apply_kycTierLimits _ _⟩ (fun row hrow => ?_)
      fun j w' hw' => .inl hw'
    have haccounts : (s.write i .prisma w).db.accounts = s.db.accounts.write accountRow w :=
      applyAll_accounts s.db [w]
    rw [haccounts, Table.write] at hrow
    cases hr : accountRow w with
    | none =>
      rw [hr] at hrow
      exact .inl hrow
    | some data =>
      rw [hr] at hrow
      rcases (Table.mem_put _ _ _).1 hrow with rfl | ⟨hrow, -⟩
      · exact .inr (hw row hr)
      · exact .inl hrow
  | tx =>
    refine h.of_rows ⟨rfl, rfl⟩ (fun row hrow => .inl hrow) fun j w' hw' => ?_
    rw [Store.staged_write_tx] at hw'
    split at hw'
    · rename_i hj
      subst hj
      rcases List.mem_append.1 hw' with hw' | hw'
      · exact .inl hw'
      · obtain rfl := List.mem_singleton.1 hw'
        exact .inr hw
    · exact .inl hw'

theorem UnderCeilings.settle (h : UnderCeilings s) : UnderCeilings (s.commit i) ∧ UnderCeilings (s.rollback i) := by
  have hstaged : ∀ {j w}, w ∈ (if i = j then [] else s.staged j) → w ∈ s.staged j := fun {j w} hw => by
    split at hw
    · cases hw
    · exact hw
  constructor
  · refine h.of_rows (Db.applyAll_kyc _ _) (fun row hrow => ?_) fun j w hw =>
      .inl (hstaged (Store.staged_commit ▸ hw))
    rw [Store.db_commit, applyAll_accounts] at hrow
    rcases Table.find?_of_replay (Table.find?_of_mem hrow) with hrow | ⟨w, hw, hr⟩
    · exact .inl (Table.mem_of_find? hrow)
    · exact .inr (h.staged i w hw row hr)
  · exact h.of_rows ⟨rfl, rfl⟩ (fun row hrow => .inl hrow) fun j w hw =>
      .inl (hstaged (Store.staged_rollback ▸ hw))

/-- A save that matches replaces the row that was loaded. -/
theorem CeilingInv.save (h : CeilingInv limits db0 s sts checked) (hrise : CeilingsRise limits) {c : Client}
    {version n : Nat} {data : AccountRecord} {events : List AccountEvent}
    (hok : (ceilingProtocol requests limits).ok i (checked i) (.account c (.updateMany version data events)))
    (ha : RefundFits requests s i a (.account c (.updateMany version data events)))
    (hx : exec i a (.account c (.updateMany version data events)) s = some (.ok n, s')) : UnderCeilings s' := by
  obtain ⟨r, hr, rfl, hid, huser, hcurrency, hbalance⟩ := hok
  rcases Nat.eq_zero_or_pos n with rfl | hn
  · rcases exec_account_updateMany hx with ⟨-, rfl⟩ | ⟨h0, -⟩
    · exact h.under
    · cases h0
  · obtain ⟨rfl, db, hv, hrow⟩ := h.loads.accounts.stored_is_copy (h.loads.copies i r hr) hid hx hn.ne'
    have hdata : UnderCeiling s.db data := by
      rcases hbalance with hle | hcleared | ⟨hrefunds, rfl, hcredit⟩
      · exact (h.under.view hv hrow).of_le huser hcurrency hle
      · exact .of_cleared (h.limits ▸ hrise) (h.tiers i) (h.limits ▸ hcleared)
      · rcases Nat.eq_zero_or_pos (creditedBy events) with hzero | hpos
        · exact (h.under.view hv hrow).of_le huser hcurrency (by simp [hcredit, hzero])
        · rw [(AccountsInv.view_row hv).2 rfl] at hrow
          exact (ha hrefunds hpos (lands_of_write hx) r hrow).of_le huser hcurrency hcredit.le
    refine h.under.write fun row hr => ?_
    rw [accountRow_account, Option.some.injEq] at hr
    exact hr ▸ hdata

theorem CeilingInv.under_step (h : CeilingInv limits db0 s sts checked) (hrise : CeilingsRise limits)
    (hok : (ceilingProtocol requests limits).ok i (checked i) op) (ha : RefundFits requests s i a op)
    (hx : exec i a op s = some (r, s')) : UnderCeilings s' := by
  have same : s.SameRows s' → UnderCeilings s' := fun hs =>
    h.under.of_rows (by rw [hs.db]; exact ⟨rfl, rfl⟩) (fun row hrow => .inl (hs.db ▸ hrow))
      fun j w hw => .inl (hs.staged ▸ hw)
  rcases r with e | x
  · rcases exec_error hx with hs | ⟨-, rfl⟩
    · exact same hs
    · exact h.under.settle.2
  by_cases ht : ∃ q, op = .transaction q
  · obtain ⟨q, rfl⟩ := ht
    cases q with
    | begin =>
      obtain ⟨hnone, rfl⟩ := exec_begin hx
      refine h.under.of_rows ⟨rfl, rfl⟩ (fun row hrow => .inl hrow) fun j w hw => .inl ?_
      by_cases hj : i = j
      · subst hj
        simp [Store.staged] at hw
      · simpa [Store.staged, hj] using hw
    | commit => exact exec_commit hx ▸ h.under.settle.1
    | rollback => exact exec_rollback hx ▸ h.under.settle.2
  · by_cases hsave : op.savedAccount? = none
    · rcases exec_performs (fun q e => ht ⟨q, e⟩) hx with hs | ⟨c, w, rfl, hp⟩
      · exact same hs
      · refine h.under.write fun row hr => ?_
        rw [accountRow, performs_no_account hsave hp] at hr
        cases hr
    · cases op with
      | account c q =>
        cases q with
        | updateMany version data events => exact h.save hrise hok ha hx
        | create data => exact absurd hok (by cases c <;> exact id)
        | _ => exact absurd rfl hsave
      | transfer c q => exact absurd rfl hsave
      | _ => exact absurd rfl hsave

theorem ceiling_rows {st : Checked} :
    ((ceilingProtocol requests limits).next i st op r).rows = loaded st.rows op r := by
  cases op with
  | kyc c q => cases q <;> rcases r with e | x <;> rfl
  | _ => rfl

/-- A tier that is recorded is the tier that was read. -/
theorem ceiling_tiers {st : Checked} (hx : exec i a op s = some (r, s')) :
    ∀ t ∈ ((ceilingProtocol requests limits).next i st op r).tiers,
      t ∈ st.tiers ∨ t.2 = tierHeld s.db.kycProfiles t.1 := by
  intro t ht
  cases op with
  | kyc c q =>
    cases q with
    | findTierLimit tier => rcases r with e | x <;> exact .inl ht
    | findProfile userId =>
      rcases r with e | profile
      · exact .inl ht
      · rcases List.mem_cons.1 ht with rfl | ht
        · rw [exec_kyc_findProfile hx]
          exact .inr rfl
        · exact .inl ht
  | _ => exact .inl ht

theorem ceiling_yields (hlimits : s.db.kycTierLimits = limits) {st : Checked} (hx : exec i a op s = some (r, s')) :
    (ceilingProtocol requests limits).yields i st op r := by
  cases op with
  | kyc c q =>
    cases q with
    | findProfile userId => rcases r with e | x <;> trivial
    | findTierLimit tier =>
      rcases r with e | x
      · trivial
      · exact (exec_kyc_findTierLimit hx).trans (by rw [hlimits])
  | _ => rcases r with e | x <;> trivial

/-- **Every permitted call keeps the balances under their ceilings.** -/
theorem CeilingInv.step (h : CeilingInv limits db0 s sts checked) (hrise : CeilingsRise limits)
    (hok : (accountProtocol .free).ok i (sts i) op) (hok' : (ceilingProtocol requests limits).ok i (checked i) op)
    (ha : RefundFits requests s i a op) (hx : exec i a op s = some (r, s')) :
    ((accountProtocol .free).yields i (sts i) op r ∧ (ceilingProtocol requests limits).yields i (checked i) op r) ∧
      CeilingInv limits db0 s' (Function.update sts i ((accountProtocol .free).next i (sts i) op r))
        (Function.update checked i ((ceilingProtocol requests limits).next i (checked i) op r)) := by
  obtain ⟨hy, hloads⟩ := h.loads.step hok hx
  have hkyc := exec_kyc_kept hx
  have hrows :
      (fun j => (Function.update checked i ((ceilingProtocol requests limits).next i (checked i) op r) j).rows) =
      Function.update (fun j => (checked j).rows) i (loaded (checked i).rows op r) := by
    rw [← ceiling_rows]
    exact Function.comp_update Checked.rows checked i _
  have htiers : ∀ j,
      ∀ t ∈ (Function.update checked i ((ceilingProtocol requests limits).next i (checked i) op r) j).tiers,
      t.2.level ≤ (tierHeld s'.db.kycProfiles t.1).level := by
    rw [hkyc.1]
    refine (Function.forall_update_iff checked
      (p := fun _ (st : Checked) => ∀ t ∈ st.tiers, t.2.level ≤ (tierHeld s.db.kycProfiles t.1).level)).2
      ⟨fun t ht => ?_, fun j _ => h.tiers j⟩
    rcases ceiling_tiers hx t ht with ht | ht
    · exact h.tiers i t ht
    · exact ht ▸ le_rfl
  exact ⟨⟨hy, ceiling_yields h.limits hx⟩, hrows ▸ hloads, hkyc.2.trans h.limits, htiers,
    h.under_step hrise hok' ha hx⟩

theorem CeilingInv.act (h : CeilingInv limits db0 s sts checked) (hrise : CeilingsRise limits) (x : CeilingHappening) :
    CeilingInv limits db0 (x.act s) sts checked := by
  cases x with
  | tick ms =>
    exact ⟨h.loads.tick ms, h.limits, h.tiers, h.under.rows, h.under.staged⟩
  | upgraded userId tier =>
    unfold CeilingHappening.act
    dsimp only
    split
    · rename_i hup
      have hlevel : ∀ u, (tierHeld s.db.kycProfiles u).level ≤
        (tierHeld (s.db.kycProfiles.put ⟨userId, tier⟩) u).level := by
        intro u
        by_cases hu : userId = u
        · subst hu
          simpa [tierHeld] using hup
        · simp [tierHeld, hu]
      refine ⟨⟨h.loads.accounts.of_eq rfl rfl fun _ => rfl, h.loads.copies⟩, h.limits,
        fun j t ht => (h.tiers j t ht).trans (hlevel t.1), fun row hrow => ?_, fun j w hw row hr => ?_⟩
      · exact (h.under.rows row hrow).upgraded (h.limits ▸ hrise) rfl (hlevel row.userId)
      · exact (h.under.staged j w hw row hr).upgraded (h.limits ▸ hrise) rfl (hlevel row.userId)
    · exact h

end

/-! ## The programs obey -/

section
variable {requests : PId → MoneyRequest} {limits : Table KycTierLimitRecord.tier} {i : PId} {ε α β : Type}
  {st : Checked}

theorem MaxBalanceGuardService.check_ok {l : KycTierLimits} {tier : KycTier} {account : Account} {amount : Money}
    (h : check l tier account amount = .ok ()) :
    ∀ cap ∈ l.maxBalance.map (·.minorUnits), account.balance.minorUnits + amount.minorUnits ≤ cap := by
  intro cap hcap
  obtain ⟨m, hm, rfl⟩ := Option.map_eq_some_iff.1 hcap
  unfold check at h
  rw [hm] at h
  cases ha : account.balance.add amount with
  | error e => simp [ha, bind, Except.bind] at h
  | ok total =>
    cases hg : m.isGreaterThanOrEqualTo total with
    | error e => simp [ha, hg, bind, Except.bind] at h
    | ok b =>
      obtain ⟨-, hb⟩ := Money.isGreaterThanOrEqualTo_ok.1 hg
      obtain ⟨-, rfl⟩ := Money.add_ok.1 ha
      simp only [ha, hg, bind, Except.bind] at h
      by_cases hle : account.balance.minorUnits + amount.minorUnits ≤ m.minorUnits
      · exact hle
      · simp [hb, hle, throw, throwThe, MonadExceptOf.throw] at h

/-- The tier that the guard has read clears the credit. -/
theorem assertWithinLimit_obeys (account : Account) (amount : Money) (client : Client) :
    (ceilingProtocol requests limits).Obeys i
      (fun st' x => st'.rows = st.rows ∧ (x = .ok () → ∃ t ∈ st'.tiers, t.1 = account.userId ∧
        ∀ cap ∈ ceilingOf limits t.2 account.currency, account.balance.minorUnits + amount.minorUnits ≤ cap))
      (MaxBalanceGuardService.assertWithinLimit account amount client) st := by
  have hresolve : (ceilingProtocol requests limits).Obeys i
      (fun st' x => st'.rows = st.rows ∧ ∀ tier, x = .ok tier → (account.userId, tier) ∈ st'.tiers)
      (KycTierResolverService.resolveTier account.userId client) st := by
    refine .await_bind trivial (fun profile _ => ⟨rfl, fun tier h => ?_⟩) fun _ _ =>
      ⟨rfl, fun _ h => by cases h⟩
    cases h
    exact List.mem_cons_self
  have hfind : ∀ tier (st' : Checked), (ceilingProtocol requests limits).Obeys i
      (fun st'' x => st'' = st' ∧ ∀ l, x = .ok l → limitsOf limits tier account.currency = .ok l)
      (PrismaKycTierLimitRepository.findByTier tier account.currency client) st' := by
    intro tier st'
    refine .await_bind trivial (fun record hrecord => ?_) fun _ _ => ⟨rfl, fun _ h => by cases h⟩
    have hrecord : record = limits.find? tier := hrecord
    cases record <;> refine .ofExcept ⟨rfl, fun l hl => ?_⟩ <;> rw [limitsOf, ← hrecord] <;> exact hl
  refine Obeys.bind (P := ceilingProtocol requests limits) hresolve (fun st1 tier h1 => ?_) fun _ _ h =>
    ⟨h.1, fun h => by cases h⟩
  refine Obeys.bind (P := ceilingProtocol requests limits) (hfind tier st1) (fun st2 l h2 => ?_) fun st2 _ h2 =>
    ⟨h2.1 ▸ h1.1, fun h => by cases h⟩
  obtain ⟨rfl, hl⟩ := h2
  refine .ofExcept ⟨h1.1, fun hx => ⟨_, h1.2 tier rfl, rfl, ?_⟩⟩
  have hcheck := MaxBalanceGuardService.check_ok hx
  rw [ceilingOf, hl l rfl]
  exact hcheck

/-! ### Saves -/

theorem save_debited {r : AccountRecord} {a a' : Account} {amount : Money} {reference : String} {c : Client}
    (hr : r ∈ st.rows) (hl : AccountMapper.toDomain r = .ok a) (hd : a.debit amount reference = .ok a') :
    (ceilingProtocol requests limits).ok i st
      (.account c (.updateMany (a'.version - 1) (AccountMapper.toPersistence a') a'.domainEvents)) := by
  obtain ⟨rfl, hab, -⟩ := AccountMapper.toDomain_ok hl
  obtain ⟨-, -, -, rfl⟩ := (Account.debit_ok hab).1 hd
  refine ⟨_, hr, rfl, rfl, rfl, rfl, .inl ?_⟩
  simp only [AccountMapper.toPersistence]
  omega

theorem save_credited {r : AccountRecord} {a a' : Account} {amount : Money} {reference : String} {c : Client}
    (hr : r ∈ st.rows) (hl : AccountMapper.toDomain r = .ok a) (hc : a.credit amount reference = .ok a')
    (hcleared : (∃ t ∈ st.tiers, t.1 = a.userId ∧
      ∀ cap ∈ ceilingOf limits t.2 a.currency, a.balance.minorUnits + amount.minorUnits ≤ cap) ∨
      (requests i).refunds = true ∧ c = .prisma) :
    (ceilingProtocol requests limits).ok i st
      (.account c (.updateMany (a'.version - 1) (AccountMapper.toPersistence a') a'.domainEvents)) := by
  obtain ⟨rfl, -, hev⟩ := AccountMapper.toDomain_ok hl
  obtain ⟨-, -, -, rfl⟩ := Account.credit_ok.1 hc
  refine ⟨_, hr, rfl, rfl, rfl, rfl, .inr ?_⟩
  rcases hcleared with ⟨t, ht, huser, hle⟩ | ⟨hrefunds, rfl⟩
  · refine .inl ⟨t, ht, huser, fun cap hcap => ?_⟩
    have hcap := hle cap hcap
    simp only [AccountMapper.toPersistence]
    exact_mod_cast hcap
  · exact .inr ⟨hrefunds, rfl, by simp [AccountMapper.toPersistence, creditedBy, AccountEvent.creditedAmount, hev]⟩

/-- A save leaves the protocol state alone. -/
theorem update_obeys_ceiling {a : Account} {c : Client} (hok : (ceilingProtocol requests limits).ok i st
      (.account c (.updateMany (a.version - 1) (AccountMapper.toPersistence a) a.domainEvents))) :
    (ceilingProtocol requests limits).Obeys i (fun st' _ => st' = st) (PrismaAccountRepository.update a c) st := by
  refine .await_bind hok (fun n _ => ?_) fun _ _ => rfl
  split <;> rfl

theorem save_obeys_ceiling {a : Account} (hv : a.version ≠ 0) (hok : (ceilingProtocol requests limits).ok i st
      (.account .prisma (.updateMany (a.version - 1) (AccountMapper.toPersistence a) a.domainEvents))) :
    (ceilingProtocol requests limits).Obeys i (fun st' _ => st' = st) (PrismaAccountRepository.save a) st := by
  unfold PrismaAccountRepository.save
  rw [if_neg hv]
  exact update_obeys_ceiling hok

/-- A loaded account. -/
theorem findById_obeys_ceiling (id : String) :
    (ceilingProtocol requests limits).Obeys i
      (fun st' x => ∀ o, x = .ok o → ∀ a, o = some a → ∃ r ∈ st'.rows, AccountMapper.toDomain r = .ok a)
      (PrismaAccountRepository.findById id) st := by
  refine .await_bind trivial (fun record _ => ?_) fun _ _ o ho => by cases ho
  cases record with
  | none =>
    intro o ho a ha
    cases ho
    cases ha
  | some row =>
    refine Obeys.ofExcept_bind (x := AccountMapper.toDomain row) (fun a hl o ho a' ha => ?_) fun _ _ o ho => by cases ho
    cases ho
    cases ha
    exact ⟨row, List.mem_cons_self, hl⟩

/-! ### Handler by handler -/

def SavesNothing : Op → Prop
  | .account _ (.create _) | .account _ (.updateMany ..) => False
  | _ => True

/-- Obeying the protocol from any state, with nothing said about the end. -/
def Within (requests : PId → MoneyRequest) (limits : Table KycTierLimitRecord.tier) (i : PId)
    (p : Program ε α) : Prop :=
  ∀ st, (ceilingProtocol requests limits).Obeys i (fun _ _ => True) p st

theorem Within.bind {p : Program ε α} {f : α → Program ε β} (hp : Within requests limits i p)
    (hf : ∀ a, Within requests limits i (f a)) : Within requests limits i (p >>= f) := fun st =>
  Obeys.bind (P := ceilingProtocol requests limits) (hp st) (fun st' a _ => hf a st') fun _ _ _ => trivial

theorem Within.tryCatch {ε' : Type} {p : Program ε α} {h : ε → Program ε' α} (hp : Within requests limits i p)
    (hh : ∀ e, Within requests limits i (h e)) : Within requests limits i (p.tryCatch h) := fun st =>
  Obeys.tryCatch (P := ceilingProtocol requests limits) (hp st) (fun _ _ _ => trivial) fun st' e _ => hh e st'

theorem Within.of_calls {p : Program ε α} (hp : p.Calls SavesNothing) :
    Within requests limits i p := fun st =>
  Obeys.of_calls (P := ceilingProtocol requests limits) (K := fun _ => True)
    (fun _ op _ hop => ⟨by cases op with
      | account c q => cases q <;> trivial
      | _ => trivial, fun _ _ => trivial⟩) hp trivial

theorem Within.ofExcept_bind {x : Except ε α} {f : α → Program ε β}
    (hf : ∀ a, x = .ok a → Within requests limits i (f a)) :
    Within requests limits i (Prog.ofExcept x >>= f) := fun st =>
  Obeys.ofExcept_bind (P := ceilingProtocol requests limits) (fun a ha => hf a ha st) fun _ _ => trivial

theorem Within.pure (a : α) : Within requests limits i (Prog.pure a : Program ε α) := fun _ => trivial

theorem Within.throw (e : ε) : Within requests limits i (Prog.throw e : Program ε α) := fun _ => trivial

theorem credit_within (command : CreditAccountCommand) :
    Within requests limits i (CreditAccountHandler.execute command) := by
  intro st
  refine mutateAccount_obeys_of (P := ceilingProtocol requests limits) (K := fun _ => True)
    ⟨trivial, fun _ _ => trivial⟩
    (fun row a _ hl => ?_) fun _ _ _ => ⟨trivial, fun _ _ => trivial⟩
  refine Obeys.ofExcept_bind (P := ceilingProtocol requests limits) (fun amount _ => ?_)
    fun _ _ => ⟨trivial, fun _ h => by cases h⟩
  refine Obeys.bind (P := ceilingProtocol requests limits) (assertWithinLimit_obeys a amount .prisma)
    (fun st' _ h => ?_) fun _ _ _ => ⟨trivial, fun _ h => by cases h⟩
  refine .ofExcept ⟨trivial, fun a' hc => ⟨?_, ?_, fun _ => trivial⟩⟩
  · obtain ⟨-, -, -, rfl⟩ := Account.credit_ok.1 hc
    exact Nat.succ_ne_zero _
  · exact save_credited (h.1 ▸ List.mem_cons_self) hl hc (.inl (h.2 rfl))

namespace PrismaInternalTransferExecutor

theorem requireRecord_obeys_ceiling (id : String) :
    (ceilingProtocol requests limits).Obeys i
      (fun st' x => st.rows ⊆ st'.rows ∧ ∀ r, x = .ok r → r ∈ st'.rows) (requireRecord id) st := by
  refine .await_bind trivial (fun record _ => ?_) fun _ _ => ⟨List.Subset.refl _, fun _ h => by cases h⟩
  cases record with
  | none => exact ⟨List.Subset.refl _, fun _ h => by cases h⟩
  | some row =>
    refine ⟨List.subset_cons_self _ _, fun r h => ?_⟩
    cases h
    exact List.mem_cons_self

theorem moveFunds_within (params : InternalTransferParams) (transfer : Transfer) :
    Within requests limits i (moveFunds params transfer) := by
  intro st
  refine Obeys.bind (P := ceilingProtocol requests limits) (requireRecord_obeys_ceiling _) (fun st1 source h1 => ?_)
    fun _ _ _ => trivial
  refine Obeys.bind (P := ceilingProtocol requests limits) (requireRecord_obeys_ceiling _)
    (fun st2 destination h2 => ?_)
    fun _ _ _ => trivial
  refine Obeys.ofExcept_bind (P := ceilingProtocol requests limits) (fun sourceAccount hs => ?_) fun _ _ => trivial
  refine Obeys.ofExcept_bind (P := ceilingProtocol requests limits) (fun destinationAccount hd => ?_) fun _ _ => trivial
  split
  · trivial
  refine Obeys.ofExcept_bind (P := ceilingProtocol requests limits) (fun totalDebit _ => ?_) fun _ _ => trivial
  refine Obeys.ofExcept_bind (P := ceilingProtocol requests limits) (fun debited hdebit => ?_) fun _ _ => trivial
  refine Obeys.bind (P := ceilingProtocol requests limits) (assertWithinLimit_obeys _ _ _) (fun st3 _ h3 => ?_)
    fun _ _ _ => trivial
  refine Obeys.ofExcept_bind (P := ceilingProtocol requests limits) (fun credited hcredit => ?_) fun _ _ => trivial
  have hsource : source ∈ st3.rows := h3.1 ▸ h2.1 (h1.2 source rfl)
  have hdestination : destination ∈ st3.rows := h3.1 ▸ h2.2 destination rfl
  refine Obeys.bind (P := ceilingProtocol requests limits) (update_obeys_ceiling (save_debited hsource hs hdebit))
    (fun st4 _ h4 => ?_) fun _ _ _ => trivial
  obtain rfl : st4 = st3 := h4
  refine Obeys.bind (P := ceilingProtocol requests limits)
    (update_obeys_ceiling (save_credited hdestination hd hcredit (.inl (h3.2 rfl)))) (fun st5 _ _ => ?_)
    fun _ _ _ => trivial
  exact Within.bind (.of_calls (PrismaLedgerRecorderService.post_calls trivial (fun _ => trivial) fun _ => trivial))
    (fun _ => .pure _) st5

theorem execute_within (params : InternalTransferParams) : Within requests limits i (execute params) := by
  refine .bind (.of_calls (draw_calls trivial trivial trivial _)) fun transfer =>
    .bind (.tryCatch ?_ fun thrown => ?_) fun _ => .pure _
  · refine .bind (.of_calls (.mapError _ (.await trivial))) fun _ => .bind (.tryCatch ?_ fun _ => ?_) fun _ =>
      .bind (.of_calls (.mapError _ (.await trivial))) fun _ => .pure _
    · refine .bind (fun st => ?_) fun _ => .bind (.of_calls (calls_during (.ofExcept _))) fun _ =>
        .bind (.of_calls (calls_during (.await trivial))) fun _ => .pure _
      exact Obeys.mapError (P := ceilingProtocol requests limits) (moveFunds_within params transfer st)
    · exact .bind (.of_calls (.mapError _ (.await trivial))) fun _ => .throw _
  · exact .ofExcept_bind fun _ _ => .bind (.of_calls (PrismaTransferRepository.save_calls (fun _ => trivial) _))
      fun _ => .throw _

end PrismaInternalTransferExecutor

theorem assertWithinLimits_within (userId sourceAccountId : String) (amount : Money) :
    Within requests limits i (KycTransferLimitCheckerService.assertWithinLimits userId sourceAccountId amount) :=
  .of_calls (KycTransferLimitCheckerService.assertWithinLimits_calls (fun _ => trivial) trivial
    (fun _ _ _ => trivial) _ _ _)

/-- The calls of a limit check load no account. -/
def LoadsNothing : Op → Prop
  | .kyc .. | .dateNow | .transfer .. => True
  | _ => False

theorem assertWithinLimits_rows (userId sourceAccountId : String) (amount : Money) :
    (ceilingProtocol requests limits).Obeys i (fun st' _ => st'.rows = st.rows)
      (KycTransferLimitCheckerService.assertWithinLimits userId sourceAccountId amount) st := by
  refine Obeys.of_calls (P := ceilingProtocol requests limits) (K := fun st' => st'.rows = st.rows) (T := LoadsNothing)
    (fun st' op hrows hop => ?_) (KycTransferLimitCheckerService.assertWithinLimits_calls (fun _ => trivial) trivial
      (fun _ _ _ => trivial) _ _ _) rfl
  have hkept : ∀ r, ((ceilingProtocol requests limits).next i st' op r).rows = st.rows := fun r => by
    refine ceiling_rows.trans (Eq.trans ?_ hrows)
    cases op <;> first | exact absurd hop id | rfl
  cases op <;> first | exact absurd hop id | exact ⟨trivial, fun r _ => hkept r⟩

theorem publishAll_within (events : List DomainEvent) : Within requests limits i (publishAll events) :=
  .of_calls (publishAll_calls (fun _ => trivial) events)

theorem saveTransfer_within (t : Transfer) : Within requests limits i (PrismaTransferRepository.save t) :=
  .of_calls (PrismaTransferRepository.save_calls (fun _ => trivial) t)

theorem postTransferJournal_within (t : Transfer) (narration : String) (legs : List LedgerPostingLeg) :
    Within requests limits i (postTransferJournal t narration legs) :=
  .of_calls (postTransferJournal_calls trivial (fun _ => trivial) t narration legs)

theorem run_within {o : Operation α} (he : Within requests limits i o.execute)
    (hr : ∀ resourceId, Within requests limits i (o.rehydrate resourceId)) (userId scope : String)
    (key : Option String)
    (fuel : Nat) : Within requests limits i (IdempotencyGuardService.run userId scope key fuel o) := by
  intro st
  have quiet : ∀ {op : Op}, (∀ st : Checked, (ceilingProtocol requests limits).ok i st op ∧
      ∀ r, (ceilingProtocol requests limits).next i st op r = st) →
        (ceilingProtocol requests limits).Quiet i op := id
  exact IdempotencyGuardService.run_obeys_of (P := ceilingProtocol requests limits) (K := fun _ => True)
    (fun q => quiet fun st => ⟨trivial, fun r => by rcases r with e | x <;> rfl⟩)
    (quiet fun st => ⟨trivial, fun r => by rcases r with e | x <;> rfl⟩)
    (fun m => quiet fun st => ⟨trivial, fun r => by rcases r with e | x <;> rfl⟩) trivial (he st)
    (fun resourceId => hr resourceId st) userId scope key fuel

theorem rehydrateTransfer_within (resourceId : Option String) :
    Within requests limits i (rehydrateTransfer resourceId) :=
  .of_calls (rehydrateTransfer_calls (fun _ => trivial) resourceId)

theorem internal_within (fuel : Nat) (command : InitiateInternalTransferCommand) :
    Within requests limits i (InitiateInternalTransferHandler.execute fuel command) := by
  refine run_within ?_ rehydrateTransfer_within _ _ _ _
  show Within requests limits i (InitiateInternalTransferHandler.doExecute command)
  unfold InitiateInternalTransferHandler.doExecute
  split
  · exact .throw _
  refine .bind (.of_calls (PrismaAccountRepository.findById_calls (fun _ => trivial) _)) fun account => ?_
  cases account with
  | none => exact .throw _
  | some account =>
    dsimp only
    split
    · exact .throw _
    · exact .ofExcept_bind fun _ _ => .bind (assertWithinLimits_within _ _ _) fun _ => .ofExcept_bind fun _ _ =>
        .bind (PrismaInternalTransferExecutor.execute_within _) fun _ => .bind (publishAll_within _) fun _ => .pure _

/-! ### The external transfers -/

theorem compensate_within (hrefunds : (requests i).refunds = true) (transfer : Transfer) (totalDebit : Except Err Money)
    (narration : String) : Within requests limits i (compensate transfer totalDebit narration) := by
  intro st
  refine Obeys.bind (P := ceilingProtocol requests limits) (findById_obeys_ceiling _) (fun st1 account h1 => ?_)
    fun _ _ _ => trivial
  cases account with
  | none => trivial
  | some account =>
    obtain ⟨row, hrow, hl⟩ := h1 _ rfl account rfl
    refine Obeys.ofExcept_bind (P := ceilingProtocol requests limits) (fun totalDebit _ => ?_) fun _ _ => trivial
    refine Obeys.ofExcept_bind (P := ceilingProtocol requests limits) (fun credited hc => ?_) fun _ _ => trivial
    have hv : credited.version ≠ 0 := by
      obtain ⟨-, -, -, rfl⟩ := Account.credit_ok.1 hc
      exact Nat.succ_ne_zero _
    refine Obeys.bind (P := ceilingProtocol requests limits)
      (save_obeys_ceiling hv (save_credited hrow hl hc (.inr ⟨hrefunds, rfl⟩))) (fun st2 _ _ => ?_)
        fun _ _ _ => trivial
    exact Within.bind (postTransferJournal_within _ _ _) (fun _ => .pure _) st2

theorem confirm_within (hrefunds : (requests i).refunds = true) (command : ConfirmExternalTransferCommand) :
    Within requests limits i (ConfirmExternalTransferHandler.execute command) := by
  refine .bind (.of_calls (PrismaTransferRepository.findByProviderReference_calls (fun _ => trivial) _)) fun found => ?_
  cases found with
  | none => exact .throw _
  | some transfer =>
    dsimp only
    split
    · exact .pure _
    split
    · exact .ofExcept_bind fun _ _ => .bind (saveTransfer_within _) fun _ => .ofExcept_bind fun _ _ =>
        .bind (postTransferJournal_within _ _ _) fun _ => publishAll_within _
    · exact .bind (compensate_within hrefunds _ _ _) fun _ => .ofExcept_bind fun _ _ =>
        .bind (saveTransfer_within _) fun _ => publishAll_within _

namespace InitiateExternalTransferHandler

theorem hold_within (command : InitiateExternalTransferCommand) : Within requests limits i (hold command) := by
  intro st
  refine Obeys.bind (P := ceilingProtocol requests limits) (findById_obeys_ceiling _) (fun st1 account h1 => ?_)
    fun _ _ _ => trivial
  cases account with
  | none => trivial
  | some account =>
    obtain ⟨row, hrow, hl⟩ := h1 _ rfl account rfl
    dsimp only
    split
    · trivial
    refine Obeys.ofExcept_bind (P := ceilingProtocol requests limits) (fun amount _ => ?_) fun _ _ => trivial
    refine Obeys.bind (P := ceilingProtocol requests limits) (assertWithinLimits_rows _ _ _) (fun st2 _ h2 => ?_)
      fun _ _ _ => trivial
    refine Obeys.ofExcept_bind (P := ceilingProtocol requests limits) (fun fee _ => ?_) fun _ _ => trivial
    refine Obeys.ofExcept_bind (P := ceilingProtocol requests limits) (fun totalDebit _ => ?_) fun _ _ => trivial
    refine Obeys.ofExcept_bind (P := ceilingProtocol requests limits) (fun recipient _ => ?_) fun _ _ => trivial
    refine Obeys.ofExcept_bind (P := ceilingProtocol requests limits) (fun debited hd => ?_) fun _ _ => trivial
    have hv : debited.version ≠ 0 := by
      obtain ⟨-, -, -, rfl⟩ := (Account.debit_ok (AccountMapper.toDomain_ok hl).2.1).1 hd
      exact Nat.succ_ne_zero _
    refine Obeys.bind (P := ceilingProtocol requests limits)
      (save_obeys_ceiling hv (save_debited (h2 ▸ hrow) hl hd)) (fun _ _ _ => ?_) fun _ _ _ => trivial
    trivial

theorem record_within (command : InitiateExternalTransferCommand) (sourceAccount : Account)
    (recipient : ExternalRecipient) (amount fee totalDebit : Money) :
    Within requests limits i (record command sourceAccount recipient amount fee totalDebit) :=
  .bind (.of_calls (draw_calls trivial trivial trivial _)) fun _ => .bind (saveTransfer_within _) fun _ =>
    .bind (postTransferJournal_within _ _ _) fun _ => .pure _

theorem during_within {t : Transfer} {p : Handler α} (hp : Within requests limits i p) :
    Within requests limits i (during t p) := hp.tryCatch fun _ => .throw _

theorem payOut_within (hrefunds : (requests i).refunds = true) (command : InitiateExternalTransferCommand)
    (recipient : ExternalRecipient) (totalDebit : Money) (events : List DomainEvent) (transfer : Transfer) :
    Within requests limits i (payOut command recipient totalDebit events transfer) := by
  refine .tryCatch (.bind (during_within (.of_calls
    (FlutterwavePayoutProvider.initiatePayout_calls (fun _ => trivial) _ _ _ _))) fun payoutResult =>
      ?_) fun thrown => ?_
  · refine .bind ?_ fun marked => .bind (during_within (saveTransfer_within _)) fun _ =>
      .bind (during_within (publishAll_within _)) fun _ => .pure _
    unfold markAccepted
    split
    · exact .bind (.of_calls (calls_during (.ofExcept _))) fun _ =>
        .bind (during_within (postTransferJournal_within _ _ _)) fun _ => .pure _
    · exact .of_calls (calls_during (.ofExcept _))
  · exact .bind (compensate_within hrefunds _ _ _) fun _ => .ofExcept_bind fun _ _ =>
      .bind (saveTransfer_within _) fun _ => .bind (publishAll_within _) fun _ => .throw _

theorem execute_within (hrefunds : (requests i).refunds = true) (fuel : Nat)
    (command : InitiateExternalTransferCommand) :
    Within requests limits i (execute fuel command) := by
  refine run_within ?_ rehydrateTransfer_within _ _ _ _
  exact .bind (hold_within command) fun held => .bind (record_within _ _ _ _ _ _) fun transfer =>
    .bind (payOut_within hrefunds _ _ _ _ _) fun _ => .pure _

end InitiateExternalTransferHandler

/-- **Every handler credits within the ceiling it has read, refunds apart.** -/
theorem MoneyRequest.program_within (request : MoneyRequest) (h : requests i = request) :
    Within requests limits i request.program := by
  cases request with
  | credit command => exact .bind (credit_within command) fun _ => .pure _
  | internal fuel command => exact .bind (internal_within fuel command) fun _ => .pure _
  | external fuel command =>
    exact .bind (InitiateExternalTransferHandler.execute_within (h ▸ rfl) fuel command) fun _ => .pure _
  | confirmation command => exact confirm_within (h ▸ rfl) command

end

/-! ## Every schedule -/

theorem moneyRequest_writes {i : PId} (request : MoneyRequest) (st : Copies) : Writes .free i request.program st := by
  cases request with
  | credit command => exact Writes.bind (creditHandler_obeys trivial command st) fun _ _ => trivial
  | internal fuel command =>
    exact Writes.bind (initiateInternal_obeys (fun _ => trivial) fuel command st) fun _ _ => trivial
  | external fuel command => exact Writes.bind (initiateExternal_obeys trivial fuel command st) fun _ _ => trivial
  | confirmation command => exact confirmExternal_obeys trivial command st

theorem ceiling_preserves (requests : PId → MoneyRequest) {limits : Table KycTierLimitRecord.tier}
    (hrise : CeilingsRise limits) (db0 : Db) :
    ((accountProtocol .free).prod (ceilingProtocol requests limits)).Preserves (ceilingSchedule (RefundFits requests))
      fun s sts => CeilingInv limits db0 s (fun i => (sts i).1) fun i => (sts i).2 :=
  Preserves.of_prod (P := accountProtocol .free) (R := ceilingProtocol requests limits) (I := CeilingInv limits db0)
    (fun h hok hok' ha hx => h.step hrise hok hok' ha hx) fun x h => h.act hrise x

/-- **Balances stay under the ceilings of their holders' tiers**, over every schedule of credits, internal transfers,
holds and refunds, with tiers rising in between, as long as no refund goes through that leaves its account above the
ceiling. -/
theorem balances_under_ceiling (requests : PId → MoneyRequest) (db0 : Db) (clock : Nat)
    (hrise : CeilingsRise db0.kycTierLimits) (h0 : ∀ row ∈ db0.accounts.rows, UnderCeiling db0 row)
    {c : Config Op.Res Err Store Err Unit}
    (hr : (ceilingSchedule (RefundFits requests)).Reach ⟨.init db0 clock, fun i => (requests i).program⟩ c) :
    ∀ row ∈ c.store.db.accounts.rows, UnderCeiling c.store.db row := by
  have hinit : CeilingInv db0.kycTierLimits db0 (.init db0 clock) (fun _ => .init) fun _ => ⟨[], []⟩ := by
    refine ⟨.init db0 clock, rfl, fun _ _ ht => absurd ht List.not_mem_nil, h0, fun i w hw => ?_⟩
    rw [Store.staged_init] at hw
    exact absurd hw List.not_mem_nil
  have htracks : ((accountProtocol .free).prod (ceilingProtocol requests db0.kycTierLimits)).Tracks
      (fun s sts => CeilingInv db0.kycTierLimits db0 s (fun i => (sts i).1) fun i => (sts i).2) (fun _ _ _ => True)
      (⟨.init db0 clock, fun i => (requests i).program⟩ : Config Op.Res Err Store Err Unit)
      fun _ => (.init, ⟨[], []⟩) :=
    ⟨hinit, fun i => ((moneyRequest_writes (requests i) .init).prod ((requests i).program_within rfl _)).mono
      fun _ _ _ => trivial⟩
  obtain ⟨sts, hinv, -⟩ := reach (ceiling_preserves requests hrise db0) htracks hr
  exact hinv.under.rows

/-- What a tier may hold by default, in kobo, cents or pence. -/
def defaultCeiling : KycTier → Option Nat
  | .TIER_1 => some 30000000
  | .TIER_2 => some 50000000
  | .TIER_3 => none

theorem ceilingOf_default (t : KycTier) (currency : Currency) :
    ceilingOf (Db.of [] []).kycTierLimits t currency = defaultCeiling t := by
  cases t <;> cases currency <;> decide +kernel

/-- The default ceilings rise. -/
theorem default_ceilings_rise : CeilingsRise (Db.of [] []).kycTierLimits := by
  intro t t' hlevel currency cap' hcap'
  rw [ceilingOf_default] at hcap' ⊢
  cases t <;> cases t' <;> simp_all [defaultCeiling, KycTier.level]
  omega

/-- An account of a TIER_1 user that is full. -/
def sampleFull : AccountRecord := { sampleAccount with balance := 30000000 }

/-- Program 1 sends ₦50.00, program 2 pays ₦60.00 in, program 3 brings the news that the payout has failed. -/
def sampleMoneyRequests (i : PId) : MoneyRequest :=
  if i = 1 then .external 0 ⟨"user", "acc", "044", "0123456780", "Ada", "50.00", "rent", none⟩
  else if i = 2 then .credit ⟨"acc", "60.00", .NGN, "salary"⟩
  else .confirmation ⟨"7", false, none⟩

/-- The payout is accepted and pending. -/
def sampleHeldPayout : List (System.Move Ans CeilingHappening) :=
  System.calls 1 [.ok, .ok, .ok, .ok, .ok, .ok, .ok, .uuid "t", .reference sampleReference, .ok, .uuid "j", .ok, .ok,
    .payout ⟨true, "", some ⟨7, .PENDING⟩⟩, .ok]

/-- The hold is returned to an account that nobody has paid into since. -/
theorem balances_under_ceiling_sample : ∃ c : Config Op.Res Err Store Err Unit,
    (∃ row ∈ c.store.db.accounts.rows, row.balance = 30000000 ∧ row.version = sampleFull.version + 2) ∧
    ∀ row ∈ c.store.db.accounts.rows, UnderCeiling c.store.db row := by
  have hplay : ((ceilingSchedule (RefundFits sampleMoneyRequests)).play
      (sampleHeldPayout ++ [.act (.upgraded "user" .TIER_2)] ++ System.calls 3 [Ans.ok, .ok, .ok])
      ⟨.init (.of [sampleFull] []) 0, fun i => (sampleMoneyRequests i).program⟩).any fun c =>
        ∃ row ∈ c.store.db.accounts.rows, row.balance = 30000000 ∧ row.version = sampleFull.version + 2 := by
    decide +kernel
  obtain ⟨c, hc, hrefunded⟩ := System.play_seen _ hplay
  exact ⟨c, hrefunded, balances_under_ceiling sampleMoneyRequests
    (.of [sampleFull] []) 0 default_ceilings_rise (by decide +kernel)
    (System.reach_of_play _ hc)⟩

instance (s : Store) (i : PId) (a : Ans) (op : Op) :
    Decidable ((ceilingSchedule fun _ _ _ _ => True).allow s i a op) := inferInstanceAs (Decidable True)

/-- The gap that the hold left is filled before the refund arrives: ₦300,060.00 where TIER_1 may hold ₦300,000.00.
-/
theorem refund_overflows : CeilingsRise (Db.of [sampleFull] []).kycTierLimits ∧
    (∀ row ∈ (Db.of [sampleFull] []).accounts.rows, UnderCeiling (Db.of [sampleFull] []) row) ∧
    ∃ c : Config Op.Res Err Store Err Unit,
      (ceilingSchedule fun _ _ _ _ => True).Reach
        ⟨.init (.of [sampleFull] []) 0, fun i => (sampleMoneyRequests i).program⟩ c ∧
      ∃ row ∈ c.store.db.accounts.rows, row.balance = 30006000 ∧ ¬ UnderCeiling c.store.db row := by
  have hplay : ((ceilingSchedule fun _ _ _ _ => True).play
      (sampleHeldPayout ++ System.calls 2 [Ans.ok, .ok, .ok, .ok] ++ System.calls 3 [Ans.ok, .ok, .ok])
      ⟨.init (.of [sampleFull] []) 0, fun i => (sampleMoneyRequests i).program⟩).any fun c =>
        ∃ row ∈ c.store.db.accounts.rows, row.balance = 30006000 ∧ ¬ UnderCeiling c.store.db row := by
    decide +kernel
  obtain ⟨c, hc, hover⟩ := System.play_seen _ hplay
  exact ⟨default_ceilings_rise, by decide +kernel, c, System.reach_of_play _ hc, hover⟩

end Kudi
