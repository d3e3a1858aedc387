import Mathlib.Algebra.Order.BigOperators.Group.List
import KudiCore.Interleave.Keeping
import KudiCore.Concurrency.AccountRows
import KudiCore.Concurrency.MaxBalance
import KudiCore.Idempotency.KeyCalls

/-!
# The limits on transfers

| here | there |
| --- | --- |
| `TransferRecord.counted`  | `status: { in: [SUCCESSFUL, PROCESSING] }` of `sumSourceAmountSince` |
| `transferLimitsOf`        | the limits that `KycTransferLimitCheckerService.assertWithinLimits` compares with |
| `LimitedParty.initiations` | the initiations from an account, one after another |

`assertWithinLimits` sums what has been sent in the window that ends at the check; the transfer is stamped later. A
window that holds the new transfer starts no earlier than the one that was summed, so what it holds besides the new
transfer had been summed. What had been summed can only have become less by the time the transfer counts: nobody else
sends from the account meanwhile, and a transfer that has stopped counting never counts again.
-/

namespace Kudi

open Interleave Protocol KycTransferLimitCheckerService

/-! ## What has been sent -/

def TransferRecord.counted (r : TransferRecord) : Bool := r.status == .SUCCESSFUL || r.status == .PROCESSING

/-- What `r` adds to the counted transfers from `accountId` created at the times in `p`. -/
def TransferRecord.sent (accountId : String) (p : Int → Bool) (r : TransferRecord) : Int :=
  if r.sourceAccountId = accountId ∧ r.counted = true ∧ p r.createdAt = true then r.amountMinorUnits else 0

def sent (t : Table TransferRecord.id) (accountId : String) (p : Int → Bool) : Int :=
  t.sum (TransferRecord.sent accountId p)

def sinceTime (since time : Int) : Bool := since ≤ time

/-- The 24 hours from `start`, both ends included. -/
def inWindow (start time : Int) : Bool := start ≤ time && time ≤ start + rollingWindowMs

/-- No amount is negative. -/
def NonNegative (t : Table TransferRecord.id) : Prop := ∀ r ∈ t.rows, 0 ≤ r.amountMinorUnits

section
variable {t : Table TransferRecord.id} {accountId : String} {p q : Int → Bool} {r old data : TransferRecord}

theorem TransferRecord.sent_nonneg (h : 0 ≤ r.amountMinorUnits) : 0 ≤ r.sent accountId p := by
  unfold TransferRecord.sent
  split
  · exact h
  · exact le_rfl

theorem TransferRecord.sent_mono (h : 0 ≤ r.amountMinorUnits) (hpq : ∀ x, p x = true → q x = true) :
    r.sent accountId p ≤ r.sent accountId q := by
  unfold TransferRecord.sent
  by_cases hp : r.sourceAccountId = accountId ∧ r.counted = true ∧ p r.createdAt = true
  · rw [if_pos hp, if_pos ⟨hp.1, hp.2.1, hpq _ hp.2.2⟩]
  · rw [if_neg hp]
    exact sent_nonneg h

/-- A wider stretch of time holds no less. -/
theorem sent_mono (h : NonNegative t) (hpq : ∀ x, p x = true → q x = true) :
    sent t accountId p ≤ sent t accountId q := by
  unfold sent Table.sum
  exact List.sum_le_sum fun r hr => TransferRecord.sent_mono (h r hr) hpq

/-- A saved row adds no more than it is itself. -/
theorem sent_put_le (h : NonNegative t) :
    sent (t.put data) accountId p ≤ sent t accountId p + data.sent accountId p := by
  unfold sent
  cases hold : t.find? data.id with
  | none => rw [Table.sum_put_new _ hold]
  | some old =>
    rw [Table.sum_put _ hold]
    have hpos : 0 ≤ old.sent accountId p := TransferRecord.sent_nonneg (h old (Table.mem_of_find? hold))
    omega

theorem sent_put_same (hold : t.find? data.id = some old) (h : data.sent accountId p = old.sent accountId p) :
    sent (t.put data) accountId p = sent t accountId p := by
  unfold sent
  rw [Table.sum_put _ hold, h]
  omega

theorem TransferRecord.sent_uncounted (h : data.counted = false) : data.sent accountId p = 0 := by
  simp [TransferRecord.sent, h]

theorem TransferRecord.sent_elsewhere (h : data.sourceAccountId ≠ accountId) : data.sent accountId p = 0 := by
  simp [TransferRecord.sent, h]

theorem TransferRecord.sent_le (h : 0 ≤ data.amountMinorUnits) : data.sent accountId p ≤ data.amountMinorUnits := by
  unfold TransferRecord.sent
  split
  · exact le_rfl
  · exact h

end

/-! ## The limits -/

/-- The limits that transfers from the account are under. -/
def transferLimitsOf (db : Db) (row : AccountRecord) : Except Err KycTierLimits :=
  limitsOf db.kycTierLimits (tierHeld db.kycProfiles row.userId) row.currency

/-- In every 24 hours the counted transfers from `accountId` come to no more than the daily limit, and none is over the
limit for one. -/
structure WithinLimits (limits : KycTierLimits) (t : Table TransferRecord.id) (accountId : String) : Prop where
  daily : ∀ cap ∈ limits.dailyTransferLimit, ∀ start, sent t accountId (inWindow start) ≤ cap.minorUnits
  each : ∀ cap ∈ limits.perTransactionLimit, ∀ r ∈ t.rows, r.sourceAccountId = accountId →
    r.counted = true →
    r.amountMinorUnits ≤ cap.minorUnits

/-- Within the limits of the account's holder. -/
def WithinTransferLimits (db : Db) (row : AccountRecord) : Prop :=
  ∀ limits, transferLimitsOf db row = .ok limits → WithinLimits limits db.transfers row.id

/-- What the runs start from; an empty table of transfers will do. -/
structure Regular (db : Db) : Prop where
  nonneg : NonNegative db.transfers
  untraced : ∀ r ∈ db.transfers.rows, r.status = .PENDING → r.providerReference = none
  within : ∀ row ∈ db.accounts.rows, WithinTransferLimits db row

/-! ## The programs -/

inductive SourceRequest where
  | internal (fuel : Nat) (command : InitiateInternalTransferCommand)
  | external (fuel : Nat) (command : InitiateExternalTransferCommand)

namespace SourceRequest

def sourceAccountId : SourceRequest → String
  | .internal _ command => command.sourceAccountId
  | .external _ command => command.sourceAccountId

def program : SourceRequest → Handler Unit
  | .internal fuel command => forget (InitiateInternalTransferHandler.execute fuel command)
  | .external fuel command => forget (InitiateExternalTransferHandler.execute fuel command)

end SourceRequest

/-- Each when the one before has ended, whatever it threw. -/
def oneByOne : List SourceRequest → Handler Unit
  | [] => return ()
  | request :: requests => do
    request.program.tryCatch fun _ => return ()
    oneByOne requests

inductive LimitedParty where
  | initiations (requests : List SourceRequest)
  | confirmation (command : ConfirmExternalTransferCommand)

namespace LimitedParty

def program : LimitedParty → Handler Unit
  | .initiations requests => oneByOne requests
  | .confirmation command => ConfirmExternalTransferHandler.execute command

/-- It sends from this account. -/
def Sends : LimitedParty → String → Prop
  | .initiations requests, accountId => ∃ request ∈ requests, request.sourceAccountId = accountId
  | .confirmation _, _ => False

end LimitedParty

/-- No two parties send from one account: its initiations are all in one sequence. -/
def OneAtATime (parties : PId → LimitedParty) : Prop :=
  ∀ i j accountId, (parties i).Sends accountId → (parties j).Sends accountId → i = j

/-! ## The protocol -/

/-- What `sumSourceAmountSince` has answered. -/
structure Summed where
  source : String
  since : Int
  total : Int

structure Spending where
  /-- The clock, when it was last read. -/
  now : Nat
  summed : Option Summed
  /-- Transfers found by their provider reference. -/
  found : List TransferRecord
  /-- The transfer that the open transaction has inserted. -/
  staged : Option TransferRecord

def Spending.init : Spending := ⟨0, none, [], none⟩

/-- The account's row still has the holder and the currency that it started with. -/
def Owned (db0 : Db) (row : AccountRecord) : Prop :=
  ∃ row0, db0.accounts.find? row.id = some row0 ∧ row.userId = row0.userId ∧ row.currency = row0.currency

/-- A transfer of `amount` made now would be within the limits of the account. -/
def Affords (db0 : Db) (summed : Option Summed) (source : String) (amount : Int) (now : Nat) : Prop :=
  ∃ row ∈ db0.accounts.find? source, ∃ limits, transferLimitsOf db0 row = .ok limits ∧
    (∀ cap ∈ limits.perTransactionLimit, amount ≤ cap.minorUnits) ∧
    ∀ cap ∈ limits.dailyTransferLimit, ∃ sum ∈ summed, sum.source = source ∧
      sum.since + rollingWindowMs ≤ now ∧
      sum.total + amount ≤ cap.minorUnits

/-- A row that may be saved: it does not count, or is within the limits. -/
structure Spends (db0 : Db) (sends : String → Prop) (st : Spending) (data : TransferRecord) : Prop where
  nonneg : 0 ≤ data.amountMinorUnits
  untraced : data.status = .PENDING → data.providerReference = none
  counted : data.counted = true → st.staged = none ∧ sends data.sourceAccountId ∧
    Affords db0 st.summed data.sourceAccountId data.amountMinorUnits data.createdAt

/-- `data` counts for what `r` had counted for. -/
structure SameSpending (r data : TransferRecord) : Prop where
  id : data.id = r.id
  sourceAccountId : data.sourceAccountId = r.sourceAccountId
  amount : data.amountMinorUnits = r.amountMinorUnits
  createdAt : data.createdAt = r.createdAt
  counted : r.counted = true

/-- A counted row has been saved: the sum is out of date. -/
def Spending.saved (st : Spending) (data : TransferRecord) : Spending :=
  if data.counted then { st with summed := none } else st

def limitProtocol (db0 : Db) (sends : PId → String → Prop) : Protocol Op.Res Err where
  State := Spending
  ok i st op := match op with
    | .transfer .prisma (.create data) => Spends db0 (sends i) st data
    | .transfer .prisma (.updateMany version data) => data.version = version + 1 ∧ data.status ≠ .PENDING ∧
      (Spends db0 (sends i) st data ∨ st.staged = none ∧ ∃ r ∈ st.found, version = r.version ∧
        SameSpending r data)
    | .transfer .tx (.create data) => data.counted = true ∧ Spends db0 (sends i) st data
    | .transfer .tx (.updateMany ..) => False
    | .transfer c (.sumSince source statuses since) => c = .prisma ∧ st.staged = none ∧ sends i source ∧
      statuses = [.SUCCESSFUL, .PROCESSING] ∧ since + rollingWindowMs ≤ st.now
    | .account _ (.updateMany _ data _) => Owned db0 data
    | .account _ (.create _) => False
    | _ => True
  yields _ st op r := match op, r with
    | .transfer .prisma (.findUnique id), .ok none => ∀ r ∈ st.found, r.id ≠ id
    | .transfer .prisma (.findFirst _), .ok (some row) => row.status ≠ .PENDING
    | .account _ (.findUnique id), .ok (some row) => row.id = id ∧ Owned db0 row
    | .kyc _ (.findProfile userId), .ok profile => profile = db0.kycProfiles.find? userId
    | .kyc _ (.findTierLimit tier), .ok record => record = db0.kycTierLimits.find? tier
    | .dateNow, .ok now => st.now ≤ now
    | .transaction .rollback, .error _ => False
    | _, _ => True
  next _ st op r := match op, r with
    | .dateNow, .ok now => { st with now := now }
    | .transfer .prisma (.sumSince source _ since), .ok sum =>
      { st with summed := some ⟨source, since, sum.getD 0⟩ }
    | .transfer .prisma (.findFirst _), .ok (some row) => { st with found := row :: st.found }
    | .transfer .prisma (.create data), .ok () => st.saved data
    | .transfer .prisma (.updateMany _ data), .ok n => if n = 0 then st else st.saved data
    | .transfer .tx (.create data), .ok () => { st with staged := some data }
    | .transaction .commit, _ => { st with summed := none, staged := none }
    | .transaction .rollback, .ok () => { st with staged := none }
    | _, _ => st

/-! ## The invariant -/

structure SpendingInv (db0 : Db) (sends : PId → String → Prop) (t : Table TransferRecord.id)
    (sts : PId → Spending) :
    Prop where
  nonneg : NonNegative t
  untraced : ∀ r ∈ t.rows, r.status = .PENDING → r.providerReference = none
  summed : ∀ i, ∀ sum ∈ (sts i).summed, sends i sum.source ∧
    sent t sum.source (sinceTime sum.since) ≤ sum.total
  found : ∀ i, ∀ r ∈ (sts i).found, ∃ cur, t.find? r.id = some cur ∧ r.version ≤ cur.version ∧
    (r.version = cur.version → r = cur)
  within : ∀ row ∈ db0.accounts.rows, ∀ limits, transferLimitsOf db0 row = .ok limits →
    WithinLimits limits t row.id

namespace SpendingInv

variable {db0 : Db} {sends : PId → String → Prop} {t : Table TransferRecord.id} {sts : PId → Spending} {i : PId}
  {data : TransferRecord}

/-- What a program knows of the table may be less than before. -/
theorem narrow (h : SpendingInv db0 sends t sts) {st : Spending}
    (hsummed : ∀ sum ∈ st.summed, sum ∈ (sts i).summed)
    (hfound : ∀ r ∈ st.found, r ∈ (sts i).found) : SpendingInv db0 sends t (Function.update sts i st) where
  nonneg := h.nonneg
  untraced := h.untraced
  summed := (Function.forall_update_iff sts (p := fun j (st : Spending) => ∀ sum ∈ st.summed, sends j sum.source ∧
    sent t sum.source (sinceTime sum.since) ≤ sum.total)).2
      ⟨fun sum hsum => h.summed i sum (hsummed sum hsum), fun j _ => h.summed j⟩
  found := (Function.forall_update_iff sts (p := fun _ (st : Spending) => ∀ r ∈ st.found, ∃ cur,
    t.find? r.id = some cur ∧ r.version ≤ cur.version ∧ (r.version = cur.version → r = cur))).2
      ⟨fun r hr => h.found i r (hfound r hr), fun j _ => h.found j⟩
  within := h.within

/-- A transfer found by its provider reference. -/
theorem find (h : SpendingInv db0 sends t sts) {r : TransferRecord} (hr : r ∈ t.rows) :
    SpendingInv db0 sends t (Function.update sts i { sts i with found := r :: (sts i).found }) where
  nonneg := h.nonneg
  untraced := h.untraced
  summed := (Function.forall_update_iff sts (p := fun j (st : Spending) => ∀ sum ∈ st.summed, sends j sum.source ∧
    sent t sum.source (sinceTime sum.since) ≤ sum.total)).2 ⟨h.summed i, fun j _ => h.summed j⟩
  found := (Function.forall_update_iff sts (p := fun _ (st : Spending) => ∀ r ∈ st.found, ∃ cur,
    t.find? r.id = some cur ∧ r.version ≤ cur.version ∧ (r.version = cur.version → r = cur))).2
      ⟨fun r' hr' => (List.mem_cons.1 hr').elim
        (fun e => ⟨r', Table.find?_of_mem (e ▸ hr), le_rfl, fun _ => rfl⟩) (h.found i r'), fun j _ => h.found j⟩
  within := h.within

/-- A sum over what there is. -/
theorem sum (h : SpendingInv db0 sends t sts) {source : String} {since total : Int} (hmine : sends i source)
    (hle : sent t source (sinceTime since) ≤ total) :
    SpendingInv db0 sends t (Function.update sts i { sts i with summed := some ⟨source, since, total⟩ }) where
  nonneg := h.nonneg
  untraced := h.untraced
  summed := (Function.forall_update_iff sts (p := fun j (st : Spending) => ∀ sum ∈ st.summed, sends j sum.source ∧
    sent t sum.source (sinceTime sum.since) ≤ sum.total)).2
      ⟨fun sum hsum => by cases hsum; exact ⟨hmine, hle⟩, fun j _ => h.summed j⟩
  found := (Function.forall_update_iff sts (p := fun _ (st : Spending) => ∀ r ∈ st.found, ∃ cur,
    t.find? r.id = some cur ∧ r.version ≤ cur.version ∧
      (r.version = cur.version → r = cur))).2 ⟨h.found i, fun j _ => h.found j⟩
  within := h.within

/-- What a saved row adds to any sum: nothing, or its amount, if it has been cleared for its account. -/
theorem sent_put (h : SpendingInv db0 sends t sts) {accountId : String} {p : Int → Bool}
    (hdata : data.counted = false ∨ (∃ old, t.find? data.id = some old ∧ SameSpending old data ∧
      data.counted = true) ∨
      data.sourceAccountId ≠ accountId) : sent (t.put data) accountId p ≤ sent t accountId p := by
  rcases hdata with huncounted | ⟨old, hold, hsame, hcounted⟩ | helse
  · have hle : sent (t.put data) accountId p ≤ sent t accountId p + data.sent accountId p := sent_put_le h.nonneg
    rw [TransferRecord.sent_uncounted huncounted] at hle
    omega
  · refine (sent_put_same hold ?_).le
    unfold TransferRecord.sent
    rw [hsame.sourceAccountId, hsame.amount, hsame.createdAt, hsame.counted, hcounted]
  · have hle : sent (t.put data) accountId p ≤ sent t accountId p + data.sent accountId p := sent_put_le h.nonneg
    rw [TransferRecord.sent_elsewhere helse] at hle
    omega

/-- A cleared transfer brings no window over the daily limit: what a window that holds it holds besides it had been
summed. -/
theorem window_put (h : SpendingInv db0 sends t sts) {row : AccountRecord} (hrow : row ∈ db0.accounts.rows)
    {limits : KycTierLimits} (hlimits : transferLimitsOf db0 row = .ok limits) (hnonneg : 0 ≤ data.amountMinorUnits)
    (haffords : Affords db0 (sts i).summed row.id data.amountMinorUnits data.createdAt) {cap : Money}
    (hcap : cap ∈ limits.dailyTransferLimit) (start : Int) :
    sent (t.put data) row.id (inWindow start) ≤ cap.minorUnits := by
  have hput : sent (t.put data) row.id (inWindow start) ≤
      sent t row.id (inWindow start) + data.sent row.id (inWindow start) := sent_put_le h.nonneg
  by_cases hin : inWindow start data.createdAt = true
  · obtain ⟨row', hrow', limits', hlimits', -, hdaily⟩ := haffords
    obtain rfl : row = row' := Option.some.inj ((Table.find?_of_mem hrow).symm.trans hrow')
    obtain rfl : limits = limits' := Except.ok.inj (hlimits.symm.trans hlimits')
    obtain ⟨sum, hsum, hsource, hsince, htotal⟩ := hdaily cap hcap
    have hsent := (h.summed i sum hsum).2
    rw [hsource] at hsent
    have hstart : sum.since ≤ start := by
      simp only [inWindow, Bool.and_eq_true, decide_eq_true_eq] at hin
      omega
    have hmono : sent t row.id (inWindow start) ≤ sent t row.id (sinceTime sum.since) :=
      sent_mono h.nonneg fun x hx => by
        simp only [inWindow, Bool.and_eq_true, decide_eq_true_eq] at hx
        exact decide_eq_true (hstart.trans hx.1)
    have hdata : data.sent row.id (inWindow start) ≤ data.amountMinorUnits := TransferRecord.sent_le hnonneg
    omega
  · have hdata : data.sent row.id (inWindow start) = 0 := by
      unfold TransferRecord.sent
      exact if_neg fun hc => hin hc.2.2
    have hold := (h.within row hrow limits hlimits).daily cap hcap start
    omega

/-- **A row that may be saved leaves every account within its limits.** -/
theorem put (h : SpendingInv db0 sends t sts)
    (hsends : ∀ j accountId, sends i accountId → sends j accountId → j = i)
    (hnonneg : 0 ≤ data.amountMinorUnits) (huntraced : data.status = .PENDING → data.providerReference = none)
    (hcounted : data.counted = true → (∃ old, t.find? data.id = some old ∧ SameSpending old data) ∨
      sends i data.sourceAccountId ∧
        Affords db0 (sts i).summed data.sourceAccountId data.amountMinorUnits data.createdAt)
    (hversion : ∀ old, t.find? data.id = some old → old.version < data.version) {st : Spending}
    (hsummed : ∀ sum ∈ st.summed, sum ∈ (sts i).summed ∧ data.counted = false)
    (hfound : ∀ r ∈ st.found, r ∈ (sts i).found) :
    SpendingInv db0 sends (t.put data) (Function.update sts i st) := by
  have hmem : ∀ r ∈ (t.put data).rows, r = data ∨ r ∈ t.rows := fun r hr =>
    ((Table.mem_put _ _ _).1 hr).imp_right (·.1)
  have hcases : ∀ accountId, (data.counted = false ∨
    (∃ old, t.find? data.id = some old ∧ SameSpending old data ∧
      data.counted = true) ∨ data.sourceAccountId ≠ accountId) ∨ data.counted = true ∧
        data.sourceAccountId = accountId ∧ sends i accountId ∧
        Affords db0 (sts i).summed accountId data.amountMinorUnits data.createdAt := by
    intro accountId
    by_cases hc : data.counted = true
    · rcases hcounted hc with ⟨old, hold, hsame⟩ | ⟨hmine, haffords⟩
      · exact .inl (.inr (.inl ⟨old, hold, hsame, hc⟩))
      · by_cases hid : data.sourceAccountId = accountId
        · exact .inr ⟨hc, hid, hid ▸ hmine, hid ▸ haffords⟩
        · exact .inl (.inr (.inr hid))
    · exact .inl (.inl (by simpa using hc))
  have hkept : ∀ r : TransferRecord, (∃ cur, t.find? r.id = some cur ∧ r.version ≤ cur.version ∧
      (r.version = cur.version → r = cur)) → ∃ cur, (t.put data).find? r.id = some cur ∧
        r.version ≤ cur.version ∧
      (r.version = cur.version → r = cur) := by
    rintro r ⟨cur, hcur, hle, heq⟩
    by_cases hid : data.id = r.id
    · have hlt := hversion cur (hid ▸ hcur)
      exact ⟨data, hid ▸ Table.find?_put_self t data, by omega, fun e => absurd e (by omega)⟩
    · exact ⟨cur, (Table.find?_put_ne t hid).trans hcur, hle, heq⟩
  refine ⟨fun r hr => ?_, fun r hr hpending => ?_, ?_, ?_, fun row hrow limits hlimits => ⟨?_, ?_⟩⟩
  · rcases hmem r hr with rfl | hr
    · exact hnonneg
    · exact h.nonneg r hr
  · rcases hmem r hr with rfl | hr
    · exact huntraced hpending
    · exact h.untraced r hr hpending
  · refine (Function.forall_update_iff sts (p := fun j (st : Spending) => ∀ sum ∈ st.summed, sends j sum.source ∧
      sent (t.put data) sum.source (sinceTime sum.since) ≤ sum.total)).2
        ⟨fun sum hsum => ?_, fun j hj sum hsum => ?_⟩
    · obtain ⟨hsum, huncounted⟩ := hsummed sum hsum
      exact ⟨(h.summed i sum hsum).1, (h.sent_put (.inl huncounted)).trans (h.summed i sum hsum).2⟩
    · obtain ⟨hsource, hle⟩ := h.summed j sum hsum
      rcases hcases sum.source with hless | ⟨-, -, hmine, -⟩
      · exact ⟨hsource, (h.sent_put hless).trans hle⟩
      · exact absurd (hsends j _ hmine hsource) hj
  · exact (Function.forall_update_iff sts (p := fun _ (st : Spending) => ∀ r ∈ st.found, ∃ cur,
      (t.put data).find? r.id = some cur ∧ r.version ≤ cur.version ∧ (r.version = cur.version → r = cur))).2
        ⟨fun r hr => hkept r (h.found i r (hfound r hr)), fun j _ r hr => hkept r (h.found j r hr)⟩
  · intro cap hcap start
    rcases hcases row.id with hless | ⟨-, -, -, haffords⟩
    · exact (h.sent_put hless).trans ((h.within row hrow limits hlimits).daily cap hcap start)
    · exact h.window_put hrow hlimits hnonneg haffords hcap start
  · intro cap hcap r hr hsource hc
    rcases hmem r hr with rfl | hr
    · rcases hcounted hc with ⟨old, hold, hsame⟩ | ⟨-, row', hrow', limits', hlimits', heach, -⟩
      · rw [hsame.amount]
        exact (h.within row hrow limits hlimits).each cap hcap old (Table.mem_of_find? hold)
          (hsame.sourceAccountId ▸ hsource) hsame.counted
      · rw [hsource] at hrow'
        obtain rfl : row = row' := Option.some.inj ((Table.find?_of_mem hrow).symm.trans hrow')
        obtain rfl : limits = limits' := Except.ok.inj (hlimits.symm.trans hlimits')
        exact heach cap hcap
    · exact (h.within row hrow limits hlimits).each cap hcap r hr hsource hc

end SpendingInv

/-! ### Transfers that are not yet committed -/

theorem applyAll_transfers : ∀ (ws : List Write) (db : Db),
    (db.applyAll ws).transfers = (transferWrites ws).foldl Table.put db.transfers
  | [], _ => rfl
  | w :: ws, db => by
    rw [Db.applyAll_cons, applyAll_transfers ws]
    cases w <;> rfl

theorem transferWrites_append (ws ws' : List Write) :
    transferWrites (ws ++ ws') = transferWrites ws ++ transferWrites ws' := List.filterMap_append

theorem mem_transferWrites {ws : List Write} {data : TransferRecord} (h : data ∈ transferWrites ws) :
    Write.transfer data ∈ ws := by
  obtain ⟨w, hw, hdata⟩ := List.mem_filterMap.1 h
  cases w with
  | transfer data' =>
    cases hdata
    exact hw
  | _ => cases hdata

/-- A call that saves no transfer stages none. -/
theorem exec_transferWrites {s s' : Store} {i : PId} {a : Ans} {op : Op} {r : Except Err op.Res}
    (ht : ∀ q, op ≠ .transaction q) (hop : op.savedTransfer? = none) (h : exec i a op s = some (r, s')) (j : PId) :
    transferWrites (s'.staged j) = transferWrites (s.staged j) := by
  rcases exec_performs ht h with hs | ⟨c, w, rfl, hp⟩
  · rw [hs.staged]
  · cases c with
    | prisma => rfl
    | tx =>
      rw [Store.staged_write_tx]
      split
      · rename_i hj
        rw [transferWrites_append, hj]
        simp [transferWrites, performs_no_transfer hop hp]
      · rfl

/-- A call takes no time. -/
theorem exec_clock {s s' : Store} {i : PId} {a : Ans} {op : Op} {r : Except Err op.Res}
    (h : exec i a op s = some (r, s')) : s'.clock = s.clock := by
  by_cases hop : NoKey op
  · exact (marks_of_noKey hop h).2
  · cases op with
    | idempotencyKey q =>
      rcases r with e | x
      · rw [(exec_idempotencyKey_error h).1]
      · rcases exec_idempotencyKey_write h with rfl | ⟨w, rfl, -⟩
        · rfl
        · rfl
    | mark m => rw [(exec_mark h).2]
    | _ => exact absurd trivial hop

/-- A transfer that a transaction has inserted. -/
structure Inserted (db0 : Db) (sends : String → Prop) (summed : Option Summed) (data : TransferRecord) : Prop where
  nonneg : 0 ≤ data.amountMinorUnits
  counted : data.counted = true
  sends : sends data.sourceAccountId
  affords : Affords db0 summed data.sourceAccountId data.amountMinorUnits data.createdAt

theorem Inserted.status {db0 : Db} {sends : String → Prop} {summed : Option Summed} {data : TransferRecord}
    (h : Inserted db0 sends summed data) : data.status ≠ .PENDING := by
  intro hs
  have hc := h.counted
  rw [TransferRecord.counted, hs] at hc
  cases hc

structure StagedInv (db0 : Db) (sends : PId → String → Prop) (s : Store) (sts : PId → Spending) : Prop where
  writes : ∀ i, transferWrites (s.staged i) = (sts i).staged.toList
  inserted : ∀ i, ∀ data ∈ (sts i).staged, Inserted db0 (sends i) (sts i).summed data ∧
    s.db.transfers.find? data.id = none
  apart : ∀ i, ∀ x ∈ (sts i).staged, ∀ j, ∀ y ∈ (sts j).staged, y.id = x.id → j = i

namespace StagedInv

variable {db0 : Db} {sends : PId → String → Prop} {s s' : Store} {sts : PId → Spending} {i : PId}
  {data : TransferRecord}
  {st : Spending}

theorem staged_mem (h : StagedInv db0 sends s sts) {j : PId} (hdata : data ∈ (sts j).staged) :
    Write.transfer data ∈ s.staged j := by
  refine mem_transferWrites ?_
  rw [h.writes, Option.mem_toList]
  exact hdata

/-- A row that is not locked has another id than the staged ones. -/
theorem free_ne (h : StagedInv db0 sends s sts) {c : Client} (hfree : s.Free i c (.transfer data)) {j : PId}
    (hj : c = .prisma ∨ j ≠ i) {x : TransferRecord} (hx : x ∈ (sts j).staged) : x.id ≠ data.id := by
  intro hid
  exact hfree j hj _ (h.staged_mem hx) (.transfer data.id) List.mem_cons_self (hid ▸ List.mem_cons_self)

/-- Nothing that is staged has changed, nor any row of its id. -/
theorem keep (h : StagedInv db0 sends s sts)
    (hwrites : ∀ j, transferWrites (s'.staged j) = transferWrites (s.staged j))
    (hrows : ∀ j, ∀ x ∈ (sts j).staged, s'.db.transfers.find? x.id = s.db.transfers.find? x.id)
    (hstaged : st.staged = (sts i).staged) (hsummed : st.staged = none ∨ st.summed = (sts i).summed) :
    StagedInv db0 sends s' (Function.update sts i st) := by
  have hsame : ∀ j, (Function.update sts i st j).staged = (sts j).staged := by
    refine (Function.forall_update_iff sts (p := fun j (st : Spending) => st.staged = (sts j).staged)).2
      ⟨hstaged, fun _ _ => rfl⟩
  refine ⟨fun j => ?_, fun j x hx => ?_, fun j x hx k y hy => ?_⟩
  · rw [hsame, hwrites]
    exact h.writes j
  · rw [hsame] at hx
    obtain ⟨hinserted, hnew⟩ := h.inserted j x hx
    refine ⟨?_, (hrows j x hx).trans hnew⟩
    by_cases hj : j = i
    · subst hj
      rw [Function.update_self]
      rcases hsummed with hnone | hsum
      · rw [← hstaged, hnone] at hx
        cases hx
      · rw [hsum]
        exact hinserted
    · rw [Function.update_of_ne hj]
      exact hinserted
  · rw [hsame] at hx hy
    exact h.apart j x hx k y hy

/-- What the program has staged is gone, into the table or not. -/
theorem settle (h : StagedInv db0 sends s sts) (hstaged : ∀ j, s'.staged j = if i = j then [] else s.staged j)
    (hrows : ∀ j, j ≠ i → ∀ x ∈ (sts j).staged, s'.db.transfers.find? x.id = s.db.transfers.find? x.id)
    (hst : st.staged = none) : StagedInv db0 sends s' (Function.update sts i st) := by
  have hother : ∀ j, ∀ x ∈ (Function.update sts i st j).staged, j ≠ i ∧ x ∈ (sts j).staged := by
    intro j x hx
    by_cases hj : j = i
    · rw [hj, Function.update_self, hst] at hx
      cases hx
    · rw [Function.update_of_ne hj] at hx
      exact ⟨hj, hx⟩
  refine ⟨fun j => ?_, fun j x hx => ?_, fun j x hx k y hy => ?_⟩
  · rw [hstaged]
    by_cases hj : j = i
    · rw [hj, if_pos rfl, Function.update_self, hst]
      rfl
    · rw [if_neg fun e => hj e.symm, Function.update_of_ne hj]
      exact h.writes j
  · obtain ⟨hj, hx⟩ := hother j x hx
    obtain ⟨hinserted, hnew⟩ := h.inserted j x hx
    rw [Function.update_of_ne hj]
    exact ⟨hinserted, (hrows j hj x hx).trans hnew⟩
  · exact h.apart j x (hother j x hx).2 k y (hother k y hy).2

/-- An insert inside the transaction. -/
theorem insert (h : StagedInv db0 sends s sts) (hnone : (sts i).staged = none)
    (hinserted : Inserted db0 (sends i) (sts i).summed data) (hfree : s.Free i .tx (.transfer data))
    (hnew : s.db.transfers.find? data.id = none) :
    StagedInv db0 sends (s.write i .tx (.transfer data))
      (Function.update sts i { sts i with staged := some data }) := by
  have hcases : ∀ j, ∀ x ∈ (Function.update sts i { sts i with staged := some data } j).staged,
      (j = i ∧ x = data) ∨ (j ≠ i ∧ x ∈ (sts j).staged) := by
    intro j x hx
    by_cases hj : j = i
    · rw [hj, Function.update_self] at hx
      exact .inl ⟨hj, (Option.some.inj hx).symm⟩
    · rw [Function.update_of_ne hj] at hx
      exact .inr ⟨hj, hx⟩
  refine ⟨fun j => ?_, fun j x hx => ?_, fun j x hx k y hy => ?_⟩
  · rw [Store.staged_write_tx]
    by_cases hj : i = j
    · subst hj
      rw [if_pos rfl, transferWrites_append, h.writes, hnone, Function.update_self]
      rfl
    · rw [if_neg hj, Function.update_of_ne (fun e => hj e.symm)]
      exact h.writes j
  · rcases hcases j x hx with ⟨rfl, rfl⟩ | ⟨hj, hx⟩
    · rw [Function.update_self]
      exact ⟨hinserted, hnew⟩
    · rw [Function.update_of_ne hj]
      exact h.inserted j x hx
  · intro hid
    rcases hcases j x hx with ⟨rfl, rfl⟩ | ⟨hj, hx'⟩
    · rcases hcases k y hy with ⟨rfl, -⟩ | ⟨hk, hy'⟩
      · rfl
      · exact absurd hid (h.free_ne hfree (.inr hk) hy')
    · rcases hcases k y hy with ⟨rfl, rfl⟩ | ⟨hk, hy'⟩
      · exact absurd hid.symm (h.free_ne hfree (.inr hj) hx')
      · exact h.apart j x hx' k y hy' hid

end StagedInv

/-! ### Every step -/

/-- `sumSourceAmountSince` answers what has been sent. -/
theorem exec_transfer_sumSince {s s' : Store} {i : PId} {a : Ans} {source : String} {since : Int} {x : Option Int}
    (h : exec i a (.transfer .prisma (.sumSince source [.SUCCESSFUL, .PROCESSING] since)) s = some (.ok x, s')) :
    x.getD 0 = sent s.db.transfers source (sinceTime since) := by
  have h := exec_transfer h
  simp only [execTransfer, Store.view_prisma, Option.some.injEq, Prod.mk.injEq, Except.ok.injEq] at h
  have hgetD : ∀ rows : List TransferRecord, (if rows.isEmpty then none else
      some (rows.map TransferRecord.amountMinorUnits).sum).getD 0 = (rows.map TransferRecord.amountMinorUnits).sum := by
    intro rows
    cases rows <;> rfl
  rw [← h.1, hgetD]
  unfold sent Table.sum
  induction s.db.transfers.rows with
  | nil => rfl
  | cons r rows ih =>
    have hsent : r.sent source (sinceTime since) = if r.sourceAccountId = source ∧
        r.status ∈ [TransactionStatus.SUCCESSFUL, .PROCESSING] ∧
          since ≤ (r.createdAt : Int) then r.amountMinorUnits
        else 0 := by
      simp [TransferRecord.sent, TransferRecord.counted, sinceTime]
    rw [List.map_cons, List.sum_cons, ← ih, hsent, List.filter_cons]
    split
    · rename_i hc
      rw [if_pos (of_decide_eq_true hc), List.map_cons, List.sum_cons]
    · rename_i hc
      rw [if_neg fun h => hc (decide_eq_true h), zero_add]

structure LimitInv (db0 : Db) (sends : PId → String → Prop) (s : Store) (sts : PId → Spending) : Prop where
  clock : ∀ i, (sts i).now ≤ s.clock
  kyc : s.db.kycProfiles = db0.kycProfiles ∧ s.db.kycTierLimits = db0.kycTierLimits
  accounts : EachAccount (Owned db0) s
  table : SpendingInv db0 sends s.db.transfers sts
  staged : StagedInv db0 sends s sts

namespace LimitInv

variable {db0 : Db} {sends : PId → String → Prop} {s s' : Store} {sts : PId → Spending} {i : PId}
  {a : Ans} {op : Op}
  {r : Except Err op.Res} {data : TransferRecord}

theorem of_parts (h : LimitInv db0 sends s sts) (hx : exec i a op s = some (r, s'))
    (hsave : ∀ data, op.SavesAccount data → Owned db0 data) {st : Spending} (hnow : st.now ≤ s.clock)
    (htable : SpendingInv db0 sends s'.db.transfers (Function.update sts i st))
    (hstaged : StagedInv db0 sends s' (Function.update sts i st)) :
    LimitInv db0 sends s' (Function.update sts i st) where
  clock := by
    rw [exec_clock hx]
    exact (Function.forall_update_iff sts (p := fun _ (st : Spending) => st.now ≤ s.clock)).2
      ⟨hnow, fun j _ => h.clock j⟩
  kyc := by
    rw [(exec_kyc_kept hx).1, (exec_kyc_kept hx).2]
    exact h.kyc
  accounts := h.accounts.step hsave hx
  table := htable
  staged := hstaged

/-- A call that saves no transfer. -/
theorem unsaved (h : LimitInv db0 sends s sts) (hx : exec i a op s = some (r, s')) (ht : ∀ q, op ≠ .transaction q)
    (hop : op.savedTransfer? = none) (hsave : ∀ data, op.SavesAccount data → Owned db0 data) {st : Spending}
    (hnow : st.now ≤ s.clock) (hstaged : st.staged = (sts i).staged)
    (hsummed : st.staged = none ∨ st.summed = (sts i).summed)
    (htable : SpendingInv db0 sends s.db.transfers (Function.update sts i st)) :
    LimitInv db0 sends s' (Function.update sts i st) := by
  have htransfers := exec_transfers ht hop hx
  refine h.of_parts hx hsave hnow (htransfers ▸ htable) (h.staged.keep (fun j => exec_transferWrites ht hop hx j)
    (fun j x hx' => ?_) hstaged hsummed)
  rw [htransfers]

/-- A call that saves no transfer and tells nothing of them. -/
theorem idle (h : LimitInv db0 sends s sts) (hx : exec i a op s = some (r, s')) (ht : ∀ q, op ≠ .transaction q)
    (hop : op.savedTransfer? = none) (hsave : ∀ data, op.SavesAccount data → Owned db0 data) :
    LimitInv db0 sends s' (Function.update sts i (sts i)) :=
  h.unsaved hx ht hop hsave (h.clock i) rfl (.inr rfl) (h.table.narrow (fun _ h => h) fun _ h => h)

theorem sameRows (h : LimitInv db0 sends s sts) (hs : s.SameRows s') (hclock : s'.clock = s.clock) :
    LimitInv db0 sends s' sts where
  clock := hclock ▸ h.clock
  kyc := hs.db ▸ h.kyc
  accounts := h.accounts.sameRows hs
  table := hs.db ▸ h.table
  staged := by
    refine ⟨fun j => hs.staged ▸ h.staged.writes j, fun j data hdata => ?_, h.staged.apart⟩
    rw [hs.db]
    exact h.staged.inserted j data hdata

/-- The transaction has ended without its writes. -/
theorem dropped (h : LimitInv db0 sends s sts) {st : Spending} (hst : st.staged = none) (hnow : st.now = (sts i).now)
    (hsummed : ∀ sum ∈ st.summed, sum ∈ (sts i).summed) (hfound : st.found = (sts i).found) :
    LimitInv db0 sends (s.rollback i) (Function.update sts i st) where
  clock := (Function.forall_update_iff sts (p := fun _ (st : Spending) => st.now ≤ s.clock)).2
    ⟨hnow ▸ h.clock i, fun j _ => h.clock j⟩
  kyc := h.kyc
  accounts := h.accounts.rollback
  table := h.table.narrow hsummed fun _ hr => hfound ▸ hr
  staged := h.staged.settle (fun _ => Store.staged_rollback) (fun _ _ _ _ => rfl) hst

/-- The transaction has ended, and its transfer is in the table. -/
theorem committed (h : LimitInv db0 sends s sts)
    (hsends : ∀ j accountId, sends i accountId → sends j accountId → j = i)
    {st : Spending} (hst : st.staged = none) (hnow : st.now = (sts i).now) (hsummed : st.summed = none)
    (hfound : st.found = (sts i).found) : LimitInv db0 sends (s.commit i) (Function.update sts i st) := by
  have htransfers : (s.commit i).db.transfers = (sts i).staged.toList.foldl Table.put s.db.transfers := by
    rw [Store.db_commit, applyAll_transfers, h.staged.writes]
  have hkyc : (s.commit i).db.kycProfiles = s.db.kycProfiles ∧ (s.commit i).db.kycTierLimits = s.db.kycTierLimits :=
    Db.applyAll_kyc (s.staged i) s.db
  refine ⟨?_, ?_, h.accounts.commit, ?_, h.staged.settle (fun _ => Store.staged_commit) (fun j hj x hx => ?_) hst⟩
  · exact (Function.forall_update_iff sts (p := fun _ (st : Spending) => st.now ≤ s.clock)).2
      ⟨hnow ▸ h.clock i, fun j _ => h.clock j⟩
  · rw [hkyc.1, hkyc.2]
    exact h.kyc
  · rw [htransfers]
    cases hdata : (sts i).staged with
    | none => exact h.table.narrow (fun sum hsum => by rw [hsummed] at hsum; cases hsum) fun r hr => hfound ▸ hr
    | some data =>
      obtain ⟨hinserted, hnew⟩ := h.staged.inserted i data hdata
      refine h.table.put hsends hinserted.nonneg (fun hp => absurd hp hinserted.status)
        (fun _ => .inr ⟨hinserted.sends, hinserted.affords⟩) (fun old hold => ?_) (fun sum hsum => ?_)
        fun _ hr => hfound ▸ hr
      · rw [hnew] at hold
        cases hold
      · rw [hsummed] at hsum
        cases hsum
  · rw [htransfers]
    cases hdata : (sts i).staged with
    | none => rfl
    | some data =>
      exact Table.find?_put_ne _ fun hid => hj (h.staged.apart i data hdata j x hx hid.symm)

/-- A saved row. -/
theorem saved (h : LimitInv db0 sends s sts)
    (hsends : ∀ j accountId, sends i accountId → sends j accountId → j = i)
    (hx : exec i a op s = some (r, s')) (hsave : ∀ data, op.SavesAccount data → Owned db0 data)
    (hs : s' = s.write i .prisma (.transfer data)) (hfree : s.Free i .prisma (.transfer data))
    (hnonneg : 0 ≤ data.amountMinorUnits) (huntraced : data.status = .PENDING → data.providerReference = none)
    (hcounted : data.counted = true → (∃ old, s.db.transfers.find? data.id = some old ∧ SameSpending old data) ∨
      sends i data.sourceAccountId ∧
        Affords db0 (sts i).summed data.sourceAccountId data.amountMinorUnits data.createdAt)
    (hstaged : data.counted = true → (sts i).staged = none)
    (hversion : ∀ old, s.db.transfers.find? data.id = some old → old.version < data.version) :
    LimitInv db0 sends s' (Function.update sts i ((sts i).saved data)) := by
  have hkept : ((sts i).saved data).staged = (sts i).staged ∧ ((sts i).saved data).now = (sts i).now ∧
      ((sts i).saved data).found = (sts i).found := by
    unfold Spending.saved
    split <;> exact ⟨rfl, rfl, rfl⟩
  have hput : s'.db.transfers = s.db.transfers.put data := by
    rw [hs]
    rfl
  refine h.of_parts hx hsave (hkept.2.1 ▸ h.clock i) ?_ (h.staged.keep (fun j => by rw [hs]; rfl) (fun j x hx' => ?_)
    hkept.1 ?_)
  · rw [hput]
    refine h.table.put hsends hnonneg huntraced hcounted hversion (fun sum hsum => ?_) fun r hr => hkept.2.2 ▸ hr
    unfold Spending.saved at hsum
    split at hsum
    · cases hsum
    · rename_i hc
      exact ⟨hsum, by simpa using hc⟩
  · rw [hput, Table.find?_put_ne]
    exact fun hid => h.staged.free_ne hfree (.inl rfl) hx' hid.symm
  · by_cases hc : data.counted = true
    · exact .inl (hkept.1.trans (hstaged hc))
    · exact .inr (by rw [Spending.saved, if_neg hc])

theorem created (h : LimitInv db0 sends s sts)
    (hsends : ∀ j accountId, sends i accountId → sends j accountId → j = i)
    (hok : Spends db0 (sends i) (sts i) data) (hx : exec i a (.transfer .prisma (.create data)) s = some (.ok (), s')) :
    LimitInv db0 sends s' (Function.update sts i ((sts i).saved data)) := by
  obtain ⟨hs, hfree, db, hv, hnew⟩ := exec_transfer_create hx
  rw [Store.view_prisma, Option.some.injEq] at hv
  subst hv
  refine h.saved hsends hx (fun _ hd => absurd hd (not_savesAccount rfl _)) hs hfree hok.nonneg hok.untraced
    (fun hc => .inr (hok.counted hc).2) (fun hc => (hok.counted hc).1) fun old hold => ?_
  rw [hnew] at hold
  cases hold

theorem updated (h : LimitInv db0 sends s sts)
    (hsends : ∀ j accountId, sends i accountId → sends j accountId → j = i)
    {version n : Nat} (hok : (limitProtocol db0 sends).ok i (sts i) (.transfer .prisma (.updateMany version data)))
    (hx : exec i a (.transfer .prisma (.updateMany version data)) s = some (.ok n, s')) :
    LimitInv db0 sends s' (Function.update sts i (if n = 0 then sts i else (sts i).saved data)) := by
  obtain ⟨hversion, hpending, hdata⟩ := hok
  rcases exec_transfer_updateMany hx with ⟨rfl, rfl⟩ | ⟨rfl, hs, hfree, db, old, hv, hold, hver⟩
  · rw [if_pos rfl, Function.update_eq_self]
    exact h
  · rw [Store.view_prisma, Option.some.injEq] at hv
    subst hv
    have hnewer : ∀ old', s.db.transfers.find? data.id = some old' → old'.version < data.version := by
      intro old' hold'
      obtain rfl := Option.some.inj (hold.symm.trans hold')
      omega
    rw [if_neg one_ne_zero]
    rcases hdata with hspends | ⟨hnone, found, hfound, hfoundVersion, hsame⟩
    · exact h.saved hsends hx (fun _ hd => absurd hd (not_savesAccount rfl _)) hs hfree hspends.nonneg hspends.untraced
        (fun hc => .inr (hspends.counted hc).2) (fun hc => (hspends.counted hc).1) hnewer
    · obtain ⟨cur, hcur, -, heq⟩ := h.table.found i found hfound
      rw [← hsame.id, hold, Option.some.injEq] at hcur
      obtain rfl := hcur
      obtain rfl := heq (hfoundVersion.symm.trans hver.symm)
      exact h.saved hsends hx (fun _ hd => absurd hd (not_savesAccount rfl _)) hs hfree
        (hsame.amount ▸ h.table.nonneg found (Table.mem_of_find? hold)) (fun hp => absurd hp hpending)
        (fun _ => .inl ⟨found, hold, hsame⟩) (fun _ => hnone) hnewer

/-- `tx.transfer.create`. -/
theorem inserts (h : LimitInv db0 sends s sts) (hcounted : data.counted = true)
    (hok : Spends db0 (sends i) (sts i) data) (hx : exec i a (.transfer .tx (.create data)) s = some (.ok (), s')) :
    LimitInv db0 sends s' (Function.update sts i { sts i with staged := some data }) := by
  obtain ⟨rfl, hfree, db, hv, hnew⟩ := exec_transfer_create hx
  obtain ⟨hnone, hsends, haffords⟩ := hok.counted hcounted
  have htransfers : db.transfers = s.db.transfers := by
    rw [Store.view_tx hv, applyAll_transfers, h.staged.writes, hnone]
    rfl
  rw [htransfers] at hnew
  exact h.of_parts hx (fun _ hd => absurd hd (not_savesAccount rfl _)) (h.clock i)
    (h.table.narrow (fun _ h => h) fun _ h => h)
    (h.staged.insert hnone ⟨hok.nonneg, hcounted, hsends, haffords⟩ hfree hnew)

/-- **Every permitted call keeps the invariant.** -/
theorem step (h : LimitInv db0 sends s sts)
    (hsends : ∀ i j accountId, sends i accountId → sends j accountId → j = i)
    (hok : (limitProtocol db0 sends).ok i (sts i) op) (hx : exec i a op s = some (r, s')) :
    (limitProtocol db0 sends).yields i (sts i) op r ∧
      LimitInv db0 sends s' (Function.update sts i ((limitProtocol db0 sends).next i (sts i) op r)) := by
  have failed : ∀ e, r = .error e → (∀ q, op ≠ .transaction q) →
      LimitInv db0 sends s' (Function.update sts i (sts i)) := by
    rintro e rfl ht
    rw [Function.update_eq_self]
    exact h.sameRows ((exec_error hx).resolve_right fun hc => ht _ hc.1) (exec_clock hx)
  cases op with
  | transfer c q =>
    have idle : (Op.transfer c q).savedTransfer? = none → LimitInv db0 sends s' (Function.update sts i (sts i)) :=
      fun hop => h.idle hx nofun hop (fun _ hd => absurd hd (not_savesAccount rfl _))
    cases q with
    | findUnique id =>
      have hidle := idle rfl
      rcases r with e | (_ | row)
      · cases c <;> exact ⟨trivial, hidle⟩
      · cases c with
        | tx => exact ⟨trivial, hidle⟩
        | prisma =>
          refine ⟨fun found hfound hid => ?_, hidle⟩
          obtain ⟨db, hv, hnone, -⟩ := exec_transfer_find hx
          rw [Store.view_prisma, Option.some.injEq] at hv
          obtain ⟨cur, hcur, -⟩ := h.table.found i found hfound
          rw [← hv, ← hid, hcur] at hnone
          cases hnone
      · cases c <;> exact ⟨trivial, hidle⟩
    | findFirst ref =>
      have hidle := idle rfl
      rcases r with e | (_ | row)
      · cases c <;> exact ⟨trivial, hidle⟩
      · cases c <;> exact ⟨trivial, hidle⟩
      · cases c with
        | tx => exact ⟨trivial, hidle⟩
        | prisma =>
          obtain ⟨db, hv, hrow, -⟩ := exec_transfer_findFirst hx
          rw [Store.view_prisma, Option.some.injEq] at hv
          subst hv
          have hmem := List.mem_of_find?_eq_some hrow.symm
          have href := List.find?_some hrow.symm
          refine ⟨fun hp => ?_, h.unsaved hx nofun rfl (fun _ hd => absurd hd (not_savesAccount rfl _))
            (h.clock i) rfl
            (.inr rfl) (h.table.find hmem)⟩
          rw [h.table.untraced row hmem hp] at href
          cases href
    | sumSince source statuses since =>
      have hok' : c = .prisma ∧ (sts i).staged = none ∧ sends i source ∧ statuses = [.SUCCESSFUL, .PROCESSING] ∧
          since + rollingWindowMs ≤ (sts i).now := by
        cases c <;> exact hok
      obtain ⟨rfl, hnone, hmine, rfl, -⟩ := hok'
      rcases r with e | x
      · exact ⟨trivial, idle rfl⟩
      · refine ⟨trivial, h.unsaved hx nofun rfl (fun _ hd => absurd hd (not_savesAccount rfl _)) (h.clock i) rfl
          (.inl hnone) (h.table.sum hmine (exec_transfer_sumSince hx).ge)⟩
    | create data =>
      rcases r with e | x
      · cases c <;> exact ⟨trivial, failed e rfl nofun⟩
      · cases c with
        | prisma => exact ⟨trivial, h.created (hsends i) hok hx⟩
        | tx => exact ⟨trivial, h.inserts hok.1 hok.2 hx⟩
    | updateMany version data =>
      cases c with
      | tx => exact absurd hok not_false
      | prisma =>
        rcases r with e | n
        · exact ⟨trivial, failed e rfl nofun⟩
        · exact ⟨trivial, h.updated (hsends i) hok hx⟩
  | transaction q =>
    cases q with
    | begin =>
      rcases r with e | x
      · have hs : s.SameRows s' := (exec_error hx).resolve_right nofun
        refine ⟨trivial, ?_⟩
        show LimitInv db0 sends s' (Function.update sts i (sts i))
        rw [Function.update_eq_self]
        exact h.sameRows hs (exec_clock hx)
      · obtain ⟨hstaged, rfl⟩ := exec_begin hx
        refine ⟨trivial, h.of_parts hx (fun _ hd => absurd hd (not_savesAccount rfl _)) (h.clock i)
          (h.table.narrow (fun _ h => h) fun _ h => h)
          (h.staged.keep (fun j => ?_) (fun _ _ _ => rfl) rfl (.inr rfl))⟩
        rw [Store.staged_begin hstaged]
    | commit =>
      rcases r with e | x
      · rw [exec_commit_error hx]
        exact ⟨trivial, h.dropped rfl rfl (fun _ hsum => by cases hsum) rfl⟩
      · rw [exec_commit hx]
        exact ⟨trivial, h.committed (hsends i) rfl rfl rfl rfl⟩
    | rollback =>
      rcases r with e | x
      · exact absurd hx exec_rollback_error
      · rw [exec_rollback hx]
        exact ⟨trivial, h.dropped rfl rfl (fun _ hsum => hsum) rfl⟩
  | account c q =>
    have hsave : ∀ data, (Op.account c q).SavesAccount data → Owned db0 data := by
      intro data hdata
      cases q with
      | create data' => exact absurd hok not_false
      | updateMany version data' events => exact hdata ▸ hok
      | _ => exact absurd hdata not_false
    have hidle := h.idle hx nofun rfl hsave
    cases q with
    | findUnique id =>
      rcases r with e | (_ | row)
      · exact ⟨trivial, hidle⟩
      · exact ⟨trivial, hidle⟩
      · exact ⟨h.accounts.read hx, hidle⟩
    | _ => rcases r with e | x <;> exact ⟨trivial, hidle⟩
  | kyc c q =>
    have hidle := h.idle hx nofun rfl (fun _ hd => absurd hd (not_savesAccount rfl _))
    cases q with
    | findProfile userId =>
      rcases r with e | profile
      · exact ⟨trivial, hidle⟩
      · refine ⟨?_, hidle⟩
        show profile = db0.kycProfiles.find? userId
        rw [exec_kyc_findProfile hx, h.kyc.1]
    | findTierLimit tier =>
      rcases r with e | record
      · exact ⟨trivial, hidle⟩
      · refine ⟨?_, hidle⟩
        show record = db0.kycTierLimits.find? tier
        rw [exec_kyc_findTierLimit hx, h.kyc.2]
  | dateNow =>
    obtain ⟨rfl, rfl⟩ := exec_dateNow hx
    exact ⟨h.clock i, h.unsaved hx nofun rfl (fun _ hd => absurd hd (not_savesAccount rfl _)) le_rfl rfl (.inr rfl)
      (h.table.narrow (fun _ h => h) fun _ h => h)⟩
  | _ =>
    have hidle := h.idle hx nofun rfl (fun _ hd => absurd hd (not_savesAccount rfl _))
    rcases r with e | x <;> exact ⟨trivial, hidle⟩

end LimitInv

end Kudi
