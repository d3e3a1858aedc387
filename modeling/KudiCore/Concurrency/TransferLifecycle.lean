import KudiCore.Concurrency.AccountWriters

/-!
# The lifecycle of an external transfer

| here | there |
| --- | --- |
| `TransactionStatus.mayBecome` | what `markProcessing`, `markSuccessful` and `markReversed` do to a status |
| `TransferRequest` | `InitiateExternalTransferHandler` and `ConfirmExternalTransferHandler` |

The handler that has inserted a transfer is alone with it until it saves it again: the row has no
`providerReference`, and the other handlers find transfers by that column only. From then on every
program holds copies, and the condition on the version lets a copy be advanced only while it is the
stored row. `refs i` is what the provider calls the payout of program `i`; the provider gives no two
payouts one id.
-/

namespace Kudi

open Interleave Protocol

/-! ## The programs -/

inductive TransferRequest where
  | external (fuel : Nat) (command : InitiateExternalTransferCommand)
  | confirmation (command : ConfirmExternalTransferCommand)

def TransferRequest.program : TransferRequest → Handler Unit
  | .external fuel command => forget (InitiateExternalTransferHandler.execute fuel command)
  | .confirmation command => ConfirmExternalTransferHandler.execute command

/-- Program `i`'s payout is `refs i`. -/
def PayoutIds (refs : PId → String) (_ : Store) (i : PId) (a : Ans) (_ : Op) : Prop :=
  ∀ r, a = .payout r → ∀ d ∈ r.data, toString d.id = refs i

instance (refs : PId → String) (s : Store) (i : PId) (a : Ans) (op : Op) :
    Decidable ((scheduleOf (PayoutIds refs)).allow s i a op) :=
  match a with
  | .payout r => decidable_of_iff (∀ d ∈ r.data, toString d.id = refs i)
      ⟨fun h r' e => by cases e; exact h, fun h => h r rfl⟩
  | .ok | .pick _ | .fail _ | .uuid _ | .reference _ => isTrue fun _ e => by cases e

/-! ## What may happen to a row -/

def TransactionStatus.mayBecome : TransactionStatus → TransactionStatus → Bool
  | .PENDING, .PROCESSING | .PENDING, .SUCCESSFUL | .PENDING, .REVERSED => true
  | .PROCESSING, .SUCCESSFUL | .PROCESSING, .REVERSED => true
  | _, _ => false

theorem TransactionStatus.mayBecome_of {s s' : TransactionStatus} (h : s.isTerminal = false)
    (h' : s' = .SUCCESSFUL ∨ s' = .REVERSED) : s.mayBecome s' = true := by
  rcases h' with rfl | rfl <;> cases s <;> first | rfl | cases h

structure Advances (r r' : TransferRecord) : Prop where
  id : r'.id = r.id
  status : r.status.mayBecome r'.status = true
  version : r'.version = r.version + 1

/-- Every PROCESSING transfer has a provider reference, and no other transfer has it. -/
def Traceable (t : Table TransferRecord.id) : Prop :=
  ∀ row ∈ t.rows, row.status = .PROCESSING → ∃ ref, row.providerReference = some ref ∧
    ∀ row' ∈ t.rows, row'.providerReference = some ref → row' = row

/-! ## The protocol -/

inductive Authored where
  | nothing
  /-- Inserted, and not saved since. -/
  | pending (r : TransferRecord)
  | advanced

structure Holding where
  authored : Authored
  rows : List TransferRecord

namespace Holding

def init : Holding := ⟨.nothing, []⟩

def Holds (st : Holding) (id : String) : Prop := (∃ r ∈ st.rows, r.id = id) ∨
    ∃ r, st.authored = .pending r ∧ r.id = id

/-- The program has saved `data`. -/
def save (st : Holding) (data : TransferRecord) : Holding where
  authored := match st.authored with
    | .pending r => if r.id = data.id then .advanced else .pending r
    | x => x
  rows := data :: st.rows

end Holding

/-- What a program may make of a copy: settle or reverse it. -/
def Closes (r data : TransferRecord) : Prop :=
  Advances r data ∧ data.providerReference = r.providerReference ∧ data.status ≠ .PROCESSING

/-- What it may make of a row that only it knows. -/
def Opens (ref : String) (r data : TransferRecord) : Prop :=
  Advances r data ∧
    data.providerReference = if data.status = .PROCESSING then some ref else r.providerReference

def transferProtocol (refs : PId → String) : Protocol Op.Res Err where
  State := Holding
  ok i st op := match op with
    | .transfer .prisma (.create data) =>
      st.authored = .nothing ∧ data.version = 0 ∧ data.status = .PENDING ∧ data.providerReference = none
    | .transfer .prisma (.updateMany version data) =>
      (∃ r ∈ st.rows, version = r.version ∧ Closes r data) ∨
        ∃ r, st.authored = .pending r ∧ data.id = r.id ∧ (version = r.version → Opens (refs i) r data)
    | .transfer .tx _ => False
    | .transaction _ => False
    | _ => True
  yields i st op r := match op, r with
    | .transfer .prisma (.findUnique id), .ok none => ¬ st.Holds id
    | .payout _, .ok response => ∀ d ∈ response.data, toString d.id = refs i
    | _, _ => True
  next _ st op r := match op, r with
    | .transfer .prisma (.findFirst _), .ok (some row) => { st with rows := row :: st.rows }
    | .transfer .prisma (.create data), .ok () => { st with authored := .pending data }
    | .transfer .prisma (.updateMany _ data), .ok n => if n = 0 then st else st.save data
    | _, _ => st

/-! ## The invariant -/

structure TransfersInv (refs : PId → String) (s : Store) (sts : PId → Holding) : Prop where
  held : ∀ i, ∀ r ∈ (sts i).rows, ∃ cur, s.db.transfers.find? r.id = some cur ∧ r.version ≤ cur.version ∧
    (r.version = cur.version → r = cur)
  pending : ∀ i r, (sts i).authored = .pending r → s.db.transfers.find? r.id = some r ∧ r.providerReference = none
  alone : ∀ i r, (sts i).authored = .pending r → ∀ j,
    (∀ r' ∈ (sts j).rows, r'.id ≠ r.id) ∧ ∀ r', (sts j).authored = .pending r' → r'.id = r.id → j = i
  unused : ∀ i, (sts i).authored ≠ .advanced →
    ∀ row ∈ s.db.transfers.rows, row.providerReference ≠ some (refs i)
  traceable : Traceable s.db.transfers

namespace TransfersInv

section
variable {refs : PId → String} {s s' : Store} {sts : PId → Holding} {i : PId}

theorem of_eq (h : TransfersInv refs s sts) (ht : s'.db.transfers = s.db.transfers) : TransfersInv refs s' sts where
  held := ht ▸ h.held
  pending := ht ▸ h.pending
  alone := h.alone
  unused := ht ▸ h.unused
  traceable := ht ▸ h.traceable

/-- Whoever holds a row knows its id from the table. -/
theorem holds_stored (h : TransfersInv refs s sts) {id : String} (hid : (sts i).Holds id) :
    ∃ cur, s.db.transfers.find? id = some cur := by
  rcases hid with ⟨r, hr, rfl⟩ | ⟨r, hr, rfl⟩
  · obtain ⟨cur, hcur, -⟩ := h.held i r hr
    exact ⟨cur, hcur⟩
  · exact ⟨r, (h.pending i r hr).1⟩

/-- A row found by its provider reference. -/
theorem found (h : TransfersInv refs s sts) {row : TransferRecord} (hrow : row ∈ s.db.transfers.rows)
    (href : row.providerReference ≠ none) :
    TransfersInv refs s (Function.update sts i { sts i with rows := row :: (sts i).rows }) := by
  have hauth : ∀ j, (Function.update sts i { sts i with rows := row :: (sts i).rows } j).authored =
    (sts j).authored := by
    intro j
    by_cases hj : j = i
    · subst hj
      rw [Function.update_self]
    · rw [Function.update_of_ne hj]
  have hrows : ∀ j, ∀ r ∈ (Function.update sts i { sts i with rows := row :: (sts i).rows } j).rows,
      r = row ∨ r ∈ (sts j).rows := by
    intro j r hr
    by_cases hj : j = i
    · subst hj
      rw [Function.update_self] at hr
      exact List.mem_cons.1 hr
    · rw [Function.update_of_ne hj] at hr
      exact .inr hr
  refine ⟨fun j r hr => ?_, fun j r hr => ?_, fun j r hr k => ⟨fun r' hr' => ?_, fun r' hr' hid => ?_⟩,
    fun j hj => ?_,
    h.traceable⟩
  · rcases hrows j r hr with rfl | hr
    · exact ⟨r, Table.find?_of_mem hrow, le_rfl, fun _ => rfl⟩
    · exact h.held j r hr
  · exact h.pending j r (hauth j ▸ hr)
  · rw [hauth] at hr
    rcases hrows k r' hr' with rfl | hr'
    · intro hid
      obtain ⟨hstored, hnone⟩ := h.pending j r hr
      have hself := Table.find?_of_mem hrow
      rw [hid, hstored, Option.some.injEq] at hself
      exact href (hself ▸ hnone)
    · exact (h.alone j r hr k).1 r' hr'
  · rw [hauth] at hr hr'
    exact (h.alone j r hr k).2 r' hr' hid
  · rw [hauth] at hj
    exact h.unused j hj

/-- A first save. -/
theorem created (h : TransfersInv refs s sts) {data : TransferRecord} (hfirst : (sts i).authored = .nothing)
    (hstatus : data.status = .PENDING) (href : data.providerReference = none)
    (hfree : s.db.transfers.find? data.id = none) (ht : s'.db.transfers = s.db.transfers.put data) :
    TransfersInv refs s' (Function.update sts i { sts i with authored := .pending data }) := by
  have hne : ∀ {id cur}, s.db.transfers.find? id = some cur → data.id ≠ id := by
    rintro id cur hcur rfl
    rw [hfree] at hcur
    cases hcur
  have hkeep : ∀ {id cur}, s.db.transfers.find? id = some cur → s'.db.transfers.find? id = some cur :=
    fun hcur => by
    rw [ht, Table.find?_put_ne _ (hne hcur)]
    exact hcur
  have hmem : ∀ {row}, row ∈ s'.db.transfers.rows → row = data ∨ row ∈ s.db.transfers.rows := fun hrow => by
    rw [ht, Table.mem_put] at hrow
    exact hrow.imp_right (·.1)
  have hrows : ∀ j, (Function.update sts i { sts i with authored := .pending data } j).rows = (sts j).rows := by
    intro j
    by_cases hj : j = i
    · subst hj
      rw [Function.update_self]
    · rw [Function.update_of_ne hj]
  have hauth : ∀ j r, (Function.update sts i { sts i with authored := .pending data } j).authored = .pending r →
      (j = i ∧ r = data) ∨ (sts j).authored = .pending r := by
    intro j r hr
    by_cases hj : j = i
    · subst hj
      rw [Function.update_self] at hr
      cases hr
      exact .inl ⟨rfl, rfl⟩
    · rw [Function.update_of_ne hj] at hr
      exact .inr hr
  refine ⟨fun j r hr => ?_, fun j r hr => ?_, fun j r hr k => ⟨fun r' hr' => ?_, fun r' hr' hid => ?_⟩,
    fun j hj row hrow => ?_, fun row hrow hp => ?_⟩
  · rw [hrows] at hr
    obtain ⟨cur, hcur, hle, heq⟩ := h.held j r hr
    exact ⟨cur, hkeep hcur, hle, heq⟩
  · rcases hauth j r hr with ⟨rfl, rfl⟩ | hr
    · exact ⟨by rw [ht, Table.find?_put_self], href⟩
    · exact ⟨hkeep (h.pending j r hr).1, (h.pending j r hr).2⟩
  · rw [hrows] at hr'
    obtain ⟨cur, hcur, -⟩ := h.held k r' hr'
    rcases hauth j r hr with ⟨rfl, rfl⟩ | hr
    · exact (hne hcur).symm
    · exact (h.alone j r hr k).1 r' hr'
  · rcases hauth j r hr with ⟨hj, hd⟩ | hold
    · rcases hauth k r' hr' with ⟨hk, -⟩ | hold'
      · exact hk.trans hj.symm
      · exact absurd (hd ▸ hid.symm) (hne (h.pending k r' hold').1)
    · rcases hauth k r' hr' with ⟨-, hd⟩ | hold'
      · exact absurd (hd ▸ hid) (hne (h.pending j r hold).1)
      · exact (h.alone j r hold k).2 r' hold' hid
  · have hold : (sts j).authored ≠ .advanced := by
      by_cases hji : j = i
      · rw [hji, hfirst]
        nofun
      · rwa [Function.update_of_ne hji] at hj
    rcases hmem hrow with rfl | hrow
    · rw [href]
      nofun
    · exact h.unused j hold row hrow
  · rcases hmem hrow with rfl | hrow
    · rw [hstatus] at hp
      cases hp
    · obtain ⟨ref, hr, huniq⟩ := h.traceable row hrow hp
      refine ⟨ref, hr, fun row' hrow' hr' => ?_⟩
      rcases hmem hrow' with rfl | hrow'
      · rw [href] at hr'
        cases hr'
      · exact huniq row' hrow' hr'

theorem save_rows (st : Holding) (data : TransferRecord) : (st.save data).rows = data :: st.rows := rfl

theorem save_authored {st : Holding} {data r : TransferRecord} (hr : (st.save data).authored = .pending r) :
    st.authored = .pending r ∧ r.id ≠ data.id := by
  unfold Holding.save at hr
  dsimp only at hr
  cases ha : st.authored with
  | nothing => simp [ha] at hr
  | advanced => simp [ha] at hr
  | pending r' =>
    rw [ha] at hr
    dsimp only at hr
    split at hr
    · cases hr
    · cases hr
      exact ⟨rfl, ‹_›⟩

/-- A later save, of a copy that is still the stored row `old`. -/
theorem advanced (h : TransfersInv refs s sts) {old data : TransferRecord}
    (hold : s.db.transfers.find? data.id = some old)
    (hadv : Advances old data)
    (hpend : ∀ j r, (sts j).authored = .pending r → r.id = data.id → j = i)
    (hrest : ∀ j, (Function.update sts i ((sts i).save data) j).authored ≠ .advanced →
      data.providerReference ≠ some (refs j))
    (htrace : data.status = .PROCESSING → ∃ ref, data.providerReference = some ref ∧
      ∀ row ∈ s.db.transfers.rows, row.providerReference ≠ some ref)
    (hother : ∀ row ∈ s.db.transfers.rows, row.status = .PROCESSING → row.id ≠ data.id →
      row.providerReference ≠ data.providerReference)
    (ht : s'.db.transfers = s.db.transfers.put data) :
    TransfersInv refs s' (Function.update sts i ((sts i).save data)) := by
  have hself : s'.db.transfers.find? data.id = some data := by rw [ht, Table.find?_put_self]
  have hkeep : ∀ {id}, data.id ≠ id → s'.db.transfers.find? id = s.db.transfers.find? id := fun hid => by
    rw [ht, Table.find?_put_ne _ hid]
  have hmem : ∀ {row}, row ∈ s'.db.transfers.rows → row = data ∨ row ∈ s.db.transfers.rows ∧
    row.id ≠ data.id :=
    fun hrow => by rwa [ht, Table.mem_put] at hrow
  have hauth : ∀ j r, (Function.update sts i ((sts i).save data) j).authored = .pending r →
      (sts j).authored = .pending r ∧ r.id ≠ data.id := by
    intro j r hr
    by_cases hj : j = i
    · subst hj
      rw [Function.update_self] at hr
      exact save_authored hr
    · rw [Function.update_of_ne hj] at hr
      exact ⟨hr, fun hid => hj (hpend j r hr hid)⟩
  have hrows : ∀ j, ∀ r ∈ (Function.update sts i ((sts i).save data) j).rows, r = data ∨
    r ∈ (sts j).rows := by
    intro j r hr
    by_cases hj : j = i
    · subst hj
      rw [Function.update_self, save_rows] at hr
      exact List.mem_cons.1 hr
    · rw [Function.update_of_ne hj] at hr
      exact .inr hr
  refine ⟨fun j r hr => ?_, fun j r hr => ?_, fun j r hr k => ⟨fun r' hr' => ?_, fun r' hr' hid => ?_⟩,
    fun j hj row hrow => ?_, fun row hrow hp => ?_⟩
  · rcases hrows j r hr with rfl | hr
    · exact ⟨r, hself, le_rfl, fun _ => rfl⟩
    · obtain ⟨cur, hcur, hle, heq⟩ := h.held j r hr
      by_cases hid : data.id = r.id
      · rw [← hid, hold, Option.some.injEq] at hcur
        subst hcur
        have hv := hadv.version
        exact ⟨data, hid ▸ hself, by omega, fun e => absurd e (by omega)⟩
      · exact ⟨cur, (hkeep hid).trans hcur, hle, heq⟩
  · obtain ⟨hr, hid⟩ := hauth j r hr
    exact ⟨(hkeep hid.symm).trans (h.pending j r hr).1, (h.pending j r hr).2⟩
  · obtain ⟨hr, hid⟩ := hauth j r hr
    rcases hrows k r' hr' with rfl | hr'
    · exact hid.symm
    · exact (h.alone j r hr k).1 r' hr'
  · exact (h.alone j r (hauth j r hr).1 k).2 r' (hauth k r' hr').1 hid
  · rcases hmem hrow with rfl | ⟨hrow, -⟩
    · exact hrest j hj
    · refine h.unused j (fun hadv => hj ?_) row hrow
      by_cases hji : j = i
      · rw [hji, Function.update_self]
        simp [Holding.save, hji ▸ hadv]
      · rwa [Function.update_of_ne hji]
  · rcases hmem hrow with rfl | ⟨hrow, hne⟩
    · obtain ⟨ref, href, hnew⟩ := htrace hp
      refine ⟨ref, href, fun row' hrow' hr' => ?_⟩
      rcases hmem hrow' with rfl | ⟨hrow', -⟩
      · rfl
      · exact absurd hr' (hnew row' hrow')
    · obtain ⟨ref, href, huniq⟩ := h.traceable row hrow hp
      refine ⟨ref, href, fun row' hrow' hr' => ?_⟩
      rcases hmem hrow' with rfl | ⟨hrow', -⟩
      · exact absurd (href.trans hr'.symm) (hother row hrow hp hne)
      · exact huniq row' hrow' hr'

variable {a : Ans} {op : Op} {r : Except Err op.Res}

theorem save_not_advanced {st : Holding} {data : TransferRecord} (h : (st.save data).authored ≠ .advanced) :
    st.authored ≠ .advanced := by
  intro ha
  exact h (by simp [Holding.save, ha])

/-- The conditioned update, where it matches. -/
theorem updated (h : TransfersInv refs s sts) (hinj : Function.Injective refs) {version : Nat}
    {data old : TransferRecord}
    (hok : (transferProtocol refs).ok i (sts i) (.transfer .prisma (.updateMany version data)))
    (hold : s.db.transfers.find? data.id = some old) (hversion : old.version = version)
    (ht : s'.db.transfers = s.db.transfers.put data) :
    Advances old data ∧ TransfersInv refs s' (Function.update sts i ((sts i).save data)) := by
  have hafter : ∀ {j}, j ≠ i → Function.update sts i ((sts i).save data) j = sts j := fun hj =>
    Function.update_of_ne hj ..
  have hrow := Table.mem_of_find? hold
  rcases hok with ⟨r, hr, hv, hadv, href, hstatus⟩ | ⟨r, hr, hid, hopen⟩
  · -- A copy: nobody else is alone with it, and it keeps its reference.
    obtain ⟨cur, hcur, -, heq⟩ := h.held i r hr
    rw [← hadv.id, hold, Option.some.injEq] at hcur
    subst hcur
    obtain rfl := heq (hv.symm.trans hversion.symm)
    refine ⟨hadv, h.advanced hold hadv (fun j r' hr' hid' => ?_) (fun j hj => ?_) (fun hp => absurd hp hstatus)
      (fun row hrow' hp hne heq' => ?_) ht⟩
    · exact absurd (hadv.id.symm.trans hid'.symm) ((h.alone j r' hr' i).1 r hr)
    · rw [href]
      refine h.unused j ?_ r hrow
      by_cases hji : j = i
      · rw [hji, Function.update_self] at hj
        exact hji ▸ save_not_advanced hj
      · rwa [hafter hji] at hj
    · obtain ⟨ref, hr', huniq⟩ := h.traceable row hrow' hp
      exact hne ((huniq r hrow (href.symm.trans (heq'.symm.trans hr'))) ▸ hadv.id.symm)
  · -- The row that only this program knows.
    obtain ⟨hstored, hnone⟩ := h.pending i r hr
    rw [← hid, hold, Option.some.injEq] at hstored
    subst hstored
    obtain ⟨hadv, href⟩ := hopen hversion.symm
    have hmine := h.unused i (by rw [hr]; nofun)
    refine ⟨hadv, h.advanced hold hadv (fun j r' hr' hid' => ?_) (fun j hj => ?_) (fun hp => ?_)
      (fun row hrow' hp _ => ?_) ht⟩
    · exact ((h.alone j r' hr' i).2 old hr (hid.symm.trans hid'.symm)).symm
    · have hji : j ≠ i := by
        rintro rfl
        rw [Function.update_self] at hj
        exact hj (by simp [Holding.save, hr, hid])
      rw [href]
      split
      · exact fun e => hji (hinj (Option.some.inj e)).symm
      · rw [hnone]
        nofun
    · exact ⟨refs i, by rw [href, if_pos hp], fun row hrow' => hmine row hrow'⟩
    · obtain ⟨ref, hr', -⟩ := h.traceable row hrow' hp
      rw [href]
      split
      · exact hmine row hrow'
      · rw [hnone, hr']
        nofun

/-- **Every permitted call keeps the invariant, and advances a stored row or leaves it alone.** -/
theorem step (h : TransfersInv refs s sts) (hinj : Function.Injective refs)
    (hok : (transferProtocol refs).ok i (sts i) op) (ha : PayoutIds refs s i a op) (hx : exec i a op s = some (r, s')) :
    (transferProtocol refs).yields i (sts i) op r ∧
      TransfersInv refs s' (Function.update sts i ((transferProtocol refs).next i (sts i) op r)) ∧
      ∀ id row, s.db.transfers.find? id = some row →
        ∃ row', s'.db.transfers.find? id = some row' ∧ (row' = row ∨ Advances row row') := by
  have ht : ∀ q, op ≠ .transaction q := fun q e => by
    subst e
    exact hok
  have same : s'.db.transfers = s.db.transfers → TransfersInv refs s' (Function.update sts i (sts i)) ∧
      ∀ id row, s.db.transfers.find? id = some row →
        ∃ row', s'.db.transfers.find? id = some row' ∧ (row' = row ∨ Advances row row') := fun ht' => by
    rw [Function.update_eq_self]
    exact ⟨h.of_eq ht', fun id row hrow => ⟨row, ht' ▸ hrow, .inl rfl⟩⟩
  have hread : op.savedTransfer? = none → s'.db.transfers = s.db.transfers := fun hop => exec_transfers ht hop hx
  have herror : ∀ e, r = .error e → s'.db.transfers = s.db.transfers := by
    rintro e rfl
    exact congrArg Db.transfers ((exec_error hx).resolve_right fun hc => ht _ hc.1).db
  cases op with
  | transfer c q =>
    cases c with
    | tx => exact absurd hok (by cases q <;> exact id)
    | prisma =>
      cases q with
      | findUnique id =>
        rcases r with e | (_ | row)
        · exact ⟨trivial, same (hread rfl)⟩
        · refine ⟨fun hid => ?_, same (hread rfl)⟩
          obtain ⟨db, hv, hnone, -⟩ := exec_transfer_find hx
          rw [Store.view_prisma, Option.some.injEq] at hv
          subst hv
          obtain ⟨cur, hcur⟩ := h.holds_stored hid
          rw [hcur] at hnone
          cases hnone
        · exact ⟨trivial, same (hread rfl)⟩
      | findFirst ref =>
        rcases r with e | (_ | row)
        · exact ⟨trivial, same (hread rfl)⟩
        · exact ⟨trivial, same (hread rfl)⟩
        · obtain ⟨db, hv, hrow, rfl⟩ := exec_transfer_findFirst hx
          rw [Store.view_prisma, Option.some.injEq] at hv
          subst hv
          have hsat := List.find?_some hrow.symm
          refine ⟨trivial, h.found (List.mem_of_find?_eq_some hrow.symm) (fun e => ?_), (same rfl).2⟩
          rw [e] at hsat
          cases hsat
      | sumSince id statuses since =>
        rcases r with e | x <;> exact ⟨trivial, same (hread rfl)⟩
      | create data =>
        rcases r with e | x
        · exact ⟨trivial, same (herror e rfl)⟩
        · obtain ⟨rfl, -, db, hv, hfree⟩ := exec_transfer_create hx
          rw [Store.view_prisma, Option.some.injEq] at hv
          subst hv
          obtain ⟨hfirst, -, hstatus, href⟩ := hok
          have hput : (s.write i .prisma (.transfer data)).db.transfers = s.db.transfers.put data := rfl
          refine ⟨trivial, h.created hfirst hstatus href hfree hput, fun id row hrow => ⟨row, ?_, .inl rfl⟩⟩
          rw [hput, Table.find?_put_ne]
          · exact hrow
          · rintro rfl
            rw [hfree] at hrow
            cases hrow
      | updateMany version data =>
        rcases r with e | n
        · exact ⟨trivial, same (herror e rfl)⟩
        · refine ⟨trivial, ?_⟩
          rcases exec_transfer_updateMany hx with ⟨rfl, rfl⟩ | ⟨rfl, rfl, -, db, old, hv, hold, hver⟩
          · exact same rfl
          · rw [Store.view_prisma, Option.some.injEq] at hv
            subst hv
            have hput : (s.write i .prisma (.transfer data)).db.transfers = s.db.transfers.put data := rfl
            obtain ⟨hadv, hinv⟩ := h.updated hinj hok hold hver hput
            refine ⟨hinv, fun id row hrow => ?_⟩
            by_cases hid : data.id = id
            · subst hid
              rw [hold, Option.some.injEq] at hrow
              exact ⟨data, by rw [hput, Table.find?_put_self], .inr (hrow ▸ hadv)⟩
            · exact ⟨row, by rw [hput, Table.find?_put_ne _ hid, hrow], .inl rfl⟩
  | payout q =>
    rcases r with e | response
    · exact ⟨trivial, same (hread rfl)⟩
    · refine ⟨fun d hd => ?_, same (hread rfl)⟩
      exact ha response (exec_payout hx) d hd
  | transaction q => exact absurd rfl (ht q)
  | _ => rcases r with e | x <;> exact ⟨trivial, same (hread rfl)⟩

end

end TransfersInv

/-! ## The programs obey -/

/-- Calls that the protocol does not look at. -/
def Aside : Op → Prop
  | .transfer .prisma (.findUnique _) | .transfer .prisma (.sumSince ..) => True
  | .transfer .. | .transaction _ | .payout _ => False
  | _ => True

section
variable {refs : PId → String} {i : PId} {ε α β : Type} {st : Holding}

theorem aside_quiet {op : Op} (h : Aside op) : (transferProtocol refs).Quiet i op := by
  intro st
  cases op with
  | transfer c q =>
    cases c with
    | tx => exact absurd h (by cases q <;> exact id)
    | prisma =>
      cases q with
      | findUnique id => exact ⟨trivial, fun r => by rcases r with e | x <;> rfl⟩
      | sumSince id statuses since => exact ⟨trivial, fun r => by rcases r with e | x <;> rfl⟩
      | _ => exact absurd h id
  | transaction q => exact absurd h id
  | payout q => exact absurd h id
  | _ => exact ⟨trivial, fun r => by rcases r with e | x <;> rfl⟩

theorem aside_bind {p : Program ε α} {f : α → Program ε β} {Q : Holding → Except ε β → Prop}
    (hp : p.Calls Aside)
    (hok : ∀ a, (transferProtocol refs).Obeys i Q (f a) st) (herr : ∀ e, Q st (.error e)) :
    (transferProtocol refs).Obeys i Q (p >>= f) st :=
  Obeys.quiet_bind (P := transferProtocol refs) (hp.mono fun _ => aside_quiet) hok herr

/-- A program that ends aside. -/
theorem obeys_aside {p : Program ε α} (hp : p.Calls Aside) :
    (transferProtocol refs).Obeys i (fun _ _ => True) p st :=
  (Obeys.quiet (P := transferProtocol refs) (hp.mono fun _ => aside_quiet) p.returns_true st).mono fun _ _ _ => trivial

theorem publishAll_aside (events : List DomainEvent) : (publishAll events).Calls Aside :=
  publishAll_calls (fun _ => trivial) events

theorem postTransferJournal_aside (t : Transfer) (narration : String) (legs : List LedgerPostingLeg) :
    (postTransferJournal t narration legs).Calls Aside :=
  postTransferJournal_calls trivial (fun _ => trivial) t narration legs

theorem compensate_aside (t : Transfer) (totalDebit : Except Err Money) (narration : String) :
    (compensate t totalDebit narration).Calls Aside :=
  compensate_calls (fun _ => trivial) trivial (fun _ => trivial) t totalDebit narration

/-- A save that is not the first, of a transfer that the program holds: it is made, or nothing is. -/
theorem saveTransfer_obeys {t : Transfer} (hv : t.version ≠ 0) (hid : st.Holds t.id)
    (hok : (transferProtocol refs).ok i st
      (.transfer .prisma (.updateMany (t.version - 1) (TransferMapper.toPersistence t)))) :
    (transferProtocol refs).Obeys i
      (fun st' x => st' = match x with
        | .ok _ => st.save (TransferMapper.toPersistence t)
        | .error _ => st) (PrismaTransferRepository.save t) st := by
  unfold PrismaTransferRepository.save
  rw [if_neg hv]
  refine .await_bind hok (fun n _ => ?_) fun e _ => rfl
  by_cases hn : n = 0
  · subst hn
    refine .await_bind trivial (fun existing hy => ?_) fun e _ => rfl
    cases existing with
    | none => exact absurd hid hy
    | some row => rfl
  · simp only [if_neg hn]
    simp only [transferProtocol, if_neg hn]
    rfl

/-- `t` is the row `r` in memory, as far as the protocol looks at it. -/
structure CopyOf (r : TransferRecord) (t : Transfer) : Prop where
  id : t.id = r.id
  status : t.status = r.status
  providerReference : t.providerReference = r.providerReference
  version : t.version = r.version

theorem TransferMapper.Loads.copyOf {r : TransferRecord} {t : Transfer} (h : TransferMapper.Loads r t) : CopyOf r t :=
  ⟨h.id, h.status, h.providerReference, h.version⟩

theorem copyOf_toPersistence (t : Transfer) : CopyOf (TransferMapper.toPersistence t) t := ⟨rfl, rfl, rfl, rfl⟩

/-- What `markSuccessful` and `markReversed` make of a held copy. -/
theorem closes_of {r : TransferRecord} {t : Transfer} (hr : CopyOf r t) (hopen : t.status.isTerminal = false)
    {t' : Transfer} (hid : t'.id = t.id) (hv : t'.version = t.version + 1)
    (href : t'.providerReference = t.providerReference) (hs : t'.status = .SUCCESSFUL ∨ t'.status = .REVERSED) :
    Closes r (TransferMapper.toPersistence t') := by
  refine ⟨⟨hid.trans hr.id, ?_, ?_⟩, href.trans hr.providerReference, ?_⟩
  · exact TransactionStatus.mayBecome_of (hr.status ▸ hopen) hs
  · show t'.version = r.version + 1
    rw [hv, hr.version]
  · show t'.status ≠ .PROCESSING
    rcases hs with hs | hs <;> rw [hs] <;> nofun

/-- ... and its save. -/
theorem saveClosed_obeys {r : TransferRecord} {t t' : Transfer} (hmem : r ∈ st.rows) (hr : CopyOf r t)
    (hopen : t.status.isTerminal = false) (hid : t'.id = t.id) (hv : t'.version = t.version + 1)
    (href : t'.providerReference = t.providerReference) (hs : t'.status = .SUCCESSFUL ∨ t'.status = .REVERSED) :
    (transferProtocol refs).Obeys i (fun _ _ => True) (PrismaTransferRepository.save t') st := by
  have hholds : st.Holds t'.id := .inl ⟨r, hmem, (hid.trans hr.id).symm⟩
  have hversion : t'.version - 1 = r.version := by
    rw [hv, hr.version]
    exact Nat.add_sub_cancel ..
  have hcloses := closes_of hr hopen hid hv href hs
  exact (saveTransfer_obeys (by omega) hholds (.inl ⟨r, hmem, hversion, hcloses⟩)).mono fun _ _ _ => trivial

/-- A transfer that was found is a copy. -/
def Found (st : Holding) (x : Except Err (Option Transfer)) : Prop :=
  ∀ o, x = .ok o → ∀ t, o = some t → ∃ r ∈ st.rows, TransferMapper.Loads r t

theorem find_obeys (ref : String) :
    (transferProtocol refs).Obeys i Found (PrismaTransferRepository.findByProviderReference ref) st := by
  refine .await_bind trivial (fun found _ => ?_) fun _ _ o ho => by cases ho
  cases found with
  | none =>
    intro o ho t ht
    cases ho
    cases ht
  | some row =>
    refine Obeys.ofExcept_bind (x := TransferMapper.toDomain row) (fun t ht o ho t' ht' => ?_)
      fun _ _ o ho => by cases ho
    cases ho
    cases ht'
    exact ⟨row, List.mem_cons_self, TransferMapper.toDomain_ok ht⟩

theorem confirm_obeys_transfer (command : ConfirmExternalTransferCommand) :
    (transferProtocol refs).Obeys i (fun _ _ => True) (ConfirmExternalTransferHandler.execute command) st := by
  unfold ConfirmExternalTransferHandler.execute
  refine Obeys.bind (P := transferProtocol refs) (find_obeys command.providerReference) (fun st' found hfound => ?_)
    fun _ _ _ => trivial
  cases found with
  | none => trivial
  | some transfer =>
    obtain ⟨r, hmem, hloads⟩ := hfound _ rfl transfer rfl
    have hr := hloads.copyOf
    dsimp only
    split
    · trivial
    · rename_i hopen
      simp only [Bool.not_eq_true] at hopen
      split
      · unfold ConfirmExternalTransferHandler.settle
        refine Obeys.ofExcept_bind (fun t' ht' => ?_) fun _ _ => trivial
        rw [Transfer.markSuccessful_of hopen] at ht'
        cases ht'
        refine Obeys.bind (P := transferProtocol refs) (saveClosed_obeys hmem hr hopen rfl rfl rfl (.inl rfl))
          (fun st'' _ _ => ?_) fun _ _ _ => trivial
        exact obeys_aside (.bind (.ofExcept _) fun _ => .bind (postTransferJournal_aside _ _ _)
          fun _ => publishAll_aside _)
      · refine aside_bind (compensate_aside _ _ _) (fun accountEvents => ?_) fun _ => trivial
        refine Obeys.ofExcept_bind (fun t' ht' => ?_) fun _ _ => trivial
        rw [Transfer.markReversed_of hopen] at ht'
        cases ht'
        exact Obeys.bind (P := transferProtocol refs) (saveClosed_obeys hmem hr hopen rfl rfl rfl (.inr rfl))
          (fun st'' _ _ => obeys_aside (publishAll_aside _)) fun _ _ _ => trivial

/-! ### The initiating handler -/

/-- `t` has been inserted as it is, and only this program knows of it. -/
structure Fresh (st : Holding) (t : Transfer) : Prop where
  authored : st.authored = .pending (TransferMapper.toPersistence t)
  version : t.version = 0
  status : t.status = .PENDING
  providerReference : t.providerReference = none

/-- `marked` is what the `try` block makes of `t`. -/
structure Marked (ref : String) (t marked : Transfer) : Prop where
  version : marked.version = 1
  opens : Opens ref (TransferMapper.toPersistence t) (TransferMapper.toPersistence marked)

/-- What the `catch` of the payout may be handed: the inserted transfer, the same marked but not saved, or a saved
one. -/
inductive InHand (st : Holding) (t : Transfer) : Prop
  | fresh (h : Fresh st t)
  | unsaved (r : TransferRecord) (authored : st.authored = .pending r) (id : r.id = t.id) (version : r.version = 0)
      (marked : t.version = 1)
  | saved (mem : TransferMapper.toPersistence t ∈ st.rows)

namespace InitiateExternalTransferHandler

theorem saveFirst_obeys {t : Transfer} (hst : st.authored = .nothing) (hv : t.version = 0) (hs : t.status = .PENDING)
    (href : t.providerReference = none) :
    (transferProtocol refs).Obeys i (fun st' x => x = .ok () → Fresh st' t) (PrismaTransferRepository.save t) st := by
  unfold PrismaTransferRepository.save
  rw [if_pos hv]
  refine .await ⟨hst, hv, hs, href⟩ fun r _ hr => ?_
  subst hr
  exact ⟨rfl, hv, hs, href⟩

theorem record_obeys_transfer (command : InitiateExternalTransferCommand) (sourceAccount : Account)
    (recipient : ExternalRecipient) (amount fee totalDebit : Money) (hst : st.authored = .nothing) :
    (transferProtocol refs).Obeys i (fun st' x => ∀ t, x = .ok t → Fresh st' t)
      (record command sourceAccount recipient amount fee totalDebit) st := by
  refine Obeys.quiet_returns_bind (P := transferProtocol refs)
    ((draw_calls trivial trivial trivial _).mono fun _ => aside_quiet) (draw_returns _) (fun t ht => ?_)
    fun _ _ h => by cases h
  obtain ⟨now, reference, id, ht⟩ := ht
  refine Obeys.bind (P := transferProtocol refs) (saveFirst_obeys hst (ht ▸ rfl) (ht ▸ rfl) (ht ▸ rfl))
    (fun st' _ hfresh => ?_) fun _ _ _ _ h => by cases h
  refine aside_bind (postTransferJournal_aside _ _ _) (fun _ t' h => ?_) fun _ _ h => by cases h
  cases h
  exact hfresh rfl

theorem initiatePayout_obeys (reference : String) (recipient : ExternalRecipient) (amount : Money)
    (narration : String) :
    (transferProtocol refs).Obeys i
      (fun st' x => st' = st ∧ ∀ result, x = .ok result → result.providerReference = refs i ∧ refs i ≠ "")
      (FlutterwavePayoutProvider.initiatePayout reference recipient amount narration) st := by
  refine .await_bind trivial (fun response hy => ?_) fun _ _ => ⟨rfl, fun _ h => by cases h⟩
  split
  · rename_i data _ hdata
    refine ⟨rfl, fun result h => ?_⟩
    have href : toString data.id = refs i := hy data hdata
    cases h
    exact ⟨href, href ▸ Nat.repr_ne_empty⟩
  · exact ⟨rfl, fun _ h => by cases h⟩

/-- A failed call of the `try` block leaves the transfer as it was handed on. -/
theorem during_aside {Q : Holding → Except (Err × Transfer) α → Prop} {t : Transfer} {p : Handler α}
    (hp : p.Calls Aside)
    (hok : ∀ a, Q st (.ok a)) (herr : ∀ e, Q st (.error (e, t))) :
    (transferProtocol refs).Obeys i Q (during t p) st := by
  refine Obeys.mapError (P := transferProtocol refs) ((obeys_quiet hp).mono fun st' x h => ?_)
  subst h
  cases x with
  | ok a => exact hok a
  | error e => exact herr e
where
  obeys_quiet {p : Handler α} (hp : p.Calls Aside) : (transferProtocol refs).Obeys i (fun st' _ => st' = st) p st :=
    (Obeys.quiet (P := transferProtocol refs) (hp.mono fun _ => aside_quiet) p.returns_true st).mono fun _ _ h => h.1

theorem markAccepted_obeys (command : InitiateExternalTransferCommand) (totalDebit : Money) {t : Transfer}
    {payoutResult : PayoutInitiationResult} (hfresh : Fresh st t) (href : payoutResult.providerReference = refs i)
    (hne : refs i ≠ "") :
    (transferProtocol refs).Obeys i
      (fun st' x => st' = st ∧ match x with
        | .ok marked => Marked (refs i) t marked
        | .error thrown => InHand st thrown.2)
      (markAccepted command totalDebit t payoutResult) st := by
  have hopen : t.status.isTerminal = false := hfresh.status ▸ rfl
  have hversion : t.version + 1 = 1 := by rw [hfresh.version]
  unfold markAccepted
  split
  · rw [Transfer.markSuccessful_of hopen]
    generalize hsettled : ({ t with
      status := .SUCCESSFUL
      version := t.version + 1
      domainEvents := t.domainEvents ++ [.completed t.id t.reference.value] } : Transfer) = settled
    have hid : settled.id = t.id := hsettled ▸ rfl
    have hv : settled.version = 1 := hsettled ▸ hversion
    show (transferProtocol refs).Obeys i _ (during settled (postTransferJournal t _ _) >>= fun _ => .pure settled) st
    refine Obeys.bind (P := transferProtocol refs) (R := fun st' x => st' = st ∧ ∀ thrown, x = .error thrown →
        InHand st thrown.2)
      (during_aside (t := settled) (postTransferJournal_aside _ _ _) (fun _ => ⟨rfl, fun _ h => by cases h⟩)
        fun _ => ⟨rfl, fun _ h => ?_⟩) (fun st' _ h => ⟨h.1, hv, ⟨hid, ?_, ?_⟩, ?_⟩)
          fun st' thrown h => ⟨h.1, h.2 _ rfl⟩
    · cases h
      exact .unsaved _ hfresh.authored hid.symm hfresh.version hv
    · show t.status.mayBecome settled.status = true
      rw [hfresh.status, ← hsettled]
      rfl
    · exact hsettled ▸ rfl
    · exact hsettled ▸ rfl
  · rw [Transfer.markProcessing_of hopen]
    refine ⟨rfl, hversion, ⟨rfl, ?_, ?_⟩, ?_⟩
    · show t.status.mayBecome .PROCESSING = true
      rw [hfresh.status]
      rfl
    · show t.version + 1 = t.version + 1
      rfl
    · show (if payoutResult.providerReference = "" then t.providerReference else some
        payoutResult.providerReference) = _
      rw [href, if_neg hne]
      rfl

theorem accepted_obeys (command : InitiateExternalTransferCommand) (totalDebit : Money) (events : List DomainEvent)
    {t : Transfer} {payoutResult : PayoutInitiationResult} (hfresh : Fresh st t)
    (href : payoutResult.providerReference = refs i) (hne : refs i ≠ "") :
    (transferProtocol refs).Obeys i (fun st' x => ∀ thrown, x = .error thrown → InHand st' thrown.2)
      (accepted command totalDebit events t payoutResult) st := by
  refine Obeys.bind (P := transferProtocol refs) (markAccepted_obeys command totalDebit hfresh href hne)
    (fun st' marked h => ?_) fun st' thrown h thrown' e => ?_
  · obtain ⟨rfl, hv, hopens⟩ := h
    have hid : marked.id = t.id := hopens.1.id
    refine Obeys.bind (P := transferProtocol refs) (R := fun st' x => match x with
        | .ok _ => TransferMapper.toPersistence marked ∈ st'.rows
        | .error thrown => InHand st' thrown.2) ?_ (fun st'' _ hsaved => ?_) fun st'' thrown h thrown' e => ?_
    · refine Obeys.mapError (P := transferProtocol refs) ((saveTransfer_obeys (hv ▸ one_ne_zero)
        (.inr ⟨_, hfresh.authored, hid.symm⟩) (.inr ⟨_, hfresh.authored, hid, fun _ => hopens⟩)).mono
          fun st'' x h => ?_)
      subst h
      cases x with
      | ok a => exact List.mem_cons_self
      | error e => exact .unsaved _ hfresh.authored hid.symm hfresh.version hv
    · refine Obeys.bind (P := transferProtocol refs)
        (R := fun st' x => ∀ thrown, x = .error thrown → InHand st' thrown.2)
        (during_aside (publishAll_aside _) (fun _ _ h => by cases h) fun e thrown h => ?_)
        (fun _ _ _ _ h => by cases h) fun _ thrown h _ e => by cases e; exact h thrown rfl
      cases h
      exact .saved hsaved
    · cases e
      exact h
  · cases e
    exact h.1 ▸ h.2

/-- The `catch` block: whatever state the transfer was handed on in, it is reversed at most once. -/
theorem reverse_obeys_transfer (command : InitiateExternalTransferCommand) (totalDebit : Money)
    (events : List DomainEvent) (payoutError : Err) {t : Transfer} (h : InHand st t) :
    (transferProtocol refs).Obeys i (fun _ _ => True)
    (reverse command totalDebit events payoutError t : Handler α) st := by
  refine aside_bind (compensate_aside _ _ _) (fun accountEvents => ?_) fun _ => trivial
  refine Obeys.ofExcept_bind (fun t' ht' => ?_) fun _ _ => trivial
  obtain ⟨hopen, hid, hv, href, hs⟩ := Transfer.markReversed_ok ht'
  have hne : t'.version ≠ 0 := by omega
  have publish : ∀ {st'} {events : List DomainEvent}, (transferProtocol refs).Obeys i (fun _ _ => True)
      (publishAll events >>= fun _ => (Prog.throw payoutError : Handler α)) st' := fun {_} {_} =>
    aside_bind (publishAll_aside _) (fun _ => trivial) fun _ => trivial
  refine Obeys.bind (P := transferProtocol refs) (R := fun _ _ => True) ?_ (fun _ _ _ => publish) fun _ _ _ => trivial
  cases h with
  | fresh h =>
    have hopens : Opens (refs i) (TransferMapper.toPersistence t) (TransferMapper.toPersistence t') := by
      refine ⟨⟨hid, TransactionStatus.mayBecome_of hopen (.inr hs), hv⟩, ?_⟩
      rw [if_neg]
      · exact href
      · show t'.status ≠ .PROCESSING
        rw [hs]
        nofun
    exact (saveTransfer_obeys hne (.inr ⟨_, h.authored, hid.symm⟩)
      (.inr ⟨_, h.authored, hid, fun _ => hopens⟩)).mono fun _ _ _ => trivial
  | unsaved r authored id version marked =>
    -- Its version is one ahead of the row: this update cannot match.
    have hahead : t'.version - 1 ≠ r.version := by omega
    exact (saveTransfer_obeys hne (.inr ⟨r, authored, id.trans hid.symm⟩)
      (.inr ⟨r, authored, hid.trans id.symm, fun h => absurd h hahead⟩)).mono fun _ _ _ => trivial
  | saved mem => exact saveClosed_obeys mem (copyOf_toPersistence t) hopen hid hv href (.inr hs)

theorem payOut_obeys_transfer (command : InitiateExternalTransferCommand) (recipient : ExternalRecipient)
    (totalDebit : Money) (events : List DomainEvent) {t : Transfer} (hfresh : Fresh st t) :
    (transferProtocol refs).Obeys i (fun _ _ => True) (payOut command recipient totalDebit events t) st := by
  refine Obeys.tryCatch (P := transferProtocol refs)
    (R := fun st' x => ∀ thrown, x = .error thrown → InHand st' thrown.2)
    ?_ (fun _ _ _ => trivial) fun st' thrown h => reverse_obeys_transfer _ _ _ _ (h _ rfl)
  refine Obeys.bind (P := transferProtocol refs) (R := fun st' x => st' = st ∧ match x with
      | .ok result => result.providerReference = refs i ∧ refs i ≠ ""
      | .error thrown => thrown.2 = t) ?_ (fun st' result h => ?_) fun st' thrown h thrown' e => ?_
  · refine Obeys.mapError (P := transferProtocol refs)
      ((initiatePayout_obeys _ _ _ _).mono fun st' x h => ⟨h.1, ?_⟩)
    cases x with
    | ok result => exact h.2 result rfl
    | error e => rfl
  · obtain ⟨rfl, href, hne⟩ := h
    exact accepted_obeys _ _ _ hfresh href hne
  · cases e
    obtain ⟨rfl, h⟩ := h
    exact .fresh (h ▸ hfresh)

theorem doExecute_obeys_transfer (command : InitiateExternalTransferCommand) (hst : st.authored = .nothing) :
    (transferProtocol refs).Obeys i (fun _ _ => True) (doExecute command) st := by
  refine aside_bind (hold_calls (fun _ => trivial) (fun _ => trivial) trivial (fun _ _ _ => trivial) command)
    (fun held => ?_) fun _ => trivial
  refine Obeys.bind (P := transferProtocol refs) (record_obeys_transfer _ _ _ _ _ _ hst) (fun st' t hfresh => ?_)
    fun _ _ _ => trivial
  have hfresh : Fresh st' t.pullDomainEvents.2 :=
    ⟨(hfresh t rfl).authored, (hfresh t rfl).version, (hfresh t rfl).status, (hfresh t rfl).providerReference⟩
  exact Obeys.bind (P := transferProtocol refs) (payOut_obeys_transfer _ _ _ _ hfresh) (fun _ _ _ => trivial)
    fun _ _ _ => trivial

theorem execute_obeys_transfer (fuel : Nat) (command : InitiateExternalTransferCommand) (hst : st.authored = .nothing) :
    (transferProtocol refs).Obeys i (fun _ _ => True) (execute fuel command) st := by
  refine IdempotencyGuardService.run_obeys_of (P := transferProtocol refs) (K := fun _ => True)
    (fun _ => aside_quiet trivial) (aside_quiet trivial) (fun _ => aside_quiet trivial) trivial
    (doExecute_obeys_transfer command hst)
      (fun resourceId => obeys_aside (rehydrateTransfer_calls (fun _ => trivial) resourceId)) _ _ _ _

end InitiateExternalTransferHandler

theorem TransferRequest.program_obeys (request : TransferRequest) (hst : st.authored = .nothing) :
    (transferProtocol refs).Obeys i (fun _ _ => True) request.program st := by
  cases request with
  | external fuel command =>
    exact Obeys.bind (P := transferProtocol refs)
      (InitiateExternalTransferHandler.execute_obeys_transfer fuel command hst) (fun _ _ _ => trivial)
        fun _ _ _ => trivial
  | confirmation command => exact confirm_obeys_transfer command

end

/-! ## The pool -/

theorem TransfersInv.init {refs : PId → String} {db0 : Db} (clock : Nat) (h0 : Traceable db0.transfers)
    (hnew : ∀ row ∈ db0.transfers.rows, ∀ i, row.providerReference ≠ some (refs i)) :
    TransfersInv refs (.init db0 clock) fun _ => .init where
  held _ _ hr := nomatch hr
  pending _ _ hr := nomatch hr
  alone _ _ hr := nomatch hr
  unused i _ row hrow := hnew row hrow i
  traceable := h0

/-- What `findByProviderReference` finds. -/
theorem Traceable.found {t : Table TransferRecord.id} (h : Traceable t) {row : TransferRecord} (hrow : row ∈ t.rows)
    (hp : row.status = .PROCESSING) :
    ∃ ref, row.providerReference = some ref ∧ t.rows.find? (fun r => r.providerReference = some ref) =
      some row := by
  obtain ⟨ref, href, huniq⟩ := h row hrow hp
  refine ⟨ref, href, ?_⟩
  cases hf : t.rows.find? fun r => r.providerReference = some ref with
  | none => exact absurd href (by simpa using List.find?_eq_none.1 hf row hrow)
  | some row' => rw [huniq row' (List.mem_of_find?_eq_some hf) (by simpa using List.find?_some hf)]

end Kudi
