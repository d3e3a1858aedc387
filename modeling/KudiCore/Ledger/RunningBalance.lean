import Mathlib.Data.List.Induction
import KudiCore.Execution
import KudiCore.Ledger.Recorder

/-!
# The running balances of the system accounts

| here | there |
| --- | --- |
| `RunningBalances`     | "a real running balance", the comment on `model LedgerEntry` in `schema.prisma` |
| `PostRequest.program` | `post(posting)` and `prisma.$transaction((tx) => post(posting, tx))` |

`post` reads the latest row of each system account, and writes the new rows later, all at once. `Watched` keeps what
each program has read, a history variable that no call looks at.
-/

namespace Kudi

open Interleave Protocol

/-! ## Running balances -/

/-- The row of the account that was written last. -/
def lastRow (rows : List LedgerEntryRecord) (accountId : String) : Option LedgerEntryRecord :=
  (rows.filter fun e => e.accountId = accountId).getLast?

/-- `previous?.balanceAfterMinorUnits ?? 0n`. -/
def previousBalance (previous : Option LedgerEntryRecord) : Int := (previous.map (·.balanceAfterMinorUnits)).getD 0

/-- Each row of a system account carries credits minus debits up to and including that row. -/
def RunningBalances (rows : List LedgerEntryRecord) : Prop :=
  ∀ before row after, rows = before ++ row :: after → row.accountId ∈ SystemLedgerAccount.all →
    row.balanceAfterMinorUnits = ledgerNet (before ++ [row]) row.accountId

section
variable {rows added : List LedgerEntryRecord} {row : LedgerEntryRecord} {accountId : String}

theorem ledgerNet_singleton : ledgerNet [row] accountId = if row.accountId = accountId then row.signed else 0 := by
  simp [ledgerNet]

theorem ledgerNet_of_absent (h : ∀ e ∈ rows, e.accountId ≠ accountId) : ledgerNet rows accountId = 0 := by
  rw [ledgerNet, List.sum_eq_zero]
  intro x hx
  obtain ⟨e, he, rfl⟩ := List.mem_map.1 hx
  exact if_neg (h e he)

theorem RunningBalances.of_append (h : RunningBalances (rows ++ added)) : RunningBalances rows := by
  intro before row after he
  exact h before row (after ++ added) (by simp [he])

/-- The row written last carries credits minus debits. -/
theorem RunningBalances.last (h : RunningBalances rows) (hsystem : accountId ∈ SystemLedgerAccount.all) :
    previousBalance (lastRow rows accountId) = ledgerNet rows accountId := by
  induction rows using List.reverseRecOn with
  | nil => rfl
  | append_singleton rows row ih =>
    by_cases hrow : row.accountId = accountId
    · subst hrow
      have hlast : lastRow (rows ++ [row]) row.accountId = some row := by simp [lastRow, List.filter_append]
      rw [hlast]
      exact h rows row [] rfl hsystem
    · have hlast : lastRow (rows ++ [row]) accountId = lastRow rows accountId := by
        simp [lastRow, List.filter_append, hrow]
      rw [hlast, ih h.of_append, ledgerNet_append, ledgerNet_singleton, if_neg hrow, add_zero]

/-- Rows that continue the last one of their account, none of them twice. -/
theorem RunningBalances.append (h : RunningBalances rows)
    (honce : ∀ accountId ∈ SystemLedgerAccount.all, (added.map (·.accountId)).count accountId ≤ 1)
    (hcontinues : ∀ row ∈ added, row.accountId ∈ SystemLedgerAccount.all →
      row.balanceAfterMinorUnits = previousBalance (lastRow rows row.accountId) + row.signed) :
    RunningBalances (rows ++ added) := by
  intro before row after he hsystem
  rcases List.append_eq_append_iff.1 he with ⟨mid, rfl, hadded⟩ | ⟨mid, rfl, hrest⟩
  · have hfirst : ∀ e ∈ mid, e.accountId ≠ row.accountId := by
      intro e hm heq
      have hcount := honce row.accountId hsystem
      have hpos : 0 < (mid.map (·.accountId)).count row.accountId :=
        List.count_pos_iff.2 (heq ▸ List.mem_map_of_mem hm)
      simp only [hadded, List.map_append, List.map_cons, List.count_append, List.count_cons_self] at hcount
      omega
    rw [hcontinues row (by simp [hadded]) hsystem, h.last hsystem, ledgerNet_append, ledgerNet_append,
      ledgerNet_of_absent hfirst, ledgerNet_singleton, if_pos rfl, add_zero]
  · cases mid with
    | nil =>
      obtain rfl : added = row :: after := by simpa using hrest.symm
      have hrow := hcontinues row List.mem_cons_self hsystem
      rw [List.append_nil] at h hrow
      rw [hrow, h.last hsystem, ledgerNet_append, ledgerNet_singleton, if_pos rfl]
    | cons e mid =>
      obtain ⟨rfl, -⟩ := List.cons_eq_cons.1 hrest
      exact h before row mid rfl hsystem

end

/-! ## The programs -/

inductive PostRequest where
  | own (posting : LedgerPosting)
  | inTransaction (posting : LedgerPosting)

namespace PostRequest

def posting : PostRequest → LedgerPosting
  | .own posting | .inTransaction posting => posting

def program : PostRequest → Handler Unit
  | .own posting => PrismaLedgerRecorderService.post posting .prisma
  | .inTransaction posting => transaction id (fun _ => id) (PrismaLedgerRecorderService.post posting .tx)

end PostRequest

/-- What has been read of the ledger, by account. -/
abbrev Reads := List (String × Option LedgerEntryRecord)

/-- A store with what each program has read of the ledger. -/
structure Watched where
  store : Store
  reads : PId → Reads

def recordRead (reads : Reads) (op : Op) (r : Except Err op.Res) : Reads :=
  match op, r with
  | .ledgerEntry _ (.findFirst accountId), .ok previous => (accountId, previous) :: reads
  | _, _ => reads

def execWatched (i : PId) (a : Ans) (op : Op) (w : Watched) : Option (Except Err op.Res × Watched) :=
  (exec i a op w.store).map fun x => (x.1, ⟨x.2, Function.update w.reads i (recordRead (w.reads i) op x.1)⟩)

/-- The schedules whose steps meet `allow`. -/
def ledgerSchedule (allow : Watched → PId → Ans → Op → Prop) : System Op.Res Err Watched Ans Nat :=
  ⟨execWatched, fun ms w => { w with store := tick ms w.store }, allow⟩

/-- The accounts of the ledger rows that the call commits. -/
def booked (s : Store) (i : PId) : Op → List String
  | .ledgerEntry .prisma (.createMany data) => data.map (·.accountId)
  | .transaction .commit => ((s.staged i).flatMap Write.ledgerRows).map (·.accountId)
  | _ => []

/-- Rows are committed for no system account twice, and where the row that their program has read is still the
account's last. -/
def ReadsStand (w : Watched) (i : PId) (a : Ans) (op : Op) : Prop :=
  lands w.store i a op → ∀ accountId ∈ SystemLedgerAccount.all, accountId ∈ booked w.store i op →
    (booked w.store i op).count accountId = 1 ∧
    ∀ read ∈ w.reads i, read.1 = accountId → read.2 = lastRow w.store.db.ledgerEntries accountId

instance (w : Watched) (i : PId) (a : Ans) (op : Op) : Decidable ((ledgerSchedule ReadsStand).allow w i a op) :=
  inferInstanceAs (Decidable (lands w.store i a op → _))

/-! ## The protocol -/

/-- The row continues one that was read. -/
def Continues (reads : Reads) (row : LedgerEntryData) : Prop :=
  row.accountId ∈ SystemLedgerAccount.all → ∃ read ∈ reads, read.1 = row.accountId ∧
    row.balanceAfterMinorUnits = previousBalance read.2 + row.signed

def postProtocol : Protocol Op.Res Err where
  State := Reads
  ok _ reads op := match op with
    | .ledgerEntry _ (.createMany data) => ∀ row ∈ data, Continues reads row
    | .ledgerEntry _ (.findFirst _) | .randomUUID | .transaction _ => True
    | _ => False
  yields _ _ _ _ := True
  next _ reads op r := recordRead reads op r

theorem Continues.mono {reads reads' : Reads} {row : LedgerEntryData}
    (h : Continues reads row) (hsub : reads ⊆ reads') : Continues reads' row := fun hsystem => by
  obtain ⟨read, hread, hcontinues⟩ := h hsystem
  exact ⟨read, hsub hread, hcontinues⟩

theorem recordRead_subset (reads : Reads) (op : Op) (r : Except Err op.Res) :
    reads ⊆ recordRead reads op r := by
  unfold recordRead
  split
  · exact List.subset_cons_self _ _
  · exact List.Subset.refl _

/-! ## The invariant -/

structure LedgerInv (w : Watched) (reads : PId → Reads) : Prop where
  reads : reads = w.reads
  rows : RunningBalances w.store.db.ledgerEntries
  staged : ∀ i, ∀ row ∈ (w.store.staged i).flatMap Write.ledgerRows, Continues (w.reads i) row.toLedgerEntryData

section
variable {w w' : Watched} {reads : PId → Reads} {i : PId} {a : Ans} {op : Op}
  {s s' : Store} {r : Except Err op.Res}

/-- What is committed continues the rows there are. -/
theorem LedgerInv.land (h : LedgerInv w reads) {added : List LedgerEntryRecord}
    (hbooked : booked w.store i op = added.map (·.accountId)) (ha : ReadsStand w i a op)
    (hlands : lands w.store i a op)
    (hadded : ∀ row ∈ added, Continues (w.reads i) row.toLedgerEntryData) :
    RunningBalances (w.store.db.ledgerEntries ++ added) := by
  refine h.rows.append (fun accountId hsystem => ?_) fun row hrow hsystem => ?_
  · by_cases hm : accountId ∈ booked w.store i op
    · exact hbooked ▸ (ha hlands accountId hsystem hm).1.le
    · rw [← hbooked, List.count_eq_zero.2 hm]
      exact Nat.zero_le 1
  · obtain ⟨read, hread, haccount, hbalance⟩ := hadded row hrow hsystem
    have hm : row.accountId ∈ booked w.store i op := hbooked ▸ List.mem_map_of_mem hrow
    rw [hbalance, (ha hlands row.accountId hsystem hm).2 read hread haccount]

theorem lands_commit {x : Unit} (hx : exec i a (.transaction .commit) s = some (.ok x, s.commit i)) :
    lands s i a (.transaction .commit) := by
  simp [lands, hx, Store.commit]

/-- **What one call does to the rows**: the committed ones still carry running balances, and those staged continue
rows that were read. -/
theorem LedgerInv.exec (h : LedgerInv w reads) (hok : postProtocol.ok i (w.reads i) op) (ha : ReadsStand w i a op)
    (hx : exec i a op w.store = some (r, s')) : RunningBalances s'.db.ledgerEntries ∧
      ∀ j, ∀ row ∈ (s'.staged j).flatMap Write.ledgerRows, Continues (w.reads j) row.toLedgerEntryData := by
  have same : w.store.SameRows s' → RunningBalances s'.db.ledgerEntries ∧
      ∀ j, ∀ row ∈ (s'.staged j).flatMap Write.ledgerRows, Continues (w.reads j) row.toLedgerEntryData :=
        fun hs =>
    ⟨hs.db ▸ h.rows, fun j => hs.staged ▸ h.staged j⟩
  have ended : ∀ j, ∀ row ∈ (if i = j then [] else w.store.staged j).flatMap Write.ledgerRows,
      Continues (w.reads j) row.toLedgerEntryData := fun j row hrow => by
    split at hrow
    · cases hrow
    · exact h.staged j row hrow
  cases op with
  | transaction q =>
    rcases r with e | x
    · rcases exec_error hx with hs | ⟨-, rfl⟩
      · exact same hs
      · exact ⟨h.rows, fun j => Store.staged_rollback ▸ ended j⟩
    · cases q with
      | begin =>
        obtain ⟨hnone, rfl⟩ := exec_begin hx
        refine ⟨h.rows, fun j => ?_⟩
        by_cases hj : i = j
        · subst hj
          simp [Store.staged]
        · simpa [Store.staged, hj] using h.staged j
      | commit =>
        obtain rfl := exec_commit hx
        rw [Store.db_commit, Db.applyAll_ledgerEntries]
        exact ⟨h.land rfl ha (lands_commit hx) (h.staged i), fun j => Store.staged_commit ▸ ended j⟩
      | rollback =>
        obtain rfl := exec_rollback hx
        exact ⟨h.rows, fun j => Store.staged_rollback ▸ ended j⟩
  | ledgerEntry c q =>
    cases q with
    | findFirst accountId => exact same (exec_read rfl hx)
    | createMany data =>
      rcases r with e | x
      · exact same ((exec_error hx).resolve_right fun h => by cases h.1)
      · obtain ⟨rfl, -, -⟩ := exec_ledger_createMany hx
        have hdata : ∀ row ∈ data.map fun d => ({ d with createdAt := w.store.clock } : LedgerEntryRecord),
            Continues (w.reads i) row.toLedgerEntryData := fun row hrow => by
          obtain ⟨d, hd, rfl⟩ := List.mem_map.1 hrow
          exact hok d hd
        cases c with
        | prisma =>
          rw [Store.db_write_prisma, Db.apply_ledgerEntries]
          exact ⟨h.land (by simp [booked, Write.ledgerRows]) ha (lands_of_write hx) hdata, h.staged⟩
        | tx =>
          refine ⟨h.rows, fun j row hrow => ?_⟩
          rw [Store.staged_write_tx] at hrow
          split at hrow
          · rename_i hj
            subst hj
            simp only [List.flatMap_append, List.mem_append, List.flatMap_singleton] at hrow
            exact hrow.elim (h.staged i row) (hdata row)
          · exact h.staged j row hrow
  | randomUUID => exact same (exec_read rfl hx)
  | _ => exact hok.elim

theorem ledger_preserves : postProtocol.Preserves (ledgerSchedule ReadsStand) LedgerInv where
  call {w reads i a op r w'} h hok ha hx := by
    obtain ⟨⟨r1, s1⟩, hexec, he⟩ := Option.map_eq_some_iff.1 hx
    cases he
    obtain rfl := h.reads
    obtain ⟨hrows, hstaged⟩ := h.exec hok ha hexec
    refine ⟨trivial, rfl, hrows, fun j row hrow => (hstaged j row hrow).mono ?_⟩
    by_cases hj : j = i
    · subst hj
      simpa using recordRead_subset (w.reads j) op r1
    · simp [hj]
  act ms h := ⟨h.reads, h.rows, h.staged⟩

end

/-! ## The programs obey -/

section
variable {i : PId} {st : Reads}

namespace PrismaLedgerRecorderService

theorem balanceAfterMinorUnits_obeys_post (posting : LedgerPosting) (client : Client) (journalId : String)
    {leg : LedgerPostingLeg} (hleg : leg.accountId ∈ SystemLedgerAccount.all → leg.balanceAfter = none) :
    postProtocol.Obeys i
      (fun (st' : Reads) x => st ⊆ st' ∧ ∀ b, x = .ok b → Continues st' (row posting journalId leg b))
      (balanceAfterMinorUnits client leg) st := by
  unfold balanceAfterMinorUnits
  split
  · rename_i b hb
    refine ⟨List.Subset.refl _, fun _ _ hsystem => ?_⟩
    cases hb.symm.trans (hleg hsystem)
  · refine .await_bind trivial (fun previous _ => ⟨List.subset_cons_self _ _, fun b hb => ?_⟩)
      fun e _ => ⟨List.Subset.refl _, fun b hb => nomatch hb⟩
    cases hb
    exact fun _ => ⟨_, List.mem_cons_self, rfl, rfl⟩

/-- The loop reads before each row, and each row of a system account continues what was read. -/
theorem rows_obeys_post (posting : LedgerPosting) (client : Client) (journalId : String) :
    ∀ {legs : List LedgerPostingLeg} {st : Reads},
      (∀ leg ∈ legs, leg.accountId ∈ SystemLedgerAccount.all → leg.balanceAfter = none) →
      postProtocol.Obeys i (fun (st' : Reads) x => st ⊆ st' ∧ ∀ data, x = .ok data →
        ∀ row ∈ data, Continues st' row)
        (rows posting client journalId legs) st
  | [], st, _ => by
    refine ⟨List.Subset.refl _, fun data h => ?_⟩
    cases h
    exact fun _ h => nomatch h
  | leg :: legs, st, hlegs => by
    refine Obeys.bind (P := postProtocol)
      (balanceAfterMinorUnits_obeys_post posting client journalId (hlegs leg List.mem_cons_self))
      (fun st1 b h1 => ?_) fun st1 e h1 => ⟨h1.1, fun _ h => nomatch h⟩
    refine Obeys.bind (P := postProtocol)
      (rows_obeys_post posting client journalId fun leg hm => hlegs leg (List.mem_cons_of_mem _ hm))
      (fun st2 rest h2 => ⟨List.Subset.trans h1.1 h2.1, fun data hd => ?_⟩)
      fun st2 e h2 => ⟨List.Subset.trans h1.1 h2.1, fun _ h => nomatch h⟩
    cases hd
    intro row hrow
    rcases List.mem_cons.1 hrow with rfl | hrow
    · exact (h1.2 b rfl).mono h2.1
    · exact h2.2 rest rfl row hrow

theorem post_obeys_post {posting : LedgerPosting} (client : Client)
    (hlegs : ∀ leg ∈ posting.legs, leg.accountId ∈ SystemLedgerAccount.all → leg.balanceAfter = none) :
    postProtocol.Obeys i (fun _ _ => True) (post posting client) st := by
  refine Obeys.ofExcept_bind (P := postProtocol) (fun _ _ => ?_) fun _ _ => trivial
  refine .await_bind trivial (fun journalId _ => ?_) fun _ _ => trivial
  refine Obeys.bind (P := postProtocol) (rows_obeys_post posting client journalId hlegs) (fun st' data h => ?_)
    fun _ _ _ => trivial
  exact .await (h.2 data rfl) fun _ _ => trivial

end PrismaLedgerRecorderService

theorem PostRequest.program_obeys (request : PostRequest)
    (hlegs : ∀ leg ∈ request.posting.legs, leg.accountId ∈ SystemLedgerAccount.all → leg.balanceAfter = none) :
    postProtocol.Obeys i (fun _ _ => True) request.program st := by
  have statement : ∀ (q : TransactionCall) (st : Reads),
      postProtocol.Obeys i (fun _ _ => True) ((Prog.await (Op.transaction q)).mapError id) st := fun q st =>
    .mapError (.await trivial fun _ _ => trivial)
  cases request with
  | own posting => exact PrismaLedgerRecorderService.post_obeys_post .prisma hlegs
  | inTransaction posting =>
    refine Obeys.bind (P := postProtocol) (statement .begin st) (fun st1 _ _ => ?_) fun _ _ _ => trivial
    refine Obeys.bind (P := postProtocol) (R := fun _ _ => True)
      (Obeys.tryCatch (P := postProtocol) (PrismaLedgerRecorderService.post_obeys_post .tx hlegs)
        (fun _ _ _ => trivial) fun st2 e _ => ?_) (fun st3 _ _ => ?_) fun _ _ _ => trivial
    · exact Obeys.bind (P := postProtocol) (statement .rollback st2) (fun _ _ _ => trivial) fun _ _ _ => trivial
    · exact Obeys.bind (P := postProtocol) (statement .commit st3) (fun _ _ _ => trivial) fun _ _ _ => trivial

end

/-! ## Every schedule -/

/-- **Every row of a system account carries its running balance**, over any interleaving of postings, as long as no
posting has two legs on one system account and what it has read of each is still the last row when it writes. -/
theorem running_balances (requests : PId → PostRequest) (db0 : Db) (clock : Nat)
    (hlegs : ∀ i, ∀ leg ∈ (requests i).posting.legs, leg.accountId ∈ SystemLedgerAccount.all →
      leg.balanceAfter = none)
    (h0 : RunningBalances db0.ledgerEntries) {c : Config Op.Res Err Watched Err Unit}
    (hr : (ledgerSchedule ReadsStand).Reach ⟨⟨.init db0 clock, fun _ => []⟩, fun i => (requests i).program⟩ c) :
    RunningBalances c.store.store.db.ledgerEntries ∧ ∀ accountId ∈ SystemLedgerAccount.all,
      previousBalance (lastRow c.store.store.db.ledgerEntries accountId) =
        ledgerNet c.store.store.db.ledgerEntries accountId := by
  have htracks : postProtocol.Tracks LedgerInv (fun _ _ _ => True)
      (⟨⟨.init db0 clock, fun _ => []⟩, fun i => (requests i).program⟩ : Config Op.Res Err Watched Err Unit)
      fun _ => [] :=
    ⟨⟨rfl, h0, fun i row hrow => by simp at hrow⟩, fun i => (requests i).program_obeys (hlegs i)⟩
  obtain ⟨sts, hinv, -⟩ := reach ledger_preserves htracks hr
  exact ⟨hinv.rows, fun _ => hinv.rows.last⟩

/-- A fee of ₦10.00. -/
def sampleFee (reference : String) : PostRequest :=
  .own ⟨reference, "", "user", .TRANSFER, [⟨"acc", .DEBIT, ⟨1000, .NGN⟩, some ⟨9000, .NGN⟩⟩,
    ⟨SystemLedgerAccount.feeRevenue .NGN, .CREDIT, ⟨1000, .NGN⟩, none⟩]⟩

/-- One after the other. -/
theorem running_balances_sample : ∃ c : Config Op.Res Err Watched Err Unit,
    c.store.store.db.ledgerEntries.map (·.balanceAfterMinorUnits) = [9000, 1000, 9000, 2000] ∧
    RunningBalances c.store.store.db.ledgerEntries := by
  have hplay : ((ledgerSchedule ReadsStand).play
      (System.calls 0 [Ans.uuid "j", .ok, .ok] ++ System.calls 1 [Ans.uuid "k", .ok, .ok])
      ⟨⟨.init (.of [] []) 0, fun _ => []⟩, fun _ => (sampleFee "ref").program⟩).any fun c =>
        c.store.store.db.ledgerEntries.map (·.balanceAfterMinorUnits) = [9000, 1000, 9000, 2000] := by
    decide +kernel
  obtain ⟨c, hc, hrows⟩ := System.play_seen _ hplay
  exact ⟨c, hrows, (running_balances (fun _ => sampleFee "ref") (.of [] []) 0 (fun _ => by decide)
    (fun before row after he => by simp [Db.of, Db.empty] at he) (System.reach_of_play _ hc)).1⟩

instance (w : Watched) (i : PId) (a : Ans) (op : Op) :
    Decidable ((ledgerSchedule fun _ _ _ _ => True).allow w i a op) := inferInstanceAs (Decidable True)

theorem not_runningBalances {rows : List LedgerEntryRecord} {accountId : String}
    (hsystem : accountId ∈ SystemLedgerAccount.all)
    (h : previousBalance (lastRow rows accountId) ≠ ledgerNet rows accountId) : ¬ RunningBalances rows :=
  fun hrows =>
  h (hrows.last hsystem)

/-- Both read before either writes: the second row says ₦10.00 where the account has had ₦20.00. -/
theorem concurrent_fees_lost : ∃ c : Config Op.Res Err Watched Err Unit,
    (ledgerSchedule fun _ _ _ _ => True).Reach
      ⟨⟨.init (.of [] []) 0, fun _ => []⟩, fun _ => (sampleFee "ref").program⟩ c ∧
    c.Ended 0 (.ok ()) ∧ c.Ended 1 (.ok ()) ∧ ¬ RunningBalances c.store.store.db.ledgerEntries := by
  have hplay : ((ledgerSchedule fun _ _ _ _ => True).play
      (System.calls 0 [Ans.uuid "j", .ok] ++ System.calls 1 [Ans.uuid "k", .ok, .ok] ++ System.calls 0 [Ans.ok])
      ⟨⟨.init (.of [] []) 0, fun _ => []⟩, fun _ => (sampleFee "ref").program⟩).any fun c =>
        c.Ended 0 (.ok ()) ∧ c.Ended 1 (.ok ()) ∧
        previousBalance (lastRow c.store.store.db.ledgerEntries (SystemLedgerAccount.feeRevenue .NGN)) ≠
          ledgerNet c.store.store.db.ledgerEntries (SystemLedgerAccount.feeRevenue .NGN) := by
    decide +kernel
  obtain ⟨c, hc, h0, h1, hlast⟩ := System.play_seen _ hplay
  exact ⟨c, System.reach_of_play _ hc, h0, h1, not_runningBalances (by decide) hlast⟩

end Kudi
