import KudiCore.Interleave.Run
import KudiCore.Execution
import KudiCore.Transfers.InternalExecutor

/-!
# What a failed internal transfer leaves behind

| here | there |
| --- | --- |
| `FailureRecorded` | the failure path documented at `prisma-internal-transfer-executor.service.ts:52` |
| `Op.insertsTransfer` | `tx.transfer.create` |

The transaction hands its `catch` the transfer as far as it got: untouched up to the insert, marked SUCCESSFUL from
the insert on, also when the commit fails. A transfer that is marked SUCCESSFUL cannot be marked FAILED.
-/

namespace Kudi

open Interleave Protocol PrismaInternalTransferExecutor

/-- The transfers that program `i` has stored, in commit order. -/
def Store.transfersOf (s : Store) (i : PId) : List TransferRecord :=
  transferWrites ((s.wal.filter (·.1 = i)).flatMap (·.2))

/-- A FAILED transfer with the failure's message, and no other. -/
def FailureRecorded (i : PId) (id : String) (error : Err) (s s' : Store) : Prop :=
  ∃ row, s'.db.transfers.find? id = some row ∧ row.status = .FAILED ∧
    row.failureReason = some (error.messageOr "Internal transfer failed") ∧
    s'.transfersOf i = s.transfersOf i ++ [row]

/-- Nobody else writes the transfer `id`. -/
def Apart (i : PId) (id : String) (env : Store → Store → Prop) : Prop :=
  ∀ s s', env s s' → s'.db.transfers.find? id = s.db.transfers.find? id ∧ s'.transfersOf i = s.transfersOf i

def Op.insertsTransfer : Op → Bool
  | .transfer .tx (.create _) => true
  | _ => false

/-! ## The transaction -/

/-- Calls on the transaction's client, and its boundaries. -/
def Op.Inside : Op → Prop
  | .account c _ | .transfer c _ | .ledgerEntry c _ | .kyc c _ => c = .tx
  | .transaction _ | .randomUUID => True
  | _ => False

structure Attempt where
  inserted : Bool
  committed : Bool

def attemptProtocol : Protocol Op.Res Err where
  State := Attempt
  ok _ _ op := op.Inside
  yields _ _ op r := match op, r with
    | .transaction .rollback, .error _ => False
    | _, _ => True
  next _ st op r := match op, r with
    | .transfer .tx (.create _), _ => { st with inserted := true }
    | .transaction .commit, .ok _ => { st with committed := true }
    | _, _ => st

/-- What the `catch` block is handed. -/
def Handed (transfer : Transfer) (st : Attempt) (thrown : Err × Transfer) : Prop :=
  st.committed = false ∧ if st.inserted then thrown.2.status = .SUCCESSFUL else thrown.2 = transfer

section
variable {i : PId} {transfer : Transfer}

theorem inside_quiet {op : Op} (h : op.Inside) (hi : op.insertsTransfer = false) (ht : ∀ q, op ≠ .transaction q) :
    attemptProtocol.Quiet i op := by
  refine fun st => ⟨h, fun r => ?_⟩
  cases op with
  | transfer c q =>
    obtain rfl : c = .tx := h
    cases q <;> cases hi <;> rcases r with e | x <;> rfl
  | transaction q => exact absurd rfl (ht q)
  | _ => rcases r with e | x <;> rfl

theorem moveFunds_quiet (params : InternalTransferParams) :
    (moveFunds params transfer).Calls (attemptProtocol.Quiet i) :=
  moveFunds_calls (fun _ => inside_quiet rfl rfl nofun) (fun _ => inside_quiet rfl rfl nofun)
    (inside_quiet trivial rfl nofun) (fun _ => inside_quiet rfl rfl nofun) params transfer

theorem body_obeys_attempt (params : InternalTransferParams) (hopen : transfer.status.isTerminal = false) :
    attemptProtocol.Obeys i
      (fun st x => st.committed = false ∧ match x with
        | .ok result => st.inserted = true ∧ result.1.status = .SUCCESSFUL
        | .error thrown => Handed transfer st thrown)
      (body params transfer) ⟨false, false⟩ := by
  have hmove : attemptProtocol.Obeys i
      (fun st x => st = ⟨false, false⟩ ∧ ∀ thrown, x = .error thrown → Handed transfer st thrown)
      (during transfer (moveFunds params transfer)) ⟨false, false⟩ := by
    refine Obeys.mapError (P := attemptProtocol)
      ((Obeys.quiet (P := attemptProtocol) (moveFunds_quiet params) (Prog.returns_true _) _).mono fun st x h => ?_)
    obtain ⟨rfl, -⟩ := h
    refine ⟨rfl, fun thrown hx => ?_⟩
    cases x with
    | ok accounts => cases hx
    | error e =>
      cases hx
      exact ⟨rfl, rfl⟩
  refine Obeys.bind (P := attemptProtocol) hmove (fun st accounts h => ?_) fun st thrown h => ?_
  · obtain ⟨rfl, -⟩ := h
    rw [Transfer.markSuccessful_of hopen]
    refine ⟨rfl, fun r _ => ?_⟩
    rcases r with e | x
    · exact ⟨rfl, rfl, rfl⟩
    · exact ⟨rfl, rfl, rfl⟩
  · obtain ⟨rfl, h⟩ := h
    exact ⟨rfl, h _ rfl⟩

/-- **Up to the insert the `catch` block is handed the transfer as it was initiated, from the insert on one that is
marked SUCCESSFUL; either way nothing has been committed.** -/
theorem moved_obeys_attempt (params : InternalTransferParams) (hopen : transfer.status.isTerminal = false) :
    attemptProtocol.Obeys i (fun st x => ∀ thrown, x = .error thrown → Handed transfer st thrown)
      (moved params transfer) ⟨false, false⟩ := by
  unfold moved transaction
  refine Obeys.bind (P := attemptProtocol)
    (R := fun st x => st = ⟨false, false⟩ ∧ ∀ thrown, x = .error thrown →
      Handed transfer st thrown) ?_ (fun st _ h => ?_)
    fun st thrown h thrown' e => ?_
  · refine Obeys.mapError (P := attemptProtocol) (.await trivial fun r _ => ?_)
    rcases r with e | x
    · exact ⟨rfl, fun thrown h => by cases h; exact ⟨rfl, rfl⟩⟩
    · exact ⟨rfl, fun thrown h => by cases h⟩
  · obtain ⟨rfl, -⟩ := h
    refine Obeys.bind (P := attemptProtocol)
      (R := fun st x => st.committed = false ∧ match x with
        | .ok result => st.inserted = true ∧ result.1.status = .SUCCESSFUL
        | .error thrown => Handed transfer st thrown) ?_ (fun st result h => ?_) fun st thrown h thrown' e => ?_
    · refine Obeys.tryCatch (P := attemptProtocol) (body_obeys_attempt params hopen) (fun _ _ h => h)
        fun st thrown h => ?_
      refine ⟨trivial, fun r hy => ?_⟩
      rcases r with e | x
      · exact absurd hy id
      · exact h
    · refine ⟨trivial, fun r _ => ?_⟩
      rcases r with e | x
      · intro thrown h'
        cases h'
        have hinserted : st.inserted = true := h.2.1
        exact ⟨h.1, (if_pos hinserted).mpr h.2.2⟩
      · intro thrown h'
        cases h'
    · cases e
      exact h.2
  · cases e
    exact h.2 _ rfl

/-! ### ... and the store -/

/-- Before the commit nothing of the attempt is in the tables. -/
def Uncommitted (i : PId) (id : String) (own : List TransferRecord) (s : Store) (st : Attempt) : Prop :=
  st.committed = false → s.db.transfers.find? id = none ∧ s.transfersOf i = own

theorem transfersOf_congr {s s' : Store} (h : s'.wal = s.wal) : s'.transfersOf i = s.transfersOf i := by
  rw [Store.transfersOf, Store.transfersOf, h]

theorem inside_performs {op : Op} {c : Client} {w : Write} (h : op.Inside) (hp : op.Performs c w) : c = .tx := by
  cases op with
  | account c' q => cases q <;> first | exact absurd hp id | exact hp.1.symm.trans h
  | transfer c' q => cases q <;> first | exact absurd hp id | exact hp.1.symm.trans h
  | ledgerEntry c' q => cases q <;> first | exact absurd hp id | exact hp.1.symm.trans h
  | idempotencyKey q => exact absurd h id
  | _ => exact absurd hp id

/-- A statement inside the transaction commits nothing. -/
theorem inside_stages {s s' : Store} {a : Ans} {op : Op} {r : Except Err op.Res} (h : op.Inside)
    (ht : ∀ q, op ≠ .transaction q) (hx : exec i a op s = some (r, s')) : s'.db = s.db ∧ s'.wal = s.wal := by
  rcases exec_performs ht hx with hs | ⟨c, w, rfl, hp⟩
  · exact ⟨hs.db, hs.wal⟩
  · obtain rfl := inside_performs h hp
    exact ⟨rfl, rfl⟩

theorem uncommitted_call {id : String} {own : List TransferRecord} {s s' : Store} {st : Attempt} {a : Ans} {op : Op}
    {r : Except Err op.Res} (h : Uncommitted i id own s st) (hok : op.Inside) (hx : exec i a op s = some (r, s')) :
    attemptProtocol.yields i st op r ∧ Uncommitted i id own s' (attemptProtocol.next i st op r) := by
  have same : s'.db = s.db → s'.wal = s.wal → Uncommitted i id own s' st := fun hdb hwal hst => by
    rw [hdb, transfersOf_congr hwal]
    exact h hst
  have staged : (∀ q, op ≠ .transaction q) → Uncommitted i id own s' st := fun ht =>
    same (inside_stages hok ht hx).1 (inside_stages hok ht hx).2
  cases op with
  | transaction q =>
    cases q with
    | begin =>
      rcases r with e | x
      · have hs : s.SameRows s' := (exec_error hx).resolve_right nofun
        exact ⟨trivial, same hs.db hs.wal⟩
      · obtain ⟨-, rfl⟩ := exec_begin hx
        exact ⟨trivial, same rfl rfl⟩
    | commit =>
      rcases r with e | x
      · obtain rfl := exec_commit_error hx
        exact ⟨trivial, same rfl rfl⟩
      · exact ⟨trivial, fun hc => Bool.noConfusion hc⟩
    | rollback =>
      rcases r with e | x
      · exact absurd hx exec_rollback_error
      · obtain rfl := exec_rollback hx
        exact ⟨trivial, same rfl rfl⟩
  | transfer c q =>
    obtain rfl : c = .tx := hok
    have hst := staged nofun
    cases q <;> rcases r with e | x <;> exact ⟨trivial, hst⟩
  | _ =>
    have hst := staged nofun
    rcases r with e | x <;> exact ⟨trivial, hst⟩

end

/-! ## The `catch` block -/

section
variable {i : PId} {env : Store → Store → Prop} {s s' : Store} {tr : List (Event Op.Res Err Store)}

/-- A first save of a transfer that a mutator has already touched: the update matches nothing, and the row is
inserted. -/
theorem save_unsaved {transfer : Transfer} (hapart : Apart i transfer.id env) (hv : transfer.version ≠ 0)
    (hfree : s.db.transfers.find? transfer.id = none) {x : Except Err Unit}
    (h : Run anySchedule env i (PrismaTransferRepository.save transfer) s tr x s')
    (hok : ∀ e ∈ tr, e.rejected = false) :
    x = .ok () ∧ s'.db.transfers.find? transfer.id = some (TransferMapper.toPersistence transfer) ∧
      s'.transfersOf i = s.transfersOf i ++ [TransferMapper.toPersistence transfer] := by
  unfold PrismaTransferRepository.save at h
  rw [if_neg hv] at h
  obtain ⟨s1, a, n, s2, rest, h1, -, hx, -, hfind, hok1⟩ := h.await_bind_ok hok
  have hfree1 := (hapart _ _ h1).1.trans hfree
  obtain ⟨rfl, rfl⟩ : n = 0 ∧ s2 = s1 := by
    rcases exec_transfer_updateMany hx with h | ⟨-, -, -, db, row, hv, hrow, -⟩
    · exact h
    · rw [Store.view_prisma, Option.some.injEq] at hv
      subst hv
      exact absurd (hrow.symm.trans hfree1) nofun
  rw [if_pos rfl] at hfind
  obtain ⟨s3, a, found, s4, rest, h3, -, hx, -, hcreate, hok3⟩ := hfind.await_bind_ok hok1
  obtain ⟨db, hview, rfl, rfl⟩ := exec_transfer_find hx
  rw [Store.view_prisma, Option.some.injEq] at hview
  subst hview
  have hfree3 : s4.db.transfers.find? (TransferMapper.toPersistence transfer).id = none :=
    (hapart _ _ h3).1.trans hfree1
  rw [hfree3] at hcreate
  obtain ⟨s5, a, h5, -, hx, rfl⟩ := hcreate.await
  cases x with
  | error e => exact absurd (hok3 _ (List.mem_singleton_self _)) nofun
  | ok u =>
    obtain ⟨rfl, -⟩ := exec_transfer_create hx
    refine ⟨rfl, Table.find?_put_self .., ?_⟩
    have hown : s5.transfersOf i = s.transfersOf i :=
      ((hapart _ _ h5).2.trans (hapart _ _ h3).2).trans (hapart _ _ h1).2
    rw [← hown]
    simp [Store.transfersOf, transferWrites, Write.transfer?]

/-- A transfer that is still open is recorded as FAILED. -/
theorem recordFailure_run {error thrown : Err} {transfer : Transfer} (hopen : transfer.status.isTerminal = false)
    (hapart : Apart i transfer.id env) (hfree : s.db.transfers.find? transfer.id = none)
    (h : Run anySchedule env i (recordFailure error transfer : Handler (Transfer × List DomainEvent)) s tr
      (.error thrown) s')
    (hok : ∀ e ∈ tr, e.rejected = false) : thrown = error ∧ FailureRecorded i transfer.id error s s' := by
  rcases h.ofExcept_bind with ⟨failed, hfailed, h⟩ | ⟨e, he, -⟩
  · rw [Transfer.markFailed_of hopen, Except.ok.injEq] at hfailed
    have hid : failed.id = transfer.id := hfailed ▸ rfl
    have hv : failed.version ≠ 0 := hfailed ▸ Nat.succ_ne_zero _
    have hrecorded : failed.status = .FAILED ∧
        failed.failureReason = some (error.messageOr "Internal transfer failed") := hfailed ▸ ⟨rfl, rfl⟩
    have hapart' : Apart i failed.id env := hid ▸ hapart
    have hfree' : s.db.transfers.find? failed.id = none := hid ▸ hfree
    rcases h.bind with ⟨_, s1, tr1, tr2, hsave, hthrow, rfl⟩ | ⟨e, -, hsave⟩
    · obtain ⟨-, hrow, hown⟩ := save_unsaved hapart' hv hfree' hsave fun e he => hok e (List.mem_append_left _ he)
      obtain ⟨-, hthrown, rfl⟩ := hthrow
      cases hthrown
      exact ⟨rfl, _, hid ▸ hrow, hrecorded.1, hrecorded.2, hown⟩
    · cases (save_unsaved hapart' hv hfree' hsave hok).1
  · rw [Transfer.markFailed_of hopen] at he
    cases he

/-- A transfer that is marked SUCCESSFUL is not recorded at all. -/
theorem recordFailure_terminal {error thrown : Err} {transfer : Transfer} (hclosed : transfer.status.isTerminal = true)
    (h : Run anySchedule env i (recordFailure error transfer : Handler (Transfer × List DomainEvent)) s tr
      (.error thrown) s') :
    s' = s := by
  rcases h.ofExcept_bind with ⟨failed, hfailed, -⟩ | ⟨e, -, -, -, rfl⟩
  · rw [Transfer.markFailed, Transfer.assertNotTerminal, if_pos hclosed] at hfailed
    cases hfailed
  · rfl

end

/-! ## The whole -/

/-- The attempt got as far as inserting the transfer. -/
def ReachedInsert (tr : List (Event Op.Res Err Store)) : Prop := ∃ e ∈ tr, e.op.insertsTransfer = true

instance (tr : List (Event Op.Res Err Store)) : Decidable (ReachedInsert tr) :=
  inferInstanceAs (Decidable (∃ e ∈ tr, _))

theorem after_inserted {i : PId} {tr : List (Event Op.Res Err Store)} : ∀ st : Attempt,
    (attemptProtocol.after i tr st).inserted = true ↔ st.inserted = true ∨ ReachedInsert tr := by
  induction tr with
  | nil =>
    intro st
    show st.inserted = true ↔ _
    simp [ReachedInsert]
  | cons e tr ih =>
    intro st
    have hnext : ∀ st' : Attempt, st' = attemptProtocol.next i st e.op e.result →
        (st'.inserted = true ↔ st.inserted = true ∨ e.op.insertsTransfer = true) := by
      rintro st' rfl
      obtain ⟨op, r, s, s'⟩ := e
      have untouched : Op.insertsTransfer op = false →
          (st.inserted = true ↔ st.inserted = true ∨ op.insertsTransfer = true) := fun h => by simp [h]
      cases op with
      | transfer c q =>
        cases c with
        | prisma => cases q <;> rcases r with e | x <;> exact untouched rfl
        | tx =>
          cases q with
          | create data => rcases r with e | x <;> exact iff_of_true rfl (.inr rfl)
          | _ => rcases r with e | x <;> exact untouched rfl
      | transaction q => cases q <;> rcases r with e | x <;> exact untouched rfl
      | _ => rcases r with e | x <;> exact untouched rfl
    refine (ih _).trans ((or_congr_left (hnext _ rfl)).trans ?_)
    simp [ReachedInsert, or_assoc]

/-- The clock and the random values are not rejected. -/
theorem draw_run {α : Type} {initiate : Nat → TransferReference → String → α}
    {env : Store → Store → Prop} {i : PId}
    {s s' : Store} {tr : List (Event Op.Res Err Store)} {x : Except Err α}
    (h : Run anySchedule env i (draw initiate) s tr x s') : ∃ a, x = .ok a := by
  have hlocal : (draw initiate).Calls fun op => op.fallible = false ∧ op.constrained = false :=
    draw_calls ⟨rfl, rfl⟩ ⟨rfl, rfl⟩ ⟨rfl, rfl⟩ initiate
  refine h.unfailing hlocal (draw_unfailing initiate) fun {_ a _ _ _} hop hx => ?_
  have hfail := isFail_of_error hop.2 hx
  cases a with
  | fail e => exact absurd (exec_fail hx).1 (by simp [hop.1])
  | _ => cases hfail

theorem draw_keeps_db {α : Type} {initiate : Nat → TransferReference → String → α}
    {env : Store → Store → Prop}
    {i : PId} {s s' : Store} {tr : List (Event Op.Res Err Store)} {x : Except Err α}
    (h : Run anySchedule env i (draw initiate) s tr x s') (henv : ∀ {s s'}, env s s' → s'.db = s.db) :
    s'.db = s.db := by
  have hreads : (draw initiate).Calls fun op => op.mutates = false :=
    draw_calls (T := fun op => op.mutates = false) rfl rfl rfl initiate
  refine h.keeps (R := fun s s' => s'.db = s.db) hreads (fun _ => rfl) (fun {_ _ _} h h' => ?_) henv fun hop hx => ?_
  · exact h'.trans h
  · exact (exec_read hop hx).db

/-- **Exactly the attempts that fail before their insert leave a FAILED transfer.** A run of the executor that throws
is an attempt that fails with `error`, and the `catch` block; if the calls of the `catch` block go through, then it
rethrows `error` and stores one FAILED transfer with its message, if and only if the attempt had not come to insert
its transfer. -/
theorem failure_recorded_iff (params : InternalTransferParams) {env : Store → Store → Prop} {i : PId} {s s' : Store}
    {tr : List (Event Op.Res Err Store)} {thrown : Err}
    (h : Run anySchedule env i (execute params) s tr (.error thrown) s') :
    ∃ (transfer handed : Transfer) (error : Err) (drawn attempt handling : List (Event Op.Res Err Store))
      (s0 s1 : Store), tr = drawn ++ (attempt ++ handling) ∧
      Run anySchedule env i (draw fun now reference id => Transfer.initiateInternal now reference id
        params.initiatorUserId params.sourceAccountId params.destinationAccountId params.amount params.fee
        params.narration) s drawn (.ok transfer) s0 ∧
      Run anySchedule env i (moved params transfer) s0 attempt (.error (error, handed)) s1 ∧
      Run anySchedule env i (recordFailure error handed : Handler (Transfer × List DomainEvent)) s1 handling
        (.error thrown) s' ∧
      (Apart i transfer.id env → s0.db.transfers.find? transfer.id = none →
        (∀ e ∈ handling, e.rejected = false) →
        (thrown = error ∧ FailureRecorded i transfer.id error s0 s' ↔ ¬ ReachedInsert attempt)) := by
  rcases h.bind with ⟨transfer, s0, drawn, rest, hdraw, hrest, rfl⟩ | ⟨e, -, hdraw⟩
  swap
  · obtain ⟨a, ha⟩ := draw_run hdraw
    cases ha
  rcases hrest.bind with ⟨_, s2, tr1, tr2, -, hreturn, -⟩ | ⟨e, he, hcaught⟩
  · cases hreturn.2.1
  cases he
  rcases hcaught.tryCatch with ⟨a, ha, -⟩ | ⟨⟨error, handed⟩, s1, attempt, handling, hattempt, hcatch, rfl⟩
  · cases ha
  refine ⟨transfer, handed, error, drawn, attempt, handling, s0, s1, rfl, hdraw, hattempt, hcatch,
    fun hapart hfree hok => ?_⟩
  obtain ⟨now, reference, id, htransfer⟩ := hdraw.returns (draw_returns _)
  have hopen : transfer.status.isTerminal = false := htransfer ▸ rfl
  have hkeep : ∀ {s s' st}, env s s' → Uncommitted i transfer.id (s0.transfersOf i) s st →
      Uncommitted i transfer.id (s0.transfersOf i) s' st := fun he hun hst =>
    ⟨(hapart _ _ he).1.trans (hun hst).1, (hapart _ _ he).2.trans (hun hst).2⟩
  obtain ⟨hun, hhanded⟩ := hattempt.obeys (P := attemptProtocol) (K := Uncommitted i transfer.id (s0.transfersOf i))
    (moved_obeys_attempt params hopen) (fun _ => ⟨hfree, rfl⟩) hkeep fun hun hok _ hx => uncommitted_call hun hok hx
  obtain ⟨hcommitted, hhanded⟩ := hhanded _ rfl
  obtain ⟨hfree1, hown⟩ := hun hcommitted
  by_cases hreached : ReachedInsert attempt
  · rw [if_pos ((after_inserted _).2 (.inr hreached))] at hhanded
    refine iff_of_false (fun hrecorded => ?_) (not_not_intro hreached)
    obtain rfl := recordFailure_terminal (hhanded ▸ rfl) hcatch
    obtain ⟨-, row, hrow, -⟩ := hrecorded
    rw [hfree1] at hrow
    cases hrow
  · rw [if_neg fun hins => hreached (((after_inserted _).1 hins).resolve_left Bool.false_ne_true)] at hhanded
    have hhanded : handed = transfer := hhanded
    subst hhanded
    obtain ⟨hthrown, row, hrow, hstatus, hreason, hrows⟩ := recordFailure_run hopen hapart hfree1 hcatch hok
    exact iff_of_true ⟨hthrown, row, hrow, hstatus, hreason, hown ▸ hrows⟩ hreached

/-- ₦20.00 between two accounts of one owner. -/
def sampleMove : InternalTransferParams :=
  { initiatorUserId := "user", sourceAccountId := "acc", destinationAccountId := "acc2", amount := ⟨2000, .NGN⟩,
    fee := ⟨0, .NGN⟩, narration := "" }

def sampleAccountTo : AccountRecord := ⟨"acc2", "user", "0123456780", .NGN, 500, .ACTIVE, 0⟩

theorem error_of_map {ε α : Type} {x : Except ε α} {e : ε} (h : (x.map fun _ => ()) = .error e) :
    x = .error e := by
  cases x with
  | ok a => cases h
  | error e' =>
    cases h
    rfl

/-- The destination does not exist: the attempt is rolled back, and its failure recorded. -/
theorem failure_recorded_iff_sample : ∃ (tr : List (Event Op.Res Err Store)) (s' s0 : Store) (transfer : Transfer),
    Run anySchedule Eq 0 (execute sampleMove) (.init (.of [sampleAccount] []) 0) tr
      (.error (accountNotFound "acc2")) s' ∧
    FailureRecorded 0 transfer.id (accountNotFound "acc2") s0 s' := by
  have hplay : (playRun anySchedule 0
      [.ok, .uuid "t", .reference sampleReference, .ok, .ok, .ok, .ok, .ok, .ok, .ok] (execute sampleMove)
      (.init (.of [sampleAccount] []) 0)).any fun r => (r.2.1.map fun _ => ()) = .error (accountNotFound "acc2") ∧
        ∀ e ∈ r.1, e.rejected = false ∧ e.op.insertsTransfer = false := by
    decide +kernel
  obtain ⟨tr, x, s', hplay, hx, hcalls⟩ := playRun_seen
    (Q := fun (tr : List (Event Op.Res Err Store)) x (_ : Store) => (x.map fun _ => ()) = .error
      (accountNotFound "acc2") ∧
      ∀ e ∈ tr, e.rejected = false ∧ e.op.insertsTransfer = false) hplay
  rw [error_of_map hx] at hplay
  have hrun : Run anySchedule Eq 0 (execute sampleMove) _ tr _ s' := run_of_play (fun _ => rfl) hplay
  obtain ⟨transfer, handed, error, drawn, attempt, handling, s0, s1, rfl, hdraw, -, -, hiff⟩ :=
    failure_recorded_iff sampleMove hrun
  have hrows : s0.db = Db.of [sampleAccount] [] := draw_keeps_db hdraw fun h => h ▸ rfl
  have hrecorded := (hiff (fun _ _ h => h ▸ ⟨rfl, rfl⟩) (by rw [hrows]; rfl) fun e he =>
    (hcalls e (by simp [he])).1).2 (fun ⟨e, he, hins⟩ => by simp [(hcalls e (by simp [he])).2] at hins)
  exact ⟨_, s', s0, transfer, hrun, hrecorded.1 ▸ hrecorded.2⟩

/-- The commit fails, the only call that does. The caller learns that a transfer which nobody has stored is already
SUCCESSFUL. -/
theorem failed_commit_unrecorded : ∃ (tr : List (Event Op.Res Err Store)) (s' : Store),
    Run anySchedule Eq 0 (execute sampleMove) (.init (.of [sampleAccount, sampleAccountTo] []) 0) tr
      (.error (invalidTransferState "t" .SUCCESSFUL "mark as failed")) s' ∧
    tr.filterMap Event.error? = [connectionLost] ∧
    connectionLost ≠ invalidTransferState "t" .SUCCESSFUL "mark as failed" ∧ s'.db.transfers.rows = [] := by
  have hplay : (playRun anySchedule 0
      [.ok, .uuid "t", .reference sampleReference, .ok, .ok, .ok, .ok, .ok, .ok, .ok, .uuid "j", .ok, .ok,
        .fail connectionLost] (execute sampleMove)
      (.init (.of [sampleAccount, sampleAccountTo] []) 0)).any fun r =>
        (r.2.1.map fun _ => ()) = .error (invalidTransferState "t" .SUCCESSFUL "mark as failed") ∧
        r.1.filterMap Event.error? = [connectionLost] ∧ r.2.2.db.transfers.rows = [] := by
    decide +kernel
  obtain ⟨tr, x, s', hplay, hx, hcalls, hrows⟩ := playRun_seen (Q := fun tr x (s' : Store) =>
    (x.map fun _ => ()) = .error (invalidTransferState "t" .SUCCESSFUL "mark as failed") ∧
      tr.filterMap Event.error? = [connectionLost] ∧ s'.db.transfers.rows = []) hplay
  rw [error_of_map hx] at hplay
  exact ⟨tr, s', run_of_play (fun _ => rfl) hplay, hcalls, by decide, hrows⟩

end Kudi
