import KudiCore.Concurrency.LostUpdates

/-!
# Balances and the ledger

| here | there |
| --- | --- |
| `Write.moved`, `Write.ledgerRows` | what one write does to an account, and what it enters in the ledger |
| `NothingLost` | no transfer insert and no statement on the ledger is rejected outside a transaction |

An external transfer writes an account and its journal in two statements, so between them the balance is ahead of the
ledger. `Books.due` is by how much, account by account, for one program.
-/

namespace Kudi

open Interleave Protocol

/-! ## What a log leaves unbooked -/

/-- What the write moves on account `id`. -/
def Write.moved (id : String) : Write → Int
  | .account data events => if data.id = id then netOfEvents events else 0
  | _ => 0

/-- What `ws` moves on account `id` and does not enter in the ledger. -/
def unbooked (id : String) (ws : List Write) : Int := (ws.map fun w => w.moved id - ledgerNet w.ledgerRows id).sum

/-- What program `i` has committed. -/
def Store.writesOf (s : Store) (i : PId) : List Write := (s.wal.filter fun e => e.1 = i).flatMap (·.2)

section
variable {id : String} {w : Write}

@[simp] theorem unbooked_nil : unbooked id [] = 0 := rfl

@[simp] theorem unbooked_append (ws ws' : List Write) : unbooked id (ws ++ ws') = unbooked id ws + unbooked id ws' := by
  simp [unbooked]

theorem unbooked_flatMap {β : Type} (f : β → List Write) (l : List β) :
    unbooked id (l.flatMap f) = (l.map fun x => unbooked id (f x)).sum := by
  induction l with
  | nil => rfl
  | cons x l ih => rw [List.flatMap_cons, unbooked_append, ih, List.map_cons, List.sum_cons]

theorem unbooked_account {data : AccountRecord} {events : List AccountEvent} :
    unbooked id [.account data events] = if data.id = id then netOfEvents events else 0 := by
  simp [unbooked, Write.moved, Write.ledgerRows, ledgerNet]

theorem unbooked_ledgerEntries {rows : List LedgerEntryRecord} :
    unbooked id [.ledgerEntries rows] = -ledgerNet rows id := by
  simp [unbooked, Write.moved, Write.ledgerRows]

theorem unbooked_other (ha : w.account? = none) (hl : w.ledgerRows = []) : unbooked id [w] = 0 := by
  have hm : w.moved id = 0 := by cases w <;> first | rfl | cases ha
  simp [unbooked, hm, hl, ledgerNet]

theorem unbooked_eq (ws : List Write) :
    unbooked id ws = (ws.map (Write.moved id)).sum - ledgerNet (ws.flatMap Write.ledgerRows) id := by
  induction ws with
  | nil => rfl
  | cons w ws ih =>
    rw [unbooked] at ih
    rw [unbooked, List.map_cons, List.sum_cons, ih, List.map_cons, List.sum_cons, List.flatMap_cons, ledgerNet_append]
    ring

/-- The events of the account writes add up to what has been moved. -/
theorem moved_sum (ws : List Write) :
    netOfEvents ((Table.writesTo accountRow AccountRecord.id id ws).flatMap fun w => (w.account?.map (·.2)).getD []) =
      (ws.map (Write.moved id)).sum := by
  induction ws with
  | nil => rfl
  | cons w ws ih =>
    rw [List.map_cons, List.sum_cons, ← ih]
    by_cases hw : (accountRow w).map AccountRecord.id = some id
    · rw [Table.writesTo_cons_of hw, List.flatMap_cons, netOfEvents_append]
      cases w with
      | account data events =>
        have hid : data.id = id := by simpa [accountRow, Write.account?] using hw
        simp [Write.moved, Write.account?, hid]
      | _ => cases hw
    · rw [Table.writesTo_cons_of_ne hw]
      cases w with
      | account data events =>
        have hid : data.id ≠ id := by simpa [accountRow, Write.account?] using hw
        simp [Write.moved, hid]
      | _ => simp [Write.moved]

/-- A log with nothing left unbooked: what the account writes have recorded is what the ledger says. -/
theorem net_of_booked {s : Store} (h : unbooked id s.writes = 0) :
    netOfEvents (s.accountEvents id) = ledgerNet (s.writes.flatMap Write.ledgerRows) id := by
  have hmoved : netOfEvents (s.accountEvents id) = (s.writes.map (Write.moved id)).sum := moved_sum s.writes
  rw [unbooked_eq] at h
  rw [hmoved]
  omega

end

/-- Entries that cancel key by key cancel. -/
theorem sum_eq_zero_of_groups {κ β : Type} [DecidableEq κ] (f : κ × β → Int) :
    ∀ (n : Nat) (l : List (κ × β)),
    l.length ≤ n → (∀ k, ((l.filter fun e => e.1 = k).map f).sum = 0) → (l.map f).sum = 0
  | _, [], _, _ => rfl
  | 0, _ :: _, hn, _ => absurd hn (Nat.not_succ_le_zero _)
  | n + 1, x :: l, hn, h => by
    have hkey := h x.1
    have hrest : (((x :: l).filter fun e => ¬ e.1 = x.1).map f).sum = 0 := by
      refine sum_eq_zero_of_groups f n _ ?_ fun k => ?_
      · have hle := List.length_filter_le (fun e : κ × β => decide ¬ e.1 = x.1) l
        simp only [List.filter_cons, not_true_eq_false, decide_false, Bool.false_eq_true, if_false]
        simp only [List.length_cons] at hn
        omega
      · rw [List.filter_filter]
        by_cases hk : k = x.1
        · have hnone : ((x :: l).filter fun e => decide (e.1 = k) && decide (¬ e.1 = x.1)) = [] := by
            rw [List.filter_eq_nil_iff]
            intro e _
            simp [hk]
          rw [hnone]
          rfl
        · have hsame : ((x :: l).filter fun e => decide (e.1 = k) && decide (¬ e.1 = x.1)) =
              (x :: l).filter fun e => decide (e.1 = k) := by
            refine List.filter_congr fun e _ => ?_
            by_cases he : e.1 = k <;> simp [he, hk]
          rw [hsame]
          exact h k
    rw [← List.sum_map_filter_add_sum_map_filter_not (fun e => e.1 = x.1) f, hkey, hrest, add_zero]

/-! ## The protocol -/

structure Books where
  /-- What the program has moved on each account and not entered in the ledger. -/
  due : String → Int
  /-- The same, in its open transaction. -/
  staged : String → Int

namespace Books

def clear : Books := ⟨fun _ => 0, fun _ => 0⟩

def add (st : Books) (c : Client) (w : Write) : Books :=
  match c with
  | .prisma => { st with due := fun id => st.due id + unbooked id [w] }
  | .tx => { st with staged := fun id => st.staged id + unbooked id [w] }

/-- No customer's account is ahead of the ledger. -/
def Settled (st : Books) : Prop := ∀ id ∉ SystemLedgerAccount.all, st.due id = 0

end Books

def bookProtocol : Protocol Op.Res Err where
  State := Books
  ok _ _ _ := True
  yields _ _ op r := match op with
    | .transfer .prisma (.create _) | .ledgerEntry .prisma _ | .randomUUID | .generateReference | .dateNow =>
      ∃ x, r = .ok x
    | _ => True
  next _ st op r := match op, r with
    | .account c (.updateMany _ data events), .ok n => if n = 0 then st else st.add c (.account data events)
    | .ledgerEntry c (.createMany data), .ok _ =>
      st.add c (.ledgerEntries (data.map fun d => { d with createdAt := 0 }))
    | .transaction .begin, .ok _ => { st with staged := fun _ => 0 }
    | .transaction .commit, .ok _ => ⟨fun id => st.due id + st.staged id, fun _ => 0⟩
    | .transaction .commit, .error _ => { st with staged := fun _ => 0 }
    | .transaction .rollback, .ok _ => { st with staged := fun _ => 0 }
    | _, _ => st

/-- No transfer insert and no statement on the ledger is rejected outside a transaction. -/
def NothingLost (s : Store) (i : PId) (a : Ans) (op : Op) : Prop :=
  match op with
  | .transfer .prisma (.create _) | .ledgerEntry .prisma _ => (exec i a op s).all (·.1.isOk) = true
  | _ => True

instance (s : Store) (i : PId) (a : Ans) (op : Op) : Decidable ((scheduleOf NothingLost).allow s i a op) := by
  show Decidable (NothingLost s i a op)
  unfold NothingLost
  split <;> infer_instance

/-! ## The invariant -/

structure BooksInv (db0 : Db) (s : Store) (sts : PId → Books) : Prop where
  due : ∀ i id, (sts i).due id = unbooked id (s.writesOf i)
  staged : ∀ i id, (sts i).staged id = unbooked id (s.staged i)
  ledger : s.db.ledgerEntries = db0.ledgerEntries ++ s.writes.flatMap Write.ledgerRows

section
variable {db0 : Db} {s s' : Store} {sts : PId → Books} {i : PId} {a : Ans} {op : Op} {r : Except Err op.Res}

theorem Store.writesOf_write_prisma (j : PId) (w : Write) :
    (s.write i .prisma w).writesOf j = s.writesOf j ++ if i = j then [w] else [] := by
  by_cases h : i = j <;> simp [Store.writesOf, List.filter_append, h]

theorem Store.writesOf_commit (j : PId) :
    (s.commit i).writesOf j = s.writesOf j ++ if i = j then s.staged i else [] := by
  by_cases h : i = j <;> simp [Store.writesOf, Store.commit, List.filter_append, h]

theorem BooksInv.init (db0 : Db) (clock : Nat) : BooksInv db0 (.init db0 clock) fun _ => .clear where
  due _ _ := rfl
  staged _ _ := by simp [Books.clear]
  ledger := by simp [Store.init, Store.writes]

theorem BooksInv.sameRows (h : BooksInv db0 s sts) (hs : s.SameRows s') : BooksInv db0 s' sts where
  due j id := by
    rw [Store.writesOf, hs.wal]
    exact h.due j id
  staged j id := hs.staged ▸ h.staged j id
  ledger := by rw [hs.db, hs.writes, h.ledger]

/-- A write in the program's own books. -/
theorem BooksInv.write (h : BooksInv db0 s sts) {c : Client} {w w' : Write}
    (hw : ∀ id, unbooked id [w'] = unbooked id [w]) :
    BooksInv db0 (s.write i c w) (Function.update sts i ((sts i).add c w')) := by
  refine ⟨fun j id => ?_, fun j id => ?_, ?_⟩
  · cases c with
    | prisma =>
      rw [Store.writesOf_write_prisma, unbooked_append, ← h.due]
      by_cases hj : i = j
      · subst hj
        rw [Function.update_self, if_pos rfl]
        show (sts i).due id + unbooked id [w'] = _
        rw [hw]
      · rw [Function.update_of_ne (Ne.symm hj), if_neg hj, unbooked_nil, add_zero]
    | tx =>
      rw [show (s.write i .tx w).writesOf j = s.writesOf j from rfl, ← h.due]
      by_cases hj : i = j
      · subst hj
        rw [Function.update_self]
        rfl
      · rw [Function.update_of_ne (Ne.symm hj)]
  · cases c with
    | prisma =>
      rw [Store.staged_write_prisma, ← h.staged]
      by_cases hj : i = j
      · subst hj
        rw [Function.update_self]
        rfl
      · rw [Function.update_of_ne (Ne.symm hj)]
    | tx =>
      rw [Store.staged_write_tx]
      by_cases hj : i = j
      · subst hj
        rw [Function.update_self, if_pos rfl, unbooked_append, ← h.staged, ← hw]
        rfl
      · rw [Function.update_of_ne (Ne.symm hj), if_neg hj, ← h.staged]
  · cases c with
    | prisma => simp [Db.apply_ledgerEntries, h.ledger]
    | tx => exact h.ledger

theorem Books.add_other {st : Books} {c : Client} {w : Write} (hw : ∀ id, unbooked id [w] = 0) : st.add c w = st := by
  cases c <;> simp [Books.add, hw]

/-- A write that moves nothing and books nothing. -/
theorem BooksInv.write_other (h : BooksInv db0 s sts) {c : Client} {w : Write} (hw : ∀ id, unbooked id [w] = 0) :
    BooksInv db0 (s.write i c w) sts := by
  have hwrite : BooksInv db0 (s.write i c w) (Function.update sts i ((sts i).add c w)) := h.write fun _ => rfl
  rwa [Books.add_other hw, Function.update_eq_self] at hwrite

/-- A transaction ends with `due` what it has committed. -/
theorem BooksInv.settle (h : BooksInv db0 s sts) {st : Books} (hst : ∀ id, st.staged id = 0)
    (hs' : s' = s.commit i ∧ (∀ id, st.due id = (sts i).due id + (sts i).staged id) ∨
      s' = s.rollback i ∧ ∀ id, st.due id = (sts i).due id) : BooksInv db0 s' (Function.update sts i st) := by
  have hstaged : ∀ j, s'.staged j = if i = j then [] else s.staged j := by
    rcases hs' with ⟨rfl, -⟩ | ⟨rfl, -⟩
    · exact fun j => Store.staged_commit
    · exact fun j => Store.staged_rollback
  refine ⟨fun j id => ?_, fun j id => ?_, ?_⟩
  · rcases hs' with ⟨rfl, hdue⟩ | ⟨rfl, hdue⟩
    · rw [Store.writesOf_commit, unbooked_append, ← h.due]
      by_cases hj : i = j
      · subst hj
        rw [Function.update_self, if_pos rfl, hdue, h.staged]
      · rw [Function.update_of_ne (Ne.symm hj), if_neg hj, unbooked_nil, add_zero]
    · rw [show (s.rollback i).writesOf j = s.writesOf j from rfl, ← h.due]
      by_cases hj : i = j
      · subst hj
        rw [Function.update_self, hdue]
      · rw [Function.update_of_ne (Ne.symm hj)]
  · rw [hstaged]
    by_cases hj : i = j
    · subst hj
      rw [Function.update_self, if_pos rfl, hst, unbooked_nil]
    · rw [Function.update_of_ne (Ne.symm hj), if_neg hj, h.staged]
  · rcases hs' with ⟨rfl, -⟩ | ⟨rfl, -⟩
    · rw [Store.db_commit, Db.applyAll_ledgerEntries, Store.writes_commit, h.ledger]
      simp
    · exact h.ledger

theorem unbooked_undated (data : List LedgerEntryData) (n : Nat) (id : String) :
    unbooked id [.ledgerEntries (data.map fun d => { d with createdAt := 0 })] =
      unbooked id [.ledgerEntries (data.map fun d => { d with createdAt := n })] := by
  simp [unbooked_ledgerEntries, ledgerNet, Function.comp_def, LedgerEntryData.signed]

theorem yields_of_nothingLost (ha : NothingLost s i a op) (hx : exec i a op s = some (r, s')) (sts : PId → Books) :
    bookProtocol.yields i (sts i) op r := by
  have recorded : ((exec i a op s).all (·.1.isOk) = true) → ∃ x, r = .ok x := fun hok => by
    rw [hx] at hok
    rcases r with e | x
    · cases hok
    · exact ⟨x, rfl⟩
  have drawn : op.fallible = false → op.constrained = false → ∃ x, r = .ok x := fun hf hc => by
    rcases r with e | x
    · cases a with
      | fail e => exact absurd (exec_fail hx).1 (by simp [hf])
      | _ => cases isFail_of_error hc hx
    · exact ⟨x, rfl⟩
  cases op with
  | transfer c q =>
    cases c with
    | prisma => cases q <;> first | exact recorded ha | trivial
    | tx => cases q <;> trivial
  | ledgerEntry c q =>
    cases c with
    | prisma => exact recorded ha
    | tx => trivial
  | randomUUID => exact drawn rfl rfl
  | generateReference => exact drawn rfl rfl
  | dateNow => exact drawn rfl rfl
  | account c q => cases q <;> trivial
  | transaction q => cases q <;> trivial
  | _ => trivial

/-- **Every permitted call keeps the books.** -/
theorem BooksInv.step (h : BooksInv db0 s sts) (hx : exec i a op s = some (r, s')) :
    BooksInv db0 s' (Function.update sts i (bookProtocol.next i (sts i) op r)) := by
  have same : s.SameRows s' → BooksInv db0 s' (Function.update sts i (sts i)) := fun hs => by
    rw [Function.update_eq_self]
    exact h.sameRows hs
  have other : ∀ c w, s' = s.write i c w → (∀ id, unbooked id [w] = 0) →
      BooksInv db0 s' (Function.update sts i (sts i)) := fun c w hs hw => by
    rw [Function.update_eq_self, hs]
    exact h.write_other hw
  rcases r with e | x
  · rcases exec_error hx with hs | ⟨rfl, rfl⟩
    · have hsame := same hs
      cases op with
      | account c q => cases q <;> exact hsame
      | transfer c q => cases q <;> exact hsame
      | ledgerEntry c q => cases q <;> exact hsame
      | transaction q =>
        cases q with
        | commit => exact h.settle (fun _ => rfl) (.inr ⟨exec_commit_error hx, fun _ => rfl⟩)
        | _ => exact hsame
      | _ => exact hsame
    · exact h.settle (fun _ => rfl) (.inr ⟨rfl, fun _ => rfl⟩)
  cases op with
  | account c q =>
    cases q with
    | create data =>
      refine other c _ (exec_account_create hx).1 fun id => ?_
      simp [unbooked_account, netOfEvents]
    | updateMany version data events =>
      rcases exec_account_updateMany hx with ⟨rfl, rfl⟩ | ⟨rfl, rfl, -⟩
      · exact same (.refl s')
      · exact h.write fun _ => rfl
    | _ => exact same (exec_read rfl hx)
  | transfer c q =>
    cases q with
    | create data => exact other c _ (exec_transfer_create hx).1 fun id => unbooked_other rfl rfl
    | updateMany version data =>
      rcases exec_transfer_updateMany hx with ⟨-, rfl⟩ | ⟨-, rfl, -⟩
      · exact same (.refl s')
      · exact other c _ rfl fun id => unbooked_other rfl rfl
    | _ => exact same (exec_read rfl hx)
  | ledgerEntry c q =>
    cases q with
    | findFirst accountId => exact same (exec_read rfl hx)
    | createMany data => exact (exec_ledger_createMany hx).1 ▸ h.write (unbooked_undated data s.clock)
  | idempotencyKey q =>
    rcases exec_idempotencyKey_write hx with rfl | ⟨w, hs, hw, -, hl, -⟩
    · exact same (.refl s')
    · exact other .prisma w hs fun id => unbooked_other hw hl
  | transaction q =>
    cases q with
    | begin =>
      obtain ⟨hnone, rfl⟩ := exec_begin hx
      have hnext : bookProtocol.next i (sts i) (.transaction .begin) (.ok x) = sts i := by
        have hzero : (sts i).staged = fun _ => 0 := funext fun id => by rw [h.staged, hnone, unbooked_nil]
        show ({ sts i with staged := fun _ => 0 } : Books) = sts i
        rw [← hzero]
      rw [hnext, Function.update_eq_self]
      exact ⟨h.due, fun j id => by rw [Store.staged_begin hnone, h.staged], h.ledger⟩
    | commit => exact h.settle (fun _ => rfl) (.inl ⟨exec_commit hx, fun _ => rfl⟩)
    | rollback => exact h.settle (fun _ => rfl) (.inr ⟨exec_rollback hx, fun _ => rfl⟩)
  | _ => exact same (exec_read rfl hx)

end

end Kudi
