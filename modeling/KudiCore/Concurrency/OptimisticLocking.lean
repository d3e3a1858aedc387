import KudiCore.Execution
import KudiCore.Interleave.History

/-!
# Optimistic locking of accounts

A program holds copies of account rows it has read. It may write a row only as one mutation of a
copy, on condition that the stored version is still the copy's (`accountProtocol`). The invariant
(`AccountsInv`) says of every copy, at every moment: the stored row is the copy or has a higher
version. So a conditional update that matches replaces exactly the row that was read, and the
committed writes to each account form one chain of mutations from the initial row on.

`Copies.pending` is what the program itself knows to have staged; a ledger row gets its timestamp
from the store only, hence `undated`.
-/

namespace Kudi

open Interleave Table

/-! ## Account rows in a log of writes -/

def accountRow (w : Write) : Option AccountRecord := w.account?.map (·.1)

def MutatesBy (old : AccountRecord) (w : Write) : Prop :=
  ∀ data events, w.account? = some (data, events) → Mutates old data events

/-- Every account write of the log mutates the row it finds. -/
abbrev AccountsChained (t : Table AccountRecord.id) (ws : List Write) : Prop := Chained accountRow MutatesBy t ws

theorem accountsChained_append {t : Table AccountRecord.id} {ws ws' : List Write} :
    AccountsChained t (ws ++ ws') ↔ AccountsChained t ws ∧ AccountsChained (replay accountRow t ws) ws' :=
  chained_append

abbrev TouchesAccount (ws : List Write) (id : String) : Prop := Touches accountRow AccountRecord.id ws id

theorem applyAll_accounts (db : Db) (ws : List Write) :
    (db.applyAll ws).accounts = replay accountRow db.accounts ws := by
  induction ws generalizing db with
  | nil => rfl
  | cons w ws ih =>
    rw [Db.applyAll_cons, ih, replay]
    congr 1
    cases w <;> rfl

theorem accountRow_account (data : AccountRecord) (events : List AccountEvent) :
    accountRow (.account data events) = some data := rfl

theorem chained_of_none {t : Table AccountRecord.id} {w : Write} (h : w.account? = none) : AccountsChained t [w] :=
  ⟨fun r hr => by simp [accountRow, h] at hr, trivial⟩

theorem chained_account {t : Table AccountRecord.id} {old data : AccountRecord} {events : List AccountEvent}
    (hf : t.find? data.id = some old) (hm : Mutates old data events) :
    AccountsChained t [.account data events] := by
  refine ⟨fun r hr => ?_, trivial⟩
  rw [accountRow_account, Option.some.injEq] at hr
  subst hr
  refine ⟨old, hf, fun d e h => ?_⟩
  simp only [Write.account?, Option.some.injEq, Prod.mk.injEq] at h
  obtain ⟨rfl, rfl⟩ := h
  exact hm

theorem mutatesBy_version (old : AccountRecord) (w : Write) (r : AccountRecord) (hr : accountRow w = some r)
    (h : MutatesBy old w) : old.version < r.version := by
  obtain ⟨⟨data, events⟩, ha, rfl⟩ := Option.map_eq_some_iff.1 hr
  rw [(h data events ha).version]
  exact Nat.lt_succ_self _

theorem key_of_touches {ws : List Write} {id : String} (h : TouchesAccount ws id) :
    ∃ w ∈ ws, RowKey.account id ∈ w.keys := by
  obtain ⟨w, hw, e⟩ := h
  obtain ⟨r, hr, rfl⟩ := Option.map_eq_some_iff.1 e
  obtain ⟨⟨data, events⟩, ha, rfl⟩ := Option.map_eq_some_iff.1 hr
  refine ⟨w, hw, ?_⟩
  cases w <;> simp only [Write.account?, reduceCtorEq, Option.some.injEq, Prod.mk.injEq] at ha
  obtain ⟨rfl, rfl⟩ := ha
  simp [Write.keys]

theorem Store.Free.not_touches {s : Store} {i j : PId} {c : Client} {w : Write} (h : s.Free i c w)
    (hj : c = .prisma ∨ j ≠ i) {id : String} (hw : TouchesAccount [w] id) : ¬ TouchesAccount (s.staged j) id := by
  intro ht
  obtain ⟨w', hw', hk'⟩ := key_of_touches ht
  obtain ⟨w'', hw'', hk⟩ := key_of_touches hw
  obtain rfl := List.mem_singleton.1 hw''
  exact h j hj w' hw' _ hk hk'

/-! ## The protocol -/

structure Copies where
  seen : List AccountRecord
  pending : List Write
  committed : Bool

def Copies.init : Copies := ⟨[], [], false⟩

namespace Copies

def see (st : Copies) (r : AccountRecord) : Copies := { st with seen := r :: st.seen }
def stage (st : Copies) (w : Write) : Copies := { st with pending := st.pending ++ [w] }
/-- The transaction is over. -/
def settled (committed : Bool) : Copies := ⟨[], [], committed⟩

end Copies

def Write.undated : Write → Write
  | .ledgerEntries rows => .ledgerEntries (rows.map fun e => { e with createdAt := 0 })
  | w => w

/-- What a pool's programs are further held to: whether they may write accounts and the ledger
outside a transaction, and what they may commit. -/
structure Policy where
  direct : Prop
  commit : PId → Copies → Prop

def Policy.free : Policy := ⟨True, fun _ _ => True⟩

/-- Written through `c`: staged, if inside the transaction. -/
def Copies.wrote (st : Copies) (c : Client) (w : Write) : Copies :=
  match c with
  | .prisma => st
  | .tx => st.stage w.undated

def accountProtocol (pol : Policy) : Protocol Op.Res Err where
  State := Copies
  ok i st op := match op with
    | .account _ (.create _) => False
    | .account c (.updateMany version data events) =>
      (c = .prisma → pol.direct) ∧ ∃ r ∈ st.seen, version = r.version ∧ Mutates r data events
    | .ledgerEntry .prisma (.createMany _) => pol.direct
    | .transaction .commit => pol.commit i st
    | _ => True
  yields _ st op r := match op, r with
    | .account .tx (.findUnique id), .ok (some row) =>
      row.id = id ∧ ∀ old ∈ st.seen, old.id = id → old.version ≤ row.version
    | .account .prisma (.findUnique id), .ok (some row) => row.id = id
    | .account _ (.updateMany version data _), .ok n =>
      n ≠ 0 → ∀ old ∈ st.seen, old.id = data.id → old.version ≤ version
    | .transaction .rollback, .error _ => False
    | _, _ => True
  next _ st op r := match op, r with
    | .account _ (.findUnique _), .ok (some row) => st.see row
    | .account c (.updateMany _ data events), .ok n =>
      if n = 0 then st else (st.wrote c (.account data events)).see data
    | .ledgerEntry c (.createMany data), .ok () =>
      st.wrote c (.ledgerEntries (data.map fun d => { d with createdAt := 0 }))
    | .transfer c (.create data), .ok () => st.wrote c (.transfer data)
    | .transfer c (.updateMany _ data), .ok n => if n = 0 then st else st.wrote c (.transfer data)
    | .transaction .commit, .ok () => .settled true
    | .transaction .commit, .error _ => .settled st.committed
    | .transaction .rollback, .ok () => .settled st.committed
    | _, _ => st

/-- The rows that a program has itself loaded, `rows` so far. -/
def loaded (rows : List AccountRecord) (op : Op) (r : Except Err op.Res) : List AccountRecord :=
  match op, r with
  | .account _ (.findUnique _), .ok (some row) => row :: rows
  | .transaction .commit, _ => []
  | .transaction .rollback, _ => []
  | _, _ => rows

/-- They are among its copies. -/
theorem loaded_copies {pol : Policy} {i : PId} {st : Copies} {rows : List AccountRecord}
    (h : ∀ x ∈ rows, x ∈ st.seen) (op : Op) (r : Except Err op.Res) :
    ∀ x ∈ loaded rows op r, x ∈ ((accountProtocol pol).next i st op r).seen := by
  have wrote_seen : ∀ c w, (st.wrote c w).seen = st.seen := fun c w => by cases c <;> rfl
  cases op with
  | account c q =>
    cases q with
    | findUnique id =>
      rcases r with e | (_ | row)
      · exact h
      · exact h
      · intro x hx
        rcases List.mem_cons.1 hx with rfl | hx
        · exact List.mem_cons_self
        · exact List.mem_cons_of_mem _ (h x hx)
    | updateMany version data events =>
      rcases r with e | (_ | n)
      · exact h
      · exact h
      · intro x hx
        refine List.mem_cons_of_mem _ ?_
        rw [wrote_seen]
        exact h x hx
    | _ => rcases r with e | x <;> exact h
  | transfer c q =>
    cases q with
    | create data =>
      rcases r with e | x
      · exact h
      · exact (wrote_seen c _).symm ▸ h
    | updateMany version data =>
      rcases r with e | (_ | n)
      · exact h
      · exact h
      · exact (wrote_seen c (.transfer data)).symm ▸ h
    | _ => rcases r with e | x <;> exact h
  | ledgerEntry c q =>
    cases q with
    | findFirst id => rcases r with e | x <;> exact h
    | createMany data =>
      rcases r with e | x
      · exact h
      · exact (wrote_seen c _).symm ▸ h
  | transaction q =>
    cases q with
    | begin => rcases r with e | x <;> exact h
    | commit => exact fun _ hx => absurd hx List.not_mem_nil
    | rollback => exact fun _ hx => absurd hx List.not_mem_nil
  | _ => rcases r with e | x <;> exact h

/-! ## The invariant -/

/-- `r` is `cur`, or older. -/
structure Older (r cur : AccountRecord) : Prop where
  le : r.version ≤ cur.version
  eq : r.version = cur.version → r = cur

theorem Older.trans {a b c : AccountRecord} (h : Older a b) (h' : Older b c) : Older a c :=
  ⟨h.le.trans h'.le, fun e => by
    have hab : a = b := h.eq (le_antisymm h.le (e ▸ h'.le))
    exact hab ▸ h'.eq (hab ▸ e)⟩

/-- The accounts as program `i` sees them inside its transaction. -/
def Store.accountsOf (s : Store) (i : PId) : Table AccountRecord.id :=
  replay accountRow s.db.accounts (s.staged i)

structure AccountsInv (db0 : Db) (s : Store) (sts : PId → Copies) : Prop where
  replayed : s.db.accounts = replay accountRow db0.accounts s.writes
  history : AccountsChained db0.accounts s.writes
  staged : ∀ i, AccountsChained s.db.accounts (s.staged i)
  locks : ∀ i j, i ≠ j → ∀ id, TouchesAccount (s.staged i) id → ¬ TouchesAccount (s.staged j) id
  seen : ∀ i, ∀ r ∈ (sts i).seen, ∃ cur, (s.accountsOf i).find? r.id = some cur ∧ Older r cur
  pending : ∀ i, (s.staged i).map Write.undated = (sts i).pending

namespace AccountsInv

variable {db0 : Db} {s s' : Store} {sts : PId → Copies} {i : PId} {w : Write}

theorem init (db0 : Db) (clock : Nat) : AccountsInv db0 (.init db0 clock) fun _ => .init where
  replayed := rfl
  history := trivial
  staged i := by simp [Chained]
  locks i j _ id h := by simp [Touches] at h
  seen i r h := by simp [Copies.init] at h
  pending i := by simp [Copies.init]

theorem of_eq (h : AccountsInv db0 s sts) (hdb : s'.db.accounts = s.db.accounts) (hw : s'.writes = s.writes)
    (hst : ∀ j, s'.staged j = s.staged j) : AccountsInv db0 s' sts where
  replayed := by rw [hdb, hw, h.replayed]
  history := hw ▸ h.history
  staged j := by rw [hdb, hst]; exact h.staged j
  locks j k hjk := by rw [hst, hst]; exact h.locks j k hjk
  seen j r hr := by
    rw [Store.accountsOf, hdb, hst]
    exact h.seen j r hr
  pending j := by rw [hst]; exact h.pending j

theorem sameRows (h : AccountsInv db0 s sts) (hs : s.SameRows s') : AccountsInv db0 s' sts :=
  h.of_eq (congrArg Db.accounts hs.db) hs.writes fun _ => hs.staged

/-- The program takes a copy of a row it sees. -/
theorem see (h : AccountsInv db0 s sts) {st : Copies} {r : AccountRecord} (hst : st = (sts i).see r)
    (hr : ∃ cur, (s.accountsOf i).find? r.id = some cur ∧ Older r cur) :
    AccountsInv db0 s (Function.update sts i st) where
  replayed := h.replayed
  history := h.history
  staged := h.staged
  locks := h.locks
  seen j x hx := by
    by_cases hj : j = i
    · subst hj hst
      rw [Function.update_self] at hx
      rcases List.mem_cons.1 hx with rfl | hx
      · exact hr
      · exact h.seen j x hx
    · rw [Function.update_of_ne hj] at hx
      exact h.seen j x hx
  pending j := by
    by_cases hj : j = i
    · subst hj hst
      simpa [Copies.see] using h.pending j
    · simpa [hj] using h.pending j

/-- Copies stay older than what their holder sees when writes to other rows than it has staged
become visible. -/
theorem seen_published {t t' : Table AccountRecord.id} {ws : List Write} (hws : AccountsChained t ws)
    (ht' : t' = replay accountRow t ws) {mine : List Write}
    (hd : ∀ id, TouchesAccount ws id → ¬ TouchesAccount mine id) {r : AccountRecord}
    (h : ∃ cur, (replay accountRow t mine).find? r.id = some cur ∧ Older r cur) :
    ∃ cur, (replay accountRow t' mine).find? r.id = some cur ∧ Older r cur := by
  obtain ⟨cur, hcur, hold⟩ := h
  subst ht'
  by_cases hm : TouchesAccount mine r.id
  · refine ⟨cur, ?_, hold⟩
    rw [← hcur]
    exact find?_replay_congr (find?_replay fun hw => hd _ hw hm)
  · rw [find?_replay hm] at hcur ⊢
    obtain ⟨cur', hcur', hle, heq⟩ := hws.version mutatesBy_version hcur
    exact ⟨cur', hcur', hold.trans ⟨hle, heq⟩⟩

/-- A statement of its own. -/
theorem direct (h : AccountsInv db0 s sts) (hf : s.Free i .prisma w) (hc : AccountsChained s.db.accounts [w]) :
    AccountsInv db0 (s.write i .prisma w) sts := by
  have hdb : (s.write i .prisma w).db.accounts = replay accountRow s.db.accounts [w] :=
    applyAll_accounts s.db [w]
  have hd : ∀ j id, TouchesAccount [w] id → ¬ TouchesAccount (s.staged j) id :=
    fun j id ht => hf.not_touches (.inl rfl) ht
  refine ⟨?_, ?_, fun j => ?_, h.locks, fun j r hr => ?_, h.pending⟩
  · rw [hdb, Store.writes_write_prisma, replay_append, h.replayed]
  · rw [Store.writes_write_prisma, accountsChained_append, ← h.replayed]
    exact ⟨h.history, hc⟩
  · rw [hdb]
    exact (h.staged j).congr fun id hid => (find?_replay fun ht => hd j id ht hid).symm
  · rw [Store.accountsOf, hdb]
    exact seen_published hc rfl (hd j) (h.seen j r hr)

/-- A statement inside a transaction. -/
theorem stage (h : AccountsInv db0 s sts) {st : Copies} (hst : st = (sts i).stage w.undated)
    (hf : s.Free i .tx w) (hc : AccountsChained (s.accountsOf i) [w]) :
    AccountsInv db0 (s.write i .tx w) (Function.update sts i st) where
  replayed := h.replayed
  history := h.history
  staged j := by
    by_cases hj : i = j
    · subst hj
      simpa [chained_append, Store.accountsOf] using ⟨h.staged i, hc⟩
    · simpa [hj] using h.staged j
  locks j k hjk id hj hk := by
    simp only [Store.staged_write_tx] at hj hk
    by_cases hji : i = j
    · subst hji
      rw [if_neg hjk] at hk
      rcases touches_append.1 (by simpa using hj) with hj | hj
      · exact h.locks i k hjk id hj hk
      · exact hf.not_touches (.inr (Ne.symm hjk)) hj hk
    · rw [if_neg hji] at hj
      by_cases hki : i = k
      · subst hki
        rcases touches_append.1 (by simpa using hk) with hk | hk
        · exact h.locks j i hjk id hj hk
        · exact hf.not_touches (.inr hjk) hk hj
      · rw [if_neg hki] at hk
        exact h.locks j k hjk id hj hk
  seen j r hr := by
    by_cases hj : j = i
    · subst hj hst
      rw [Function.update_self] at hr
      obtain ⟨cur, hcur, hold⟩ := h.seen j r hr
      obtain ⟨cur', hcur', hle, heq⟩ := hc.version mutatesBy_version hcur
      refine ⟨cur', ?_, hold.trans ⟨hle, heq⟩⟩
      simpa [Store.accountsOf, replay_append] using hcur'
    · rw [Function.update_of_ne hj] at hr
      simpa [Store.accountsOf, Ne.symm hj] using h.seen j r hr
  pending j := by
    by_cases hj : j = i
    · subst hj hst
      simp [Copies.stage, h.pending]
    · simpa [hj, Ne.symm hj] using h.pending j

theorem commit (h : AccountsInv db0 s sts) (b : Bool) :
    AccountsInv db0 (s.commit i) (Function.update sts i (.settled b)) := by
  have hdb : (s.commit i).db.accounts = replay accountRow s.db.accounts (s.staged i) :=
    applyAll_accounts s.db (s.staged i)
  refine ⟨?_, ?_, fun j => ?_, fun j k hjk id hj hk => ?_, fun j r hr => ?_, fun j => ?_⟩
  · rw [hdb, Store.writes_commit, replay_append, h.replayed]
  · rw [Store.writes_commit, accountsChained_append, ← h.replayed]
    exact ⟨h.history, h.staged i⟩
  · by_cases hj : i = j
    · simp [hj, Chained]
    · rw [hdb]
      simp only [Store.staged_commit, if_neg hj]
      exact (h.staged j).congr fun id hid => (find?_replay fun ht => h.locks i j hj id ht hid).symm
  · by_cases hj' : i = j
    · simp [hj', Touches] at hj
    · by_cases hk' : i = k
      · simp [hk', Touches] at hk
      · simp only [Store.staged_commit, if_neg hj', if_neg hk'] at hj hk
        exact h.locks j k hjk id hj hk
  · by_cases hj : j = i
    · subst hj
      rw [Function.update_self] at hr
      exact absurd hr List.not_mem_nil
    · rw [Function.update_of_ne hj] at hr
      rw [Store.accountsOf, hdb, Store.staged_commit, if_neg (Ne.symm hj)]
      exact seen_published (h.staged i) rfl (fun id => h.locks i j (Ne.symm hj) id) (h.seen j r hr)
  · by_cases hj : j = i
    · subst hj
      simp [Copies.settled]
    · simpa [hj, Ne.symm hj] using h.pending j

theorem rollback (h : AccountsInv db0 s sts) (b : Bool) :
    AccountsInv db0 (s.rollback i) (Function.update sts i (.settled b)) := by
  refine ⟨h.replayed, h.history, fun j => ?_, fun j k hjk id hj hk => ?_, fun j r hr => ?_, fun j => ?_⟩
  · by_cases hj : i = j
    · simp [hj, Chained]
    · simpa [hj] using h.staged j
  · by_cases hj' : i = j
    · simp [hj', Touches] at hj
    · by_cases hk' : i = k
      · simp [hk', Touches] at hk
      · simp only [Store.staged_rollback, if_neg hj', if_neg hk'] at hj hk
        exact h.locks j k hjk id hj hk
  · by_cases hj : j = i
    · subst hj
      rw [Function.update_self] at hr
      exact absurd hr List.not_mem_nil
    · rw [Function.update_of_ne hj] at hr
      simpa [Store.accountsOf, Ne.symm hj] using h.seen j r hr
  · by_cases hj : j = i
    · subst hj
      simp [Copies.settled]
    · simpa [hj, Ne.symm hj] using h.pending j

theorem view_row {c : Client} {db : Db} (hv : s.view i c = some db) :
    (c = .tx → db.accounts = s.accountsOf i) ∧ (c = .prisma → db.accounts = s.db.accounts) := by
  cases c with
  | prisma =>
    rw [Store.view_prisma, Option.some.injEq] at hv
    exact ⟨nofun, fun _ => hv ▸ rfl⟩
  | tx =>
    rw [Store.view_tx hv]
    exact ⟨fun _ => applyAll_accounts _ _, nofun⟩

/-- A write which goes through finds the row its program sees. -/
theorem row_of_free {c : Client} {db : Db} (hv : s.view i c = some db)
    (hf : s.Free i c w) {id : String} (hw : TouchesAccount [w] id) :
    db.accounts.find? id = (s.accountsOf i).find? id := by
  cases c with
  | prisma =>
    rw [(view_row hv).2 rfl, Store.accountsOf, find?_replay (hf.not_touches (.inl rfl) hw)]
  | tx => rw [(view_row hv).1 rfl]

theorem wrote (h : AccountsInv db0 s sts) {c : Client} {db : Db} (hv : s.view i c = some db) (hf : s.Free i c w)
    (hc : AccountsChained db.accounts [w]) :
    AccountsInv db0 (s.write i c w) (Function.update sts i ((sts i).wrote c w)) := by
  cases c with
  | prisma =>
    rw [(view_row hv).2 rfl] at hc
    simpa [Copies.wrote] using h.direct hf hc
  | tx =>
    rw [(view_row hv).1 rfl] at hc
    exact h.stage rfl hf hc

/-- A write that is about no account. -/
theorem wrote_other (h : AccountsInv db0 s sts) {c : Client} {db : Db} (hv : s.view i c = some db)
    (hf : s.Free i c w) (hw : w.account? = none) :
    AccountsInv db0 (s.write i c w) (Function.update sts i ((sts i).wrote c w)) :=
  h.wrote hv hf (chained_of_none hw)

theorem begin (h : AccountsInv db0 s sts) (hs : s.staged i = []) :
    AccountsInv db0 { s with txs := s.txs.put (i, []) } sts :=
  h.of_eq rfl rfl fun j => by
    by_cases hj : i = j
    · subst hj
      simpa [Store.staged] using hs.symm
    · simp [Store.staged, hj]

end AccountsInv

/-! ## One step -/

theorem undated_ledgerEntries (data : List LedgerEntryData) (n : Nat) :
    (Write.ledgerEntries (data.map fun d => { d with createdAt := n })).undated =
      .ledgerEntries (data.map fun d => { d with createdAt := 0 }) := by
  simp [Write.undated, Function.comp_def]

theorem Copies.wrote_ledgerEntries (st : Copies) (c : Client) (data : List LedgerEntryData) (n : Nat) :
    st.wrote c (.ledgerEntries (data.map fun d => { d with createdAt := n })) =
      st.wrote c (.ledgerEntries (data.map fun d => { d with createdAt := 0 })) := by
  cases c
  · rfl
  · simp only [Copies.wrote, undated_ledgerEntries]

section
variable {pol : Policy} {db0 : Db} {s s' : Store} {sts : PId → Copies} {i : PId} {a : Ans}

/-- A conditional update that matches replaces the copy it was made from. -/
theorem AccountsInv.stored_is_copy (h : AccountsInv db0 s sts) {c : Client} {n : Nat} {r data : AccountRecord}
    {events : List AccountEvent} (hr : r ∈ (sts i).seen) (hid : data.id = r.id)
    (hx : exec i a (.account c (.updateMany r.version data events)) s = some (.ok n, s')) (hn : n ≠ 0) :
    s' = s.write i c (.account data events) ∧ ∃ db, s.view i c = some db ∧
      db.accounts.find? data.id = some r := by
  rcases exec_account_updateMany hx with ⟨h0, -⟩ | ⟨-, rfl, hf, db, row, hv, hrow, hver⟩
  · exact absurd h0 hn
  · have ht : TouchesAccount [.account data events] data.id := ⟨_, List.mem_singleton_self _, rfl⟩
    obtain ⟨cur, hcur, ho⟩ := h.seen i r hr
    rw [← hid, ← AccountsInv.row_of_free hv hf ht, hrow, Option.some.injEq] at hcur
    subst hcur
    obtain rfl := ho.eq hver.symm
    exact ⟨rfl, db, hv, hrow⟩

/-- The conditional update of an account. Where it matches, the row it replaces is the copy. -/
theorem AccountsInv.updateMany (h : AccountsInv db0 s sts) {c : Client} {version n : Nat} {data : AccountRecord}
    {events : List AccountEvent} (hok : ∃ r ∈ (sts i).seen, version = r.version ∧ Mutates r data events)
    (hx : exec i a (.account c (.updateMany version data events)) s = some (.ok n, s')) :
    (n ≠ 0 → ∀ old ∈ (sts i).seen, old.id = data.id → old.version ≤ version) ∧
      AccountsInv db0 s' (Function.update sts i
        (if n = 0 then sts i else ((sts i).wrote c (.account data events)).see data)) := by
  rcases exec_account_updateMany hx with ⟨rfl, rfl⟩ | ⟨rfl, rfl, hf, db, row, hv, hrow, hver⟩
  · exact ⟨fun h0 => absurd rfl h0, by simpa using h⟩
  · have ht : TouchesAccount [.account data events] data.id := ⟨_, List.mem_singleton_self _, rfl⟩
    have hrow' := (AccountsInv.row_of_free hv hf ht).symm.trans hrow
    have hcur : ∀ old ∈ (sts i).seen, old.id = data.id → Older old row := by
      intro old hold hid
      obtain ⟨cur, hcur, ho⟩ := h.seen i old hold
      rw [hid, hrow', Option.some.injEq] at hcur
      exact hcur ▸ ho
    obtain ⟨r, hr, hvr, hm⟩ := hok
    obtain rfl : r = row := (hcur r hr hm.id.symm).eq (hvr.symm.trans hver.symm)
    refine ⟨fun _ old hold hid => hver ▸ (hcur old hold hid).le, ?_⟩
    have h1 := h.wrote hv hf (chained_account hrow hm)
    have h2 : ((s.write i c (.account data events)).accountsOf i).find? data.id = some data := by
      cases c with
      | prisma =>
        rw [Store.accountsOf, Store.staged_write_prisma, find?_replay (hf.not_touches (.inl rfl) ht)]
        exact Table.find?_put_self _ _
      | tx => simp [Store.accountsOf, replay_append, replay, Table.write, accountRow, Write.account?]
    simpa using h1.see (i := i) (r := data) (by simp) ⟨data, h2, le_rfl, fun _ => rfl⟩

/-- **A permitted call of any program keeps the invariant.** -/
theorem AccountsInv.step (h : AccountsInv db0 s sts) {op : Op} {r : Except Err op.Res}
    (hok : (accountProtocol pol).ok i (sts i) op) (hx : exec i a op s = some (r, s')) :
    (accountProtocol pol).yields i (sts i) op r ∧
      AccountsInv db0 s' (Function.update sts i ((accountProtocol pol).next i (sts i) op r)) := by
  have same : s.SameRows s' → AccountsInv db0 s' (Function.update sts i (sts i)) := fun hs => by
    simpa using h.sameRows hs
  cases r with
  | error e =>
    by_cases hc : op = .transaction .commit
    · subst hc
      exact ⟨trivial, exec_commit_error hx ▸ h.rollback _⟩
    · have hs : s.SameRows s' := (exec_error hx).resolve_right fun hr => hc hr.1
      cases op with
      | account c q => cases c <;> cases q <;> exact ⟨trivial, same hs⟩
      | transfer c q => cases q <;> exact ⟨trivial, same hs⟩
      | ledgerEntry c q => cases q <;> exact ⟨trivial, same hs⟩
      | transaction q =>
        cases q
        · exact ⟨trivial, same hs⟩
        · exact absurd rfl hc
        · exact absurd hx exec_rollback_error
      | _ => exact ⟨trivial, same hs⟩
  | ok x =>
    cases op with
    | account c q =>
      cases q with
      | findUnique id =>
        obtain ⟨db, hv, rfl, rfl⟩ := exec_account_findUnique hx
        cases hrow : db.accounts.find? id with
        | none => cases c <;> exact ⟨trivial, same (.refl _)⟩
        | some row =>
          have hid : row.id = id := Table.key_of_find? hrow
          cases c with
          | prisma =>
            rw [(AccountsInv.view_row hv).2 rfl] at hrow
            obtain ⟨cur, hcur, hle, heq⟩ := (h.staged i).version mutatesBy_version hrow
            exact ⟨hid, h.see rfl ⟨cur, hid.symm ▸ hcur, hle, heq⟩⟩
          | tx =>
            rw [(AccountsInv.view_row hv).1 rfl] at hrow
            refine ⟨⟨hid, fun old hold ho => ?_⟩, h.see rfl ⟨row, hid.symm ▸ hrow, le_rfl, fun _ => rfl⟩⟩
            obtain ⟨cur, hcur, hle⟩ := h.seen i old hold
            rw [ho, hrow, Option.some.injEq] at hcur
            exact hcur ▸ hle.le
      | findMany userId => cases c <;> exact ⟨trivial, same (exec_read rfl hx)⟩
      | count accountNumber => cases c <;> exact ⟨trivial, same (exec_read rfl hx)⟩
      | create data => exact absurd hok id
      | updateMany version data events =>
        have hu := h.updateMany hok.2 hx
        cases c <;> exact hu
    | transfer c q =>
      cases q with
      | create data =>
        obtain ⟨rfl, hf, db, hv, -⟩ := exec_transfer_create hx
        exact ⟨trivial, h.wrote_other hv hf rfl⟩
      | updateMany version data =>
        rcases exec_transfer_updateMany hx with ⟨rfl, rfl⟩ | ⟨rfl, rfl, hf, db, row, hv, -, -⟩
        · exact ⟨trivial, same (.refl _)⟩
        · exact ⟨trivial, h.wrote_other hv hf rfl⟩
      | findUnique id => exact ⟨trivial, same (exec_read rfl hx)⟩
      | findFirst ref => exact ⟨trivial, same (exec_read rfl hx)⟩
      | sumSince id statuses since => exact ⟨trivial, same (exec_read rfl hx)⟩
    | ledgerEntry c q =>
      cases q with
      | findFirst id => exact ⟨trivial, same (exec_read rfl hx)⟩
      | createMany data =>
        obtain ⟨rfl, hf, db, hv⟩ := exec_ledger_createMany hx
        have hw := h.wrote_other hv hf rfl
        rw [Copies.wrote_ledgerEntries] at hw
        exact ⟨trivial, hw⟩
    | idempotencyKey q =>
      refine ⟨trivial, ?_⟩
      rcases exec_idempotencyKey_write hx with rfl | ⟨w, rfl, ha, -, -, hk⟩
      · exact same (.refl _)
      · simpa [Copies.wrote, accountProtocol] using
          h.wrote_other (c := .prisma) (Store.view_prisma) (Store.free_of_no_keys hk) ha
    | kyc c q => exact ⟨trivial, same (exec_read rfl hx)⟩
    | transaction q =>
      cases q with
      | begin =>
        obtain ⟨hs, rfl⟩ := exec_begin hx
        refine ⟨trivial, ?_⟩
        simpa [accountProtocol] using h.begin hs
      | commit => exact ⟨trivial, exec_commit hx ▸ h.commit _⟩
      | rollback => exact ⟨trivial, exec_rollback hx ▸ h.rollback _⟩
    | payout q => exact ⟨trivial, same (exec_read rfl hx)⟩
    | publish q => exact ⟨trivial, same (exec_read rfl hx)⟩
    | randomUUID => exact ⟨trivial, same (exec_read rfl hx)⟩
    | generateReference => exact ⟨trivial, same (exec_read rfl hx)⟩
    | dateNow => exact ⟨trivial, same (exec_read rfl hx)⟩
    | mark m => exact ⟨trivial, same (exec_read rfl hx)⟩

/-- The rows that the programs have themselves loaded are copies. -/
structure LoadsInv (db0 : Db) (s : Store) (sts : PId → Copies) (rows : PId → List AccountRecord) : Prop where
  accounts : AccountsInv db0 s sts
  copies : ∀ i, ∀ r ∈ rows i, r ∈ (sts i).seen

theorem LoadsInv.init (db0 : Db) (clock : Nat) : LoadsInv db0 (.init db0 clock) (fun _ => .init) fun _ => [] where
  accounts := .init db0 clock
  copies _ _ h := absurd h List.not_mem_nil

theorem LoadsInv.tick {rows : PId → List AccountRecord} (h : LoadsInv db0 s sts rows) (ms : Nat) :
    LoadsInv db0 (tick ms s) sts rows where
  accounts := h.accounts.of_eq rfl rfl fun _ => rfl
  copies := h.copies

theorem copies_update {rows : PId → List AccountRecord} {st : Copies} {l : List AccountRecord}
    (h : ∀ i, ∀ r ∈ rows i, r ∈ (sts i).seen) (hl : ∀ r ∈ l, r ∈ st.seen) (j : PId) :
    ∀ r ∈ Function.update rows i l j, r ∈ (Function.update sts i st j).seen := by
  by_cases hj : j = i
  · subst hj
    rwa [Function.update_self, Function.update_self]
  · rw [Function.update_of_ne hj, Function.update_of_ne hj]
    exact h j

theorem LoadsInv.step {rows : PId → List AccountRecord} (h : LoadsInv db0 s sts rows) {op : Op}
    {r : Except Err op.Res} (hok : (accountProtocol pol).ok i (sts i) op) (hx : exec i a op s = some (r, s')) :
    (accountProtocol pol).yields i (sts i) op r ∧
      LoadsInv db0 s' (Function.update sts i ((accountProtocol pol).next i (sts i) op r))
        (Function.update rows i (loaded (rows i) op r)) := by
  obtain ⟨hy, ha⟩ := h.accounts.step hok hx
  exact ⟨hy, ha, copies_update h.copies (loaded_copies (h.copies i) op r)⟩

theorem AccountsInv.preserves (pol : Policy) (db0 : Db) :
    (accountProtocol pol).Preserves anySchedule (AccountsInv db0) where
  call h hok _ hx := h.step hok hx
  act _ h := h.of_eq rfl rfl fun _ => rfl

end

end Kudi
