import KudiCore.Concurrency.OptimisticLocking

/-!
# What holds of every account row

A condition on single rows that every saved row meets holds of every row there is, committed or staged by an open
transaction, and of every row that a program reads.
-/

namespace Kudi

open Interleave

/-- `data` is the row that the call saves. -/
def Op.SavesAccount (data : AccountRecord) : Op → Prop
  | .account _ (.create data') => data' = data
  | .account _ (.updateMany _ data' _) => data' = data
  | _ => False

theorem savesAccount_of_performs {op : Op} {c : Client} {w : Write} {data : AccountRecord} (hp : op.Performs c w)
    (hw : accountRow w = some data) : op.SavesAccount data := by
  cases op with
  | account c' q =>
    cases q with
    | create data' =>
      obtain ⟨-, rfl⟩ := hp
      exact Option.some.inj hw
    | updateMany version data' events =>
      obtain ⟨-, rfl⟩ := hp
      exact Option.some.inj hw
    | _ => exact absurd hp not_false
  | transfer c' q =>
    have hsaved : (Op.transfer c' q).savedAccount? = none := rfl
    have hnone := performs_no_account hsaved hp
    rw [accountRow, hnone] at hw
    cases hw
  | ledgerEntry c' q =>
    have hsaved : (Op.ledgerEntry c' q).savedAccount? = none := rfl
    have hnone := performs_no_account hsaved hp
    rw [accountRow, hnone] at hw
    cases hw
  | idempotencyKey q =>
    have hsaved : (Op.idempotencyKey q).savedAccount? = none := rfl
    have hnone := performs_no_account hsaved hp
    rw [accountRow, hnone] at hw
    cases hw
  | _ => exact absurd hp not_false

theorem not_savesAccount {op : Op} (h : op.savedAccount? = none) (data : AccountRecord) : ¬ op.SavesAccount data := by
  intro hs
  cases op with
  | account c q =>
    cases q with
    | create data' => cases h
    | updateMany version data' events => cases h
    | _ => exact hs
  | _ => exact hs

/-- The stored rows, and those that the open transactions have written. -/
structure EachAccount (p : AccountRecord → Prop) (s : Store) : Prop where
  rows : ∀ row ∈ s.db.accounts.rows, p row
  staged : ∀ i, ∀ w ∈ s.staged i, ∀ row, accountRow w = some row → p row

namespace EachAccount

variable {p : AccountRecord → Prop} {s s' : Store} {i : PId} {a : Ans} {op : Op} {r : Except Err op.Res}

theorem init {db0 : Db} (clock : Nat) (h : ∀ row ∈ db0.accounts.rows, p row) : EachAccount p (.init db0 clock) where
  rows := h
  staged i w hw := by
    rw [Store.staged_init] at hw
    cases hw

theorem tick (h : EachAccount p s) (ms : Nat) : EachAccount p (tick ms s) := ⟨h.rows, h.staged⟩

theorem sameRows (h : EachAccount p s) (hs : s.SameRows s') : EachAccount p s' where
  rows := by
    rw [hs.db]
    exact h.rows
  staged i := by
    rw [hs.staged]
    exact h.staged i

theorem view (h : EachAccount p s) {c : Client} {db : Db} (hv : s.view i c = some db) {id : String}
    {row : AccountRecord} (hrow : db.accounts.find? id = some row) : p row := by
  cases c with
  | prisma =>
    rw [(AccountsInv.view_row hv).2 rfl] at hrow
    exact h.rows row (Table.mem_of_find? hrow)
  | tx =>
    rw [(AccountsInv.view_row hv).1 rfl] at hrow
    rcases Table.find?_of_replay hrow with hrow | ⟨w, hw, hr⟩
    · exact h.rows row (Table.mem_of_find? hrow)
    · exact h.staged i w hw row hr

theorem write (h : EachAccount p s) {c : Client} {w : Write} (hw : ∀ row, accountRow w = some row → p row) :
    EachAccount p (s.write i c w) := by
  cases c with
  | prisma =>
    refine ⟨fun row hrow => ?_, h.staged⟩
    have haccounts : (s.write i .prisma w).db.accounts = Table.replay accountRow s.db.accounts [w] :=
      applyAll_accounts s.db [w]
    rw [haccounts] at hrow
    rcases Table.find?_of_replay (Table.find?_of_mem hrow) with hrow | ⟨w', hw', hr⟩
    · exact h.rows row (Table.mem_of_find? hrow)
    · obtain rfl := List.mem_singleton.1 hw'
      exact hw row hr
  | tx =>
    refine ⟨h.rows, fun j w' hw' => ?_⟩
    rw [Store.staged_write_tx] at hw'
    split at hw'
    · rename_i hj
      rcases List.mem_append.1 hw' with hw' | hw'
      · exact h.staged i w' hw'
      · obtain rfl := List.mem_singleton.1 hw'
        exact hw
    · exact h.staged j w' hw'

theorem commit (h : EachAccount p s) : EachAccount p (s.commit i) where
  rows row hrow := by
    rw [Store.db_commit, applyAll_accounts] at hrow
    rcases Table.find?_of_replay (Table.find?_of_mem hrow) with hrow | ⟨w, hw, hr⟩
    · exact h.rows row (Table.mem_of_find? hrow)
    · exact h.staged i w hw row hr
  staged j w hw := by
    rw [Store.staged_commit] at hw
    split at hw
    · cases hw
    · exact h.staged j w hw

theorem rollback (h : EachAccount p s) : EachAccount p (s.rollback i) where
  rows := h.rows
  staged j w hw := by
    rw [Store.staged_rollback] at hw
    split at hw
    · cases hw
    · exact h.staged j w hw

/-- **Every call keeps it that saves only rows that meet the condition.** -/
theorem step (h : EachAccount p s) (hsave : ∀ data, op.SavesAccount data → p data)
    (hx : exec i a op s = some (r, s')) :
    EachAccount p s' := by
  rcases r with e | x
  · rcases exec_error hx with hs | ⟨-, rfl⟩
    · exact h.sameRows hs
    · exact h.rollback
  · by_cases ht : ∃ q, op = .transaction q
    · obtain ⟨q, rfl⟩ := ht
      cases q with
      | begin =>
        obtain ⟨hnone, rfl⟩ := exec_begin hx
        refine ⟨h.rows, fun j => ?_⟩
        rw [Store.staged_begin hnone]
        exact h.staged j
      | commit => exact exec_commit hx ▸ h.commit
      | rollback => exact exec_rollback hx ▸ h.rollback
    · rcases exec_performs (fun q e => ht ⟨q, e⟩) hx with hs | ⟨c, w, rfl, hp⟩
      · exact h.sameRows hs
      · exact h.write fun row hr => hsave row (savesAccount_of_performs hp hr)

/-- What a program reads meets the condition. -/
theorem read (h : EachAccount p s) {c : Client} {id : String} {row : AccountRecord}
    (hx : exec i a (.account c (.findUnique id)) s = some (.ok (some row), s')) : row.id = id ∧ p row := by
  obtain ⟨db, hv, hrow, -⟩ := exec_account_findUnique hx
  exact ⟨Table.key_of_find? hrow.symm, h.view hv hrow.symm⟩

end EachAccount

end Kudi
