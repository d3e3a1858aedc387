import KudiCore.Runtime

/-!
# What one call can do

`exec` inverted, once for each kind of call. Everything proved about runs cites these and never
unfolds `exec`.

A call leaves the rows alone (`SameRows`), or is one `Store.write`, or begins or ends a transaction.
-/

namespace Kudi

open Interleave

/-- Only the clock and the marks may differ. -/
structure Store.SameRows (s s' : Store) : Prop where
  db : s'.db = s.db
  txs : s'.txs = s.txs
  wal : s'.wal = s.wal

theorem Store.SameRows.refl (s : Store) : s.SameRows s := ⟨rfl, rfl, rfl⟩

/-- The committed writes, in commit order. -/
def Store.writes (s : Store) : List Write := s.wal.flatMap (·.2)

namespace Store

variable {s s' : Store} {i j : PId} {w : Write}

theorem SameRows.staged (h : s.SameRows s') : s'.staged i = s.staged i := by simp [Store.staged, h.txs]
theorem SameRows.writes (h : s.SameRows s') : s'.writes = s.writes := by simp [Store.writes, h.wal]

@[simp] theorem staged_init (db : Db) (clock : Nat) : (init db clock).staged i = [] := by
  simp [staged, init, Table.find?_empty]

@[simp] theorem writes_init (db : Db) (clock : Nat) : (init db clock).writes = [] := rfl

@[simp] theorem staged_write_prisma : (s.write j .prisma w).staged i = s.staged i := rfl
@[simp] theorem staged_write_tx :
    (s.write j .tx w).staged i = if j = i then s.staged j ++ [w] else s.staged i := by
  by_cases h : j = i <;> simp [write, staged, h]

@[simp] theorem db_write_prisma : (s.write i .prisma w).db = s.db.apply w := rfl
@[simp] theorem db_write_tx : (s.write i .tx w).db = s.db := rfl
@[simp] theorem wal_write_prisma : (s.write i .prisma w).wal = s.wal ++ [(i, [w])] := rfl
@[simp] theorem wal_write_tx : (s.write i .tx w).wal = s.wal := rfl
@[simp] theorem marks_write (c : Client) : (s.write i c w).marks = s.marks := by cases c <;> rfl
@[simp] theorem clock_write (c : Client) : (s.write i c w).clock = s.clock := by cases c <;> rfl

@[simp] theorem writes_write_prisma : (s.write i .prisma w).writes = s.writes ++ [w] := by simp [writes]
@[simp] theorem writes_write_tx : (s.write i .tx w).writes = s.writes := rfl

@[simp] theorem db_commit : (s.commit i).db = s.db.applyAll (s.staged i) := rfl
@[simp] theorem writes_commit : (s.commit i).writes = s.writes ++ s.staged i := by simp [writes, commit]
@[simp] theorem staged_commit : (s.commit i).staged j = if i = j then [] else s.staged j := by
  by_cases h : i = j <;> simp [commit, staged, h]

@[simp] theorem db_rollback : (s.rollback i).db = s.db := rfl
@[simp] theorem writes_rollback : (s.rollback i).writes = s.writes := rfl
@[simp] theorem wal_rollback : (s.rollback i).wal = s.wal := rfl
@[simp] theorem staged_rollback : (s.rollback i).staged j = if i = j then [] else s.staged j := by
  by_cases h : i = j <;> simp [rollback, staged, h]

/-- A transaction starts with nothing staged. -/
theorem staged_begin (h : s.staged i = []) (j : PId) :
    ({ s with txs := s.txs.put (i, []) } : Store).staged j = s.staged j := by
  by_cases hj : i = j
  · subst hj
    rw [h]
    simp [staged]
  · simp [staged, hj]

theorem view_prisma : s.view i .prisma = some s.db := rfl

theorem view_tx {db : Db} (h : s.view i .tx = some db) : db = s.db.applyAll (s.staged i) := by
  cases ht : s.txs.find? i with
  | none => simp [view, ht] at h
  | some t => simpa [view, ht, staged, eq_comm] using h

/-- No other transaction (and no transaction at all, for a statement of its own) has written a row
that a write which goes through writes. -/
def Free (s : Store) (i : PId) (c : Client) (w : Write) : Prop :=
  ∀ j, (c = .prisma ∨ j ≠ i) → ∀ w' ∈ s.staged j, ∀ k ∈ w.keys, k ∉ w'.keys

theorem free_of_not_locked {c : Client} (h : w.keys.any (s.locked i c) = false) : s.Free i c w := by
  intro j hj w' hw' k hk hk'
  cases ht : s.txs.find? j with
  | none => simp [staged, ht] at hw'
  | some t =>
    obtain rfl := Table.key_of_find? ht
    have hl : s.locked i c k = true := by
      simp only [locked, List.any_eq_true, Bool.and_eq_true, Bool.or_eq_true, beq_iff_eq, bne_iff_ne, ne_eq,
        List.contains_iff_mem]
      exact ⟨t, Table.mem_of_find? ht, hj, w', by simpa [staged, ht] using hw', hk'⟩
    simp only [List.any_eq_false] at h
    exact h k hk hl

theorem tryWrite_eq {α : Type} {c : Client} {a : α} {r : Except Err α}
    (h : s.tryWrite i c w a = some (r, s')) : r = .ok a ∧ s' = s.write i c w ∧ s.Free i c w := by
  unfold tryWrite at h
  split at h
  · cases h
  · rename_i hl
    simp only [Option.some.injEq, Prod.mk.injEq] at h
    exact ⟨h.1.symm, h.2.symm, free_of_not_locked (by simpa using hl)⟩

end Store

/-! ## Calls that only read -/

/-- The calls that can change a row. -/
def Op.mutates : Op → Bool
  | .account _ (.create _) | .account _ (.updateMany ..) => true
  | .transfer _ (.create _) | .transfer _ (.updateMany ..) => true
  | .ledgerEntry _ (.createMany _) => true
  | .idempotencyKey (.findUnique _) => false
  | .idempotencyKey _ => true
  | .transaction _ => true
  | _ => false

section
variable {i : PId} {a : Ans} {s s' : Store}

theorem exec_fail {op : Op} {r : Except Err op.Res} {e : Err} (h : exec i (.fail e) op s = some (r, s')) :
    op.fallible = true ∧ r = .error e ∧ s' = s.afterFailure i op := by
  simp only [exec] at h
  split at h
  · rename_i hf
    simp only [Option.some.injEq, Prod.mk.injEq] at h
    exact ⟨hf, h.1.symm, h.2.symm⟩
  · cases h

theorem exec_read {op : Op} {r : Except Err op.Res} (hop : op.mutates = false)
    (h : exec i a op s = some (r, s')) : s.SameRows s' := by
  cases a with
  | fail e =>
    obtain ⟨-, -, rfl⟩ := exec_fail h
    cases op <;> first | exact .refl s | cases hop
  | ok =>
    cases op with
    | account c q =>
      cases q <;> cases hop
      all_goals
        simp only [exec, execAccount] at h
        split at h <;> simp at h
        exact h.2 ▸ .refl s
    | transfer c q =>
      cases q <;> cases hop
      all_goals
        simp only [exec, execTransfer] at h
        split at h <;> simp at h
        exact h.2 ▸ .refl s
    | ledgerEntry c q =>
      cases q <;> cases hop
      simp only [exec, execLedger] at h
      split at h <;> simp at h
      exact h.2 ▸ .refl s
    | idempotencyKey q =>
      cases q <;> cases hop
      simp only [exec, execIdempotency, Option.some.injEq, Prod.mk.injEq] at h
      exact h.2 ▸ .refl s
    | kyc c q =>
      cases q
      all_goals
        simp only [exec, execKyc] at h
        split at h <;> simp at h
        exact h.2 ▸ .refl s
    | transaction q => cases hop
    | publish e =>
      simp only [exec, Option.some.injEq, Prod.mk.injEq] at h
      exact h.2 ▸ .refl s
    | dateNow =>
      simp only [exec, Option.some.injEq, Prod.mk.injEq] at h
      exact h.2 ▸ .refl s
    | mark m =>
      simp only [exec, Option.some.injEq, Prod.mk.injEq] at h
      obtain ⟨-, rfl⟩ := h
      exact ⟨rfl, rfl, rfl⟩
    | payout q => cases h
    | randomUUID => cases h
    | generateReference => cases h
  | pick n =>
    cases op with
    | ledgerEntry c q =>
      cases q <;> cases hop
      simp only [exec, execLedger] at h
      split at h <;> simp at h
      exact h.2 ▸ .refl s
    | _ => cases h
  | uuid u =>
    cases op <;> cases h
    exact .refl s
  | reference u =>
    cases op <;> cases h
    exact .refl s
  | payout u =>
    cases op <;> cases h
    exact .refl s

/-! ## From `exec` to the table -/

theorem exec_account {c : Client} {q : AccountCall} {x : q.Res}
    (h : exec i a (.account c q) s = some (.ok x, s')) : execAccount i c q s = some (.ok x, s') := by
  cases a with
  | ok => exact h
  | fail e => exact nomatch (exec_fail h).2.1
  | pick n => cases h
  | uuid u => cases h
  | reference r => cases h
  | payout r => cases h

theorem exec_transfer {c : Client} {q : TransferCall} {x : q.Res}
    (h : exec i a (.transfer c q) s = some (.ok x, s')) : execTransfer i c q s = some (.ok x, s') := by
  cases a with
  | ok => exact h
  | fail e => exact nomatch (exec_fail h).2.1
  | pick n => cases h
  | uuid u => cases h
  | reference r => cases h
  | payout r => cases h

theorem exec_ledger {c : Client} {q : LedgerCall} {x : q.Res}
    (h : exec i a (.ledgerEntry c q) s = some (.ok x, s')) : ∃ n, execLedger i c n q s = some (.ok x, s') := by
  cases a with
  | ok => exact ⟨0, h⟩
  | pick n => exact ⟨n, h⟩
  | fail e => exact nomatch (exec_fail h).2.1
  | uuid u => cases h
  | reference r => cases h
  | payout r => cases h

theorem exec_payout {request : PayoutRequest} {x : FlutterwaveTransferResponse}
    (h : exec i a (.payout request) s = some (.ok x, s')) : a = .payout x := by
  cases a with
  | payout r =>
    simp only [exec, Option.some.injEq, Prod.mk.injEq, Except.ok.injEq] at h
    rw [h.1]
  | fail e => exact nomatch (exec_fail h).2.1
  | ok => cases h
  | pick n => cases h
  | uuid u => cases h
  | reference r => cases h

theorem exec_randomUUID {u : String} (h : exec i a .randomUUID s = some (.ok u, s')) : a = .uuid u := by
  cases a with
  | uuid u' =>
    cases h
    rfl
  | fail e => exact nomatch (exec_fail h).2.1
  | _ => cases h

theorem exec_idempotencyKey {q : IdempotencyCall} {x : q.Res}
    (h : exec i a (.idempotencyKey q) s = some (.ok x, s')) : execIdempotency i q s = some (.ok x, s') := by
  cases a with
  | ok => exact h
  | fail e => exact nomatch (exec_fail h).2.1
  | pick n => cases h
  | uuid u => cases h
  | reference r => cases h
  | payout r => cases h

theorem exec_transaction {q : TransactionCall} {x : Unit}
    (h : exec i a (.transaction q) s = some (.ok x, s')) : execTransaction i q s = some (.ok x, s') := by
  cases a with
  | ok => exact h
  | fail e => exact nomatch (exec_fail h).2.1
  | pick n => cases h
  | uuid u => cases h
  | reference r => cases h
  | payout r => cases h

/-! ## Accounts, transfers and the ledger -/

theorem exec_account_findUnique {c : Client} {id : String} {row : Option AccountRecord}
    (h : exec i a (.account c (.findUnique id)) s = some (.ok row, s')) :
    ∃ db, s.view i c = some db ∧ row = db.accounts.find? id ∧ s' = s := by
  have h := exec_account h
  simp only [execAccount] at h
  split at h
  · cases h
  · rename_i db hv
    simp only [Option.some.injEq, Prod.mk.injEq, Except.ok.injEq] at h
    exact ⟨db, hv, h.1.symm, h.2.symm⟩

theorem exec_account_create {c : Client} {data : AccountRecord} {x : Unit}
    (h : exec i a (.account c (.create data)) s = some (.ok x, s')) :
    s' = s.write i c (.account data []) ∧ ∃ db, s.view i c = some db ∧ db.accounts.find? data.id = none := by
  have h := exec_account h
  simp only [execAccount] at h
  split at h
  · cases h
  · rename_i db hv
    split at h
    · cases h
    · rename_i hu
      refine ⟨(Store.tryWrite_eq h).2.1, db, hv, ?_⟩
      simp only [List.any_eq_true, Bool.or_eq_true, beq_iff_eq, not_exists, not_and, not_or] at hu
      cases hf : db.accounts.find? data.id with
      | none => rfl
      | some row => exact absurd (Table.key_of_find? hf) (hu row (Table.mem_of_find? hf)).1

theorem exec_account_findMany {c : Client} {userId : String} {rows : List AccountRecord}
    (h : exec i a (.account c (.findMany userId)) s = some (.ok rows, s')) :
    ∃ db, s.view i c = some db ∧ rows = db.accounts.rows.filter fun r => r.userId = userId := by
  have h := exec_account h
  simp only [execAccount] at h
  split at h
  · cases h
  · rename_i db hv
    simp only [Option.some.injEq, Prod.mk.injEq, Except.ok.injEq] at h
    exact ⟨db, hv, h.1.symm⟩

/-- The conditional update: it matches no row, or it replaces a row of the expected version. -/
theorem exec_account_updateMany {c : Client} {version n : Nat} {data : AccountRecord} {events : List AccountEvent}
    (h : exec i a (.account c (.updateMany version data events)) s = some (.ok n, s')) :
    (n = 0 ∧ s' = s) ∨ (n = 1 ∧ s' = s.write i c (.account data events) ∧ s.Free i c (.account data events) ∧
      ∃ db row, s.view i c = some db ∧ db.accounts.find? data.id = some row ∧ row.version = version) := by
  have h := exec_account h
  simp only [execAccount] at h
  split at h
  · cases h
  · rename_i db hv
    split at h
    · cases h
    · split at h
      · simp only [Option.some.injEq, Prod.mk.injEq, Except.ok.injEq] at h
        exact .inl ⟨h.1.symm, h.2.symm⟩
      · rename_i row hf
        split at h
        · rename_i hver
          obtain ⟨hr, hs, hfree⟩ := Store.tryWrite_eq h
          exact .inr ⟨by simpa using hr, hs, hfree, db, row, hv, hf, hver⟩
        · simp only [Option.some.injEq, Prod.mk.injEq, Except.ok.injEq] at h
          exact .inl ⟨h.1.symm, h.2.symm⟩

/-- It matches no row because none has the expected version. -/
theorem exec_account_missed {c : Client} {version : Nat} {data : AccountRecord} {events : List AccountEvent} {db : Db}
    (h : exec i a (.account c (.updateMany version data events)) s = some (.ok 0, s')) (hv : s.view i c = some db)
    {row : AccountRecord} (hrow : db.accounts.find? data.id = some row) : row.version ≠ version := by
  have h := exec_account h
  intro hver
  simp only [execAccount, hv, hrow, if_pos hver] at h
  split at h
  · cases h
  · obtain ⟨hr, -⟩ := Store.tryWrite_eq h
    cases hr

theorem exec_transfer_find {c : Client} {id : String} {row : Option TransferRecord}
    (h : exec i a (.transfer c (.findUnique id)) s = some (.ok row, s')) :
    ∃ db, s.view i c = some db ∧ row = db.transfers.find? id ∧ s' = s := by
  have h := exec_transfer h
  simp only [execTransfer] at h
  split at h
  · cases h
  · rename_i db hv
    simp only [Option.some.injEq, Prod.mk.injEq, Except.ok.injEq] at h
    exact ⟨db, hv, h.1.symm, h.2.symm⟩

theorem exec_transfer_findFirst {c : Client} {ref : String} {row : Option TransferRecord}
    (h : exec i a (.transfer c (.findFirst ref)) s = some (.ok row, s')) :
    ∃ db, s.view i c = some db ∧ row = db.transfers.rows.find? (fun r => r.providerReference = some ref) ∧
      s' = s := by
  have h := exec_transfer h
  simp only [execTransfer] at h
  split at h
  · cases h
  · rename_i db hv
    simp only [Option.some.injEq, Prod.mk.injEq, Except.ok.injEq] at h
    exact ⟨db, hv, h.1.symm, h.2.symm⟩

theorem exec_transfer_create {c : Client} {data : TransferRecord}
    (h : exec i a (.transfer c (.create data)) s = some (.ok (), s')) :
    s' = s.write i c (.transfer data) ∧ s.Free i c (.transfer data) ∧
      ∃ db, s.view i c = some db ∧ db.transfers.find? data.id = none := by
  have h := exec_transfer h
  simp only [execTransfer] at h
  split at h
  · cases h
  · rename_i db hv
    split at h
    · cases h
    · rename_i hu
      obtain ⟨-, hs, hfree⟩ := Store.tryWrite_eq h
      refine ⟨hs, hfree, db, hv, ?_⟩
      simp only [List.any_eq_true, Bool.or_eq_true, beq_iff_eq, not_exists, not_and, not_or] at hu
      cases hf : db.transfers.find? data.id with
      | none => rfl
      | some row => exact absurd (Table.key_of_find? hf) (hu row (Table.mem_of_find? hf)).1

theorem exec_transfer_updateMany {c : Client} {version n : Nat} {data : TransferRecord}
    (h : exec i a (.transfer c (.updateMany version data)) s = some (.ok n, s')) :
    (n = 0 ∧ s' = s) ∨ (n = 1 ∧ s' = s.write i c (.transfer data) ∧ s.Free i c (.transfer data) ∧
      ∃ db row, s.view i c = some db ∧ db.transfers.find? data.id = some row ∧ row.version = version) := by
  have h := exec_transfer h
  simp only [execTransfer] at h
  split at h
  · cases h
  · rename_i db hv
    split at h
    · cases h
    · split at h
      · simp only [Option.some.injEq, Prod.mk.injEq, Except.ok.injEq] at h
        exact .inl ⟨h.1.symm, h.2.symm⟩
      · rename_i row hf
        split at h
        · rename_i hver
          obtain ⟨hr, hs, hfree⟩ := Store.tryWrite_eq h
          exact .inr ⟨by simpa using hr, hs, hfree, db, row, hv, hf, hver⟩
        · simp only [Option.some.injEq, Prod.mk.injEq, Except.ok.injEq] at h
          exact .inl ⟨h.1.symm, h.2.symm⟩

theorem exec_transfer_missed {c : Client} {version : Nat} {data : TransferRecord} {db : Db}
    (h : exec i a (.transfer c (.updateMany version data)) s = some (.ok 0, s')) (hv : s.view i c = some db)
    {row : TransferRecord} (hrow : db.transfers.find? data.id = some row) : row.version ≠ version := by
  have h := exec_transfer h
  intro hver
  simp only [execTransfer, hv, hrow, if_pos hver] at h
  split at h
  · cases h
  · obtain ⟨hr, -⟩ := Store.tryWrite_eq h
    cases hr

theorem exec_ledger_createMany {c : Client} {data : List LedgerEntryData}
    (h : exec i a (.ledgerEntry c (.createMany data)) s = some (.ok (), s')) :
    let w : Write := .ledgerEntries (data.map fun d => { d with createdAt := s.clock })
    s' = s.write i c w ∧ s.Free i c w ∧ ∃ db, s.view i c = some db := by
  obtain ⟨n, h⟩ := exec_ledger h
  simp only [execLedger] at h
  split at h
  · cases h
  · rename_i db hv
    exact ⟨(Store.tryWrite_eq h).2.1, (Store.tryWrite_eq h).2.2, db, hv⟩

/-! ## Transactions -/

theorem exec_begin {x : Unit} (h : exec i a (.transaction .begin) s = some (.ok x, s')) :
    s.staged i = [] ∧ s' = { s with txs := s.txs.put (i, []) } := by
  have h := exec_transaction h
  simp only [execTransaction] at h
  split at h
  · cases h
  · rename_i ht
    simp only [Option.some.injEq, Prod.mk.injEq, true_and] at h
    simp only [Bool.not_eq_true, Option.isSome_eq_false_iff, Option.isNone_iff_eq_none] at ht
    exact ⟨by simp [Store.staged, ht], h.symm⟩

theorem exec_commit {x : Unit} (h : exec i a (.transaction .commit) s = some (.ok x, s')) : s' = s.commit i := by
  have h := exec_transaction h
  simp only [execTransaction] at h
  split at h
  · simp only [Option.some.injEq, Prod.mk.injEq, true_and] at h
    exact h.symm
  · cases h

theorem exec_commit_error {e : Err} (h : exec i a (.transaction .commit) s = some (.error e, s')) :
    s' = s.rollback i := by
  cases a with
  | fail e => exact (exec_fail h).2.2
  | ok =>
    simp only [exec, execTransaction] at h
    split at h <;> cases h
  | pick n => cases h
  | uuid u => cases h
  | reference r => cases h
  | payout r => cases h

theorem exec_rollback {x : Unit} (h : exec i a (.transaction .rollback) s = some (.ok x, s')) :
    s' = s.rollback i := by
  have h := exec_transaction h
  simp only [execTransaction] at h
  split at h
  · simp only [Option.some.injEq, Prod.mk.injEq, true_and] at h
    exact h.symm
  · cases h

theorem exec_rollback_error {e : Err} : exec i a (.transaction .rollback) s ≠ some (.error e, s') := by
  intro h
  cases a with
  | fail e => exact nomatch (exec_fail h).1
  | ok =>
    simp only [exec, execTransaction] at h
    split at h <;> cases h
  | pick n => cases h
  | uuid u => cases h
  | reference r => cases h
  | payout r => cases h

/-- An idempotency-key call writes no account, no transfer and no ledger row. -/
theorem exec_idempotencyKey_write {q : IdempotencyCall} {x : q.Res}
    (h : exec i a (.idempotencyKey q) s = some (.ok x, s')) :
    s' = s ∨ ∃ w : Write, s' = s.write i .prisma w ∧ w.account? = none ∧ w.transfer? = none ∧
      w.ledgerRows = [] ∧ w.keys = [] := by
  have h := exec_idempotencyKey h
  cases q with
  | create claim =>
    simp only [execIdempotency] at h
    split at h
    · simp at h
    · simp only [Option.some.injEq, Prod.mk.injEq, true_and] at h
      exact .inr ⟨_, h.symm, rfl, rfl, rfl, rfl⟩
  | findUnique claim =>
    simp only [execIdempotency, Option.some.injEq, Prod.mk.injEq] at h
    exact .inl h.2.symm
  | touch id status updatedAt =>
    simp only [execIdempotency] at h
    split at h
    · simp only [Option.some.injEq, Prod.mk.injEq] at h
      exact .inl h.2.symm
    · split at h <;> simp only [Option.some.injEq, Prod.mk.injEq] at h
      · exact .inr ⟨_, h.2.symm, rfl, rfl, rfl, rfl⟩
      · exact .inl h.2.symm
  | complete claim resourceId =>
    simp only [execIdempotency] at h
    split at h
    · simp at h
    · simp only [Option.some.injEq, Prod.mk.injEq, true_and] at h
      exact .inr ⟨_, h.symm, rfl, rfl, rfl, rfl⟩
  | deleteMany claim =>
    simp only [execIdempotency, Option.some.injEq, Prod.mk.injEq, true_and] at h
    exact .inr ⟨_, h.symm, rfl, rfl, rfl, rfl⟩

theorem Store.free_of_no_keys {c : Client} {w : Write} (h : w.keys = []) : s.Free i c w := by
  intro j _ w' _ k hk
  simp [h] at hk

/-! ## Rejections -/

theorem not_tryWrite_error {α : Type} {c : Client} {w : Write} {x : α} {e : Err} :
    s.tryWrite i c w x ≠ some (.error e, s') := fun h => nomatch (Store.tryWrite_eq h).1

/-- A rejected call other than `COMMIT` leaves the rows alone. -/
theorem exec_error {op : Op} {e : Err} (h : exec i a op s = some (.error e, s')) :
    s.SameRows s' ∨ op = .transaction .commit ∧ s' = s.rollback i := by
  cases a with
  | fail e =>
    obtain ⟨hf, -, rfl⟩ := exec_fail h
    by_cases hc : op = .transaction .commit
    · exact .inr ⟨hc, hc ▸ rfl⟩
    · left
      unfold Store.afterFailure
      split
      · exact absurd rfl hc
      · exact .refl s
  | ok =>
    left
    cases op with
    | account c q =>
      simp only [exec, execAccount] at h
      grind [not_tryWrite_error, Store.SameRows.refl]
    | transfer c q =>
      simp only [exec, execTransfer] at h
      grind [not_tryWrite_error, Store.SameRows.refl]
    | ledgerEntry c q =>
      simp only [exec, execLedger] at h
      grind [not_tryWrite_error, Store.SameRows.refl]
    | idempotencyKey q =>
      simp only [exec, execIdempotency] at h
      grind [Store.SameRows.refl]
    | transaction q =>
      simp only [exec, execTransaction] at h
      grind
    | kyc c q => exact exec_read rfl h
    | publish e => cases h
    | dateNow => cases h
    | mark m => cases h
    | _ => cases h
  | pick n =>
    left
    cases op with
    | ledgerEntry c q =>
      simp only [exec, execLedger] at h
      grind [not_tryWrite_error, Store.SameRows.refl]
    | _ => cases h
  | uuid u => cases op <;> cases h
  | reference u => cases op <;> cases h
  | payout u => cases op <;> cases h

/-- The calls that a constraint can reject; any other is rejected by the outside world only. -/
def Op.constrained : Op → Bool
  | .account _ (.create _) | .transfer _ (.create _) | .idempotencyKey _ => true
  | _ => false

theorem isFail_of_error {op : Op} {e : Err} (hop : op.constrained = false)
    (h : exec i a op s = some (.error e, s')) : a.isFail = true := by
  cases a with
  | fail e => rfl
  | ok =>
    cases op with
    | account c q =>
      cases q <;> simp only [Op.constrained, reduceCtorEq] at hop <;> simp only [exec, execAccount] at h <;>
        grind [not_tryWrite_error]
    | transfer c q =>
      cases q <;> simp only [Op.constrained, reduceCtorEq] at hop <;> simp only [exec, execTransfer] at h <;>
        grind [not_tryWrite_error]
    | ledgerEntry c q =>
      simp only [exec, execLedger] at h
      grind [not_tryWrite_error]
    | idempotencyKey q => cases hop
    | transaction q =>
      simp only [exec, execTransaction] at h
      grind
    | kyc c q =>
      simp only [exec, execKyc] at h
      grind
    | _ => cases h
  | pick n =>
    cases op with
    | ledgerEntry c q =>
      simp only [exec, execLedger] at h
      grind [not_tryWrite_error]
    | _ => cases h
  | uuid u => cases op <;> cases h
  | reference u => cases op <;> cases h
  | payout u => cases op <;> cases h

/-! ## All calls at once -/

/-- `op` through client `c` writes `w` if it writes anything. -/
def Op.Performs (c : Client) (w : Write) : Op → Prop
  | .account c' (.create data) => c' = c ∧ w = .account data []
  | .account c' (.updateMany _ data events) => c' = c ∧ w = .account data events
  | .transfer c' (.create data) => c' = c ∧ w = .transfer data
  | .transfer c' (.updateMany _ data) => c' = c ∧ w = .transfer data
  | .ledgerEntry c' (.createMany data) =>
    c' = c ∧ ∃ n, w = .ledgerEntries (data.map fun d => { d with createdAt := n })
  | .idempotencyKey _ => c = .prisma ∧ w.account? = none ∧ w.transfer? = none ∧ w.ledgerRows = []
  | _ => False

/-- **A call that is no `$transaction` boundary leaves the rows alone or is one write.** -/
theorem exec_performs {op : Op} {r : Except Err op.Res} (ht : ∀ q, op ≠ .transaction q)
    (h : exec i a op s = some (r, s')) : s.SameRows s' ∨ ∃ c w, s' = s.write i c w ∧ op.Performs c w := by
  by_cases hop : op.mutates = false
  · exact .inl (exec_read hop h)
  rcases r with e | x
  · rcases exec_error h with hs | ⟨rfl, -⟩
    · exact .inl hs
    · exact absurd rfl (ht .commit)
  cases op with
  | account c q =>
    cases q with
    | create data => exact .inr ⟨c, _, (exec_account_create h).1, rfl, rfl⟩
    | updateMany version data events =>
      rcases exec_account_updateMany h with ⟨-, rfl⟩ | ⟨-, rfl, -⟩
      · exact .inl (.refl s')
      · exact .inr ⟨c, _, rfl, rfl, rfl⟩
    | _ => exact absurd rfl hop
  | transfer c q =>
    cases q with
    | create data => exact .inr ⟨c, _, (exec_transfer_create h).1, rfl, rfl⟩
    | updateMany version data =>
      rcases exec_transfer_updateMany h with ⟨-, rfl⟩ | ⟨-, rfl, -⟩
      · exact .inl (.refl s')
      · exact .inr ⟨c, _, rfl, rfl, rfl⟩
    | _ => exact absurd rfl hop
  | ledgerEntry c q =>
    cases q with
    | findFirst id => exact absurd rfl hop
    | createMany data => exact .inr ⟨c, _, (exec_ledger_createMany h).1, rfl, _, rfl⟩
  | idempotencyKey q =>
    rcases exec_idempotencyKey_write h with rfl | ⟨w, rfl, ha, ht, hl, -⟩
    · exact .inl (.refl s')
    · exact .inr ⟨.prisma, w, rfl, rfl, ha, ht, hl⟩
  | transaction q => exact absurd rfl (ht q)
  | _ => exact absurd rfl hop

end

/-! ## Conditions on a step -/

/-- The call commits something. -/
def lands (s : Store) (i : PId) (a : Ans) (op : Op) : Prop :=
  ((exec i a op s).map fun r => r.2.wal.length) = some (s.wal.length + 1)

instance (s : Store) (i : PId) (a : Ans) (op : Op) : Decidable (lands s i a op) := inferInstanceAs (Decidable (_ = _))

theorem lands_of_write {s : Store} {i : PId} {a : Ans} {op : Op} {r : Except Err op.Res} {w : Write}
    (h : exec i a op s = some (r, s.write i .prisma w)) : lands s i a op := by
  simp [lands, h]

/-- The account that the call saves. -/
def Op.savedAccount? : Op → Option String
  | .account _ (.create data) => some data.id
  | .account _ (.updateMany _ data _) => some data.id
  | _ => none

theorem performs_no_account {op : Op} {c : Client} {w : Write} (hop : op.savedAccount? = none) (hp : op.Performs c w) :
    w.account? = none := by
  cases op with
  | account c' q => cases q <;> first | exact absurd hp id | cases hop
  | transfer c' q => cases q <;> first | exact hp.2 ▸ rfl | exact absurd hp id
  | ledgerEntry c' q =>
    cases q with
    | findFirst key => exact absurd hp id
    | createMany data =>
      obtain ⟨-, n, rfl⟩ := hp
      rfl
  | idempotencyKey q => exact hp.2.1
  | _ => exact absurd hp id

/-- A call that saves no account leaves the accounts alone. -/
theorem exec_accounts {s s' : Store} {i : PId} {a : Ans} {op : Op} {r : Except Err op.Res}
    (ht : ∀ q, op ≠ .transaction q) (hop : op.savedAccount? = none) (h : exec i a op s = some (r, s')) :
    s'.db.accounts = s.db.accounts := by
  rcases exec_performs ht h with hs | ⟨c, w, rfl, hp⟩
  · rw [hs.db]
  · cases c with
    | tx => rfl
    | prisma => exact Db.apply_accounts_of_none (performs_no_account hop hp) s.db

/-- The transfer that the call saves. -/
def Op.savedTransfer? : Op → Option String
  | .transfer _ (.create data) => some data.id
  | .transfer _ (.updateMany _ data) => some data.id
  | _ => none

theorem performs_no_transfer {op : Op} {c : Client} {w : Write} (hop : op.savedTransfer? = none)
    (hp : op.Performs c w) :
    w.transfer? = none := by
  cases op with
  | account c' q => cases q <;> first | exact hp.2 ▸ rfl | exact absurd hp id
  | transfer c' q => cases q <;> first | exact absurd hp id | cases hop
  | ledgerEntry c' q =>
    cases q with
    | findFirst key => exact absurd hp id
    | createMany data =>
      obtain ⟨-, n, rfl⟩ := hp
      rfl
  | idempotencyKey q => exact hp.2.2.1
  | _ => exact absurd hp id

/-- A call that saves no transfer leaves the transfers alone. -/
theorem exec_transfers {s s' : Store} {i : PId} {a : Ans} {op : Op} {r : Except Err op.Res}
    (ht : ∀ q, op ≠ .transaction q) (hop : op.savedTransfer? = none) (h : exec i a op s = some (r, s')) :
    s'.db.transfers = s.db.transfers := by
  rcases exec_performs ht h with hs | ⟨c, w, rfl, hp⟩
  · rw [hs.db]
  · cases c with
    | tx => rfl
    | prisma => exact Db.apply_transfers_of_none (performs_no_transfer hop hp) s.db

/-- ... and stages none. -/
theorem exec_staged_transfers {s s' : Store} {i j : PId} {a : Ans} {op : Op} {r : Except Err op.Res}
    (ht : ∀ q, op ≠ .transaction q) (hop : op.savedTransfer? = none) (h : exec i a op s = some (r, s')) {w : Write}
    {data : TransferRecord} (hw : w.transfer? = some data) : w ∈ s'.staged j ↔ w ∈ s.staged j := by
  rcases exec_performs ht h with hs | ⟨c, w', rfl, hp⟩
  · rw [hs.staged]
  · cases c with
    | prisma => rfl
    | tx =>
      have hne : w ≠ w' := by
        rintro rfl
        rw [performs_no_transfer hop hp] at hw
        cases hw
      rw [Store.staged_write_tx]
      split
      · rename_i hj
        rw [List.mem_append, List.mem_singleton, or_iff_left hne, hj]
      · rfl

/-! ## Tiers and their limits -/

theorem Store.view_kyc {s : Store} {i : PId} {c : Client} {db : Db} (h : s.view i c = some db) :
    db.kycProfiles = s.db.kycProfiles ∧ db.kycTierLimits = s.db.kycTierLimits := by
  cases c with
  | prisma =>
    rw [Store.view_prisma, Option.some.injEq] at h
    exact h ▸ ⟨rfl, rfl⟩
  | tx =>
    rw [Store.view_tx h]
    exact Db.applyAll_kyc _ _

/-- No call writes them. -/
theorem exec_kyc_kept {s s' : Store} {i : PId} {a : Ans} {op : Op} {r : Except Err op.Res}
    (h : exec i a op s = some (r, s')) :
    s'.db.kycProfiles = s.db.kycProfiles ∧ s'.db.kycTierLimits = s.db.kycTierLimits := by
  by_cases ht : ∃ q, op = .transaction q
  · obtain ⟨q, rfl⟩ := ht
    rcases r with e | x
    · rcases exec_error h with hs | ⟨-, rfl⟩
      · rw [hs.db]
        exact ⟨rfl, rfl⟩
      · exact ⟨rfl, rfl⟩
    · cases q with
      | begin =>
        obtain ⟨-, rfl⟩ := exec_begin h
        exact ⟨rfl, rfl⟩
      | commit =>
        obtain rfl := exec_commit h
        exact Db.applyAll_kyc _ _
      | rollback =>
        obtain rfl := exec_rollback h
        exact ⟨rfl, rfl⟩
  · rcases exec_performs (fun q e => ht ⟨q, e⟩) h with hs | ⟨c, w, rfl, -⟩
    · rw [hs.db]
      exact ⟨rfl, rfl⟩
    · cases c with
      | tx => exact ⟨rfl, rfl⟩
      | prisma => exact ⟨Db.apply_kycProfiles _ _, Db.apply_kycTierLimits _ _⟩

theorem exec_kyc {s s' : Store} {i : PId} {a : Ans} {c : Client} {q : KycCall} {x : q.Res}
    (h : exec i a (.kyc c q) s = some (.ok x, s')) : execKyc i c q s = some (.ok x, s') := by
  cases a with
  | ok => exact h
  | fail e => exact nomatch (exec_fail h).2.1
  | pick n => cases h
  | uuid u => cases h
  | reference r => cases h
  | payout r => cases h

theorem exec_kyc_findProfile {s s' : Store} {i : PId} {a : Ans} {c : Client} {userId : String}
    {x : Option KycProfileRecord} (h : exec i a (.kyc c (.findProfile userId)) s = some (.ok x, s')) :
    x = s.db.kycProfiles.find? userId := by
  have h := exec_kyc h
  simp only [execKyc] at h
  split at h
  · cases h
  · rename_i db hv
    simp only [Option.some.injEq, Prod.mk.injEq, Except.ok.injEq] at h
    rw [← h.1, (Store.view_kyc hv).1]

theorem exec_kyc_findTierLimit {s s' : Store} {i : PId} {a : Ans} {c : Client} {tier : KycTier}
    {x : Option KycTierLimitRecord} (h : exec i a (.kyc c (.findTierLimit tier)) s = some (.ok x, s')) :
    x = s.db.kycTierLimits.find? tier := by
  have h := exec_kyc h
  simp only [execKyc] at h
  split at h
  · cases h
  · rename_i db hv
    simp only [Option.some.injEq, Prod.mk.injEq, Except.ok.injEq] at h
    rw [← h.1, (Store.view_kyc hv).2]

/-- The account that the call loads. -/
def Op.loadedAccount? : Op → Option String
  | .account _ (.findUnique id) => some id
  | _ => none

end Kudi
