import KudiCore.Execution
import KudiCore.Interleave.Provenance

/-!
# Who has written the rows of a table

| here | there |
| --- | --- |
| `DbTable`        | one of the tables of `schema.prisma` with a `version` column |
| `Store.authored` | every committed row, in the order of the commits, with the program that wrote it |
| `Op.Meets`       | what a `create` or a conditional `updateMany` that goes through has found |

The store, seen as a table that authors share (`Interleave.Scheme`). What the table's scheme asks of a program is to be
shown of the calls that write its rows, on the tables that the program sees at that moment (`DbTable.step`).
-/

namespace Kudi

open Interleave Table

def Store.authored (s : Store) : List (PId × Write) := s.wal.flatMap fun e => e.2.map (Prod.mk e.1)

namespace Store

@[simp] theorem authored_init (db : Db) (clock : Nat) : (init db clock).authored = [] := rfl

@[simp] theorem authored_write_prisma {s : Store} {i : PId} {w : Write} :
    (s.write i .prisma w).authored = s.authored ++ [(i, w)] := by
  simp [authored]

@[simp] theorem authored_write_tx {s : Store} {i : PId} {w : Write} : (s.write i .tx w).authored = s.authored := rfl

@[simp] theorem authored_commit {s : Store} {i : PId} :
    (s.commit i).authored = s.authored ++ (s.staged i).map (Prod.mk i) := by
  simp [authored, commit]

theorem SameRows.authored {s s' : Store} (h : s.SameRows s') : s'.authored = s.authored := by
  unfold Store.authored
  rw [h.wal]

/-- The writes that program `i` has staged, once it has staged another. -/
theorem staged_update_tx {s : Store} {i : PId} {w : Write} :
    (s.write i .tx w).staged = Function.update s.staged i (s.staged i ++ [w]) := by
  funext j
  rw [staged_write_tx]
  by_cases hj : i = j
  · subst hj
    rw [if_pos rfl, Function.update_self]
  · rw [if_neg hj, Function.update_of_ne (Ne.symm hj)]

theorem staged_ended {s s' : Store} {i : PId} (h : ∀ j, s'.staged j = if i = j then [] else s.staged j) :
    s'.staged = Function.update s.staged i [] := by
  funext j
  rw [h]
  by_cases hj : i = j
  · subst hj
    rw [if_pos rfl, Function.update_self]
  · rw [if_neg hj, Function.update_of_ne (Ne.symm hj)]

end Store

/-! ## The writing calls -/

def Op.Meets (db : Db) : Op → Prop
  | .account _ (.create data) => db.accounts.find? data.id = none
  | .account _ (.updateMany version data _) => ∃ row, db.accounts.find? data.id = some row ∧ row.version = version
  | .transfer _ (.create data) => db.transfers.find? data.id = none
  | .transfer _ (.updateMany version data) => ∃ row, db.transfers.find? data.id = some row ∧ row.version = version
  | _ => True

def Op.endsTransaction : Op → Bool
  | .transaction .commit | .transaction .rollback => true
  | _ => false

section
variable {s s' : Store} {i : PId} {a : Ans}

theorem exec_account_create_free {c : Client} {data : AccountRecord} {x : Unit}
    (h : exec i a (.account c (.create data)) s = some (.ok x, s')) : s.Free i c (.account data []) := by
  have h := exec_account h
  simp only [execAccount] at h
  split at h
  · cases h
  · split at h
    · cases h
    · exact (Store.tryWrite_eq h).2.2

/-- Where a call that is no `$transaction` boundary writes, its rows are not locked, and it has met its condition. -/
theorem exec_meets {op : Op} {r : Except Err op.Res} (ht : ∀ q, op ≠ .transaction q)
    (h : exec i a op s = some (r, s')) : s.SameRows s' ∨ ∃ c w db, s.view i c = some db ∧ s.Free i c w ∧
      s' = s.write i c w ∧ op.Performs c w ∧ op.Meets db := by
  by_cases hop : op.mutates = false
  · exact .inl (exec_read hop h)
  rcases r with e | x
  · rcases exec_error h with hs | ⟨rfl, -⟩
    · exact .inl hs
    · exact absurd rfl (ht .commit)
  cases op with
  | account c q =>
    cases q with
    | create data =>
      obtain ⟨hs, db, hv, hnone⟩ := exec_account_create h
      exact .inr ⟨c, _, db, hv, exec_account_create_free h, hs, ⟨rfl, rfl⟩, hnone⟩
    | updateMany version data events =>
      rcases exec_account_updateMany h with ⟨-, rfl⟩ | ⟨-, rfl, hf, db, row, hv, hrow, hver⟩
      · exact .inl (.refl s')
      · exact .inr ⟨c, _, db, hv, hf, rfl, ⟨rfl, rfl⟩, row, hrow, hver⟩
    | _ => exact absurd rfl hop
  | transfer c q =>
    cases q with
    | create data =>
      obtain ⟨hs, hf, db, hv, hnone⟩ := exec_transfer_create h
      exact .inr ⟨c, _, db, hv, hf, hs, ⟨rfl, rfl⟩, hnone⟩
    | updateMany version data =>
      rcases exec_transfer_updateMany h with ⟨-, rfl⟩ | ⟨-, rfl, hf, db, row, hv, hrow, hver⟩
      · exact .inl (.refl s')
      · exact .inr ⟨c, _, db, hv, hf, rfl, ⟨rfl, rfl⟩, row, hrow, hver⟩
    | _ => exact absurd rfl hop
  | ledgerEntry c q =>
    cases q with
    | findFirst id => exact absurd rfl hop
    | createMany data =>
      obtain ⟨hs, hf, db, hv⟩ := exec_ledger_createMany h
      exact .inr ⟨c, _, db, hv, hf, hs, ⟨rfl, _, rfl⟩, trivial⟩
  | idempotencyKey q =>
    rcases exec_idempotencyKey_write h with rfl | ⟨w, rfl, ha, ht, hl, hk⟩
    · exact .inl (.refl s')
    · exact .inr ⟨.prisma, w, s.db, Store.view_prisma, Store.free_of_no_keys hk, rfl, ⟨rfl, ha, ht, hl⟩,
        trivial⟩
  | transaction q => exact absurd rfl (ht q)
  | _ => exact absurd rfl hop

end

/-! ## One table -/

/-- A table of the database, its rows under a scheme. -/
structure DbTable {ρ φ : Type} (S : Scheme String ρ Write φ) where
  table : Db → Table S.key
  applied : ∀ db w, table (db.apply w) = (table db).write S.row w
  lock : String → RowKey
  locked : ∀ {w r}, S.row w = some r → lock (S.key r) ∈ w.keys

namespace DbTable

variable {ρ φ : Type} {S : Scheme String ρ Write φ} (T : DbTable S)

def shared (s : Store) : S.Shared := ⟨T.table s.db, s.staged, s.authored⟩

/-- The programs hold the copies `seen`, and everything that has been committed was permitted. -/
abbrev Holds (db0 : Db) (s : Store) (seen : PId → List ρ) : Prop := Scheme.Authored (T.table db0) (T.shared s) seen

variable {T} {db0 db : Db} {s s' : Store} {seen : PId → List ρ} {i : PId} {c : Client} {w : Write}

theorem applied_all (T : DbTable S) (ws : List Write) : ∀ db : Db,
    T.table (db.applyAll ws) = replay S.row (T.table db) ws := by
  induction ws with
  | nil => exact fun _ => rfl
  | cons w ws ih =>
    intro db
    rw [Db.applyAll_cons, ih, T.applied]
    rfl

theorem shared_sameRows (T : DbTable S) (h : s.SameRows s') : T.shared s' = T.shared s := by
  unfold shared
  rw [h.db, h.authored, funext fun j => h.staged (i := j)]

theorem init (T : DbTable S) (db0 : Db) (clock : Nat) : T.Holds db0 (.init db0 clock) fun _ => [] := by
  have hshared : T.shared (.init db0 clock) = ⟨T.table db0, fun _ => [], []⟩ := by
    unfold shared
    rw [funext fun j => Store.staged_init db0 clock (i := j)]
    rfl
  rw [Holds, hshared]
  exact .init _

/-- Through `$transaction` a program sees what it has staged, otherwise what is committed. -/
theorem view_tx (hv : s.view i .tx = some db) : T.table db = (T.shared s).visible i := by
  rw [Store.view_tx hv, applied_all]
  rfl

theorem view_prisma (hv : s.view i .prisma = some db) : T.table db = T.table s.db := by
  rw [Store.view_prisma, Option.some.injEq] at hv
  rw [hv]

/-- A row that is found is an earlier version of what the program sees, if it is not that. -/
theorem found (h : T.Holds db0 s seen) (hv : s.view i c = some db) {k : String} {r : ρ}
    (hr : (T.table db).find? k = some r) :
    ∃ cur, ((T.shared s).visible i).find? k = some cur ∧ Earlier S.version S.fixed r cur := by
  cases c with
  | prisma =>
    rw [view_prisma hv] at hr
    exact h.visible_of_stored hr
  | tx =>
    rw [view_tx hv] at hr
    exact ⟨r, hr, .refl r⟩

theorem free_apart (T : DbTable S) (hf : s.Free i c w) {j : PId} (hj : c = .prisma ∨ j ≠ i) {k : String}
    (hw : Touches S.row S.key [w] k) : ¬ Touches S.row S.key (s.staged j) k := by
  rintro ⟨w', hw', e'⟩
  obtain ⟨w'', hw'', e⟩ := hw
  obtain rfl := List.mem_singleton.1 hw''
  obtain ⟨r, hr, rfl⟩ := Option.map_eq_some_iff.1 e
  obtain ⟨r', hr', hkey⟩ := Option.map_eq_some_iff.1 e'
  exact hf j hj w' hw' _ (T.locked hr) (hkey ▸ T.locked hr')

/-- What a write finds is what its program sees. -/
theorem find_free (T : DbTable S) (hv : s.view i c = some db) (hf : s.Free i c w) {r : ρ} (hw : S.row w = some r) :
    ((T.shared s).visible i).find? (S.key r) = (T.table db).find? (S.key r) := by
  cases c with
  | prisma =>
    rw [view_prisma hv]
    exact find?_replay (T.free_apart hf (.inl rfl) ⟨w, List.mem_singleton_self w, by rw [hw]; rfl⟩)
  | tx => rw [view_tx hv]

/-- A permitted write. -/
theorem write (h : T.Holds db0 s seen) (hv : s.view i c = some db) (hf : s.Free i c w)
    (hmay : ∀ r, S.row w = some r → S.may i ((T.table db).find? (S.key r)) w) :
    T.Holds db0 (s.write i c w) seen := by
  cases c with
  | prisma =>
    rw [view_prisma hv] at hmay
    have hshared : T.shared (s.write i .prisma w) =
        ⟨(T.shared s).table.write S.row w, (T.shared s).staged, (T.shared s).log ++ [(i, w)]⟩ := by
      unfold shared
      rw [Store.db_write_prisma, T.applied, Store.authored_write_prisma]
      rfl
    rw [Holds, hshared]
    exact h.direct (fun j k hk => T.free_apart hf (.inl rfl) hk) hmay
  | tx =>
    rw [view_tx hv] at hmay
    have hshared : T.shared (s.write i .tx w) =
        ⟨(T.shared s).table, Function.update (T.shared s).staged i ((T.shared s).staged i ++ [w]),
          (T.shared s).log⟩ := by
      unfold shared
      rw [Store.staged_update_tx]
      rfl
    rw [Holds, hshared]
    exact h.stage (fun j hj k hk => T.free_apart hf (.inr hj) hk) hmay

/-- **A call whose writes are permitted, by the tables that its program sees.** -/
theorem step {op : Op} {r : Except Err op.Res} {rows : List ρ} (h : T.Holds db0 s seen)
    (hx : exec i a op s = some (r, s'))
    (hmay : ∀ c w db, s.view i c = some db → s.Free i c w → op.Performs c w → op.Meets db →
      ∀ r, S.row w = some r → S.may i ((T.table db).find? (S.key r)) w)
    (hrows : ∀ r ∈ rows, r ∈ seen i ∨
      ∃ cur, ((T.shared s').visible i).find? (S.key r) = some cur ∧ Earlier S.version S.fixed r cur)
    (hended : op.endsTransaction = true → rows = []) : T.Holds db0 s' (Function.update seen i rows) := by
  have same : s.SameRows s' → T.Holds db0 s' (Function.update seen i rows) := fun hs => by
    have h' : T.Holds db0 s' seen := by
      rw [Holds, T.shared_sameRows hs]
      exact h
    exact h'.see hrows
  have ended (hempty : rows = []) : T.Holds db0 (s.rollback i) (Function.update seen i rows) := by
    have hstaged : (s.rollback i).staged = Function.update s.staged i [] :=
      Store.staged_ended fun _ => Store.staged_rollback
    have hshared : T.shared (s.rollback i) =
        ⟨(T.shared s).table, Function.update (T.shared s).staged i [], (T.shared s).log⟩ := by
      unfold shared
      rw [hstaged]
      rfl
    rw [Holds, hshared]
    exact h.rollback hempty
  by_cases ht : ∃ q, op = .transaction q
  · obtain ⟨q, rfl⟩ := ht
    rcases r with e | x
    · rcases exec_error hx with hs | ⟨hop, rfl⟩
      · exact same hs
      · cases hop
        exact ended (hended rfl)
    · cases q with
      | begin =>
        obtain ⟨hnone, rfl⟩ := exec_begin hx
        have hshared : T.shared { s with txs := s.txs.put (i, []) } = T.shared s := by
          unfold shared
          rw [funext (Store.staged_begin hnone)]
          rfl
        have h' : T.Holds db0 { s with txs := s.txs.put (i, []) } seen := by
          rw [Holds, hshared]
          exact h
        exact h'.see hrows
      | commit =>
        obtain rfl := exec_commit hx
        have hstaged : (s.commit i).staged = Function.update s.staged i [] :=
          Store.staged_ended fun _ => Store.staged_commit
        have hshared : T.shared (s.commit i) = ⟨(T.shared s).visible i, Function.update (T.shared s).staged i [],
            (T.shared s).log ++ ((T.shared s).staged i).map (Prod.mk i)⟩ := by
          unfold shared
          rw [Store.db_commit, applied_all, Store.authored_commit, hstaged]
          rfl
        rw [Holds, hshared]
        exact h.commit (hended rfl)
      | rollback =>
        obtain rfl := exec_rollback hx
        exact ended (hended rfl)
  · rcases exec_meets (fun q e => ht ⟨q, e⟩) hx with hs | ⟨c, w, db, hv, hf, rfl, hp, hmeets⟩
    · exact same hs
    · exact Scheme.Authored.see (write h hv hf (hmay c w db hv hf hp hmeets)) hrows

end DbTable

end Kudi
