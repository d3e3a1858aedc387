import KudiCore.Interleave.History
import KudiCore.Interleave.Pool

/-!
# Who has written what

Authors write the rows of one table, each write by itself or together with others in a transaction that stages them and
publishes them at once. A row is replaced on condition that it still has the version of the copy that its author holds,
and rows that an open transaction has staged are locked. `may i old w` says what author `i` may make of the row `old`,
or of there being none. That every author sticks to this on the copies it holds is enough: every write of the log was
permitted on the row that it has in fact replaced (`Authored.history`).
-/

namespace Interleave

open Table

/-! ## Logs that insert and replace -/

namespace Table

variable {κ ρ ω : Type} [DecidableEq κ] {key : ρ → κ} {row : ω → Option ρ}
  {Rel Rel' : Option ρ → ω → Prop}

/-- Every write of the log is related to the row that it finds, if there is one. -/
def Derived (row : ω → Option ρ) (Rel : Option ρ → ω → Prop) : Table key → List ω → Prop
  | _, [] => True
  | t, w :: ws => (∀ r, row w = some r → Rel (t.find? (key r)) w) ∧ Derived row Rel (t.write row w) ws

theorem derived_append {t : Table key} {ws ws' : List ω} :
    Derived row Rel t (ws ++ ws') ↔ Derived row Rel t ws ∧ Derived row Rel (replay row t ws) ws' := by
  induction ws generalizing t with
  | nil => simp [Derived, replay]
  | cons w ws ih => simp only [List.cons_append, Derived, replay, ih, and_assoc]

theorem Derived.congr {ws : List ω} : ∀ {t t' : Table key}, Derived row Rel t ws →
    (∀ k, Touches row key ws k → t.find? k = t'.find? k) → Derived row Rel t' ws := by
  induction ws with
  | nil => exact fun _ _ => trivial
  | cons w ws ih =>
    intro t t' h he
    refine ⟨fun r hr => ?_, ih h.2 fun k hk => ?_⟩
    · rw [← he (key r) ⟨w, List.mem_cons_self, by simp [hr]⟩]
      exact h.1 r hr
    · by_cases hw : (row w).map key = some k
      · obtain ⟨r, hr, rfl⟩ := Option.map_eq_some_iff.1 hw
        rw [find?_write_self hr, find?_write_self hr]
      · obtain ⟨w', hm, e⟩ := hk
        rw [find?_write hw, find?_write hw, he k ⟨w', List.mem_cons_of_mem _ hm, e⟩]

theorem replay_map {ω' : Type} (f : ω → ω') (row' : ω' → Option ρ) (ws : List ω) : ∀ t : Table key,
    replay row' t (ws.map f) = replay (row' ∘ f) t ws := by
  induction ws with
  | nil => exact fun _ => rfl
  | cons w ws ih => exact fun t => ih _

theorem derived_map {ω' : Type} (f : ω → ω') {row' : ω' → Option ρ} {Rel' : Option ρ → ω' → Prop}
    {ws : List ω} :
    ∀ {t : Table key}, Derived row' Rel' t (ws.map f) ↔
      Derived (row' ∘ f) (fun old w => Rel' old (f w)) t ws := by
  induction ws with
  | nil => exact fun {_} => Iff.rfl
  | cons w ws ih => exact fun {t} => and_congr Iff.rfl ih

/-- What every replacement keeps holds of a row at the end, if the row was there at the start. -/
theorem Derived.invariant {M : ρ → Prop} (hM : ∀ r w r', M r → row w = some r' → Rel (some r) w →
      M r') {k : κ}
    {ws : List ω} : ∀ {t : Table key} {old : ρ}, Derived row Rel t ws → t.find? k = some old → M old →
      ∃ r, (replay row t ws).find? k = some r ∧ M r := by
  induction ws with
  | nil => exact fun _ hf h0 => ⟨_, hf, h0⟩
  | cons w ws ih =>
    intro t old h hf h0
    by_cases hw : (row w).map key = some k
    · obtain ⟨r, hr, rfl⟩ := Option.map_eq_some_iff.1 hw
      have hrel := h.1 r hr
      rw [hf] at hrel
      exact ih h.2 (find?_write_self hr) (hM old w r h0 hr hrel)
    · exact ih h.2 ((find?_write hw).trans hf) h0

/-- What the inserted rows have and every replacement keeps, all rows have at the end. -/
theorem Derived.all {M : ρ → Prop} (hnew : ∀ w r, row w = some r → Rel none w → M r)
    (hM : ∀ r w r', M r → row w = some r' → key r = key r' → Rel (some r) w → M r') {ws : List ω} :
    ∀ {t : Table key}, Derived row Rel t ws → (∀ r ∈ t.rows, M r) →
      ∀ r ∈ (replay row t ws).rows, M r := by
  induction ws with
  | nil => exact fun _ h0 => h0
  | cons w ws ih =>
    intro t h h0
    refine ih h.2 fun r hr => ?_
    cases hw : row w with
    | none =>
      rw [Table.write, hw] at hr
      exact h0 r hr
    | some r' =>
      rw [Table.write, hw] at hr
      rcases (mem_put t r' r).1 hr with rfl | ⟨hr, -⟩
      · have hrel := h.1 r hw
        cases hold : t.find? (key r) with
        | none => exact hnew w r hw (hold ▸ hrel)
        | some old => exact hM old w r (h0 old (mem_of_find? hold)) hw (key_of_find? hold) (hold ▸ hrel)
      · exact h0 r hr

end Table

/-! ## Versions and permissions -/

/-- `r` is `cur`, or an earlier version of it; what `fixed` reads never changes. -/
structure Earlier {ρ φ : Type} (version : ρ → Nat) (fixed : ρ → φ) (r cur : ρ) : Prop where
  le : version r ≤ version cur
  eq : version r = version cur → r = cur
  fixed : fixed cur = fixed r

theorem Earlier.refl {ρ φ : Type} {version : ρ → Nat} {fixed : ρ → φ} (r : ρ) : Earlier version fixed r r :=
  ⟨le_rfl, fun _ => rfl, rfl⟩

theorem Earlier.trans {ρ φ : Type} {version : ρ → Nat} {fixed : ρ → φ} {a b c : ρ}
    (h : Earlier version fixed a b)
    (h' : Earlier version fixed b c) : Earlier version fixed a c :=
  ⟨h.le.trans h'.le, fun e => by
    have hab : a = b := h.eq (le_antisymm h.le (e ▸ h'.le))
    exact hab ▸ h'.eq (hab ▸ e), h'.fixed.trans h.fixed⟩

/-- A table whose rows are versioned, and who may write what. -/
structure Scheme (κ ρ ω φ : Type) where
  key : ρ → κ
  row : ω → Option ρ
  version : ρ → Nat
  fixed : ρ → φ
  /-- What an author may write over a row, or where there is none. -/
  may : PId → Option ρ → ω → Prop
  advances : ∀ {i old w r}, row w = some r → may i (some old) w → version old < version r ∧ fixed r = fixed old

namespace Scheme

variable {κ ρ ω φ : Type} [DecidableEq κ] (S : Scheme κ ρ ω φ)

/-- The committed rows, what the open transactions have staged, and every committed write with its author. -/
structure Shared where
  table : Table S.key
  staged : PId → List ω
  log : List (PId × ω)

variable {S}

/-- The table as author `i` sees it inside its transaction. -/
def Shared.visible (s : S.Shared) (i : PId) : Table S.key := replay S.row s.table (s.staged i)

/-- `seen i` are the copies that author `i` holds. -/
structure Authored (t0 : Table S.key) (s : S.Shared) (seen : PId → List ρ) : Prop where
  replayed : s.table = replay (fun e : PId × ω => S.row e.2) t0 s.log
  history : Derived (fun e : PId × ω => S.row e.2) (fun old e => S.may e.1 old e.2) t0 s.log
  staged : ∀ i, Derived S.row (S.may i) s.table (s.staged i)
  locks : ∀ i j, i ≠ j → ∀ k, Touches S.row S.key (s.staged i) k → ¬ Touches S.row S.key (s.staged j) k
  seen : ∀ i, ∀ r ∈ seen i, ∃ cur, (s.visible i).find? (S.key r) = some cur ∧ Earlier S.version S.fixed r cur

namespace Authored

variable {t0 : Table S.key} {s : S.Shared} {seen : PId → List ρ} {i : PId} {w : ω}

theorem init (t0 : Table S.key) : Authored t0 ⟨t0, fun _ => [], []⟩ fun _ => [] where
  replayed := rfl
  history := trivial
  staged _ := trivial
  locks _ _ _ _ h := absurd h fun ⟨_, hw, _⟩ => absurd hw List.not_mem_nil
  seen _ _ h := absurd h List.not_mem_nil

/-- A permitted log takes every row on to a later version. -/
theorem later {t : Table S.key} {ws : List ω} (h : Derived S.row (S.may i) t ws) {k : κ} {old : ρ}
    (hold : t.find? k = some old) : ∃ cur, (replay S.row t ws).find? k = some cur ∧
      Earlier S.version S.fixed old cur :=
  h.invariant (M := fun r => Earlier S.version S.fixed old r)
    (fun r w r' hr hw hmay => by
      obtain ⟨hlt, hfixed⟩ := S.advances hw hmay
      have hle := hr.le
      exact ⟨by omega, fun e => absurd e (by omega), hfixed.trans hr.fixed⟩) hold (.refl old)

/-- A copy of the version that there is, is the row. -/
theorem copy_eq (h : Authored t0 s seen) {r cur : ρ} (hr : r ∈ seen i)
    (hcur : (s.visible i).find? (S.key r) = some cur) (hv : S.version cur = S.version r) : cur = r := by
  obtain ⟨cur', hcur', hearlier⟩ := h.seen i r hr
  rw [hcur, Option.some.injEq] at hcur'
  subst hcur'
  exact (hearlier.eq hv.symm).symm

/-- The author takes a copy of a row that it sees, or of an earlier version. -/
theorem see (h : Authored t0 s seen) {rows : List ρ} (hrows : ∀ r ∈ rows, r ∈ seen i ∨ ∃ cur,
    (s.visible i).find? (S.key r) = some cur ∧ Earlier S.version S.fixed r cur) :
    Authored t0 s (Function.update seen i rows) where
  replayed := h.replayed
  history := h.history
  staged := h.staged
  locks := h.locks
  seen := (Function.forall_update_iff seen (p := fun j rows => ∀ r ∈ rows, ∃ cur,
    (s.visible j).find? (S.key r) = some cur ∧ Earlier S.version S.fixed r cur)).2
      ⟨fun r hr => (hrows r hr).elim (h.seen i r) fun h => h, fun j _ => h.seen j⟩

/-- A committed row is an earlier version of what an author sees, if it is not that. -/
theorem visible_of_stored (h : Authored t0 s seen) {k : κ} {r : ρ} (hr : s.table.find? k = some r) :
    ∃ cur, (s.visible i).find? k = some cur ∧ Earlier S.version S.fixed r cur := later (h.staged i) hr

/-- Copies stay what they are when writes to other rows than their holder has staged are published. -/
theorem seen_published {t : Table S.key} {ws mine : List ω} {author : PId} (hws : Derived S.row (S.may author) t ws)
    (hd : ∀ k, Touches S.row S.key ws k → ¬ Touches S.row S.key mine k) {r : ρ}
    (h : ∃ cur, (replay S.row t mine).find? (S.key r) = some cur ∧ Earlier S.version S.fixed r cur) :
    ∃ cur, (replay S.row (replay S.row t ws) mine).find? (S.key r) = some cur ∧
      Earlier S.version S.fixed r cur := by
  obtain ⟨cur, hcur, hearlier⟩ := h
  by_cases hm : Touches S.row S.key mine (S.key r)
  · refine ⟨cur, ?_, hearlier⟩
    rw [← hcur]
    exact find?_replay_congr (find?_replay fun hw => hd _ hw hm)
  · rw [find?_replay hm] at hcur ⊢
    obtain ⟨cur', hcur', hlater⟩ := later hws hcur
    exact ⟨cur', hcur', hearlier.trans hlater⟩

/-- A write by itself, to a row that nobody has staged. -/
theorem direct (h : Authored t0 s seen)
    (hfree : ∀ j k, Touches S.row S.key [w] k → ¬ Touches S.row S.key (s.staged j) k)
    (hmay : ∀ r, S.row w = some r → S.may i (s.table.find? (S.key r)) w) :
    Authored t0 ⟨s.table.write S.row w, s.staged, s.log ++ [(i, w)]⟩ seen := by
  have hone : Derived S.row (S.may i) s.table [w] := ⟨hmay, trivial⟩
  refine ⟨?_, ?_, fun j => ?_, h.locks, fun j r hr => ?_⟩
  · rw [replay_append, ← h.replayed]
    rfl
  · rw [derived_append, ← h.replayed]
    exact ⟨h.history, hmay, trivial⟩
  · exact (h.staged j).congr fun k hk => (find?_replay fun ht => hfree j k ht hk).symm
  · exact seen_published hone (hfree j) (h.seen j r hr)

/-- A write inside the transaction. -/
theorem stage (h : Authored t0 s seen)
    (hfree : ∀ j, j ≠ i → ∀ k, Touches S.row S.key [w] k → ¬ Touches S.row S.key (s.staged j) k)
    (hmay : ∀ r, S.row w = some r → S.may i ((s.visible i).find? (S.key r)) w) :
    Authored t0 ⟨s.table, Function.update s.staged i (s.staged i ++ [w]), s.log⟩ seen := by
  have hone : Derived S.row (S.may i) (s.visible i) [w] := ⟨hmay, trivial⟩
  refine ⟨h.replayed, h.history, ?_, fun j k hjk x hj hk => ?_, fun j r hr => ?_⟩
  · exact (Function.forall_update_iff s.staged (p := fun j ws => Derived S.row (S.may j) s.table ws)).2
      ⟨derived_append.2 ⟨h.staged i, hone⟩, fun j _ => h.staged j⟩
  · dsimp only at hj hk
    by_cases hji : j = i
    · subst hji
      rw [Function.update_self] at hj
      rw [Function.update_of_ne hjk.symm] at hk
      rcases touches_append.1 hj with hj | hj
      · exact h.locks j k hjk x hj hk
      · exact hfree k hjk.symm x hj hk
    · rw [Function.update_of_ne hji] at hj
      by_cases hki : k = i
      · subst hki
        rw [Function.update_self] at hk
        rcases touches_append.1 hk with hk | hk
        · exact h.locks j k hjk x hj hk
        · exact hfree j hji x hk hj
      · rw [Function.update_of_ne hki] at hk
        exact h.locks j k hjk x hj hk
  · unfold Shared.visible
    dsimp only
    by_cases hji : j = i
    · subst hji
      rw [Function.update_self, replay_append]
      obtain ⟨cur, hcur, hearlier⟩ := h.seen j r hr
      obtain ⟨cur', hcur', hlater⟩ := later hone hcur
      exact ⟨cur', hcur', hearlier.trans hlater⟩
    · rw [Function.update_of_ne hji]
      exact h.seen j r hr

/-- The transaction publishes what it has staged. -/
theorem commit (h : Authored t0 s seen) {rows : List ρ} (hrows : rows = []) :
    Authored t0 ⟨s.visible i, Function.update s.staged i [], s.log ++ (s.staged i).map (Prod.mk i)⟩
      (Function.update seen i rows) := by
  subst hrows
  refine ⟨?_, ?_, ?_, fun j k hjk x hj hk => ?_, ?_⟩
  · rw [replay_append, ← h.replayed, replay_map]
    rfl
  · rw [derived_append, ← h.replayed]
    exact ⟨h.history, (derived_map (Prod.mk i)).2 (h.staged i)⟩
  · exact (Function.forall_update_iff s.staged (p := fun j ws => Derived S.row (S.may j) (s.visible i) ws)).2
      ⟨trivial, fun j hj => (h.staged j).congr fun k hk =>
        (find?_replay fun ht => h.locks i j hj.symm k ht hk).symm⟩
  · exact emptied_locks h j k hjk x hj hk
  · refine (Function.forall_update_iff seen (p := fun j rows => ∀ r ∈ rows, ∃ cur,
      (replay S.row (s.visible i) (Function.update s.staged i [] j)).find? (S.key r) = some cur ∧
        Earlier S.version S.fixed r cur)).2 ⟨fun r hr => absurd hr List.not_mem_nil, fun j hj r hr => ?_⟩
    rw [Function.update_of_ne hj]
    exact seen_published (h.staged i) (fun k => h.locks i j hj.symm k) (h.seen j r hr)
where
  emptied_locks (h : Authored t0 s seen) (j k : PId) (hjk : j ≠ k) (x : κ)
      (hj : Touches S.row S.key (Function.update s.staged i [] j) x) :
      ¬ Touches S.row S.key (Function.update s.staged i [] k) x := by
    intro hk
    have hmine : ∀ {l : PId}, Touches S.row S.key (Function.update s.staged i [] l) x →
        Touches S.row S.key (s.staged l) x := by
      intro l hl
      by_cases hli : l = i
      · rw [hli, Function.update_self] at hl
        obtain ⟨_, hw, -⟩ := hl
        exact absurd hw List.not_mem_nil
      · rwa [Function.update_of_ne hli] at hl
    exact h.locks j k hjk x (hmine hj) (hmine hk)

/-- The transaction is given up. -/
theorem rollback (h : Authored t0 s seen) {rows : List ρ} (hrows : rows = []) :
    Authored t0 ⟨s.table, Function.update s.staged i [], s.log⟩ (Function.update seen i rows) := by
  subst hrows
  refine ⟨h.replayed, h.history, ?_, commit.emptied_locks h, ?_⟩
  · exact (Function.forall_update_iff s.staged (p := fun j ws => Derived S.row (S.may j) s.table ws)).2
      ⟨trivial, fun j _ => h.staged j⟩
  · refine (Function.forall_update_iff seen (p := fun j rows => ∀ r ∈ rows, ∃ cur,
      (replay S.row s.table (Function.update s.staged i [] j)).find? (S.key r) = some cur ∧
        Earlier S.version S.fixed r cur)).2 ⟨fun r hr => absurd hr List.not_mem_nil, fun j hj r hr => ?_⟩
    rw [Function.update_of_ne hj]
    exact h.seen j r hr

end Authored

end Scheme

end Interleave
