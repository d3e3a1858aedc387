import KudiCore.Interleave.Table

/-!
# Histories of a table

A log of writes to a keyed table, in order. `row w` is the row that `w` upserts, if `w` is about
this table at all. `Chained` says that every write found a row of its key and is related to the row
it replaced by `Rel`; that is what a conditional update on a version column gives. What holds of a
row before, and is kept by `Rel`, holds of the row after any chained log (`Chained.invariant`).
-/

namespace Interleave

namespace Table

variable {κ ρ ω : Type} [DecidableEq κ] {key : ρ → κ} (row : ω → Option ρ) (Rel : ρ → ω → Prop)

def write (t : Table key) (w : ω) : Table key :=
  match row w with
  | none => t
  | some r => t.put r

def replay : Table key → List ω → Table key
  | t, [] => t
  | t, w :: ws => replay (t.write row w) ws

/-- The writes of `ws` to the row of key `k`. -/
def writesTo (key : ρ → κ) (k : κ) (ws : List ω) : List ω := ws.filter fun w => (row w).map key = some k

def Touches (key : ρ → κ) (ws : List ω) (k : κ) : Prop := ∃ w ∈ ws, (row w).map key = some k

def Chained : Table key → List ω → Prop
  | _, [] => True
  | t, w :: ws =>
    (∀ r, row w = some r → ∃ old, t.find? (key r) = some old ∧ Rel old w) ∧ Chained (t.write row w) ws

variable {row Rel}

theorem find?_write {t : Table key} {w : ω} {k : κ} (h : (row w).map key ≠ some k) :
    (t.write row w).find? k = t.find? k := by
  unfold write
  cases hw : row w with
  | none => rfl
  | some r =>
    rw [hw] at h
    exact find?_put_ne t fun e => h (congrArg some e)

theorem find?_write_self {t : Table key} {w : ω} {r : ρ} (h : row w = some r) :
    (t.write row w).find? (key r) = some r := by
  simp [write, h]

theorem replay_append (t : Table key) (ws ws' : List ω) :
    replay row t (ws ++ ws') = replay row (replay row t ws) ws' := by
  induction ws generalizing t with
  | nil => rfl
  | cons w ws ih => exact ih _

theorem chained_append {t : Table key} {ws ws' : List ω} :
    Chained row Rel t (ws ++ ws') ↔ Chained row Rel t ws ∧ Chained row Rel (replay row t ws) ws' := by
  induction ws generalizing t with
  | nil => simp [Chained, replay]
  | cons w ws ih => simp only [List.cons_append, Chained, replay, ih, and_assoc]

theorem find?_replay {ws : List ω} {k : κ} : ∀ {t : Table key}, ¬ Touches row key ws k →
    (replay row t ws).find? k = t.find? k := by
  induction ws with
  | nil => exact fun _ => rfl
  | cons w ws ih =>
    intro t h
    have hw : (row w).map key ≠ some k := fun e => h ⟨w, List.mem_cons_self, e⟩
    rw [replay, ih fun ⟨w', hm, e⟩ => h ⟨w', List.mem_cons_of_mem _ hm, e⟩, find?_write hw]

/-- A row of a replayed table was there before, or the log wrote it. -/
theorem find?_of_replay {ws : List ω} {k : κ} {r : ρ} : ∀ {t : Table key}, (replay row t ws).find? k = some r →
    t.find? k = some r ∨ ∃ w ∈ ws, row w = some r := by
  induction ws with
  | nil => exact fun h => .inl h
  | cons w ws ih =>
    intro t h
    rcases ih h with h | ⟨w', hw', hr⟩
    · by_cases hw : (row w).map key = some k
      · obtain ⟨r', hr', rfl⟩ := Option.map_eq_some_iff.1 hw
        rw [find?_write_self hr', Option.some.injEq] at h
        exact .inr ⟨w, List.mem_cons_self, h ▸ hr'⟩
      · exact .inl ((find?_write hw).symm.trans h)
    · exact .inr ⟨w', List.mem_cons_of_mem _ hw', hr⟩

theorem find?_replay_congr {ws : List ω} {k : κ} : ∀ {t t' : Table key}, t.find? k = t'.find? k →
    (replay row t ws).find? k = (replay row t' ws).find? k := by
  induction ws with
  | nil => exact fun h => h
  | cons w ws ih =>
    intro t t' h
    refine ih ?_
    by_cases hw : (row w).map key = some k
    · obtain ⟨r, hr, rfl⟩ := Option.map_eq_some_iff.1 hw
      rw [find?_write_self hr, find?_write_self hr]
    · rw [find?_write hw, find?_write hw, h]

omit [DecidableEq κ] in
theorem touches_append {ws ws' : List ω} {k : κ} :
    Touches row key (ws ++ ws') k ↔ Touches row key ws k ∨ Touches row key ws' k := by
  simp only [Touches, List.mem_append]
  constructor
  · rintro ⟨w, h | h, e⟩
    · exact .inl ⟨w, h, e⟩
    · exact .inr ⟨w, h, e⟩
  · rintro (⟨w, h, e⟩ | ⟨w, h, e⟩)
    · exact ⟨w, .inl h, e⟩
    · exact ⟨w, .inr h, e⟩

/-- A log is chained on any table that agrees with `t` where the log writes. -/
theorem Chained.congr {ws : List ω} : ∀ {t t' : Table key}, Chained row Rel t ws →
    (∀ k, Touches row key ws k → t.find? k = t'.find? k) → Chained row Rel t' ws := by
  induction ws with
  | nil => exact fun _ _ => trivial
  | cons w ws ih =>
    intro t t' h he
    refine ⟨fun r hr => ?_, ih h.2 fun k hk => ?_⟩
    · rw [← he (key r) ⟨w, List.mem_cons_self, by simp [hr]⟩]
      exact h.1 r hr
    · by_cases hw : (row w).map key = some k
      · obtain ⟨r, hr, rfl⟩ := Option.map_eq_some_iff.1 hw
        rw [find?_write_self hr, find?_write_self hr]
      · obtain ⟨w', hm, e⟩ := hk
        rw [find?_write hw, find?_write hw, he k ⟨w', List.mem_cons_of_mem _ hm, e⟩]

theorem writesTo_cons_of {w : ω} {k : κ} (h : (row w).map key = some k) (ws : List ω) :
    writesTo row key k (w :: ws) = w :: writesTo row key k ws :=
  List.filter_cons_of_pos (by simpa using h)

theorem writesTo_cons_of_ne {w : ω} {k : κ} (h : (row w).map key ≠ some k) (ws : List ω) :
    writesTo row key k (w :: ws) = writesTo row key k ws :=
  List.filter_cons_of_neg (by simpa using h)

section
variable {M : List ω → ρ → Prop} {k : κ}

theorem Chained.invariant_from (hM : ∀ ws r w r', M ws r → row w = some r' → Rel r w → M (ws ++ [w]) r')
    {ws : List ω} : ∀ {t : Table key} {old : ρ} {done : List ω}, Chained row Rel t ws → t.find? k = some old →
      M done old → ∃ r, (replay row t ws).find? k = some r ∧ M (done ++ writesTo row key k ws) r := by
  induction ws with
  | nil => exact fun _ hf h0 => ⟨_, hf, by simpa [writesTo] using h0⟩
  | cons w ws ih =>
    intro t old done h hf h0
    by_cases hw : (row w).map key = some k
    · obtain ⟨r, hr, rfl⟩ := Option.map_eq_some_iff.1 hw
      obtain ⟨old', ho, hrel⟩ := h.1 r hr
      obtain rfl : old' = old := by simpa [hf] using ho.symm
      obtain ⟨r', hr', hm⟩ := ih h.2 (find?_write_self hr) (hM done old' w r h0 hr hrel)
      exact ⟨r', hr', by simpa [writesTo_cons_of hw] using hm⟩
    · obtain ⟨r', hr', hm⟩ := ih h.2 ((find?_write hw).trans hf) h0
      exact ⟨r', hr', by rwa [writesTo_cons_of_ne hw]⟩

/-- **What every chained write keeps holds at the end of the log.** `M ws r`: the row is `r` after
the writes `ws` to it. -/
theorem Chained.invariant (hM : ∀ ws r w r', M ws r → row w = some r' → Rel r w → M (ws ++ [w]) r')
    {ws : List ω} {t : Table key} {old : ρ} (h : Chained row Rel t ws) (hf : t.find? k = some old)
    (h0 : M [] old) : ∃ r, (replay row t ws).find? k = some r ∧ M (writesTo row key k ws) r :=
  Chained.invariant_from hM h hf h0

end

/-! ## Versions -/

/-- Where each write raises a version, a row read from `t` is older than the one at the end of the
log, or is that row. -/
theorem Chained.version {version : ρ → Nat}
    (hv : ∀ old w r, row w = some r → Rel old w → version old < version r)
    {t : Table key} {ws : List ω} {k : κ} {old : ρ} (h : Chained row Rel t ws) (hf : t.find? k = some old) :
    ∃ cur, (replay row t ws).find? k = some cur ∧ version old ≤ version cur ∧
      (version old = version cur → old = cur) := by
  have hM : ∀ (ws : List ω) r w r', (version old ≤ version r ∧ (version old = version r → old = r)) →
      row w = some r' → Rel r w → version old ≤ version r' ∧ (version old = version r' → old = r') := by
    intro ws r w r' hr hr' hrel
    have := hv r w r' hr' hrel
    exact ⟨by omega, fun e => absurd e (by omega)⟩
  have h0 : version old ≤ version old ∧ (version old = version old → old = old) := ⟨le_rfl, fun _ => rfl⟩
  exact h.invariant (M := fun _ r => version old ≤ version r ∧ (version old = version r → old = r)) hM hf h0

end Table

end Interleave
