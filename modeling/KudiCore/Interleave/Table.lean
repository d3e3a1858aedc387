import Mathlib.Algebra.BigOperators.Group.List.Basic
import Mathlib.Tactic.Ring

/-!
# Keyed tables

A database table as its rows in insertion order, with the primary key unique by construction.
`put` is an upsert: an update keeps the row's place, an insert goes to the end. `sum_put` is the
one arithmetic fact a ledger-like invariant needs: an upsert moves a column's total by the
difference of the two rows.
-/

namespace Interleave

/-- Rows of type `ρ`, no two with the same `key`. -/
structure Table {κ ρ : Type} (key : ρ → κ) where
  rows : List ρ
  nodup : (rows.map key).Nodup

namespace Table

variable {κ ρ : Type} [DecidableEq κ] {key : ρ → κ}

def empty : Table key := ⟨[], by simp⟩

def find? (t : Table key) (k : κ) : Option ρ := t.rows.find? fun r => key r = k

/-- The row list with the row of `r`'s key replaced by `r`, or `r` added at the end. -/
def putRows (key : ρ → κ) (r : ρ) : List ρ → List ρ
  | [] => [r]
  | x :: xs => if key x = key r then r :: xs else x :: putRows key r xs

theorem mem_keys_putRows (r : ρ) (k : κ) :
    ∀ l : List ρ, k ∈ (putRows key r l).map key ↔ k ∈ l.map key ∨ k = key r
  | [] => by simp [putRows]
  | x :: xs => by
    by_cases h : key x = key r
    · simp only [putRows, h, if_true, List.map_cons, List.mem_cons]
      tauto
    · simp only [putRows, h, if_false, List.map_cons, List.mem_cons, mem_keys_putRows r k xs]
      tauto

theorem nodup_putRows (r : ρ) : ∀ {l : List ρ}, (l.map key).Nodup → ((putRows key r l).map key).Nodup
  | [], _ => by simp [putRows]
  | x :: xs, h => by
    simp only [List.map_cons, List.nodup_cons] at h
    by_cases hx : key x = key r
    · simp only [putRows, hx, if_true, List.map_cons, List.nodup_cons]
      exact ⟨hx ▸ h.1, h.2⟩
    · rw [putRows, if_neg hx, List.map_cons, List.nodup_cons, mem_keys_putRows]
      exact ⟨fun hm => hm.elim h.1 hx, nodup_putRows r h.2⟩

def put (t : Table key) (r : ρ) : Table key := ⟨putRows key r t.rows, nodup_putRows r t.nodup⟩

def erase (t : Table key) (k : κ) : Table key :=
  ⟨t.rows.filter fun r => key r ≠ k, t.nodup.sublist (List.filter_sublist.map key)⟩

theorem find?_empty (k : κ) : (empty : Table key).find? k = none := rfl

theorem key_of_find? {t : Table key} {k : κ} {r : ρ} (h : t.find? k = some r) : key r = k := by
  simpa using List.find?_some h

theorem mem_of_find? {t : Table key} {k : κ} {r : ρ} (h : t.find? k = some r) : r ∈ t.rows :=
  List.mem_of_find?_eq_some h

theorem find?_of_mem {t : Table key} {r : ρ} (h : r ∈ t.rows) : t.find? (key r) = some r := by
  obtain ⟨rows, nodup⟩ := t
  simp only [find?]
  simp only at h
  induction rows with
  | nil => simp at h
  | cons x xs ih =>
    simp only [List.map_cons, List.nodup_cons] at nodup
    rcases List.mem_cons.1 h with rfl | h
    · simp
    · have hx : key x ≠ key r := fun e => nodup.1 (e ▸ List.mem_map_of_mem h)
      rw [List.find?_cons_of_neg (by simpa using hx)]
      exact ih nodup.2 h

theorem mem_rows_iff {t : Table key} {r : ρ} : r ∈ t.rows ↔ t.find? (key r) = some r :=
  ⟨find?_of_mem, mem_of_find?⟩

theorem find?_putRows (r : ρ) (k : κ) : ∀ l : List ρ,
    (putRows key r l).find? (fun x => key x = k) =
      if key r = k then some r else l.find? fun x => key x = k
  | [] => by by_cases h : key r = k <;> simp [putRows, h]
  | x :: xs => by
    by_cases hx : key x = key r
    · by_cases h : key r = k <;> simp [putRows, hx, h]
    · rw [putRows, if_neg hx, List.find?_cons, List.find?_cons, find?_putRows r k xs]
      by_cases h : key r = k
      · have hxk : key x ≠ k := fun e => hx (e.trans h.symm)
        simp [hxk, h]
      · simp [h]

@[simp] theorem find?_put (t : Table key) (r : ρ) (k : κ) :
    (t.put r).find? k = if key r = k then some r else t.find? k := find?_putRows r k t.rows

theorem find?_put_self (t : Table key) (r : ρ) : (t.put r).find? (key r) = some r := by simp

theorem find?_put_ne (t : Table key) {r : ρ} {k : κ} (h : key r ≠ k) : (t.put r).find? k = t.find? k := by
  simp [h]

@[simp] theorem find?_erase (t : Table key) (k k' : κ) :
    (t.erase k).find? k' = if k = k' then none else t.find? k' := by
  simp only [erase, find?, List.find?_filter]
  by_cases h : k = k'
  · subst h
    simp
  · simp only [h, if_false]
    congr 1
    funext r
    by_cases hr : key r = k' <;> simp [hr, Ne.symm h]

theorem mem_put (t : Table key) (r x : ρ) : x ∈ (t.put r).rows ↔ x = r ∨ x ∈ t.rows ∧ key x ≠ key r := by
  rw [mem_rows_iff, find?_put]
  by_cases h : key r = key x
  · simp [h, eq_comm]
  · simp only [h, if_false, mem_rows_iff]
    constructor
    · exact fun hx => .inr ⟨hx, fun e => h e.symm⟩
    · rintro (rfl | ⟨hx, -⟩)
      · exact absurd rfl h
      · exact hx

theorem find?_putRows_where {r old : ρ} (p : ρ → Bool) (hr : p r = true) : ∀ {l : List ρ},
    l.find? (fun x => key x = key r) = some old → l.find? p = some old → (putRows key r l).find? p = some r
  | [], h, _ => by simp at h
  | x :: xs, h, hp => by
    by_cases hx : key x = key r
    · simp [putRows, hx, hr]
    · have hkey : key old = key r := by simpa using List.find?_some h
      rw [List.find?_cons_of_neg (by simpa using hx)] at h
      have hpx : ¬ p x = true := by
        intro hpx
        rw [List.find?_cons_of_pos hpx, Option.some.injEq] at hp
        exact hx (hp ▸ hkey)
      rw [List.find?_cons_of_neg hpx] at hp
      rw [putRows, if_neg hx, List.find?_cons_of_neg hpx]
      exact find?_putRows_where p hr h hp

theorem putRows_putRows {r r' : ρ} (h : key r = key r') :
    ∀ l : List ρ, putRows key r' (putRows key r l) = putRows key r' l
  | [] => by simp [putRows, h]
  | x :: xs => by
    by_cases hx : key x = key r
    · simp [putRows, hx, h]
    · have hx' : key x ≠ key r' := h ▸ hx
      rw [putRows, if_neg hx, putRows, if_neg hx', putRows_putRows h xs, putRows, if_neg hx']

/-- Of two upserts of one key the last counts. -/
theorem put_put (t : Table key) {r r' : ρ} (h : key r = key r') : (t.put r).put r' = t.put r' := by
  cases t
  simp only [put, putRows_putRows h]

theorem putRows_self {r : ρ} : ∀ {l : List ρ}, l.find? (fun x => key x = key r) = some r → putRows key r l = l
  | [], h => by simp at h
  | x :: xs, h => by
    by_cases hx : key x = key r
    · rw [List.find?_cons_of_pos (by simpa using hx), Option.some.injEq] at h
      rw [putRows, if_pos hx, h]
    · rw [List.find?_cons_of_neg (by simpa using hx)] at h
      rw [putRows, if_neg hx, putRows_self h]

/-- A row that is there is put there. -/
theorem put_self {t : Table key} {r : ρ} (h : t.find? (key r) = some r) : t.put r = t := by
  cases t
  simp only [put, Table.mk.injEq]
  exact putRows_self h

/-- The first row to satisfy `p`, updated to another that does, is still the first. -/
theorem find?_put_where {t : Table key} {r old : ρ} {p : ρ → Bool} (h : t.find? (key r) = some old)
    (hp : t.rows.find? p = some old) (hr : p r = true) : (t.put r).rows.find? p = some r :=
  find?_putRows_where p hr h hp

/-! ## Updates of many rows -/

/-- Every row changed by `f`, which leaves the keys alone. -/
def mapRows (t : Table key) (f : ρ → ρ) (hf : ∀ r, key (f r) = key r) : Table key :=
  ⟨t.rows.map f, by
    have hkeys : key ∘ f = key := funext hf
    rw [List.map_map, hkeys]
    exact t.nodup⟩

theorem find?_mapRows (t : Table key) {f : ρ → ρ} (hf : ∀ r, key (f r) = key r) (k : κ) :
    (t.mapRows f hf).find? k = (t.find? k).map f := by
  simp only [mapRows, find?, List.find?_map]
  congr 2
  funext r
  simp [hf]

/-! ## Column totals -/

/-- The total of column `f`. -/
def sum (f : ρ → Int) (t : Table key) : Int := (t.rows.map f).sum

omit [DecidableEq κ] in
theorem sum_eq_zero {f : ρ → Int} {t : Table key} (h : ∀ r ∈ t.rows, f r = 0) : t.sum f = 0 :=
  List.sum_eq_zero fun x hx => by
    obtain ⟨r, hr, rfl⟩ := List.mem_map.1 hx
    exact h r hr

theorem sum_putRows (f : ρ → Int) (r : ρ) : ∀ {l : List ρ} {old : ρ},
    l.find? (fun x => key x = key r) = some old →
      ((putRows key r l).map f).sum = (l.map f).sum - f old + f r
  | [], _, h => by simp at h
  | x :: xs, old, h => by
    by_cases hx : key x = key r
    · simp only [List.find?_cons, hx, decide_true, Option.some.injEq] at h
      subst h
      simp only [putRows, hx, if_true, List.map_cons, List.sum_cons]
      ring
    · simp only [List.find?_cons, hx, decide_false] at h
      simp only [putRows, hx, if_false, List.map_cons, List.sum_cons, sum_putRows f r h]
      ring

theorem sum_put (f : ρ → Int) {t : Table key} {r old : ρ} (h : t.find? (key r) = some old) :
    (t.put r).sum f = t.sum f - f old + f r := sum_putRows f r h

theorem putRows_new (r : ρ) : ∀ {l : List ρ}, l.find? (fun x => key x = key r) = none → putRows key r l = l ++ [r]
  | [], _ => rfl
  | x :: xs, h => by
    have hnew := List.find?_eq_none.1 h
    have hx : key x ≠ key r := by simpa using hnew x List.mem_cons_self
    rw [putRows, if_neg hx, putRows_new r (List.find?_eq_none.2 fun y hy => hnew y (List.mem_cons_of_mem _ hy)),
      List.cons_append]

/-- An insert goes to the end. -/
theorem rows_put_new {t : Table key} {r : ρ} (h : t.find? (key r) = none) : (t.put r).rows = t.rows ++ [r] :=
  putRows_new r h

theorem putRows_of_mem (r : ρ) : ∀ {l : List ρ}, (l.map key).Nodup → key r ∈ l.map key →
    putRows key r l = l.map fun x => if key x = key r then r else x
  | [], _, h => absurd h List.not_mem_nil
  | x :: xs, hn, h => by
    rw [List.map_cons, List.nodup_cons] at hn
    by_cases hx : key x = key r
    · have hrest : ∀ y ∈ xs, (if key y = key r then r else y) = y := by
        intro y hy
        have hne : key y ≠ key r := fun hyr => hn.1 ((hyr.trans hx.symm) ▸ List.mem_map_of_mem hy)
        exact if_neg hne
      rw [putRows, if_pos hx, List.map_cons, if_pos hx, List.map_congr_left hrest, List.map_id']
    · have h : key r ∈ xs.map key := (List.mem_cons.1 h).resolve_left fun e => hx e.symm
      rw [putRows, if_neg hx, List.map_cons, if_neg hx, putRows_of_mem r hn.2 h]

/-- An update keeps its place. -/
theorem rows_put_old {t : Table key} {r old : ρ} (h : t.find? (key r) = some old) :
    (t.put r).rows = t.rows.map fun x => if key x = key r then r else x :=
  putRows_of_mem r t.nodup (List.mem_map.2 ⟨old, mem_of_find? h, key_of_find? h⟩)

/-- An insert adds the row's own value. -/
theorem sum_put_new (f : ρ → Int) {t : Table key} {r : ρ} (h : t.find? (key r) = none) :
    (t.put r).sum f = t.sum f + f r := by
  simp [sum, put, putRows_new r h]

end Table

end Interleave
