import Mathlib.Data.List.Basic
import KudiCore.Interleave.Run

/-!
# One at a time

| here | there |
| --- | --- |
| `Gets`       | part of a run: what has been called, and the program that is left |
| `OneAtATime` | each program from its first call to its outcome before the next one begins |
| `Chain`      | what programs in that order do to the part of the store that matters |

The order in which an interleaving can be told afterwards is kept as a `Chain`. A program is put at its end when it
reads; where it writes, and nothing it has read has changed since, it is taken out (`Chain.erase`) and put there again.
-/

namespace Interleave

variable {Op : Type} {Res : Op → Type} {E S Ans Act ε α T : Type}

/-- From `s`, program `p` of party `i` gets as far as `q`, and to the store after it. -/
inductive Gets (sys : System Res E S Ans Act) (env : S → S → Prop) (i : PId) (p : Prog Res E ε α) (s : S) :
    Prog Res E ε α → S → Prop
  | refl : Gets sys env i p s p s
  | call {op : Op} {k : Except E (Res op) → Prog Res E ε α} {s1 s2 s3 : S} {a : Ans} {r : Except E (Res op)}
      (h : Gets sys env i p s (.call op k) s1) (henv : env s1 s2) (ha : sys.allow s2 i a op)
      (hx : sys.exec i a op s2 = some (r, s3)) : Gets sys env i p s (k r) s3

inductive OneAtATime (sys : System Res E S Ans Act) (env : S → S → Prop) (program : PId → Prog Res E ε α) :
    List PId → S → S → Prop
  | nil (s : S) : OneAtATime sys env program [] s s
  | cons {i : PId} {order : List PId} {s s1 s2 : S} {tr : List (Event Res E S)} {x : Except ε α}
      (h : Run sys env i (program i) s tr x s1) (hrest : OneAtATime sys env program order s1 s2) :
      OneAtATime sys env program (i :: order) s s2

section
variable {sys : System Res E S Ans Act} {env : S → S → Prop} {i : PId} {p q : Prog Res E ε α} {s s1 s2 : S}

/-- What is left is run, too. -/
theorem Gets.run (h : Gets sys env i p s q s1) {tr : List (Event Res E S)} {x : Except ε α}
    (hr : Run sys env i q s1 tr x s2) : ∃ tr', Run sys env i p s tr' x s2 := by
  induction h generalizing tr with
  | refl => exact ⟨tr, hr⟩
  | call _ henv ha hx ih => exact ih ⟨_, _, _, _, _, henv, ha, hx, rfl, hr⟩

theorem Gets.halts (h : Gets sys env i p s q s1) (hp : p.Halts) : q.Halts := by
  induction h with
  | refl => exact hp
  | call _ _ _ _ ih => exact ih _

/-- A program whose calls can all be answered has a run. -/
theorem exists_run (hanswer : ∀ s op, ∃ s1 a r s2, env s s1 ∧ sys.allow s1 i a op ∧
      sys.exec i a op s1 = some (r, s2))
    (hp : p.Halts) : ∀ s, ∃ tr x s', Run sys env i p s tr x s' := by
  induction p with
  | pure a => exact fun s => ⟨[], .ok a, s, rfl, rfl, rfl⟩
  | throw e => exact fun s => ⟨[], .error e, s, rfl, rfl, rfl⟩
  | stuck => exact hp.elim
  | call op k ih =>
    intro s
    obtain ⟨s1, a, r, s2, henv, ha, hx⟩ := hanswer s op
    obtain ⟨tr, x, s', hr⟩ := ih r (hp r) s2
    exact ⟨_, x, s', s1, a, r, s2, tr, henv, ha, hx, rfl, hr⟩

end

/-! ## Chains -/

/-- From `t`, one after the other, to `t'`. -/
def Chain (ok : PId → T → T → Prop) : T → List PId → T → Prop
  | t, [], t' => t = t'
  | t, i :: order, t' => ∃ t1, ok i t t1 ∧ Chain ok t1 order t'

section
variable {ok ok' : PId → T → T → Prop} {i : PId} {order : List PId}

theorem Chain.concat {t' t'' : T} (hi : ok i t' t'') : ∀ {order : List PId} {t : T}, Chain ok t order t' →
    Chain ok t (order ++ [i]) t''
  | [], _, rfl => ⟨t'', hi, rfl⟩
  | _ :: _, _, ⟨t1, hj, h⟩ => ⟨t1, hj, h.concat hi⟩

theorem Chain.mono {t' : T} : ∀ {order : List PId} {t : T}, (∀ j ∈ order, ∀ t t', ok j t t' → ok' j t t') →
    Chain ok t order t' → Chain ok' t order t'
  | [], _, _, h => h
  | j :: _, _, hok, ⟨t1, hj, h⟩ =>
    ⟨t1, hok j List.mem_cons_self _ _ hj, h.mono fun k hk => hok k (List.mem_cons_of_mem _ hk)⟩

theorem Chain.of_mem {t' : T} : ∀ {order : List PId} {t : T}, Chain ok t order t' → i ∈ order →
    ∃ t1 t2, ok i t1 t2
  | j :: _, t, ⟨t1, hj, h⟩, hi => by
    rcases List.mem_cons.1 hi with rfl | hi
    · exact ⟨t, t1, hj⟩
    · exact h.of_mem hi

/-- A program that changes nothing is not missed. -/
theorem Chain.erase (hi : ∀ t t', ok i t t' → t = t') {t' : T} :
    ∀ {order : List PId} {t : T}, Chain ok t order t' →
    Chain ok t (order.erase i) t'
  | [], _, h => h
  | j :: order, t, ⟨t1, hj, h⟩ => by
    by_cases hji : j = i
    · subst hji
      obtain rfl := hi t t1 hj
      rwa [List.erase_cons_head]
    · rw [List.erase_cons_tail (by simpa using hji)]
      exact ⟨t1, hj, h.erase hi⟩

/-- **Links that are runs make a serial run.** -/
theorem Chain.oneAtATime {sys : System Res E S Ans Act} {env : S → S → Prop} {program : PId → Prog Res E ε α}
    (view : S → T) {t' : T} : ∀ {order : List PId} {t : T} {s : S}, Chain ok t order t' → view s = t →
      (∀ j ∈ order, ∀ t t' s, ok j t t' → view s = t →
        ∃ tr x s', Run sys env j (program j) s tr x s' ∧ view s' = t') →
      ∃ s', OneAtATime sys env program order s s' ∧ view s' = t'
  | [], _, s, h, hs, _ => ⟨s, .nil s, hs.trans h⟩
  | j :: _, t, s, ⟨t1, hj, h⟩, hs, hrun => by
    obtain ⟨tr, x, s1, hr, hs1⟩ := hrun j List.mem_cons_self t t1 s hj hs
    obtain ⟨s', hend, hs'⟩ := h.oneAtATime view hs1 fun k hk => hrun k (List.mem_cons_of_mem _ hk)
    exact ⟨s', .cons hr hend, hs'⟩

end

end Interleave
