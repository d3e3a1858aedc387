import KudiCore.Interleave.Run

/-!
# Two runs in step

| here | there |
| --- | --- |
| `playScript` | the run of a program, given what happens before each call and the answer to it |
| `InStep`     | two programs, each over its own store: under every script they make the same calls, and end related |
| `CanEnd`     | whatever happens in the meantime, there are answers with which the program ends |

A program keeps a part of its store to itself if it is in step with itself over any two stores that differ in nothing
else. The two sides go apart when they have read what differs, so `InStep` is about two programs.
-/

namespace Interleave

variable {Op : Type} {Res : Op → Type} {E S Ans Act ε ε' α β γ δ : Type}

section
variable (sys : System Res E S Ans Act) [∀ s i a op, Decidable (sys.allow s i a op)]

/-- The run of `p` under `script`: none, if it is too short, too long, or an answer does not fit. -/
def playScript (i : PId) :
    List (Act × Ans) → Prog Res E ε α → S → Option (List (Event Res E S) × Except ε α × S)
  | [], .pure a, s => some ([], .ok a, s)
  | [], .throw e, s => some ([], .error e, s)
  | (x, a) :: script, .call op k, s =>
    if sys.allow (sys.act x s) i a op then
      (sys.exec i a op (sys.act x s)).bind fun r =>
        (playScript i script (k r.1) r.2).map fun rest => (⟨op, r.1, sys.act x s, r.2⟩ :: rest.1, rest.2)
    else none
  | _, _, _ => none

variable {sys} in
theorem playScript_call {i : PId} {x : Act} {a : Ans} {script : List (Act × Ans)} {op : Op}
    {k : Except E (Res op) → Prog Res E ε α} {s s' : S} {r : Except E (Res op)}
    (ha : sys.allow (sys.act x s) i a op)
    (hx : sys.exec i a op (sys.act x s) = some (r, s')) : playScript sys i ((x, a) :: script) (.call op k) s =
      (playScript sys i script (k r) s').map fun rest => (⟨op, r, sys.act x s, s'⟩ :: rest.1, rest.2) := by
  simp only [playScript, if_pos ha, hx, Option.bind_some]

variable {sys} in
/-- A run is a run under some script, where `act` is all that happens between its calls. -/
theorem run_iff_script {i : PId} {p : Prog Res E ε α} {s s' : S} {tr : List (Event Res E S)} {x : Except ε α} :
    Run sys (fun s s' => ∃ x, s' = sys.act x s) i p s tr x s' ↔
      ∃ script, playScript sys i script p s = some (tr, x, s') := by
  induction p generalizing s tr with
  | pure a =>
    refine ⟨?_, ?_⟩
    · rintro ⟨rfl, rfl, rfl⟩
      exact ⟨[], rfl⟩
    · rintro ⟨script, h⟩
      cases script with
      | nil =>
        cases h
        exact ⟨rfl, rfl, rfl⟩
      | cons _ _ => cases h
  | throw e =>
    refine ⟨?_, ?_⟩
    · rintro ⟨rfl, rfl, rfl⟩
      exact ⟨[], rfl⟩
    · rintro ⟨script, h⟩
      cases script with
      | nil =>
        cases h
        exact ⟨rfl, rfl, rfl⟩
      | cons _ _ => cases h
  | stuck =>
    refine ⟨fun h => h.elim, ?_⟩
    rintro ⟨script, h⟩
    cases script <;> cases h
  | call op k ih =>
    refine ⟨?_, ?_⟩
    · rintro ⟨_, a, r, s2, rest, ⟨x, rfl⟩, ha, hx, rfl, h⟩
      obtain ⟨script, h⟩ := (ih r).1 h
      exact ⟨(x, a) :: script, by rw [playScript_call ha hx, h]; rfl⟩
    · rintro ⟨script, h⟩
      cases script with
      | nil => cases h
      | cons step script =>
        obtain ⟨x, a⟩ := step
        by_cases ha : sys.allow (sys.act x s) i a op
        · cases hx : sys.exec i a op (sys.act x s) with
          | none => simp [playScript, hx] at h
          | some r =>
            rw [playScript_call ha hx] at h
            obtain ⟨⟨rest, y, s3⟩, hrest, h⟩ := Option.map_eq_some_iff.1 h
            cases h
            exact ⟨_, a, r.1, r.2, rest, ⟨x, rfl⟩, ha, hx, rfl, (ih r.1).2 ⟨script, hrest⟩⟩
        · simp [playScript, ha] at h

end

/-! ## In step -/

/-- `p` from `s` and `q` from `t` make the same calls as long as these are answered alike; if they return, what they
return is related by `Q`, if they throw, what they throw by `R`. -/
inductive InStep (sys : System Res E S Ans Act) (i : PId) (Q : α → β → S → S → Prop)
    (R : ε → ε' → S → S → Prop) :
    Prog Res E ε α → Prog Res E ε' β → S → S → Prop
  | pure {a : α} {b : β} {s t : S} (h : Q a b s t) : InStep sys i Q R (.pure a) (.pure b) s t
  | throw {e : ε} {e' : ε'} {s t : S} (h : R e e' s t) : InStep sys i Q R (.throw e) (.throw e') s t
  | stuck {s t : S} : InStep sys i Q R .stuck .stuck s t
  | call {op : Op} {k : Except E (Res op) → Prog Res E ε α} {k' : Except E (Res op) → Prog Res E ε' β} {s t : S}
      (hallow : ∀ x a, sys.allow (sys.act x s) i a op ↔ sys.allow (sys.act x t) i a op)
      (hfits : ∀ x a, sys.exec i a op (sys.act x s) = none ↔ sys.exec i a op (sys.act x t) = none)
      (hnext : ∀ x a r s' r' t', sys.exec i a op (sys.act x s) = some (r, s') →
        sys.exec i a op (sys.act x t) = some (r', t') → InStep sys i Q R (k r) (k' r') s' t') :
      InStep sys i Q R (.call op k) (.call op k') s t

/-- How two runs in step end. -/
def EndRelated (Q : α → β → S → S → Prop) (R : ε → ε' → S → S → Prop) :
    Except ε α → Except ε' β → S → S → Prop
  | .ok a, .ok b, s, t => Q a b s t
  | .error e, .error e', s, t => R e e' s t
  | _, _, _, _ => False

namespace InStep

variable {sys : System Res E S Ans Act} {i : PId} {Q : α → β → S → S → Prop}
  {R : ε → ε' → S → S → Prop} {s t : S}

theorem bind {p : Prog Res E ε α} {q : Prog Res E ε' β} {f : α → Prog Res E ε γ} {g : β → Prog Res E ε' δ}
    {N : α → β → S → S → Prop} {Q : γ → δ → S → S → Prop} (h : InStep sys i N R p q s t)
    (hf : ∀ {a b s t}, N a b s t → InStep sys i Q R (f a) (g b) s t) :
    InStep sys i Q R (p >>= f) (q >>= g) s t := by
  induction h with
  | pure h => exact hf h
  | throw h => exact .throw h
  | stuck => exact .stuck
  | call hallow hfits hnext ih => exact .call hallow hfits ih

theorem tryCatch {ε₁ ε₂ : Type} {p : Prog Res E ε₁ α} {q : Prog Res E ε₂ β}
    {f : ε₁ → Prog Res E ε α}
    {g : ε₂ → Prog Res E ε' β} {N : ε₁ → ε₂ → S → S → Prop} (h : InStep sys i Q N p q s t)
    (hf : ∀ {e e' s t}, N e e' s t → InStep sys i Q R (f e) (g e') s t) :
    InStep sys i Q R (p.tryCatch f) (q.tryCatch g) s t := by
  induction h with
  | pure h => exact .pure h
  | throw h => exact hf h
  | stuck => exact .stuck
  | call hallow hfits hnext ih => exact .call hallow hfits ih

variable [∀ s i a op, Decidable (sys.allow s i a op)]

/-- **What it means to be in step.** -/
theorem play {p : Prog Res E ε α} {q : Prog Res E ε' β} (h : InStep sys i Q R p q s t)
    (script : List (Act × Ans)) :
    (playScript sys i script p s = none ∧ playScript sys i script q t = none) ∨
      ∃ tr x s' tr' y t', playScript sys i script p s = some (tr, x, s') ∧
        playScript sys i script q t = some (tr', y, t') ∧ tr.map (·.op) = tr'.map (·.op) ∧
          EndRelated Q R x y s' t' := by
  induction h generalizing script with
  | pure h =>
    cases script with
    | nil => exact .inr ⟨_, _, _, _, _, _, rfl, rfl, rfl, h⟩
    | cons _ _ => exact .inl ⟨rfl, rfl⟩
  | throw h =>
    cases script with
    | nil => exact .inr ⟨_, _, _, _, _, _, rfl, rfl, rfl, h⟩
    | cons _ _ => exact .inl ⟨rfl, rfl⟩
  | stuck => cases script <;> exact .inl ⟨rfl, rfl⟩
  | @call op k k' s t hallow hfits hnext ih =>
    cases script with
    | nil => exact .inl ⟨rfl, rfl⟩
    | cons step script =>
      obtain ⟨x, a⟩ := step
      by_cases ha : sys.allow (sys.act x s) i a op
      · have ha' := (hallow x a).1 ha
        cases hx : sys.exec i a op (sys.act x s) with
        | none =>
          have hx' := (hfits x a).1 hx
          exact .inl (by simp [playScript, hx, hx'])
        | some r =>
          obtain ⟨⟨r', t'⟩, hx'⟩ : ∃ r', sys.exec i a op (sys.act x t) = some r' :=
            Option.ne_none_iff_exists'.1 fun hnone => nomatch hx.symm.trans ((hfits x a).2 hnone)
          rw [playScript_call ha hx, playScript_call ha' hx']
          rcases ih x a _ _ _ _ hx hx' script with ⟨h, h'⟩ | ⟨tr, y, s2, tr', y', t2, h, h', hcalls, hend⟩
          · exact .inl (by simp [h, h'])
          · refine .inr ⟨_, y, s2, _, y', t2, by rw [h, Option.map_some], by rw [h', Option.map_some], ?_, hend⟩
            rw [List.map_cons, List.map_cons, hcalls]
      · exact .inl ⟨by simp [playScript, ha], by simp [playScript, mt (hallow x a).2 ha]⟩

end InStep

/-! ## Reaching the end -/

/-- Whatever happens before each call, answers from `A` lead `p` from `s` to its end: it returns with `Q`, or throws
with `R`. -/
def CanEnd (sys : System Res E S Ans Act) (i : PId) (A : Ans → Prop) (Q : α → S → Prop) (R : ε → S → Prop) :
    Prog Res E ε α → S → Prop
  | .pure a, s => Q a s
  | .throw e, s => R e s
  | .stuck, _ => False
  | .call op k, s => ∀ x, ∃ a r s', A a ∧ sys.allow (sys.act x s) i a op ∧
      sys.exec i a op (sys.act x s) = some (r, s') ∧ CanEnd sys i A Q R (k r) s'

namespace CanEnd

variable {sys : System Res E S Ans Act} {i : PId} {A : Ans → Prop} {Q : α → S → Prop}
  {R : ε → S → Prop} {s : S}

theorem bind {p : Prog Res E ε α} {f : α → Prog Res E ε β} {N : α → S → Prop} {Q : β → S → Prop}
    (h : CanEnd sys i A N R p s) (hf : ∀ {a s}, N a s → CanEnd sys i A Q R (f a) s) :
    CanEnd sys i A Q R (p >>= f) s := by
  induction p generalizing s with
  | pure a => exact hf h
  | throw e => exact h
  | stuck => exact h
  | call op k ih =>
    intro x
    obtain ⟨a, r, s', hA, ha, hx, h⟩ := h x
    exact ⟨a, r, s', hA, ha, hx, ih r h⟩

theorem tryCatch {p : Prog Res E ε α} {f : ε → Prog Res E ε' α} {N : ε → S → Prop} {R : ε' → S → Prop}
    (h : CanEnd sys i A Q N p s) (hf : ∀ {e s}, N e s → CanEnd sys i A Q R (f e) s) :
    CanEnd sys i A Q R (p.tryCatch f) s := by
  induction p generalizing s with
  | pure a => exact h
  | throw e => exact hf h
  | stuck => exact h
  | call op k ih =>
    intro x
    obtain ⟨a, r, s', hA, ha, hx, h⟩ := h x
    exact ⟨a, r, s', hA, ha, hx, ih r h⟩

variable [∀ s i a op, Decidable (sys.allow s i a op)]

theorem play {p : Prog Res E ε α} (h : CanEnd sys i A Q R p s) (xs : Nat → Act) :
    ∃ script, (playScript sys i script p s).isSome = true ∧ (∀ step ∈ script, A step.2) ∧
      script.map (·.1) = (List.range script.length).map xs := by
  induction p generalizing s xs with
  | pure a => exact ⟨[], rfl, nofun, rfl⟩
  | throw e => exact ⟨[], rfl, nofun, rfl⟩
  | stuck => exact h.elim
  | call op k ih =>
    obtain ⟨a, r, s', hA, ha, hx, h⟩ := h (xs 0)
    obtain ⟨script, hplay, hAs, hxs⟩ := ih r h fun n => xs (n + 1)
    refine ⟨(xs 0, a) :: script, ?_, ?_, ?_⟩
    · rw [playScript_call ha hx, Option.isSome_map]
      exact hplay
    · exact List.forall_mem_cons.2 ⟨hA, hAs⟩
    · rw [List.map_cons, hxs, List.length_cons, List.range_succ_eq_map, List.map_cons, List.map_map]
      rfl

end CanEnd

end Interleave
