import Mathlib.Logic.Relation
import KudiCore.Interleave.Prog

/-!
# Programs over a shared store

Any number of programs, one for each `PId`, run over one store. One step of the pool executes the
next call of one program; the other programs stay where they are. How the call comes out may
depend on the outside world (a failure, a random value, a provider's reply), which is the answer
`Ans` of the step; `exec` is `none` where the answer does not fit the call, or the call is blocked.
`act` is what can happen to the store with no program taking part, such as time passing.

`allow` restricts the schedules under consideration: by the answer (no failures, say) or by the
state before the step.
-/

namespace Interleave

abbrev PId := Nat

structure System {Op : Type} (Res : Op → Type) (E S Ans Act : Type) where
  exec : PId → Ans → (op : Op) → S → Option (Except E (Res op) × S)
  act : Act → S → S
  allow : S → PId → Ans → Op → Prop

structure Config {Op : Type} (Res : Op → Type) (E S ε α : Type) where
  store : S
  pool : PId → Prog Res E ε α

variable {Op : Type} {Res : Op → Type} {E S Ans Act ε α : Type}

namespace Config

/-- Program `i` has run to its end with outcome `x`. -/
def Ended (c : Config Res E S ε α) (i : PId) (x : Except ε α) : Prop := (c.pool i).outcome? = some x

instance [DecidableEq ε] [DecidableEq α] (c : Config Res E S ε α) (i : PId) (x : Except ε α) :
    Decidable (c.Ended i x) :=
  match hp : c.pool i, x with
  | .pure a, .ok b => decidable_of_iff (a = b) (by simp [Ended, hp, Prog.outcome?])
  | .throw e, .error e' => decidable_of_iff (e = e') (by simp [Ended, hp, Prog.outcome?])
  | .pure a, .error e' => isFalse (by simp [Ended, hp, Prog.outcome?])
  | .throw e, .ok b => isFalse (by simp [Ended, hp, Prog.outcome?])
  | .stuck, _ => isFalse (by simp [Ended, hp, Prog.outcome?])
  | .call op k, _ => isFalse (by simp [Ended, hp, Prog.outcome?])

theorem ended_ok {c : Config Res E S ε α} {i : PId} {a : α} : c.Ended i (.ok a) ↔ c.pool i = .pure a := by
  unfold Ended
  cases c.pool i <;> simp [Prog.outcome?]

theorem ended_error {c : Config Res E S ε α} {i : PId} {e : ε} :
    c.Ended i (.error e) ↔ c.pool i = .throw e := by
  unfold Ended
  cases c.pool i <;> simp [Prog.outcome?]

end Config

namespace System

variable (sys : System Res E S Ans Act)

inductive Step : Config Res E S ε α → Config Res E S ε α → Prop
  | call {c : Config Res E S ε α} {i : PId} {op : Op} {k : Except E (Res op) → Prog Res E ε α} {a : Ans}
      {r : Except E (Res op)} {s' : S} (hp : c.pool i = .call op k) (ha : sys.allow c.store i a op)
      (hx : sys.exec i a op c.store = some (r, s')) : Step c ⟨s', Function.update c.pool i (k r)⟩
  | act {c : Config Res E S ε α} (x : Act) : Step c ⟨sys.act x c.store, c.pool⟩

/-- Any schedule, of any length. -/
abbrev Reach : Config Res E S ε α → Config Res E S ε α → Prop := Relation.ReflTransGen sys.Step

/-! ## Where a run comes through -/

/-- A run from `c` to `c'` can have come through the store `s`. -/
def Through (c c' : Config Res E S ε α) (s : S) : Prop := ∃ c1, sys.Reach c c1 ∧ sys.Reach c1 c' ∧ c1.store = s

/-- The same system, where the store is to meet `P` before each call. -/
def restrict (P : S → Prop) : System Res E S Ans Act := { sys with allow s i a op := sys.allow s i a op ∧ P s }

variable {sys} in
theorem Step.restrict_mono {P P' : S → Prop} (hP : ∀ s, P s → P' s) {c c' : Config Res E S ε α}
    (h : (sys.restrict P).Step c c') : (sys.restrict P').Step c c' := by
  cases h with
  | call hp ha hx => exact Step.call hp ⟨ha.1, hP _ ha.2⟩ hx
  | act x => exact Step.act x

/-- A run comes through no other stores than these. -/
theorem reach_through {c c' : Config Res E S ε α} (h : sys.Reach c c') :
    (sys.restrict (sys.Through c c')).Reach c c' := by
  induction h with
  | refl => exact .refl
  | @tail c1 c2 h1 hs ih =>
    have hmore : ∀ s, sys.Through c c1 s → sys.Through c c2 s := by
      rintro s ⟨cs, hbefore, hafter, hstore⟩
      exact ⟨cs, hbefore, hafter.tail hs, hstore⟩
    have hhere : sys.Through c c2 c1.store := ⟨c1, h1, .single hs, rfl⟩
    have hbefore : (sys.restrict (sys.Through c c2)).Reach c c1 :=
      Relation.ReflTransGen.mono (fun _ _ => Step.restrict_mono hmore) _ _ ih
    refine hbefore.tail ?_
    cases hs with
    | call hp ha hx => exact Step.call hp ⟨ha, hhere⟩ hx
    | act x => exact Step.act x

/-! ## Playing a concrete schedule -/

inductive Move (Ans Act : Type) where
  | call (i : PId) (a : Ans)
  | act (x : Act)

/-- Program `i` makes as many calls as there are answers. -/
def calls (i : PId) (answers : List Ans) : List (Move Ans Act) := answers.map (.call i)

variable [∀ s i a op, Decidable (sys.allow s i a op)]

def move (c : Config Res E S ε α) : Move Ans Act → Option (Config Res E S ε α)
  | .act x => some ⟨sys.act x c.store, c.pool⟩
  | .call i a => match c.pool i with
    | .call op k =>
      if sys.allow c.store i a op then
        (sys.exec i a op c.store).map fun r => ⟨r.2, Function.update c.pool i (k r.1)⟩
      else none
    | _ => none

/-- The schedule `ms`, as far as every move of it can be made. -/
def play : List (Move Ans Act) → Config Res E S ε α → Option (Config Res E S ε α)
  | [], c => some c
  | m :: ms, c => (sys.move c m).bind (play ms)

theorem step_of_move {c c' : Config Res E S ε α} {m : Move Ans Act} (h : sys.move c m = some c') :
    sys.Step c c' := by
  cases m with
  | act x =>
    simp only [move, Option.some.injEq] at h
    exact h ▸ .act x
  | call i a =>
    simp only [move] at h
    split at h
    · rename_i op k hp
      split at h
      · rename_i ha
        obtain ⟨⟨r, s'⟩, hx, rfl⟩ := Option.map_eq_some_iff.1 h
        exact .call hp ha hx
      · cases h
    · cases h

theorem reach_of_play {ms : List (Move Ans Act)} : ∀ {c c' : Config Res E S ε α}, sys.play ms c = some c' →
    sys.Reach c c' := by
  induction ms with
  | nil =>
    intro c c' h
    simp only [play, Option.some.injEq] at h
    exact h ▸ .refl
  | cons m ms ih =>
    intro c c' h
    simp only [play, Option.bind_eq_some_iff] at h
    obtain ⟨c1, h1, h2⟩ := h
    exact .head (sys.step_of_move h1) (ih h2)

/-- The state a schedule leads to, where every move of it can be made. -/
theorem reach_play {ms : List (Move Ans Act)} {c : Config Res E S ε α} (h : (sys.play ms c).isSome) :
    sys.Reach c ((sys.play ms c).get h) :=
  sys.reach_of_play (Option.some_get h).symm

/-- ... and what is seen there. -/
theorem play_seen {ms : List (Move Ans Act)} {c : Config Res E S ε α} {Q : Config Res E S ε α → Prop}
    [DecidablePred Q] (h : (sys.play ms c).any fun c' => Q c') : ∃ c', sys.play ms c = some c' ∧ Q c' := by
  rw [Option.any_eq_true_iff_get] at h
  obtain ⟨hplay, hQ⟩ := h
  exact ⟨_, (Option.some_get hplay).symm, of_decide_eq_true hQ⟩

def Move.isCallOf (i : PId) : Move Ans Act → Bool
  | .call j _ => j == i
  | .act _ => false

/-- A program that makes no call of the schedule is where it was. -/
theorem pool_of_play {i : PId} {ms : List (Move Ans Act)} : ∀ {c c' : Config Res E S ε α},
    ms.any (Move.isCallOf i) = false → sys.play ms c = some c' → c'.pool i = c.pool i := by
  induction ms with
  | nil =>
    intro c c' _ h
    simp only [play, Option.some.injEq] at h
    rw [h]
  | cons m ms ih =>
    intro c c' hi h
    simp only [List.any_cons, Bool.or_eq_false_iff] at hi
    simp only [play, Option.bind_eq_some_iff] at h
    obtain ⟨c1, h1, h2⟩ := h
    rw [ih hi.2 h2]
    cases m with
    | act x =>
      simp only [move, Option.some.injEq] at h1
      rw [← h1]
    | call j a =>
      have hji : i ≠ j := fun e => by simp [Move.isCallOf, e] at hi
      simp only [move] at h1
      split at h1
      · split at h1
        · obtain ⟨r, -, rfl⟩ := Option.map_eq_some_iff.1 h1
          exact Function.update_of_ne hji ..
        · cases h1
      · cases h1

end System

end Interleave
