import KudiCore.Interleave.Run

/-!
# Before and after a run

| here | there |
| --- | --- |
| `Triple` | from a store meeting `K`, a run of `p` that returns `a` ends in `Q a`, one that throws `e` in `R e` |
| `Upholds`  | the same `K` before and after, however the run ends |

`Protocol` follows what a program has done, for any number of programs at once. Where one program runs at a time the
store itself can be followed: the rules below read a triple off the program's text, call by call.
-/

namespace Interleave

variable {Op : Type} {Res : Op → Type} {E S Ans Act ε ε' α β : Type}

structure Triple (sys : System Res E S Ans Act) (env : S → S → Prop) (i : PId) (K : S → Prop)
    (p : Prog Res E ε α)
    (Q : α → S → Prop) (R : ε → S → Prop) : Prop where
  returns : ∀ {s tr a s'}, K s → Run sys env i p s tr (.ok a) s' → Q a s'
  throws : ∀ {s tr e s'}, K s → Run sys env i p s tr (.error e) s' → R e s'

/-- What a run starts with, it ends with. -/
def Upholds (sys : System Res E S Ans Act) (env : S → S → Prop) (i : PId) (K : S → Prop)
    (p : Prog Res E ε α) : Prop :=
  Triple sys env i K p (fun _ => K) fun _ => K

namespace Triple

variable {sys : System Res E S Ans Act} {env : S → S → Prop} {i : PId} {K K' : S → Prop}
  {Q Q' : α → S → Prop}
  {R R' : ε → S → Prop}

theorem run {p : Prog Res E ε α} {s s' : S} {tr : List (Event Res E S)} {x : Except ε α}
    (hp : Triple sys env i K p Q R) (h : Run sys env i p s tr x s') (hK : K s) :
    (∃ a, x = .ok a ∧ Q a s') ∨ ∃ e, x = .error e ∧ R e s' := by
  rcases x with e | a
  · exact .inr ⟨e, rfl, hp.throws hK h⟩
  · exact .inl ⟨a, rfl, hp.returns hK h⟩

/-! ## Consequence -/

theorem mono {p : Prog Res E ε α} (hp : Triple sys env i K p Q R) (hK : ∀ s, K' s → K s)
    (hQ : ∀ a s, Q a s → Q' a s)
    (hR : ∀ e s, R e s → R' e s) : Triple sys env i K' p Q' R' where
  returns h hr := hQ _ _ (hp.returns (hK _ h) hr)
  throws h hr := hR _ _ (hp.throws (hK _ h) hr)

/-- A precondition may name what it is about. -/
theorem of_forall {γ : Type} {f : S → γ} {I : γ → Prop} {p : Prog Res E ε α}
    (hp : ∀ g, I g → Triple sys env i (fun s => f s = g) p Q R) : Triple sys env i (fun s => I (f s)) p Q R where
  returns h := (hp _ h).returns rfl
  throws h := (hp _ h).throws rfl

theorem of_exists {γ : Type} {J : γ → S → Prop} {p : Prog Res E ε α}
    (hp : ∀ g, Triple sys env i (J g) p Q R) :
    Triple sys env i (fun s => ∃ g, J g s) p Q R where
  returns := fun ⟨g, h⟩ => (hp g).returns h
  throws := fun ⟨g, h⟩ => (hp g).throws h

theorem of_and {φ : Prop} {p : Prog Res E ε α} (hp : φ → Triple sys env i K p Q R) :
    Triple sys env i (fun s => φ ∧ K s) p Q R where
  returns := fun ⟨hφ, h⟩ => (hp hφ).returns h
  throws := fun ⟨hφ, h⟩ => (hp hφ).throws h

/-! ## One rule for each way to build a program -/

theorem pure {a : α} (h : ∀ s, K s → Q a s) : Triple sys env i K (.pure a : Prog Res E ε α) Q R where
  returns hK hr := by
    obtain ⟨-, ha, rfl⟩ := hr
    cases ha
    exact h _ hK
  throws _ hr := nomatch hr.2.1

theorem throw {e : ε} (h : ∀ s, K s → R e s) : Triple sys env i K (.throw e : Prog Res E ε α) Q R where
  returns _ hr := nomatch hr.2.1
  throws hK hr := by
    obtain ⟨-, he, rfl⟩ := hr
    cases he
    exact h _ hK

theorem bind {p : Prog Res E ε α} {f : α → Prog Res E ε β} {M : α → S → Prop} {Q : β → S → Prop}
    (hp : Triple sys env i K p M R) (hf : ∀ a, Triple sys env i (M a) (f a) Q R) :
    Triple sys env i K (p >>= f) Q R where
  returns hK hr := by
    rcases hr.bind with ⟨a, s1, tr1, tr2, h1, h2, -⟩ | ⟨e, he, -⟩
    · exact (hf a).returns (hp.returns hK h1) h2
    · cases he
  throws hK hr := by
    rcases hr.bind with ⟨a, s1, tr1, tr2, h1, h2, -⟩ | ⟨e, he, h1⟩
    · exact (hf a).throws (hp.returns hK h1) h2
    · cases he
      exact hp.throws hK h1

theorem tryCatch {p : Prog Res E ε α} {h : ε → Prog Res E ε' α} {M : ε → S → Prop} {R : ε' → S → Prop}
    (hp : Triple sys env i K p Q M) (hh : ∀ e, Triple sys env i (M e) (h e) Q R) :
    Triple sys env i K (p.tryCatch h) Q R where
  returns hK hr := by
    rcases hr.tryCatch with ⟨a, ha, h1⟩ | ⟨e, s1, tr1, tr2, h1, h2, -⟩
    · cases ha
      exact hp.returns hK h1
    · exact (hh e).returns (hp.throws hK h1) h2
  throws hK hr := by
    rcases hr.tryCatch with ⟨a, ha, -⟩ | ⟨e, s1, tr1, tr2, h1, h2, -⟩
    · cases ha
    · exact (hh e).throws (hp.throws hK h1) h2

theorem mapError {p : Prog Res E ε α} {f : ε → ε'} {R : ε' → S → Prop}
    (hp : Triple sys env i K p Q fun e => R (f e)) : Triple sys env i K (p.mapError f) Q R :=
  hp.tryCatch fun _ => .throw fun _ h => h

theorem ofExcept {x : Except ε α} (hok : ∀ a s, x = .ok a → K s → Q a s)
    (herr : ∀ e s, x = .error e → K s → R e s) :
    Triple sys env i K (.ofExcept x : Prog Res E ε α) Q R := by
  cases x with
  | ok a => exact .pure fun s => hok a s rfl
  | error e => exact .throw fun s => herr e s rfl

theorem ofExcept_bind {x : Except ε α} {f : α → Prog Res E ε β} {Q : β → S → Prop}
    (hok : ∀ a, x = .ok a → Triple sys env i K (f a) Q R) (herr : ∀ e s, x = .error e → K s → R e s) :
    Triple sys env i K (Prog.ofExcept x >>= f) Q R := by
  cases x with
  | ok a => exact hok a rfl
  | error e => exact .throw fun s => herr e s rfl

/-- A single call, made once what happens in the meantime has happened. -/
theorem await {op : Op} {Q : Res op → S → Prop} {R : E → S → Prop}
    (henv : ∀ {s s'}, env s s' → K s → K s')
    (hok : ∀ {s a v s'}, K s → sys.allow s i a op → sys.exec i a op s = some (.ok v, s') → Q v s')
    (herr : ∀ {s a e s'}, K s → sys.allow s i a op → sys.exec i a op s = some (.error e, s') → R e s') :
    Triple sys env i K (Prog.await op) Q R where
  returns hK hr := by
    obtain ⟨s1, a, hs, ha, hx, -⟩ := hr.await
    exact hok (henv hs hK) ha hx
  throws hK hr := by
    obtain ⟨s1, a, hs, ha, hx, -⟩ := hr.await
    exact herr (henv hs hK) ha hx

/-! ## Programs whose calls all keep `K` -/

theorem of_calls_returns {T : Op → Prop} {p : Prog Res E ε α} {P : α → Prop} (hp : p.Calls T) (hr : p.Returns P)
    (henv : ∀ {s s'}, env s s' → K s → K s')
    (hT : ∀ {s op a r s'}, K s → T op → sys.allow s i a op → sys.exec i a op s = some (r, s') → K s') :
    Triple sys env i K p (fun a s => P a ∧ K s) fun _ => K := by
  have kept : ∀ {p : Prog Res E ε α} {s tr x s'}, p.Calls T → Run sys env i p s tr x s' → K s → K s' := by
    intro p
    induction p with
    | pure a => exact fun _ h hK => h.2.2 ▸ hK
    | throw e => exact fun _ h hK => h.2.2 ▸ hK
    | stuck => exact fun _ h => h.elim
    | call op k ih =>
      intro s tr x s' hp h hK
      obtain ⟨s1, a, r, s2, rest, hs, ha, hx, -, h⟩ := h
      exact ih r (hp.2 r) h (hT (henv hs hK) hp.1 ha hx)
  exact ⟨fun hK h => ⟨h.returns hr, kept hp h hK⟩, fun hK h => kept hp h hK⟩

/-- ... and are never refused. -/
theorem of_calls_unfailing {T : Op → Prop} {p : Prog Res E ε α} {P : α → Prop} (hp : p.Calls T)
    (hu : p.Unfailing)
    (hr : p.Returns P) (henv : ∀ {s s'}, env s s' → K s → K s')
    (hT : ∀ {s op a r s'}, K s → T op → sys.allow s i a op → sys.exec i a op s = some (r, s') →
      K s' ∧ ∃ v, r = .ok v) :
    Triple sys env i K p (fun a s => P a ∧ K s) fun _ _ => False := by
  have hkept := of_calls_returns (K := K) hp hr henv fun h hop ha hx => (hT h hop ha hx).1
  refine ⟨hkept.returns, fun {s tr e s'} hK h => ?_⟩
  clear hkept hr
  induction p generalizing s tr with
  | pure a => cases h.2.1
  | throw e => exact hu
  | stuck => exact h
  | call op k ih =>
    obtain ⟨s1, a, r, s2, rest, hs, ha, hx, -, h⟩ := h
    obtain ⟨hK', v, rfl⟩ := hT (henv hs hK) hp.1 ha hx
    exact ih (.ok v) (hp.2 _) (hu v) hK' h

end Triple

namespace Upholds

variable {sys : System Res E S Ans Act} {env : S → S → Prop} {i : PId} {K : S → Prop}

theorem bind {p : Prog Res E ε α} {f : α → Prog Res E ε β} (hp : Upholds sys env i K p)
    (hf : ∀ a, Upholds sys env i K (f a)) : Upholds sys env i K (p >>= f) := Triple.bind hp hf

theorem tryCatch {p : Prog Res E ε α} {h : ε → Prog Res E ε' α} (hp : Upholds sys env i K p)
    (hh : ∀ e, Upholds sys env i K (h e)) : Upholds sys env i K (p.tryCatch h) := Triple.tryCatch hp hh

theorem pure {a : α} : Upholds sys env i K (.pure a : Prog Res E ε α) := Triple.pure fun _ h => h

theorem throw {e : ε} : Upholds sys env i K (.throw e : Prog Res E ε α) := Triple.throw fun _ h => h

theorem of_calls {T : Op → Prop} {p : Prog Res E ε α} (hp : p.Calls T)
    (henv : ∀ {s s'}, env s s' → K s → K s')
    (hT : ∀ {s op a r s'}, K s → T op → sys.allow s i a op → sys.exec i a op s = some (r, s') → K s') :
    Upholds sys env i K p :=
  (Triple.of_calls_returns (K := K) hp p.returns_true (fun h => henv h) fun h => hT h).mono (fun _ h => h)
    (fun _ _ h => h.2) fun _ _ h => h

theorem run {p : Prog Res E ε α} {s s' : S} {tr : List (Event Res E S)} {x : Except ε α}
    (hp : Upholds sys env i K p)
    (h : Run sys env i p s tr x s') (hK : K s) : K s' := by
  rcases Triple.run hp h hK with ⟨a, -, h⟩ | ⟨e, -, h⟩ <;> exact h

end Upholds

/-! ## One run after another -/

/-- Some party runs one of the programs, from `s` to `s'`. -/
def Serves {R : Type} (sys : System Res E S Ans Act) (env : S → S → Prop) (program : R → Prog Res E ε α)
    (s s' : S) : Prop :=
  ∃ i request tr x, Run sys env i (program request) s tr x s'

/-- **What every run keeps, any number of them one after another keep.** -/
theorem Serves.invariant {R : Type} {sys : System Res E S Ans Act} {env : S → S → Prop}
    {program : R → Prog Res E ε α}
    {K : S → Prop} {s s' : S} (h : Relation.ReflTransGen (Serves sys env program) s s')
    (hp : ∀ i request, Upholds sys env i K (program request)) (hK : K s) : K s' := by
  induction h with
  | refl => exact hK
  | tail _ hs ih =>
    obtain ⟨i, request, tr, x, hr⟩ := hs
    exact (hp i request).run hr ih

end Interleave
