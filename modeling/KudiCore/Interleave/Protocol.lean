import KudiCore.Interleave.Pool

/-!
# Protocols

What one program may do is described by a protocol: a local state, the calls permitted in it, and
how the result of a call changes it. That a program obeys a protocol is read off its text alone,
call by call, and composes along `>>=` and `try`/`catch`; no other program and no store appears.
That a *system* of protocol states keeps an invariant is proved once, for one step of any party.
`Protocol.reach` puts the two together: every state the pool can reach, over any schedule, has
protocol states for all parties under which the invariant holds.

`yields` is what a party may rely on about the result of its own call; the system's step has to
justify it.
-/

namespace Interleave

structure Protocol {Op : Type} (Res : Op → Type) (E : Type) where
  State : Type
  ok : PId → State → Op → Prop
  yields : PId → State → (op : Op) → Except E (Res op) → Prop
  next : PId → State → (op : Op) → Except E (Res op) → State

namespace Protocol

variable {Op : Type} {Res : Op → Type} {E S Ans Act ε ε' α β : Type}

/-- From local state `st`, program `p` of party `i` makes permitted calls only, and where it ends
the local state and its outcome satisfy `Q`. -/
def Obeys (P : Protocol Res E) (i : PId) (Q : P.State → Except ε α → Prop) :
    Prog Res E ε α → P.State → Prop
  | .pure a, st => Q st (.ok a)
  | .throw e, st => Q st (.error e)
  | .stuck, _ => True
  | .call op k, st => P.ok i st op ∧ ∀ r, P.yields i st op r → P.Obeys i Q (k r) (P.next i st op r)

variable {P : Protocol Res E} {i : PId}

theorem Obeys.bind {p : Prog Res E ε α} {f : α → Prog Res E ε β} {R : P.State → Except ε α → Prop}
    {Q : P.State → Except ε β → Prop} {st : P.State} (hp : P.Obeys i R p st)
    (hok : ∀ st' a, R st' (.ok a) → P.Obeys i Q (f a) st')
    (herr : ∀ st' e, R st' (.error e) → Q st' (.error e)) : P.Obeys i Q (p >>= f) st := by
  induction p generalizing st with
  | pure a => exact hok st a hp
  | throw e => exact herr st e hp
  | stuck => trivial
  | call op k ih => exact ⟨hp.1, fun r hr => ih r (hp.2 r hr)⟩

theorem Obeys.tryCatch {p : Prog Res E ε α} {h : ε → Prog Res E ε' α} {R : P.State → Except ε α → Prop}
    {Q : P.State → Except ε' α → Prop} {st : P.State} (hp : P.Obeys i R p st)
    (hok : ∀ st' a, R st' (.ok a) → Q st' (.ok a))
    (herr : ∀ st' e, R st' (.error e) → P.Obeys i Q (h e) st') : P.Obeys i Q (p.tryCatch h) st := by
  induction p generalizing st with
  | pure a => exact hok st a hp
  | throw e => exact herr st e hp
  | stuck => trivial
  | call op k ih => exact ⟨hp.1, fun r hr => ih r (hp.2 r hr)⟩

theorem Obeys.mono {p : Prog Res E ε α} {Q Q' : P.State → Except ε α → Prop} {st : P.State}
    (hp : P.Obeys i Q p st) (hQ : ∀ st' x, Q st' x → Q' st' x) : P.Obeys i Q' p st := by
  induction p generalizing st with
  | pure a => exact hQ st _ hp
  | throw e => exact hQ st _ hp
  | stuck => trivial
  | call op k ih => exact ⟨hp.1, fun r hr => ih r (hp.2 r hr)⟩

/-- Two promises about the end. -/
theorem Obeys.and {p : Prog Res E ε α} {Q Q' : P.State → Except ε α → Prop} {st : P.State}
    (hp : P.Obeys i Q p st)
    (hp' : P.Obeys i Q' p st) : P.Obeys i (fun st' x => Q st' x ∧ Q' st' x) p st := by
  induction p generalizing st with
  | pure a => exact ⟨hp, hp'⟩
  | throw e => exact ⟨hp, hp'⟩
  | stuck => trivial
  | call op k ih => exact ⟨hp.1, fun r hr => ih r (hp.2 r hr) (hp'.2 r hr)⟩

theorem Obeys.mapError {p : Prog Res E ε α} {f : ε → ε'} {Q : P.State → Except ε' α → Prop} {st : P.State}
    (hp : P.Obeys i (fun st' x => Q st' (x.mapError f)) p st) : P.Obeys i Q (p.mapError f) st :=
  hp.tryCatch (fun _ _ h => h) fun _ _ h => h

theorem Obeys.await {op : Op} {Q : P.State → Except E (Res op) → Prop} {st : P.State} (hok : P.ok i st op)
    (hQ : ∀ r, P.yields i st op r → Q (P.next i st op r) r) : P.Obeys i Q (.await op) st :=
  ⟨hok, fun r hr => by cases r <;> exact hQ _ hr⟩

theorem Obeys.ofExcept {x : Except ε α} {Q : P.State → Except ε α → Prop} {st : P.State} (h : Q st x) :
    P.Obeys i Q (.ofExcept x) st := by
  cases x <;> exact h

theorem Obeys.ofExcept_bind {x : Except ε α} {f : α → Prog Res E ε β} {Q : P.State → Except ε β → Prop}
    {st : P.State} (hok : ∀ a, x = .ok a → P.Obeys i Q (f a) st) (herr : ∀ e, x = .error e → Q st (.error e)) :
    P.Obeys i Q (Prog.ofExcept x >>= f) st := by
  cases x with
  | ok a => exact hok a rfl
  | error e => exact herr e rfl

theorem Obeys.await_bind {op : Op} {f : Res op → Prog Res E E β} {Q : P.State → Except E β → Prop}
    {st : P.State}
    (hop : P.ok i st op)
    (hok : ∀ a, P.yields i st op (.ok a) → P.Obeys i Q (f a) (P.next i st op (.ok a)))
    (herr : ∀ e, P.yields i st op (.error e) → Q (P.next i st op (.error e)) (.error e)) :
    P.Obeys i Q (Prog.await op >>= f) st :=
  ⟨hop, fun r hr => by
    cases r with
    | ok a => exact hok a hr
    | error e => exact herr e hr⟩

/-- A program that only makes calls which are permitted in every state meeting `K` and keep `K`. -/
theorem Obeys.of_calls {T : Op → Prop} {K : P.State → Prop}
    (hT : ∀ st op, K st → T op → P.ok i st op ∧ ∀ r, P.yields i st op r → K (P.next i st op r))
    {p : Prog Res E ε α} (hp : p.Calls T) {st : P.State} (hK : K st) : P.Obeys i (fun st' _ => K st') p st := by
  induction p generalizing st with
  | pure a => exact hK
  | throw e => exact hK
  | stuck => trivial
  | call op k ih =>
    obtain ⟨hok, hn⟩ := hT st op hK hp.1
    exact ⟨hok, fun r hr => ih r (hp.2 r) (hn r hr)⟩

/-- The same, with what the program returns. -/
theorem Obeys.of_calls_returns {T : Op → Prop} {K : P.State → Prop} {R : α → Prop}
    (hT : ∀ st op, K st → T op → P.ok i st op ∧ ∀ r, P.yields i st op r → K (P.next i st op r))
    {p : Prog Res E ε α} (hp : p.Calls T) (hr : p.Returns R) {st : P.State} (hK : K st) :
    P.Obeys i (fun st' x => K st' ∧ ∀ a, x = .ok a → R a) p st := by
  induction p generalizing st with
  | pure a => exact ⟨hK, fun a' h => by cases h; exact hr⟩
  | throw e => exact ⟨hK, fun a' h => by cases h⟩
  | stuck => trivial
  | call op k ih =>
    obtain ⟨hok, hn⟩ := hT st op hK hp.1
    exact ⟨hok, fun r hy => ih r (hp.2 r) (hr r) (hn r hy)⟩

/-- A program that is not rejected by any of its calls, and throws nothing else. -/
theorem Obeys.of_calls_unfailing {T : Op → Prop} {K : P.State → Prop}
    (hT : ∀ st op, K st → T op →
      P.ok i st op ∧ ∀ r, P.yields i st op r → K (P.next i st op r) ∧ ∃ x, r = .ok x)
    {p : Prog Res E ε α} (hp : p.Calls T) (hu : p.Unfailing) {st : P.State} (hK : K st) :
    P.Obeys i (fun st' x => K st' ∧ ∃ a, x = .ok a) p st := by
  induction p generalizing st with
  | pure a => exact ⟨hK, a, rfl⟩
  | throw e => exact hu.elim
  | stuck => trivial
  | call op k ih =>
    obtain ⟨hok, hn⟩ := hT st op hK hp.1
    refine ⟨hok, fun r hy => ?_⟩
    obtain ⟨hK', x, rfl⟩ := hn r hy
    exact ih (.ok x) (hp.2 _) (hu x) hK'

/-! ## Calls that do not matter -/

/-- Permitted in every state, and moving none. -/
def Quiet (P : Protocol Res E) (i : PId) (op : Op) : Prop := ∀ st, P.ok i st op ∧ ∀ r, P.next i st op r = st

theorem Obeys.quiet {p : Prog Res E ε α} {R : α → Prop} (hp : p.Calls (P.Quiet i)) (hr : p.Returns R)
    (st : P.State) :
    P.Obeys i (fun st' x => st' = st ∧ ∀ a, x = .ok a → R a) p st :=
  Obeys.of_calls_returns (P := P) (K := (· = st))
    (fun st' _ hK hT => ⟨(hT st').1, fun r _ => ((hT st').2 r).trans hK⟩) hp hr rfl

theorem Obeys.quiet_returns_bind {p : Prog Res E ε α} {f : α → Prog Res E ε β} {R : α → Prop}
    {Q : P.State → Except ε β → Prop} {st : P.State} (hp : p.Calls (P.Quiet i)) (hr : p.Returns R)
    (hok : ∀ a, R a → P.Obeys i Q (f a) st) (herr : ∀ e, Q st (.error e)) : P.Obeys i Q (p >>= f) st := by
  refine (Obeys.quiet hp hr st).bind (fun st' a h => ?_) fun st' e h => ?_
  · obtain ⟨rfl, ha⟩ := h
    exact hok a (ha a rfl)
  · obtain ⟨rfl, -⟩ := h
    exact herr e

theorem Obeys.quiet_bind {p : Prog Res E ε α} {f : α → Prog Res E ε β}
    {Q : P.State → Except ε β → Prop} {st : P.State}
    (hp : p.Calls (P.Quiet i)) (hok : ∀ a, P.Obeys i Q (f a) st) (herr : ∀ e, Q st (.error e)) :
    P.Obeys i Q (p >>= f) st := .quiet_returns_bind hp p.returns_true (fun a _ => hok a) herr

/-! ## Two protocols at once -/

def prod (P P' : Protocol Res E) : Protocol Res E where
  State := P.State × P'.State
  ok i st op := P.ok i st.1 op ∧ P'.ok i st.2 op
  yields i st op r := P.yields i st.1 op r ∧ P'.yields i st.2 op r
  next i st op r := (P.next i st.1 op r, P'.next i st.2 op r)

theorem Obeys.prod {P' : Protocol Res E} {p : Prog Res E ε α} {Q : P.State → Except ε α → Prop}
    {Q' : P'.State → Except ε α → Prop} {st : P.State} {st' : P'.State} (h : P.Obeys i Q p st)
    (h' : P'.Obeys i Q' p st') :
    (P.prod P').Obeys i (fun s x => Q s.1 x ∧ Q' s.2 x) p (st, st') := by
  induction p generalizing st st' with
  | pure a => exact ⟨h, h'⟩
  | throw e => exact ⟨h, h'⟩
  | stuck => trivial
  | call op k ih =>
    exact ⟨⟨h.1, h'.1⟩, fun r hr => ih r (h.2 r hr.1) (h'.2 r hr.2)⟩

/-! ## From one step to every reachable state -/

/-- Party `j`'s state, after party `i` has come to `st`. -/
theorem update_or {State : Type} (sts : PId → State) (i j : PId) (st : State) :
    (j = i ∧ Function.update sts i st j = st) ∨ (j ≠ i ∧ Function.update sts i st j = sts j) := by
  by_cases hj : j = i
  · exact .inl ⟨hj, by rw [hj, Function.update_self]⟩
  · exact .inr ⟨hj, Function.update_of_ne hj st sts⟩

/-- `Inv` relates the store to the protocol states of all parties, and every permitted step of any
party keeps it. -/
structure Preserves (P : Protocol Res E) (sys : System Res E S Ans Act)
    (Inv : S → (PId → P.State) → Prop) : Prop where
  call : ∀ {s sts i a op r s'}, Inv s sts → P.ok i (sts i) op → sys.allow s i a op →
    sys.exec i a op s = some (r, s') →
    P.yields i (sts i) op r ∧ Inv s' (Function.update sts i (P.next i (sts i) op r))
  act : ∀ {s sts} x, Inv s sts → Inv (sys.act x s) sts

/-- Two protocols at once keep what their steps keep together. -/
theorem Preserves.of_prod {P R : Protocol Res E} {sys : System Res E S Ans Act}
    {I : S → (PId → P.State) → (PId → R.State) → Prop}
    (call : ∀ {s sts sts' i a op r s'}, I s sts sts' → P.ok i (sts i) op → R.ok i (sts' i) op →
      sys.allow s i a op → sys.exec i a op s = some (r, s') →
      (P.yields i (sts i) op r ∧ R.yields i (sts' i) op r) ∧
        I s' (Function.update sts i (P.next i (sts i) op r)) (Function.update sts' i (R.next i (sts' i) op r)))
    (act : ∀ {s sts sts'} x, I s sts sts' → I (sys.act x s) sts sts') :
    (P.prod R).Preserves sys fun s sts => I s (fun i => (sts i).1) fun i => (sts i).2 where
  call {s sts i a op r s'} h hok ha hx := by
    obtain ⟨hy, hI⟩ := call h hok.1 hok.2 ha hx
    have hfst := Function.comp_update Prod.fst sts i ((P.prod R).next i (sts i) op r)
    have hsnd := Function.comp_update Prod.snd sts i ((P.prod R).next i (sts i) op r)
    refine ⟨hy, ?_⟩
    show I s' (Prod.fst ∘ Function.update sts i ((P.prod R).next i (sts i) op r))
      (Prod.snd ∘ Function.update sts i ((P.prod R).next i (sts i) op r))
    rw [hfst, hsnd]
    exact hI
  act x h := act x h

/-- The pool is in protocol states `sts`. -/
def Tracks (P : Protocol Res E) (Inv : S → (PId → P.State) → Prop)
    (Q : PId → P.State → Except ε α → Prop) (c : Config Res E S ε α) (sts : PId → P.State) : Prop :=
  Inv c.store sts ∧ ∀ i, P.Obeys i (Q i) (c.pool i) (sts i)

variable {sys : System Res E S Ans Act} {Inv : S → (PId → P.State) → Prop}
  {Q : PId → P.State → Except ε α → Prop}

/-- A step leaves a program and its protocol state alone, or takes the program further. -/
theorem tracks_step_moves (hpres : P.Preserves sys Inv) {c c' : Config Res E S ε α} {sts : PId → P.State}
    (h : P.Tracks Inv Q c sts) (hs : sys.Step c c') : ∃ sts', P.Tracks Inv Q c' sts' ∧
      ∀ i, (c'.pool i = c.pool i ∧ sts' i = sts i) ∨ (c'.pool i).Continues (c.pool i) := by
  obtain ⟨hI, hO⟩ := h
  cases hs with
  | @call i op k a r s' hp ha hx =>
    have hi := hO i
    rw [hp] at hi
    obtain ⟨hy, hI'⟩ := hpres.call hI hi.1 ha hx
    refine ⟨_, ⟨hI', fun j => ?_⟩, fun j => ?_⟩ <;> by_cases hj : j = i
    · subst hj
      simpa using hi.2 r hy
    · simpa [hj] using hO j
    · subst hj
      exact .inr ⟨op, k, r, hp, by simp⟩
    · exact .inl ⟨by simp [hj], by simp [hj]⟩
  | act x => exact ⟨sts, ⟨hpres.act x hI, hO⟩, fun i => .inl ⟨rfl, rfl⟩⟩

theorem tracks_step (hpres : P.Preserves sys Inv) {c c' : Config Res E S ε α} {sts : PId → P.State}
    (h : P.Tracks Inv Q c sts) (hs : sys.Step c c') :
    ∃ sts', P.Tracks Inv Q c' sts' := by
  obtain ⟨sts', h', -⟩ := tracks_step_moves hpres h hs
  exact ⟨sts', h'⟩

theorem reach (hpres : P.Preserves sys Inv) {c c' : Config Res E S ε α} {sts : PId → P.State}
    (h : P.Tracks Inv Q c sts) (hr : sys.Reach c c') : ∃ sts', P.Tracks Inv Q c' sts' := by
  induction hr with
  | refl => exact ⟨sts, h⟩
  | tail _ hs ih =>
    obtain ⟨sts1, h1⟩ := ih
    exact tracks_step hpres h1 hs

/-- The same, with the programs that have not started: their protocol states have not changed. -/
theorem reach_unmoved (hpres : P.Preserves sys Inv) {c c' : Config Res E S ε α} {sts : PId → P.State}
    (h : P.Tracks Inv Q c sts) (hr : sys.Reach c c') : ∃ sts', P.Tracks Inv Q c' sts' ∧
      ∀ i, c'.pool i = c.pool i → sts' i = sts i := by
  have hmoves : ∃ sts', P.Tracks Inv Q c' sts' ∧ ∀ i, (c'.pool i = c.pool i ∧ sts' i = sts i) ∨
      Relation.TransGen Prog.Continues (c'.pool i) (c.pool i) := by
    induction hr with
    | refl => exact ⟨sts, h, fun i => .inl ⟨rfl, rfl⟩⟩
    | tail _ hs ih =>
      obtain ⟨sts1, h1, hm1⟩ := ih
      obtain ⟨sts2, h2, hm2⟩ := tracks_step_moves hpres h1 hs
      refine ⟨sts2, h2, fun i => ?_⟩
      rcases hm2 i with ⟨hp, hst⟩ | hp
      · rw [hp, hst]
        exact hm1 i
      · rcases hm1 i with ⟨hp1, -⟩ | hp1
        · exact .inr (hp1 ▸ .single hp)
        · exact .inr (.head hp hp1)
  obtain ⟨sts', h', hm⟩ := hmoves
  refine ⟨sts', h', fun i hi => ?_⟩
  rcases hm i with ⟨-, hst⟩ | hp
  · exact hst
  · exact absurd (hi ▸ hp) (Prog.not_continues_self _)

/-- The same, with those that have made a call since `c`: `Inv` may say who has done what. -/
theorem reach_moving {Inv : S → (PId → P.State) → (PId → Prop) → Prop}
    (call : ∀ {s sts moved i a op r s'}, Inv s sts moved → P.ok i (sts i) op → sys.allow s i a op →
      sys.exec i a op s = some (r, s') → P.yields i (sts i) op r ∧
        Inv s' (Function.update sts i (P.next i (sts i) op r)) fun j => j = i ∨ moved j)
    (act : ∀ {s sts moved} x, Inv s sts moved → Inv (sys.act x s) sts moved)
    {c c' : Config Res E S ε α} {sts : PId → P.State} (h : Inv c.store sts fun _ => False)
    (hobeys : ∀ i, P.Obeys i (Q i) (c.pool i) (sts i)) (hr : sys.Reach c c') :
    ∃ sts' moved, Inv c'.store sts' moved ∧ (∀ i, P.Obeys i (Q i) (c'.pool i) (sts' i)) ∧
      ∀ i, moved i → c'.pool i ≠ c.pool i := by
  have hmoves : ∃ sts' moved, Inv c'.store sts' moved ∧
      (∀ i, P.Obeys i (Q i) (c'.pool i) (sts' i)) ∧
      ∀ i, (c'.pool i = c.pool i ∧ ¬ moved i) ∨
        Relation.TransGen Prog.Continues (c'.pool i) (c.pool i) := by
    induction hr with
    | refl => exact ⟨sts, _, h, hobeys, fun i => .inl ⟨rfl, not_false⟩⟩
    | tail _ hs ih =>
      obtain ⟨sts1, moved, hI, hO, hm⟩ := ih
      cases hs with
      | @call i op k a r s' hp ha hx =>
        have hi := hO i
        rw [hp] at hi
        obtain ⟨hy, hI'⟩ := call hI hi.1 ha hx
        refine ⟨_, _, hI', fun j => ?_, fun j => ?_⟩ <;> by_cases hj : j = i
        · subst hj
          simpa using hi.2 r hy
        · simpa [hj] using hO j
        · subst hj
          have hcontinues : (k r).Continues (.call op k) := ⟨op, k, r, rfl, rfl⟩
          refine .inr ?_
          dsimp only
          rw [Function.update_self]
          rcases hm j with ⟨hsame, -⟩ | hpast
          · exact .single (by rwa [← hsame, hp])
          · exact .head hcontinues (hp ▸ hpast)
        · rcases hm j with ⟨hsame, hstill⟩ | hpast
          · refine .inl ⟨by simpa [hj] using hsame, ?_⟩
            rintro (he | hmoved)
            · exact hj he
            · exact hstill hmoved
          · exact .inr (by simpa [hj] using hpast)
      | act x => exact ⟨sts1, moved, act x hI, hO, hm⟩
  obtain ⟨sts', moved, hI, hO, hm⟩ := hmoves
  refine ⟨sts', moved, hI, hO, fun i hi he => ?_⟩
  rcases hm i with ⟨-, hstill⟩ | hpast
  · exact hstill hi
  · exact Prog.not_continues_self _ (he ▸ hpast)

/-- At the end of a program its protocol state and outcome are related as promised. -/
theorem Tracks.ended {c : Config Res E S ε α} {sts : PId → P.State} (h : P.Tracks Inv Q c sts) {i : PId}
    {x : Except ε α} (hx : c.Ended i x) : Q i (sts i) x := by
  have hi := h.2 i
  cases x with
  | ok a => rwa [Config.ended_ok.1 hx] at hi
  | error e => rwa [Config.ended_error.1 hx] at hi

end Protocol

end Interleave
