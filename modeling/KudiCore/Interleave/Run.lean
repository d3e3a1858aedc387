import KudiCore.Interleave.Protocol

/-!
# One program's run

The other end of the telescope from `Pool`: a single program from its first call to its outcome,
with the calls it made on record. `env` is what may happen to the store between two of them:
nothing, time passing, other programs.

A run of `p >>= f` or of a `try` block is one run after another (`Run.bind`, `Run.tryCatch`), and a
program that obeys a protocol ends as the protocol promises (`Run.obeys`), where `K` ties the
protocol state to the store.
-/

namespace Interleave

/-- One call, as it was executed. -/
structure Event {Op : Type} (Res : Op → Type) (E S : Type) where
  op : Op
  result : Except E (Res op)
  before : S
  after : S

variable {Op : Type} {Res : Op → Type} {E S Ans Act ε ε' α β : Type}

/-- What the call was rejected with. -/
def Event.error? (e : Event Res E S) : Option E :=
  match e.result with
  | .ok _ => none
  | .error error => some error

def Event.rejected (e : Event Res E S) : Bool := e.error?.isSome

/-- No call was rejected. -/
def Through (tr : List (Event Res E S)) : Prop := ∀ e ∈ tr, e.rejected = false

/-- The last call was rejected, one that meets `T`, and no other. -/
def Stopped (T : Op → Prop) (tr : List (Event Res E S)) : Prop :=
  ∃ before last, tr = before ++ [last] ∧ Through before ∧ last.rejected = true ∧ T last.op

namespace Through

variable {e : Event Res E S} {tr tr' : List (Event Res E S)}

theorem nil : Through ([] : List (Event Res E S)) := fun _ h => (nomatch h)

theorem cons (he : e.rejected = false) (h : Through tr) : Through (e :: tr) := List.forall_mem_cons.2 ⟨he, h⟩

theorem append (h : Through tr) (h' : Through tr') : Through (tr ++ tr') := List.forall_mem_append.2 ⟨h, h'⟩

end Through

namespace Stopped

variable {T T' : Op → Prop} {e : Event Res E S} {tr tr' : List (Event Res E S)}

theorem last (he : e.rejected = true) (hT : T e.op) : Stopped T [e] := ⟨[], e, rfl, .nil, he, hT⟩

theorem append (h : Through tr) (h' : Stopped T tr') : Stopped T (tr ++ tr') := by
  obtain ⟨before, last, rfl, hbefore, hlast⟩ := h'
  exact ⟨tr ++ before, last, (List.append_assoc ..).symm, h.append hbefore, hlast⟩

theorem cons (he : e.rejected = false) (h : Stopped T tr) : Stopped T (e :: tr) := h.append (Through.nil.cons he)

theorem mono (h : Stopped T tr) (hT : ∀ e ∈ tr, T e.op → T' e.op) : Stopped T' tr := by
  obtain ⟨before, last, rfl, hbefore, hlast, hop⟩ := h
  exact ⟨before, last, rfl, hbefore, hlast, hT last (List.mem_append_right _ (List.mem_singleton_self _)) hop⟩

/-- It is the one call that was rejected. -/
theorem not_of_disjoint (h : Stopped T tr) (hT : ∀ op, T op → ¬ T' op) : ¬ Stopped T' tr := by
  rintro ⟨before', last', heq, -, -, hop'⟩
  obtain ⟨before, last, rfl, -, -, hop⟩ := h
  obtain ⟨-, hlast⟩ := List.append_inj' heq rfl
  cases hlast
  exact hT _ hop hop'

theorem not_through (h : Stopped T tr) : ¬ Through tr := by
  obtain ⟨before, last, rfl, -, hlast, -⟩ := h
  exact fun hthrough => absurd (hthrough last (List.mem_append_right _ (List.mem_singleton_self _))) (by simp [hlast])

/-- What came before does not matter. -/
theorem of_append (h : Through tr) (h' : Stopped T (tr ++ tr')) : Stopped T tr' := by
  obtain ⟨before, last, heq, hbefore, hlast⟩ := h'
  rcases tr'.eq_nil_or_concat with rfl | ⟨before', last', rfl⟩
  · rw [List.append_nil] at heq
    exact absurd (h last (heq ▸ List.mem_append_right _ (List.mem_singleton_self _))) (by simp [hlast.1])
  · rw [List.concat_eq_append, ← List.append_assoc] at heq
    obtain ⟨rfl, hsame⟩ := List.append_inj' heq rfl
    cases hsame
    exact ⟨before', last, List.concat_eq_append .., fun e he => hbefore e (List.mem_append_right _ he), hlast⟩

end Stopped

/-- Program `p` of party `i`, from store `s`, makes the calls `tr`, ends with `x` and leaves `s'`. -/
def Run (sys : System Res E S Ans Act) (env : S → S → Prop) (i : PId) :
    Prog Res E ε α → S → List (Event Res E S) → Except ε α → S → Prop
  | .pure a, s, tr, x, s' => tr = [] ∧ x = .ok a ∧ s' = s
  | .throw e, s, tr, x, s' => tr = [] ∧ x = .error e ∧ s' = s
  | .stuck, _, _, _, _ => False
  | .call op k, s, tr, x, s' => ∃ s1 a r s2 rest, env s s1 ∧ sys.allow s1 i a op ∧
      sys.exec i a op s1 = some (r, s2) ∧ tr = ⟨op, r, s1, s2⟩ :: rest ∧ Run sys env i (k r) s2 rest x s'

namespace Run

variable {sys : System Res E S Ans Act} {env : S → S → Prop} {i : PId} {s s' : S} {tr : List (Event Res E S)}

/-! ## Taking a run apart -/

theorem bind {p : Prog Res E ε α} {f : α → Prog Res E ε β} {x : Except ε β}
    (h : Run sys env i (p >>= f) s tr x s') :
    (∃ a s1 tr1 tr2, Run sys env i p s tr1 (.ok a) s1 ∧ Run sys env i (f a) s1 tr2 x s' ∧ tr = tr1 ++ tr2) ∨
      ∃ e, x = .error e ∧ Run sys env i p s tr (.error e) s' := by
  induction p generalizing s tr with
  | pure a => exact .inl ⟨a, s, [], tr, ⟨rfl, rfl, rfl⟩, h, rfl⟩
  | throw e =>
    obtain ⟨rfl, rfl, rfl⟩ := h
    exact .inr ⟨e, rfl, rfl, rfl, rfl⟩
  | stuck => exact h.elim
  | call op k ih =>
    obtain ⟨s1, a, r, s2, rest, henv, ha, hx, rfl, h⟩ := h
    rcases ih r h with ⟨b, s3, tr1, tr2, h1, h2, rfl⟩ | ⟨e, rfl, h1⟩
    · exact .inl ⟨b, s3, _ :: tr1, tr2, ⟨s1, a, r, s2, tr1, henv, ha, hx, rfl, h1⟩, h2, rfl⟩
    · exact .inr ⟨e, rfl, s1, a, r, s2, rest, henv, ha, hx, rfl, h1⟩

theorem tryCatch {p : Prog Res E ε α} {h : ε → Prog Res E ε' α} {x : Except ε' α}
    (hr : Run sys env i (p.tryCatch h) s tr x s') :
    (∃ a, x = .ok a ∧ Run sys env i p s tr (.ok a) s') ∨
      ∃ e s1 tr1 tr2, Run sys env i p s tr1 (.error e) s1 ∧ Run sys env i (h e) s1 tr2 x s' ∧
        tr = tr1 ++ tr2 := by
  induction p generalizing s tr with
  | pure a =>
    obtain ⟨rfl, rfl, rfl⟩ := hr
    exact .inl ⟨a, rfl, rfl, rfl, rfl⟩
  | throw e => exact .inr ⟨e, s, [], tr, ⟨rfl, rfl, rfl⟩, hr, rfl⟩
  | stuck => exact hr.elim
  | call op k ih =>
    obtain ⟨s1, a, r, s2, rest, henv, ha, hx, rfl, hr⟩ := hr
    rcases ih r hr with ⟨b, rfl, h1⟩ | ⟨e, s3, tr1, tr2, h1, h2, rfl⟩
    · exact .inl ⟨b, rfl, s1, a, r, s2, rest, henv, ha, hx, rfl, h1⟩
    · exact .inr ⟨e, s3, _ :: tr1, tr2, ⟨s1, a, r, s2, tr1, henv, ha, hx, rfl, h1⟩, h2, rfl⟩

theorem ofExcept {y x : Except ε α} (h : Run sys env i (.ofExcept y) s tr x s') : tr = [] ∧ x = y ∧ s' = s := by
  cases y <;> exact h

theorem ofExcept_bind {y : Except ε α} {f : α → Prog Res E ε β} {x : Except ε β}
    (h : Run sys env i (Prog.ofExcept y >>= f) s tr x s') :
    (∃ a, y = .ok a ∧ Run sys env i (f a) s tr x s') ∨ ∃ e, y = .error e ∧ tr =
    [] ∧ x = .error e ∧ s' = s := by
  cases y with
  | ok a => exact .inl ⟨a, rfl, h⟩
  | error e => exact .inr ⟨e, rfl, h⟩

theorem await {op : Op} {x : Except E (Res op)} (h : Run sys env i (.await op) s tr x s') :
    ∃ s1 a, env s s1 ∧ sys.allow s1 i a op ∧ sys.exec i a op s1 = some (x, s') ∧ tr =
    [⟨op, x, s1, s'⟩] := by
  obtain ⟨s1, a, r, s2, rest, henv, ha, hx, rfl, h⟩ := h
  cases r with
  | ok v =>
    obtain ⟨rfl, rfl, rfl⟩ := h
    exact ⟨s1, a, henv, ha, hx, rfl⟩
  | error e =>
    obtain ⟨rfl, rfl, rfl⟩ := h
    exact ⟨s1, a, henv, ha, hx, rfl⟩

/-- An awaited call: the run goes on with its result, or ends with its rejection. -/
theorem await_bind {op : Op} {f : Res op → Prog Res E E β} {x : Except E β}
    (h : Run sys env i (Prog.await op >>= f) s tr x s') :
    ∃ s1 a r s2 rest, env s s1 ∧ sys.allow s1 i a op ∧ sys.exec i a op s1 = some (r, s2) ∧
      tr = ⟨op, r, s1, s2⟩ :: rest ∧
      ((∃ v, r = .ok v ∧ Run sys env i (f v) s2 rest x s') ∨
        ∃ e, r = .error e ∧ rest = [] ∧ x = .error e ∧ s' = s2) := by
  rw [Prog.await_bind] at h
  obtain ⟨s1, a, r, s2, rest, henv, ha, hx, htr, h⟩ := h
  cases r with
  | ok v => exact ⟨s1, a, _, s2, rest, henv, ha, hx, htr, .inl ⟨v, rfl, h⟩⟩
  | error e => exact ⟨s1, a, _, s2, rest, henv, ha, hx, htr, .inr ⟨e, rfl, h⟩⟩

/-- ... and where no call is rejected. -/
theorem await_bind_ok {op : Op} {f : Res op → Prog Res E E β} {x : Except E β}
    (h : Run sys env i (Prog.await op >>= f) s tr x s') (hok : ∀ e ∈ tr, e.rejected = false) :
    ∃ s1 a v s2 rest, env s s1 ∧ sys.allow s1 i a op ∧ sys.exec i a op s1 = some (.ok v, s2) ∧
      tr = ⟨op, .ok v, s1, s2⟩ :: rest ∧ Run sys env i (f v) s2 rest x s' ∧
        ∀ e ∈ rest, e.rejected = false := by
  obtain ⟨s1, a, r, s2, rest, henv, ha, hx, rfl, ⟨v, rfl, hf⟩ | ⟨e, rfl, -⟩⟩ := h.await_bind
  · exact ⟨s1, a, v, s2, rest, henv, ha, hx, rfl, hf, fun e he => hok e (List.mem_cons_of_mem _ he)⟩
  · exact absurd (hok _ List.mem_cons_self) Bool.true_eq_false.mp

/-! ## What holds along a run -/

theorem calls {T : Op → Prop} {p : Prog Res E ε α} {x : Except ε α} (h : Run sys env i p s tr x s')
    (hp : p.Calls T) :
    ∀ e ∈ tr, T e.op := by
  induction p generalizing s tr with
  | pure a => exact fun e he => by rw [h.1] at he; cases he
  | throw e => exact fun e he => by rw [h.1] at he; cases he
  | stuck => exact h.elim
  | call op k ih =>
    obtain ⟨s1, a, r, s2, rest, -, -, -, rfl, h⟩ := h
    intro e he
    rcases List.mem_cons.1 he with rfl | he
    · exact hp.1
    · exact ih r h (hp.2 r) e he

/-- What every call keeps. -/
theorem keeps {T : Op → Prop} {R : S → S → Prop} {p : Prog Res E ε α} {x : Except ε α}
    (h : Run sys env i p s tr x s')
    (hp : p.Calls T) (hrefl : ∀ s, R s s) (htrans : ∀ {s s' s''}, R s s' → R s' s'' → R s s'')
    (henv : ∀ {s s'}, env s s' → R s s')
    (hT : ∀ {s a op r s'}, T op → sys.exec i a op s = some (r, s') → R s s') :
    R s s' := by
  induction p generalizing s tr with
  | pure a => exact h.2.2 ▸ hrefl s
  | throw e => exact h.2.2 ▸ hrefl s
  | stuck => exact h.elim
  | call op k ih =>
    obtain ⟨s1, a, r, s2, rest, hs, -, hx, -, h⟩ := h
    exact htrans (htrans (henv hs) (hT hp.1 hx)) (ih r h (hp.2 r))

/-- What a call of its kind does, each of them does. -/
theorem each {T : Op → Prop} {R : S → S → Prop} {p : Prog Res E ε α} {x : Except ε α}
    (h : Run sys env i p s tr x s')
    (hp : p.Calls T) (hT : ∀ {s a op r s'}, T op → sys.exec i a op s = some (r, s') → R s s') :
    ∀ e ∈ tr, R e.before e.after := by
  induction p generalizing s tr with
  | pure a => exact fun e he => by rw [h.1] at he; cases he
  | throw e => exact fun e he => by rw [h.1] at he; cases he
  | stuck => exact h.elim
  | call op k ih =>
    obtain ⟨s1, a, r, s2, rest, -, -, hx, rfl, h⟩ := h
    exact List.forall_mem_cons.2 ⟨hT hp.1 hx, ih r h (hp.2 r)⟩

/-- A program that throws only what its calls are rejected with, and whose calls are not. -/
theorem unfailing {T : Op → Prop} {p : Prog Res E ε α} {x : Except ε α} (h : Run sys env i p s tr x s')
    (hp : p.Calls T)
    (hu : p.Unfailing) (hT : ∀ {s a op e s'}, T op → sys.exec i a op s ≠ some (.error e, s')) :
    ∃ a, x = .ok a := by
  induction p generalizing s tr with
  | pure a => exact ⟨a, h.2.1⟩
  | throw e => exact hu.elim
  | stuck => exact h.elim
  | call op k ih =>
    obtain ⟨s1, a, r, s2, rest, -, -, hx, -, h⟩ := h
    cases r with
    | ok v => exact ih (.ok v) h (hp.2 _) (hu v)
    | error e => exact absurd hx (hT hp.1)

/-- ... so what it throws is a call's rejection. -/
theorem rejected {p : Prog Res E ε α} {e : ε} (h : Run sys env i p s tr (.error e) s') (hu : p.Unfailing) :
    ∃ event ∈ tr, event.rejected = true := by
  induction p generalizing s tr with
  | pure a => cases h.2.1
  | throw e => exact hu.elim
  | stuck => exact h.elim
  | call op k ih =>
    obtain ⟨s1, a, r, s2, rest, -, -, -, rfl, h⟩ := h
    cases r with
    | ok v =>
      obtain ⟨event, hmem, hrejected⟩ := ih (.ok v) h (hu v)
      exact ⟨event, List.mem_cons_of_mem _ hmem, hrejected⟩
    | error error => exact ⟨_, List.mem_cons_self, rfl⟩

/-- A program that catches nothing is let through, or is stopped by its first rejected call. -/
theorem straight {p : Prog Res E ε α} {x : Except ε α} (h : Run sys env i p s tr x s') (hp : p.Straight) :
    Through tr ∨ Stopped (fun _ => True) tr ∧ ∃ e, x = .error e := by
  induction p generalizing s tr with
  | pure a =>
    obtain ⟨rfl, -, -⟩ := h
    exact .inl (.nil)
  | throw e =>
    obtain ⟨rfl, -, -⟩ := h
    exact .inl (.nil)
  | stuck => exact h.elim
  | call op k ih =>
    obtain ⟨s1, a, r, s2, rest, -, -, -, rfl, h⟩ := h
    cases r with
    | ok v => exact (ih (.ok v) h (hp.2 v)).imp (.cons rfl) fun h => ⟨h.1.cons rfl, h.2⟩
    | error e =>
      obtain ⟨e', he⟩ := hp.1 e
      rw [he] at h
      obtain ⟨rfl, rfl, -⟩ := h
      exact .inr ⟨.last rfl trivial, e', rfl⟩

/-- ... which is one of its calls. -/
theorem straight_calls {T : Op → Prop} {p : Prog Res E ε α} {x : Except ε α} (h : Run sys env i p s tr x s')
    (hp : p.Straight) (hcalls : p.Calls T) : Through tr ∨ Stopped T tr ∧ ∃ e, x = .error e :=
  (h.straight hp).imp_right fun hstopped =>
    ⟨hstopped.1.mono fun e he _ => h.calls hcalls e he, hstopped.2⟩

theorem returns {R : α → Prop} {p : Prog Res E ε α} {a : α} (h : Run sys env i p s tr (.ok a) s')
    (hp : p.Returns R) :
    R a := by
  induction p generalizing s tr with
  | pure b =>
    obtain ⟨-, hab, -⟩ := h
    cases hab
    exact hp
  | throw e => cases h.2.1
  | stuck => exact h.elim
  | call op k ih =>
    obtain ⟨s1, a, r, s2, rest, -, -, -, -, h⟩ := h
    exact ih r h (hp r)

end Run

/-- The protocol state after the calls `tr`. -/
def Protocol.after (P : Protocol Res E) (i : PId) (tr : List (Event Res E S)) (st : P.State) : P.State :=
  tr.foldl (fun st e => P.next i st e.op e.result) st

open Protocol in
/-- **A program that obeys a protocol ends as the protocol promises**, if `K` is kept between the calls and by
each permitted call. -/
theorem Run.obeys {sys : System Res E S Ans Act} {env : S → S → Prop} {i : PId} {s s' : S}
    {tr : List (Event Res E S)}
    {P : Protocol Res E} {K : S → P.State → Prop} {Q : P.State → Except ε α → Prop}
    {p : Prog Res E ε α} {x : Except ε α}
    {st : P.State} (h : Run sys env i p s tr x s') (hp : P.Obeys i Q p st) (hK : K s st)
    (henv : ∀ {s s' st}, env s s' → K s st → K s' st)
    (hcall : ∀ {s st a op r s'}, K s st → P.ok i st op → sys.allow s i a op →
      sys.exec i a op s = some (r, s') →
      P.yields i st op r ∧ K s' (P.next i st op r)) : K s' (P.after i tr st) ∧ Q (P.after i tr st) x := by
  induction p generalizing s tr st with
  | pure a =>
    obtain ⟨rfl, rfl, rfl⟩ := h
    exact ⟨hK, hp⟩
  | throw e =>
    obtain ⟨rfl, rfl, rfl⟩ := h
    exact ⟨hK, hp⟩
  | stuck => exact h.elim
  | call op k ih =>
    obtain ⟨s1, a, r, s2, rest, hs, ha, hx, rfl, h⟩ := h
    obtain ⟨hy, hK'⟩ := hcall (henv hs hK) hp.1 ha hx
    have hend := ih r h (hp.2 r hy) hK'
    exact hend

/-! ## Playing a run -/

variable (sys : System Res E S Ans Act) [∀ s i a op, Decidable (sys.allow s i a op)]

/-- The run of `p` with these answers, with nothing happening between its calls. -/
def playRun (i : PId) : List Ans → Prog Res E ε α → S → Option (List (Event Res E S) × Except ε α × S)
  | [], .pure a, s => some ([], .ok a, s)
  | [], .throw e, s => some ([], .error e, s)
  | a :: answers, .call op k, s =>
    if sys.allow s i a op then
      (sys.exec i a op s).bind fun r => (playRun i answers (k r.1) r.2).map fun rest =>
        (⟨op, r.1, s, r.2⟩ :: rest.1, rest.2)
    else none
  | _, _, _ => none

variable {sys} in
theorem run_of_play {env : S → S → Prop} (henv : ∀ s, env s s) {i : PId} {answers : List Ans} :
    ∀ {p : Prog Res E ε α} {s : S} {tr : List (Event Res E S)} {x : Except ε α} {s' : S},
      playRun sys i answers p s = some (tr, x, s') → Run sys env i p s tr x s' := by
  induction answers with
  | nil =>
    intro p s tr x s' h
    cases p with
    | pure a => simpa [playRun, Run, eq_comm] using h
    | throw e => simpa [playRun, Run, eq_comm] using h
    | stuck => cases h
    | call op k => cases h
  | cons a answers ih =>
    intro p s tr x s' h
    cases p with
    | call op k =>
      simp only [playRun] at h
      split at h
      · rename_i ha
        obtain ⟨⟨r, s2⟩, hx, h⟩ := Option.bind_eq_some_iff.1 h
        obtain ⟨⟨rest, y, s3⟩, hrest, h⟩ := Option.map_eq_some_iff.1 h
        cases h
        exact ⟨s, a, r, s2, rest, henv s, ha, hx, rfl, ih hrest⟩
      · cases h
    | _ => cases h

variable {sys} in
/-- What is seen at the end of a played run. -/
theorem playRun_seen {i : PId} {answers : List Ans} {p : Prog Res E ε α} {s : S}
    {Q : List (Event Res E S) → Except ε α → S → Prop} [∀ tr x s', Decidable (Q tr x s')]
    (h : (playRun sys i answers p s).any fun r => Q r.1 r.2.1 r.2.2) :
    ∃ tr x s', playRun sys i answers p s = some (tr, x, s') ∧ Q tr x s' := by
  rw [Option.any_eq_true_iff_get] at h
  obtain ⟨hplay, hQ⟩ := h
  exact ⟨_, _, _, (Option.some_get hplay).symm, of_decide_eq_true hQ⟩

end Interleave
