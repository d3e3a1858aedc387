import Mathlib.Logic.Function.Basic
import Mathlib.Logic.Relation
import Mathlib.Order.WellFounded

/-!
# Effect programs

An `async` function is a tree of awaited calls: each node is one call `op : Op`, and the
continuation receives what the call resolved to (`Res op`) or what it rejected with (`E`).
Everything between two `await`s is one step of the tree, so the nodes are exactly the points at
which another program may run. `ε` is what the program itself throws; it is kept apart from `E`
so that a `try` block can hand its `catch` the local variables it has already changed.

`stuck` stands for a recursion past its fuel: it has not returned, has not thrown and makes no
further call. A finite run of the real program is a run of the tree for every large enough fuel.
-/

namespace Interleave

/-- A program awaiting calls of type `Op`. -/
inductive Prog {Op : Type} (Res : Op → Type) (E ε α : Type) : Type where
  | pure (a : α)
  | throw (e : ε)
  | stuck
  | call (op : Op) (k : Except E (Res op) → Prog Res E ε α)

namespace Prog

variable {Op : Type} {Res : Op → Type} {E ε ε' ε'' α β γ : Type}

protected def bind : Prog Res E ε α → (α → Prog Res E ε β) → Prog Res E ε β
  | .pure a, f => f a
  | .throw e, _ => .throw e
  | .stuck, _ => .stuck
  | .call op k, f => .call op fun r => (k r).bind f

instance : Monad (Prog Res E ε) where
  pure := .pure
  bind := Prog.bind

/-- `try { p } catch (e) { h(e) }`. -/
protected def tryCatch : Prog Res E ε α → (ε → Prog Res E ε' α) → Prog Res E ε' α
  | .pure a, _ => .pure a
  | .throw e, h => h e
  | .stuck, _ => .stuck
  | .call op k, h => .call op fun r => (k r).tryCatch h

instance : MonadExceptOf ε (Prog Res E ε) where
  throw := .throw
  tryCatch := Prog.tryCatch

/-- What `p` throws reaches the enclosing `catch` as `f e`. -/
def mapError (f : ε → ε') (p : Prog Res E ε α) : Prog Res E ε' α :=
  p.tryCatch fun e => .throw (f e)

/-- `await op`: a rejection is thrown. -/
def await (op : Op) : Prog Res E E (Res op) :=
  .call op fun r => match r with
    | .ok a => .pure a
    | .error e => .throw e

/-- A synchronous computation that may throw. -/
def ofExcept : Except ε α → Prog Res E ε α
  | .ok a => .pure a
  | .error e => .throw e

/-- The outcome of a program that has nothing left to do. -/
def outcome? : Prog Res E ε α → Option (Except ε α)
  | .pure a => some (.ok a)
  | .throw e => some (.error e)
  | .stuck => none
  | .call _ _ => none

/-! ## Reduction -/

@[simp] theorem pure_eq (a : α) : (Pure.pure a : Prog Res E ε α) = .pure a := rfl
@[simp] theorem pure_bind (a : α) (f : α → Prog Res E ε β) : (Prog.pure a >>= f) = f a := rfl
@[simp] theorem throw_bind (e : ε) (f : α → Prog Res E ε β) : (Prog.throw e >>= f) = .throw e := rfl
@[simp] theorem stuck_bind (f : α → Prog Res E ε β) : ((.stuck : Prog Res E ε α) >>= f) = .stuck := rfl
@[simp] theorem call_bind (op : Op) (k : Except E (Res op) → Prog Res E ε α) (f : α → Prog Res E ε β) :
    (Prog.call op k >>= f) = .call op fun r => k r >>= f := rfl

@[simp] theorem throw_eq (e : ε) : (MonadExceptOf.throw e : Prog Res E ε α) = .throw e := rfl
@[simp] theorem throw_eq' (e : ε) : (MonadExcept.throw e : Prog Res E ε α) = .throw e := rfl

@[simp] theorem tryCatch_pure (a : α) (h : ε → Prog Res E ε' α) :
    (Prog.pure a : Prog Res E ε α).tryCatch h = .pure a := rfl
@[simp] theorem tryCatch_throw (e : ε) (h : ε → Prog Res E ε' α) :
    (Prog.throw e : Prog Res E ε α).tryCatch h = h e := rfl
@[simp] theorem tryCatch_stuck (h : ε → Prog Res E ε' α) :
    (.stuck : Prog Res E ε α).tryCatch h = .stuck := rfl
@[simp] theorem tryCatch_call (op : Op) (k : Except E (Res op) → Prog Res E ε α)
    (h : ε → Prog Res E ε' α) : (Prog.call op k).tryCatch h = .call op fun r => (k r).tryCatch h := rfl

@[simp] theorem await_bind (op : Op) (f : Res op → Prog Res E E β) :
    (await op >>= f) = .call op fun r => match r with
      | .ok a => f a
      | .error e => .throw e := by
  simp only [await, call_bind]
  congr 1
  funext r
  cases r <;> rfl

theorem bind_assoc (p : Prog Res E ε α) (f : α → Prog Res E ε β) (g : β → Prog Res E ε γ) :
    (p >>= f) >>= g = p >>= fun a => f a >>= g := by
  induction p with
  | pure a => rfl
  | throw e => rfl
  | stuck => rfl
  | call op k ih =>
    simp only [call_bind]
    congr 1
    funext r
    exact ih r

/-! ## Which calls a program makes -/

/-- Every call of `p`, on every path, satisfies `T`. -/
def Calls (T : Op → Prop) : Prog Res E ε α → Prop
  | .pure _ => True
  | .throw _ => True
  | .stuck => True
  | .call op k => T op ∧ ∀ r, (k r).Calls T

theorem Calls.bind {T : Op → Prop} {p : Prog Res E ε α} {f : α → Prog Res E ε β} (hp : p.Calls T)
    (hf : ∀ a, (f a).Calls T) : (p >>= f).Calls T := by
  induction p with
  | pure a => exact hf a
  | throw e => trivial
  | stuck => trivial
  | call op k ih => exact ⟨hp.1, fun r => ih r (hp.2 r)⟩

theorem Calls.tryCatch {T : Op → Prop} {p : Prog Res E ε α} {h : ε → Prog Res E ε' α} (hp : p.Calls T)
    (hh : ∀ e, (h e).Calls T) : (p.tryCatch h).Calls T := by
  induction p with
  | pure a => trivial
  | throw e => exact hh e
  | stuck => trivial
  | call op k ih => exact ⟨hp.1, fun r => ih r (hp.2 r)⟩

theorem Calls.mapError {T : Op → Prop} {p : Prog Res E ε α} (f : ε → ε') (hp : p.Calls T) :
    (p.mapError f).Calls T := hp.tryCatch fun _ => trivial

theorem Calls.await {T : Op → Prop} {op : Op} (h : T op) : (await op : Prog Res E E _).Calls T :=
  ⟨h, fun r => by cases r <;> trivial⟩

theorem Calls.ofExcept {T : Op → Prop} (x : Except ε α) : (ofExcept x : Prog Res E ε α).Calls T := by
  cases x <;> trivial

theorem Calls.mono {T T' : Op → Prop} (hT : ∀ op, T op → T' op) {p : Prog Res E ε α} (hp : p.Calls T) :
    p.Calls T' := by
  induction p with
  | pure a => trivial
  | throw e => trivial
  | stuck => trivial
  | call op k ih => exact ⟨hT op hp.1, fun r => ih r (hp.2 r)⟩

theorem calls_true (p : Prog Res E ε α) : p.Calls fun _ => True := by
  induction p with
  | pure a => trivial
  | throw e => trivial
  | stuck => trivial
  | call op k ih => exact ⟨trivial, ih⟩

/-- Whatever the calls answer, a value that `p` returns satisfies `Q`. -/
def Returns (Q : α → Prop) : Prog Res E ε α → Prop
  | .pure a => Q a
  | .throw _ => True
  | .stuck => True
  | .call _ k => ∀ r, (k r).Returns Q

theorem Returns.bind {R : α → Prop} {Q : β → Prop} {p : Prog Res E ε α} {f : α → Prog Res E ε β}
    (hp : p.Returns R) (hf : ∀ a, R a → (f a).Returns Q) : (p >>= f).Returns Q := by
  induction p with
  | pure a => exact hf a hp
  | throw e => trivial
  | stuck => trivial
  | call op k ih => exact fun r => ih r (hp r)

theorem Returns.ofExcept {Q : α → Prop} {x : Except ε α} (h : ∀ a, x = .ok a → Q a) :
    (ofExcept x : Prog Res E ε α).Returns Q := by
  cases x with
  | ok a => exact h a rfl
  | error e => trivial

/-- For some answers to its calls `p` returns `x`. -/
def CanReturn : Prog Res E ε α → α → Prop
  | .pure a, x => a = x
  | .throw _, _ => False
  | .stuck, _ => False
  | .call _ k, x => ∃ r, (k r).CanReturn x

theorem Returns.mono {Q Q' : α → Prop} (h : ∀ a, Q a → Q' a) {p : Prog Res E ε α} (hp : p.Returns Q) :
    p.Returns Q' := by
  induction p with
  | pure a => exact h a hp
  | throw e => trivial
  | stuck => trivial
  | call op k ih => exact fun r => ih r (hp r)

theorem returns_canReturn (p : Prog Res E ε α) : p.Returns p.CanReturn := by
  induction p with
  | pure a => rfl
  | throw e => trivial
  | stuck => trivial
  | call op k ih => exact fun r => (ih r).mono fun a ha => ⟨r, ha⟩

theorem returns_true (p : Prog Res E ε α) : p.Returns fun _ => True := by
  induction p with
  | pure a => trivial
  | throw e => trivial
  | stuck => trivial
  | call op k ih => exact ih

/-- `p` throws only if one of its calls is rejected. -/
def Unfailing : Prog Res E ε α → Prop
  | .pure _ => True
  | .throw _ => False
  | .stuck => True
  | .call _ k => ∀ x, (k (.ok x)).Unfailing

theorem Unfailing.bind {p : Prog Res E ε α} {f : α → Prog Res E ε β} (hp : p.Unfailing)
    (hf : ∀ a, (f a).Unfailing) : (p >>= f).Unfailing := by
  induction p with
  | pure a => exact hf a
  | throw e => exact hp.elim
  | stuck => trivial
  | call op k ih => exact fun x => ih (.ok x) (hp x)

theorem Unfailing.await (op : Op) : (await op : Prog Res E E _).Unfailing := fun _ => trivial

theorem Unfailing.ofExcept {x : Except ε α} {a : α} (h : x = .ok a) : (ofExcept x : Prog Res E ε α).Unfailing := by
  subst h
  trivial

/-- A rejected call is the last: `p` catches nothing. -/
def Straight : Prog Res E ε α → Prop
  | .pure _ => True
  | .throw _ => True
  | .stuck => True
  | .call _ k => (∀ e, ∃ e', k (.error e) = .throw e') ∧ ∀ x, (k (.ok x)).Straight

theorem Straight.bind {p : Prog Res E ε α} {f : α → Prog Res E ε β} (hp : p.Straight)
    (hf : ∀ a, (f a).Straight) :
    (p >>= f).Straight := by
  induction p with
  | pure a => exact hf a
  | throw e => trivial
  | stuck => trivial
  | call op k ih =>
    refine ⟨fun e => ?_, fun x => ih (.ok x) (hp.2 x)⟩
    obtain ⟨e', he⟩ := hp.1 e
    exact ⟨e', (congrArg (·.bind f) he :)⟩

theorem Straight.await (op : Op) : (await op : Prog Res E E _).Straight := ⟨fun e => ⟨e, rfl⟩, fun _ => trivial⟩

/-- `p` comes to an end, whatever its calls answer. -/
def Halts : Prog Res E ε α → Prop
  | .pure _ => True
  | .throw _ => True
  | .stuck => False
  | .call _ k => ∀ r, (k r).Halts

theorem Halts.bind {p : Prog Res E ε α} {f : α → Prog Res E ε β} (hp : p.Halts) (hf : ∀ a, (f a).Halts) :
    (p >>= f).Halts := by
  induction p with
  | pure a => exact hf a
  | throw e => trivial
  | stuck => exact hp.elim
  | call op k ih => exact fun r => ih r (hp r)

theorem Halts.await (op : Op) : (await op : Prog Res E E _).Halts := fun r => by cases r <;> trivial

theorem Halts.ofExcept (x : Except ε α) : (ofExcept x : Prog Res E ε α).Halts := by
  cases x <;> trivial

/-! ## Going on -/

/-- `q` is what `p` goes on as after its next call. -/
def Continues (q p : Prog Res E ε α) : Prop := ∃ op k r, p = .call op k ∧ q = k r

theorem continues_wf : WellFounded (Continues : Prog Res E ε α → Prog Res E ε α → Prop) := by
  refine ⟨fun p => ?_⟩
  induction p with
  | call op k ih =>
    refine ⟨_, fun q hq => ?_⟩
    obtain ⟨op', k', r, he, rfl⟩ := hq
    cases he
    exact ih r
  | _ =>
    refine ⟨_, fun q hq => ?_⟩
    obtain ⟨_, _, _, he, -⟩ := hq
    cases he

/-- A program does not go on as itself, after any number of calls. -/
theorem not_continues_self (p : Prog Res E ε α) : ¬ Relation.TransGen Continues p p := fun h =>
  continues_wf.transGen.asymmetric p p h h

end Prog

end Interleave
