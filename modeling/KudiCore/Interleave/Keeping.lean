import KudiCore.Interleave.Protocol

/-!
# Programs that keep a condition

`Obeys` from every local state that meets `K`, to an end that meets `K` again: what a program is that starts anywhere
and leaves its protocol state fit for the next one. Where nothing has to be said about a program's result these are the
rules its proof consists of.
-/

namespace Interleave.Protocol

variable {Op : Type} {Res : Op → Type} {E ε ε' α β : Type}

/-- From any state that meets `K`, `p` makes permitted calls only and ends where `K` holds. -/
def Keeps (P : Protocol Res E) (i : PId) (K : P.State → Prop) (p : Prog Res E ε α) : Prop :=
  ∀ st, K st → P.Obeys i (fun st' _ => K st') p st

namespace Keeps

variable {P : Protocol Res E} {i : PId} {K : P.State → Prop}

theorem pure (a : α) : P.Keeps i K (.pure a : Prog Res E ε α) := fun _ hK => hK

theorem throw (e : ε) : P.Keeps i K (.throw e : Prog Res E ε α) := fun _ hK => hK

theorem bind {p : Prog Res E ε α} {f : α → Prog Res E ε β} (hp : P.Keeps i K p) (hf : ∀ a, P.Keeps i K (f a)) :
    P.Keeps i K (p >>= f) := fun st hK =>
  (hp st hK).bind (fun st' a h => hf a st' h) fun _ _ h => h

theorem tryCatch {p : Prog Res E ε α} {h : ε → Prog Res E ε' α} (hp : P.Keeps i K p)
    (hh : ∀ e, P.Keeps i K (h e)) :
    P.Keeps i K (p.tryCatch h) := fun st hK =>
  (hp st hK).tryCatch (fun _ _ h' => h') fun st' e h' => hh e st' h'

theorem ofExcept_bind {x : Except ε α} {f : α → Prog Res E ε β} (hf : ∀ a, x = .ok a → P.Keeps i K (f a)) :
    P.Keeps i K (Prog.ofExcept x >>= f) := fun st hK =>
  .ofExcept_bind (fun a ha => hf a ha st hK) fun _ _ => hK

/-- A program of calls that are permitted wherever `K` holds, and keep it. -/
theorem of_calls {T : Op → Prop} {p : Prog Res E ε α}
    (hT : ∀ st op, K st → T op → P.ok i st op ∧ ∀ r, P.yields i st op r → K (P.next i st op r))
    (hp : p.Calls T) :
    P.Keeps i K p := fun _ hK => .of_calls hT hp hK

theorem await_bind {op : Op} {f : Res op → Prog Res E E β}
    (hop : ∀ st, K st → P.ok i st op ∧ ∀ r, P.yields i st op r → K (P.next i st op r))
    (hf : ∀ x, P.Keeps i K (f x)) :
    P.Keeps i K (Prog.await op >>= f) := fun st hK =>
  .await_bind (hop st hK).1 (fun x hx => hf x _ ((hop st hK).2 _ hx)) fun _ he => (hop st hK).2 _ he

end Keeps

end Interleave.Protocol
