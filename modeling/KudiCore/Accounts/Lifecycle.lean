import KudiCore.Accounts.Account

/-!
# The lifecycle of an account

| here | there |
| --- | --- |
| `AccountOperation` | the public mutators of `modules/accounts/domain/entities/account.entity.ts` |

`activate`, `freeze`, `unfreeze` and `close` assign the status whatever it is, so CLOSED holds until
the next `activate` or `unfreeze` and no longer (`stays_closed_iff`).
-/

namespace Kudi

inductive AccountOperation where
  | activate
  | credit (amount : Money) (reference : String)
  | debit (amount : Money) (reference : String)
  | freeze (reason : String)
  | unfreeze
  | close

namespace AccountOperation

def apply : AccountOperation → Account → Except Err Account
  | .activate, a => .ok a.activate
  | .credit amount reference, a => a.credit amount reference
  | .debit amount reference, a => a.debit amount reference
  | .freeze reason, a => .ok (a.freeze reason)
  | .unfreeze, a => .ok a.unfreeze
  | .close, a => a.close

/-- The operations that make an account ACTIVE. -/
def reopens : AccountOperation → Bool
  | .activate | .unfreeze => true
  | _ => false

def assigns : AccountOperation → Option AccountStatus
  | .activate | .unfreeze => some .ACTIVE
  | .freeze _ => some .FROZEN
  | .close => some .CLOSED
  | .credit .. | .debit .. => none

section
variable {op : AccountOperation} {a b : Account}

/-- What no mutator changes, and what becomes of the status. -/
theorem apply_keeps (ha : a.balance.currency = a.currency) (h : op.apply a = .ok b) :
    b.id = a.id ∧ b.currency = a.currency ∧ b.balance.currency = b.currency ∧
      b.status = op.assigns.getD a.status := by
  cases op with
  | activate =>
    cases h
    exact ⟨rfl, rfl, ha, rfl⟩
  | freeze reason =>
    cases h
    exact ⟨rfl, rfl, ha, rfl⟩
  | unfreeze =>
    cases h
    exact ⟨rfl, rfl, ha, rfl⟩
  | credit amount reference =>
    obtain ⟨-, -, -, rfl⟩ := Account.credit_ok.1 h
    exact ⟨rfl, rfl, ha, rfl⟩
  | debit amount reference =>
    obtain ⟨-, -, -, rfl⟩ := (Account.debit_ok ha).1 h
    exact ⟨rfl, rfl, ha, rfl⟩
  | close =>
    simp only [apply, Account.close] at h
    split at h
    · cases h
    · cases h
      exact ⟨rfl, rfl, ha, rfl⟩

end

end AccountOperation

namespace Account

/-- The operations one after another, as long as they succeed. -/
def perform (a : Account) (ops : List AccountOperation) : Except Err Account := ops.foldlM (fun a op => op.apply a) a

/-- Not ACTIVE, closed to money, and empty. -/
structure Inoperable (a : Account) : Prop where
  notActive : a.status ≠ .ACTIVE
  noCredit : ∀ amount reference, ∃ e, a.credit amount reference = .error e
  noDebit : ∀ amount reference, ∃ e, a.debit amount reference = .error e
  empty : a.balance.isZero = true

/-- Inoperable after each of `ops`, and before the first. -/
def StaysClosed (a : Account) (ops : List AccountOperation) : Prop :=
  ∀ done rest b, ops = done ++ rest → a.perform done = .ok b → b.Inoperable

section
variable {a b c : Account} {op : AccountOperation} {ops : List AccountOperation}

theorem inoperable_of (hs : a.status ≠ .ACTIVE) (hb : a.balance.isZero = true) : a.Inoperable where
  notActive := hs
  noCredit amount reference := ⟨accountNotActive a.id a.status, by
    simp [credit, assertOperable, hs, bind, Except.bind]⟩
  noDebit amount reference := ⟨accountNotActive a.id a.status, by
    simp [debit, assertOperable, hs, bind, Except.bind]⟩
  empty := hb

theorem close_inoperable (h : a.close = .ok c) : c.Inoperable := by
  unfold close at h
  split at h
  · cases h
  · rename_i hz
    simp only [Except.ok.injEq] at h
    subst h
    refine inoperable_of nofun ?_
    simpa [touch, addDomainEvent] using hz

theorem perform_cons (a : Account) (op : AccountOperation) (ops : List AccountOperation) :
    a.perform (op :: ops) = (op.apply a).bind fun b => b.perform ops := by
  simp only [perform, List.foldlM_cons]
  rfl

theorem perform_append (a : Account) (ops ops' : List AccountOperation) :
    a.perform (ops ++ ops') = (a.perform ops).bind fun b => b.perform ops' := by
  simp only [perform, List.foldlM_append]
  rfl

/-- What succeeds on an inoperable account and does not reopen it keeps it inoperable. -/
theorem Inoperable.step (h : a.Inoperable) (ho : op.reopens = false) (hop : op.apply a = .ok b) : b.Inoperable := by
  cases op with
  | activate => cases ho
  | unfreeze => cases ho
  | credit amount reference =>
    obtain ⟨e, he⟩ := h.noCredit amount reference
    rw [AccountOperation.apply, he] at hop
    cases hop
  | debit amount reference =>
    obtain ⟨e, he⟩ := h.noDebit amount reference
    rw [AccountOperation.apply, he] at hop
    cases hop
  | freeze reason =>
    simp only [AccountOperation.apply, Except.ok.injEq] at hop
    subst hop
    exact inoperable_of nofun h.empty
  | close => exact close_inoperable hop

theorem Inoperable.perform (h : a.Inoperable) (ho : ∀ op ∈ ops, op.reopens = false)
    (hp : a.perform ops = .ok b) : b.Inoperable := by
  induction ops generalizing a with
  | nil =>
    simp only [Account.perform, List.foldlM_nil, pure, Except.pure, Except.ok.injEq] at hp
    exact hp ▸ h
  | cons op ops ih =>
    rw [perform_cons] at hp
    cases hop : op.apply a with
    | error e =>
      rw [hop] at hp
      cases hp
    | ok a' =>
      rw [hop] at hp
      exact ih (h.step (ho op List.mem_cons_self) hop) (fun op' hm => ho op' (List.mem_cons_of_mem op hm)) hp

theorem reopened_active (ho : op.reopens = true) (hop : op.apply a = .ok b) : b.status = .ACTIVE := by
  cases op <;> cases ho <;> cases hop <;> rfl

/-- **A closed account stays inoperable, and empty, exactly as long as nobody activates or unfreezes it.** -/
theorem stays_closed_iff (hc : a.close = .ok c) (hops : c.perform ops = .ok b) :
    c.StaysClosed ops ↔ ∀ op ∈ ops, op.reopens = false := by
  constructor
  · intro h op hop
    by_contra ho
    obtain ⟨done, rest, rfl⟩ := List.append_of_mem hop
    rw [perform_append] at hops
    cases hdone : c.perform done with
    | error e =>
      rw [hdone] at hops
      cases hops
    | ok d =>
      rw [hdone] at hops
      replace hops : d.perform (op :: rest) = .ok b := hops
      rw [perform_cons] at hops
      cases happ : op.apply d with
      | error e =>
        rw [happ] at hops
        cases hops
      | ok d' =>
        have hd' : c.perform (done ++ [op]) = .ok d' := by
          rw [perform_append, hdone]
          show d.perform [op] = .ok d'
          rw [perform_cons, happ]
          rfl
        have hin := h (done ++ [op]) rest d' (by simp) hd'
        exact hin.notActive (reopened_active (by simpa using ho) happ)
  · intro ho done rest b' hdone hb'
    refine (close_inoperable hc).perform (fun op hop => ho op ?_) hb'
    rw [hdone]
    exact List.mem_append_left rest hop

end

/-- A wallet without money. -/
def sampleEmpty : Account := ⟨"acc", "user", sampleNumber, .NGN, .zero .NGN, .ACTIVE, 3, []⟩

theorem stays_closed_iff_sample : ∃ c b, sampleEmpty.close = .ok c ∧ c.perform [.freeze "late", .close] = .ok b ∧
    (c.StaysClosed [.freeze "late", .close] ↔
      ∀ op ∈ [AccountOperation.freeze "late", .close], op.reopens = false) :=
  ⟨_, _, rfl, rfl, stays_closed_iff (a := sampleEmpty) rfl rfl⟩

/-- Closed, unfrozen, credited: every step succeeds. -/
theorem closed_account_reopened : ∃ c d b, sampleEmpty.close = .ok c ∧ c.status = .CLOSED ∧
    c.perform [.unfreeze] = .ok d ∧ d.status = .ACTIVE ∧
    c.perform [.unfreeze, .credit ⟨100, .NGN⟩ "ref"] = .ok b ∧ b.balance = ⟨100, .NGN⟩ :=
  ⟨_, _, _, rfl, rfl, rfl, rfl, rfl, rfl⟩

end Account

end Kudi
