import KudiCore.Idempotency.Exclusion

/-!
# What concurrent runs under one key return

With fresh claims and storage that answers, the lock of `Exclusion` is all there is: the row is
IN_PROGRESS while a run executes, COMPLETED with the resource id of the one `execute()` that has
resolved, or gone. Runs under other keys, and runs without one, are part of the pool, and their
calls may fail.
-/

namespace Kudi

open Interleave Protocol

/-- Claims on `k` are fresh, and storage answers the idempotency calls of `k`'s callers. -/
def Undisturbed (claims : PId → ClaimKey) (k : ClaimKey) (s : Store) (i : PId) (a : Ans) (op : Op) : Prop :=
  s.Timely k ∧ (claims i = k → op.isKeyCall = true → a.isFail = false)

instance (claims : PId → ClaimKey) (k : ClaimKey) (s : Store) (i : PId) (a : Ans) (op : Op) :
    Decidable ((scheduleOf (Undisturbed claims k)).allow s i a op) :=
  inferInstanceAs (Decidable (_ ∧ (_ → _ → _)))

namespace Store

/-- Caller `i`'s `execute()` has been invoked under `k` and has neither resolved nor rejected. -/
def InFlight (s : Store) (k : ClaimKey) (i : PId) : Prop :=
  (i, .invoked k) ∈ s.marksOf k ∧ (i, .rejected k) ∉ s.marksOf k ∧ ¬ s.HasResolved k i

/-- `r` is what a completed `k` may say: what an `execute()` has resolved with, or what `db0` said. -/
def Resource (s : Store) (db0 : Db) (k : ClaimKey) (r : Option String) : Prop :=
  (∃ i x, r = some x ∧ (i, .resolved k x) ∈ s.marksOf k) ∨
    ∃ row, db0.idempotencyKeys.find? k = some row ∧ row.status = .COMPLETED ∧ row.resourceId = r

end Store

namespace Phase

/-- Phases that only a storage failure leads to. -/
def Disturbed : Phase → Prop
  | .failed | .unsaved _ | .lost _ | .orphaned _ => True
  | _ => False

/-- The caller's `execute()` has rejected. -/
def Rejected : Phase → Prop
  | .rejected | .released => True
  | _ => False

end Phase

structure Outcomes (db0 : Db) (claims : PId → ClaimKey) (k : ClaimKey) (s : Store) (phs : PId → Phase) : Prop where
  exclusive : Exclusive claims k s phs
  smooth : ∀ i, claims i = k → ¬ (phs i).Disturbed
  completed : ∀ r, s.CompletedWith k r → s.Resource db0 k r
  replayed : ∀ i r, claims i = k → phs i = .replaying r → s.Resource db0 k r
  invoked : ∀ i, s.InFlight k i → claims i = k ∧ phs i = .executing
  resolved : ∀ i r, (i, .resolved k r) ∈ s.marksOf k → claims i = k ∧ (phs i).ResolvedWith r
  rejected : ∀ i, (i, .rejected k) ∈ s.marksOf k → claims i = k ∧ (phs i).Rejected
  released : ∀ i, s.holder k = some i → phs i = .released → s.db.idempotencyKeys.find? k = none

section
variable {db0 : Db} {claims : PId → ClaimKey} {k : ClaimKey} {s s' : Store} {phs : PId → Phase} {i : PId} {a : Ans}
  {op : Op} {ph ph' : Phase} {phs' : PId → Phase} {r : Option String}

/-! ## One step of a caller of the key -/

/-- At most one mark, the one that its phase calls for. -/
theorem GuardStep.marksOf (h : GuardStep i k a s ph op s' ph') :
    (s'.marksOf k = s.marksOf k ∧ (ph = .executing → ph' = .executing)) ∨
      ∃ m, Marks k ph m ph' ∧ s'.marksOf k = s.marksOf k ++ [(i, m)] := by
  cases h with
  | quiet hs hq =>
    refine .inl ⟨(hs.sameKey k).marks, ?_⟩
    rintro rfl
    cases hq with
    | stay => rfl
    | gone hop ha h => simp at h
  | marked hm =>
    refine .inr ⟨_, hm, ?_⟩
    rw [Store.marksOf_append]
    cases hm <;> exact congrArg _ (if_pos rfl)
  | deleted ha hr => exact .inl ⟨rfl, by rintro rfl; cases hr⟩
  | _ => exact .inl ⟨rfl, nofun⟩

/-- A completed row was there before, or is the caller's own. -/
theorem GuardStep.completedWith (hl : ∀ row, ph.row? = some row → Looked s k row)
    (h : GuardStep i k a s ph op s' ph') (hc : s'.CompletedWith k r) :
    s.CompletedWith k r ∨ ∃ x, ph = .resolved x ∧ r = some x := by
  obtain ⟨row, hrow, hst, rfl⟩ := hc
  cases h with
  | quiet hs hq =>
    rw [hs.keys] at hrow
    exact .inl ⟨row, hrow, hst, rfl⟩
  | marked hm => exact .inl ⟨row, hrow, hst, rfl⟩
  | created ha hnone =>
    simp only [Store.db_write_prisma, Db.apply, IdempotencyKeys.find?_create, if_true, Option.some.injEq] at hrow
    rw [← hrow] at hst
    cases hst
  | @reclaimed looked cur updatedAt ha hcur hcst =>
    obtain ⟨hid, hfind⟩ := IdempotencyKeys.find?_of_byId? hcur
    have hck : cur.claim = k := ((hl looked rfl).same _ cur hfind hid).1
    rw [hck] at hfind
    simp only [Store.db_write_prisma, Db.apply, IdempotencyKeys.find?_update, hck, if_true, hfind, Option.map_some,
      Option.some.injEq] at hrow
    rw [← hrow] at hst
    cases hst
  | @completed x row0 ha hrow0 =>
    simp only [Store.db_write_prisma, Db.apply, IdempotencyKeys.find?_update, if_true, hrow0, Option.map_some,
      Option.some.injEq] at hrow
    exact .inr ⟨x, rfl, by rw [← hrow]⟩
  | deleted ha hr =>
    simp only [Store.db_write_prisma, Db.apply, IdempotencyKeys.find?_erase, if_true] at hrow
    cases hrow

theorem GuardStep.replaying (h : GuardStep i k a s ph op s' (.replaying r)) :
    ph = .replaying r ∨ s.CompletedWith k r := by
  cases h with
  | quiet hs hq =>
    cases hq with
    | stay => exact .inl rfl
    | replays hrow hst => exact .inr ⟨_, hrow, hst, rfl⟩
  | marked hm => cases hm
  | deleted ha hr => cases hr

/-- A caller whose `execute()` has resolved remembers it. -/
theorem GuardStep.resolvedWith {x : String} (h : GuardStep i k a s ph op s' ph') (hr : ph.ResolvedWith x) :
    ph'.ResolvedWith x := by
  cases h with
  | quiet hs hq =>
    cases hq with
    | stay => exact hr
    | unsaved y hop hf => exact hr
    | orphaned y hop hf => exact hr
    | gone hop hf hph =>
      rcases hph with rfl | ⟨row, rfl⟩ | rfl <;> exact hr.elim
    | _ => exact hr.elim
  | marked hm => cases hm <;> exact hr.elim
  | completed ha hrow => exact hr
  | deleted ha hrel =>
    cases hrel with
    | rejected => exact hr.elim
    | unsaved y => exact hr
  | _ => exact hr.elim

theorem GuardStep.rejected (ht : op.isKeyCall = true → a.isFail = false) (h : GuardStep i k a s ph op s' ph')
    (hr : ph.Rejected) : ph'.Rejected := by
  cases h with
  | quiet hs hq =>
    cases hq with
    | stay => exact hr
    | gone hop hf hph =>
      rw [ht hop] at hf
      cases hf
    | _ => exact hr.elim
  | marked hm => cases hm <;> trivial
  | deleted ha hrel =>
    cases hrel with
    | rejected => trivial
    | unsaved y => exact hr.elim
  | _ => exact hr.elim

/-- Storage that answers disturbs nobody. -/
theorem GuardStep.disturbed (ht : op.isKeyCall = true → a.isFail = false)
    (hheld : ph.Active → ∃ row, s.db.idempotencyKeys.find? k = some row) (h : GuardStep i k a s ph op s' ph')
    (hd : ph'.Disturbed) : ph.Disturbed := by
  cases h with
  | quiet hs hq =>
    cases hq with
    | stay => exact hd
    | gone hop hf hph =>
      rw [ht hop] at hf
      cases hf
    | orphaned y hop hf => trivial
    | unsaved y hop hf =>
      rcases hf with hf | hnone
      · rw [ht hop] at hf
        cases hf
      · obtain ⟨row, hrow⟩ := hheld trivial
        rw [hnone] at hrow
        cases hrow
    | _ => exact hd.elim
  | marked hm => cases hm <;> exact hd.elim
  | deleted ha hrel =>
    cases hrel with
    | rejected => exact hd.elim
    | unsaved y => trivial
  | _ => exact hd.elim

/-- Marks are never taken back. -/
theorem GuardStep.mem_marksOf (h : GuardStep i k a s ph op s' ph') {e : PId × Mark} (he : e ∈ s.marksOf k) :
    e ∈ s'.marksOf k := by
  rcases h.marksOf with ⟨hm, -⟩ | ⟨m, -, hm⟩ <;> rw [hm]
  · exact he
  · exact List.mem_append_left _ he

theorem GuardStep.resource (h : GuardStep i k a s ph op s' ph') (hr : s.Resource db0 k r) : s'.Resource db0 k r := by
  rcases hr with ⟨j, x, rfl, hm⟩ | h0
  · exact .inl ⟨j, x, rfl, h.mem_marksOf hm⟩
  · exact .inr h0

/-! ## The invariant -/

theorem Store.SameKey.inFlight (h : s.SameKey k s') (j : PId) : s'.InFlight k j ↔ s.InFlight k j := by
  rw [Store.InFlight, Store.InFlight, h.marks, Store.hasResolved_congr h.marks]

/-- Callers of other keys. -/
theorem Outcomes.frame (hC : CallersInv claims s phs) (hI : Outcomes db0 claims k s phs)
    (hX : Exclusive claims k s' phs') (hs : s.SameKey k s') (hphs : ∀ j, claims j = k → phs' j = phs j) :
    Outcomes db0 claims k s' phs' where
  exclusive := hX
  smooth j hj := by rw [hphs j hj]; exact hI.smooth j hj
  completed r hc := by
    obtain ⟨row, hrow, hst⟩ := hc
    rw [hs.row] at hrow
    rw [Store.Resource, hs.marks]
    exact hI.completed r ⟨row, hrow, hst⟩
  replayed j r hj h := by
    rw [hphs j hj] at h
    rw [Store.Resource, hs.marks]
    exact hI.replayed j r hj h
  invoked j h := by
    obtain ⟨hj, hph⟩ := hI.invoked j ((hs.inFlight j).1 h)
    exact ⟨hj, by rw [hphs j hj, hph]⟩
  resolved j r h := by
    rw [hs.marks] at h
    obtain ⟨hj, hph⟩ := hI.resolved j r h
    exact ⟨hj, by rw [hphs j hj]; exact hph⟩
  rejected j h := by
    rw [hs.marks] at h
    obtain ⟨hj, hph⟩ := hI.rejected j h
    exact ⟨hj, by rw [hphs j hj]; exact hph⟩
  released j h hph := by
    rw [hs.holder] at h
    rw [hphs j (hC.claimed k j (Store.holder_mem h))] at hph
    rw [hs.row]
    exact hI.released j h hph

theorem Outcomes.invoked_step (hI : Outcomes db0 claims k s phs) (hk : claims i = k)
    (h : GuardStep i k a s (phs i) op s' ph') {j : PId} (hj : s'.InFlight k j) :
    claims j = k ∧ Function.update phs i ph' j = .executing := by
  rcases h.marksOf with ⟨hm, hstay⟩ | ⟨m, hmark, hm⟩
  · rw [Store.InFlight, hm, Store.hasResolved_congr hm] at hj
    obtain ⟨hjk, hph⟩ := hI.invoked j hj
    refine ⟨hjk, ?_⟩
    by_cases hji : j = i
    · subst hji
      rw [Function.update_self]
      exact hstay hph
    · rw [Function.update_of_ne hji]
      exact hph
  · obtain ⟨hinv, hrej, hres⟩ := hj
    by_cases hji : j = i
    · subst hji
      refine ⟨hk, ?_⟩
      rw [Function.update_self]
      rw [hm] at hrej
      have hnot : m ≠ .rejected k ∧ ∀ r, m ≠ .resolved k r :=
        ⟨fun e => hrej (by simp [e]), fun r e => hres ⟨r, by rw [hm]; simp [e]⟩⟩
      generalize phs j = ph at hmark
      cases hmark with
      | invoked => rfl
      | resolved r => exact absurd rfl (hnot.2 r)
      | rejected => exact absurd rfl hnot.1
    · rw [Function.update_of_ne hji]
      refine hI.invoked j ⟨?_, fun hr => hrej (h.mem_marksOf hr), fun ⟨r, hr⟩ => hres ⟨r, h.mem_marksOf hr⟩⟩
      rw [hm] at hinv
      rcases List.mem_append.1 hinv with hinv | hinv
      · exact hinv
      · rw [List.mem_singleton, Prod.mk.injEq] at hinv
        exact absurd hinv.1 hji

/-- Only the caller's own step can add a mark of its own, and then its phase says so. -/
theorem mark_step (h : GuardStep i k a s (phs i) op s' ph') (hk : claims i = k) {j : PId} {m : Mark}
    {P : Phase → Prop}
    (hm : (j, m) ∈ s'.marksOf k) (hold : (j, m) ∈ s.marksOf k → claims j = k ∧ P (phs j))
    (hkeep : P (phs i) → P ph') (hnew : Marks k (phs i) m ph' → P ph') :
    claims j = k ∧ P (Function.update phs i ph' j) := by
  have of_old : (j, m) ∈ s.marksOf k → claims j = k ∧ P (Function.update phs i ph' j) := by
    intro ho
    obtain ⟨hj, hP⟩ := hold ho
    refine ⟨hj, ?_⟩
    by_cases hji : j = i
    · subst hji
      rw [Function.update_self]
      exact hkeep hP
    · rwa [Function.update_of_ne hji]
  rcases h.marksOf with ⟨hs, -⟩ | ⟨m', hmark, hs⟩ <;> rw [hs] at hm
  · exact of_old hm
  · rcases List.mem_append.1 hm with hm | hm
    · exact of_old hm
    · rw [List.mem_singleton, Prod.mk.injEq] at hm
      obtain ⟨rfl, rfl⟩ := hm
      rw [Function.update_self]
      exact ⟨hk, hnew hmark⟩

theorem Outcomes.released_step (hC : CallersInv claims s phs) (hI : Outcomes db0 claims k s phs) (ht : s.Timely k)
    (hk : claims i = k) (h : GuardStep i k a s (phs i) op s' ph') {j : PId} (hj : s'.holder k = some j)
    (hph : Function.update phs i ph' j = .released) : s'.db.idempotencyKeys.find? k = none := by
  have hlate := hC.late i
  have hlooked := hC.looked i
  have hheld := hI.exclusive.held i hk
  -- A caller that was released before.
  have before : s'.db.idempotencyKeys.find? k = s.db.idempotencyKeys.find? k → s'.holder k = s.holder k →
      (ph' = .released → phs i = .released) → s'.db.idempotencyKeys.find? k = none := by
    intro hrow hh hrel
    rw [hh] at hj
    rw [hrow]
    exact hI.released j hj (of_update phs i (P := (· = Phase.released)) hrel j hph)
  generalize hpi : phs i = ph at h hlate hlooked hheld before
  cases h with
  | quiet hs hq =>
    refine before (hs.sameKey k).row (hs.holder k) ?_
    rintro rfl
    cases hq
    rfl
  | marked hm => exact before rfl rfl (by rintro rfl; cases hm)
  | created ha hnone =>
    rw [Store.holder_write_of_claims rfl, Option.some.injEq] at hj
    rw [← hj, Function.update_self] at hph
    cases hph
  | reclaimed ha hcur hst => exact (not_reclaimed ht (hlate _ rfl) (hk ▸ hlooked _ rfl) hcur hst).elim
  | completed ha hrow =>
    rw [Store.holder_write_of_ne (by simp [Write.claims?])] at hj
    have hold : phs j = .released := of_update phs i (P := (· = Phase.released)) (fun e => by cases e) j hph
    rw [hI.released j hj hold] at hrow
    cases hrow
  | deleted ha hr => simp [Db.apply]

theorem Outcomes.step (hC : CallersInv claims s phs) (hI : Outcomes db0 claims k s phs)
    (ha : Undisturbed claims k s i a op) (h : GuardStep i (claims i) a s (phs i) op s' ph') :
    Outcomes db0 claims k s' (Function.update phs i ph') := by
  have hX : Exclusive claims k s' (Function.update phs i ph') := by
    refine hI.exclusive.step hC ha.1 (fun hk _ r hph => ?_) h
    exact absurd (by rw [hph]; trivial) (hI.smooth i hk)
  by_cases hk : claims i = k
  swap
  · refine hI.frame hC hX (h.frame (hC.looked i) hk) fun j hj => ?_
    exact Function.update_of_ne (fun e : j = i => hk (e ▸ hj)) ..
  have hanswers := ha.2 hk
  have hlooked := hC.looked i
  rw [hk] at h hlooked
  exact {
    exclusive := hX
    smooth := fun j hj hd => hI.smooth j hj (of_update phs i (P := Phase.Disturbed) (h.disturbed hanswers fun hact => by
      obtain ⟨row, hrow, -⟩ := hI.exclusive.held i hk hact
      exact ⟨row, hrow⟩) j hd)
    completed := fun r hc => by
      rcases h.completedWith hlooked hc with hc | ⟨x, hph, rfl⟩
      · exact h.resource (hI.completed r hc)
      · exact .inl ⟨i, x, rfl, h.mem_marksOf (hI.exclusive.resolved i x hk (by rw [hph]; rfl))⟩
    replayed := fun j r hj hph => by
      refine h.resource ?_
      by_cases hji : j = i
      · subst hji
        rw [Function.update_self] at hph
        subst hph
        rcases h.replaying with hph | hc
        · exact hI.replayed j r hj hph
        · exact hI.completed r hc
      · rw [Function.update_of_ne hji] at hph
        exact hI.replayed j r hj hph
    invoked := fun j hj => hI.invoked_step hk h hj
    resolved := fun j r hm => by
      refine mark_step h hk hm (hI.resolved j r) h.resolvedWith fun hmark => ?_
      generalize phs i = ph at hmark
      cases hmark
      rfl
    rejected := fun j hm => by
      refine mark_step h hk hm (hI.rejected j) (h.rejected hanswers) fun hmark => ?_
      generalize phs i = ph at hmark
      cases hmark
      trivial
    released := fun j hj hph => hI.released_step hC ha.1 hk h hj hph }

theorem Outcomes.init (claims : PId → ClaimKey) (k : ClaimKey) (db0 : Db) (clock : Nat)
    (h : ∀ i, phs i = .acquiring ∨ phs i = .unguarded) : Outcomes db0 claims k (.init db0 clock) phs where
  exclusive := .init claims k db0 clock fun i => by rcases h i with e | e <;> rw [e] <;> exact ⟨id, fun _ => id⟩
  smooth i _ := by rcases h i with e | e <;> rw [e] <;> exact id
  completed r hc := .inr hc
  replayed i r _ hph := by rcases h i with e | e <;> rw [e] at hph <;> cases hph
  invoked i hi := absurd hi.1 List.not_mem_nil
  resolved i r hm := absurd hm List.not_mem_nil
  rejected i hm := absurd hm List.not_mem_nil
  released i hi := absurd (Store.holder_mem hi) List.not_mem_nil

theorem Outcomes.tick (hI : Outcomes db0 claims k s phs) (ms : Nat) : Outcomes db0 claims k (tick ms s) phs :=
  ⟨hI.exclusive.tick ms, hI.smooth, hI.completed, hI.replayed, hI.invoked, hI.resolved, hI.rejected, hI.released⟩

end

/-! ## The outcomes -/

section
variable {α : Type} (calls : PId → GuardCall α)

/-- What is seen of the runs under `k` in state `c`. -/
structure RunOutcomes (db0 : Db) (k : ClaimKey) (c : Config Op.Res Err Store Err α) : Prop where
  in_flight : ∀ i j, c.store.InFlight k i → c.store.InFlight k j → i = j
  resolved : ((c.store.marksOf k).filter fun e => e.2.isResolved).length ≤ 1
  returned : ∀ i x, (calls i).claim = k → (calls i).Guarded → c.Ended i (.ok x) →
    (∃ r, (i, .resolved k r) ∈ c.store.marksOf k ∧ (calls i).operation.execute.CanReturn (r, x)) ∨
      ∃ r, c.store.Resource db0 k r ∧ ((calls i).operation.rehydrate r).CanReturn x
  threw : ∀ i e, (calls i).claim = k → (calls i).Guarded → c.Ended i (.error e) → ¬ c.store.HasResolved k i
  /-- After a run whose `execute()` rejected has ended, with no claim since: the next one gets the key. -/
  released : ∀ i e, (calls i).claim = k → (calls i).Guarded → (i, .rejected k) ∈ c.store.marksOf k →
    c.Ended i (.error e) → c.store.holder k = some i →
    ∀ j, (calls j).claim = k → (calls j).Guarded → (calls j).fuel ≠ 0 → c.pool j = (calls j).program →
      ∃ c' f, (scheduleOf (Undisturbed (fun i => (calls i).claim) k)).Step c c' ∧ c'.store.holder k = some j ∧
        c'.pool j = .call (.mark (.invoked k)) f

theorem undisturbed_preserves (db0 : Db) (k : ClaimKey) : (guardProtocol fun i => (calls i).claim).Preserves
    (scheduleOf (Undisturbed (fun i => (calls i).claim) k)) fun s phs =>
      CallersInv (fun i => (calls i).claim) s phs ∧ Outcomes db0 (fun i => (calls i).claim) k s phs :=
  guard_preserves (fun hC hI ha h => hI.step hC ha h) fun ms hI => hI.tick ms

variable {calls}

/-- A released key can be acquired. -/
theorem acquires_step {k : ClaimKey} {c : Config Op.Res Err Store Err α}
    (hnone : c.store.db.idempotencyKeys.find? k = none) {j : PId} (hk : (calls j).claim = k)
    (hg : (calls j).Guarded) (hf : (calls j).fuel ≠ 0) (hp : c.pool j = (calls j).program) :
    ∃ c' f, (scheduleOf (Undisturbed (fun i => (calls i).claim) k)).Step c c' ∧ c'.store.holder k = some j ∧
      c'.pool j = .call (.mark (.invoked k)) f := by
  obtain ⟨f, g, hprog, hok⟩ := (calls j).program_begins hg hf
  rw [hk] at hprog hok
  have hx : exec j .ok (.idempotencyKey (.create k)) c.store =
      some (.ok (), c.store.write j .prisma (.idempotencyKeyCreated k c.store.clock)) := by
    simp [exec, execIdempotency, hnone]
  have hallow : (scheduleOf (Undisturbed (fun i => (calls i).claim) k)).allow c.store j .ok
      (.idempotencyKey (.create k)) := by
    refine ⟨fun row hrow => ?_, fun _ _ => rfl⟩
    rw [hnone] at hrow
    cases hrow
  refine ⟨_, g, .call (hp.trans hprog) hallow hx, Store.holder_write_of_claims rfl, ?_⟩
  rw [← hok]
  exact Function.update_self ..

/-- **Runs under one key.** Whatever other calls run, in whatever order: as long as the runs under `k`
finish while their claims are fresh and storage answers them, at most one `execute()` is in flight, at
most one ever resolves, a run that returns gives that one's response or a `rehydrate` of its resource,
one that throws has not resolved, and after a rejected one the key can be acquired again. -/
theorem runs_at_most_once (calls : PId → GuardCall α) (db0 : Db) (clock : Nat) (k : ClaimKey)
    {c : Config Op.Res Err Store Err α}
    (hr : (scheduleOf (Undisturbed (fun i => (calls i).claim) k)).Reach
      ⟨.init db0 clock, fun i => (calls i).program⟩ c) : RunOutcomes calls db0 k c := by
  have hstart : ∀ i, (calls i).start = .acquiring ∨ (calls i).start = .unguarded := by
    intro i
    unfold GuardCall.start
    split
    · exact .inl rfl
    · exact .inr rfl
  obtain ⟨phs, ht⟩ := reach (undisturbed_preserves calls db0 k)
    (runs_track calls db0 clock (E := fun i r x => (calls i).operation.execute.CanReturn (r, x))
      (fun i => Prog.returns_canReturn _) (fun i r => Prog.returns_canReturn _)
      (Outcomes.init (fun i => (calls i).claim) k db0 clock hstart)) hr
  have hI := ht.1.2
  constructor
  case in_flight =>
    intro i j hi hj
    obtain ⟨hik, hpi⟩ := hI.invoked i hi
    obtain ⟨hjk, hpj⟩ := hI.invoked j hj
    exact hI.exclusive.one i j hik hjk (by rw [hpi]; trivial) (by rw [hpj]; trivial)
  case resolved => exact hI.exclusive.once
  case returned =>
    intro i x hk hg hx
    rcases ht.ended hx hg with ⟨r, hph, hE⟩ | ⟨r, hph, hR⟩
    · exact .inl ⟨r, hI.exclusive.resolved i r hk (by rw [hph]; rfl), hE⟩
    · exact .inr ⟨r, hI.replayed i r hk hph, hR⟩
  case threw =>
    rintro i e hk hg hx ⟨r, hm⟩
    have hun : (phs i).Unsettled := ht.ended hx hg
    have hres := (hI.resolved i r hm).2
    have hsm := hI.smooth i hk
    generalize phs i = ph at hun hres hsm
    cases ph <;> first | exact hun | exact hres | exact hsm trivial
  case released =>
    intro i e hk hg hm hx hh j hjk hjg hjf hjp
    have hun : (phs i).Unsettled := ht.ended hx hg
    have hrej := (hI.rejected i hm).2
    have hphase : phs i = .released := by
      generalize phs i = ph at hun hrej
      cases ph with
      | released => rfl
      | rejected => exact hun.elim
      | _ => exact hrej.elim
    exact acquires_step (hI.released i hh hphase) hjk hjg hjf hjp

/-- Run 0's operation rejects, all others' resolve. -/
def sampleRetries (i : PId) : GuardCall Unit := sampleCall (i == 0)

/-- Run 0 fails and releases, run 1 executes while run 2 is told to wait, run 3 replays. -/
def sampleRetrySchedule : List (System.Move Ans Nat) :=
  System.calls 0 [Ans.ok, .ok, .ok, .ok] ++ System.calls 1 [Ans.ok, .ok] ++ System.calls 2 [Ans.ok, .ok, .ok] ++
    System.calls 1 [Ans.ok, .ok] ++ System.calls 3 [Ans.ok, .ok]

theorem runs_at_most_once_sample : ∃ c,
    (scheduleOf (Undisturbed (fun i => (sampleRetries i).claim) sampleClaim)).Reach
      ⟨.init .empty 0, fun i => (sampleRetries i).program⟩ c ∧
      c.Ended 2 (.error duplicateRequestInProgress) ∧ c.Ended 3 (.ok ()) ∧
      RunOutcomes sampleRetries .empty sampleClaim c := by
  have hplay : ((scheduleOf (Undisturbed (fun i => (sampleRetries i).claim) sampleClaim)).play sampleRetrySchedule
      ⟨.init .empty 0, fun i => (sampleRetries i).program⟩).any fun c =>
        c.Ended 2 (.error duplicateRequestInProgress) ∧ c.Ended 3 (.ok ()) := by decide +kernel
  obtain ⟨c, hc, h2, h3⟩ := System.play_seen _ hplay
  have hreach := System.reach_of_play _ hc
  exact ⟨c, hreach, h2, h3, runs_at_most_once sampleRetries .empty 0 sampleClaim hreach⟩

end

end Kudi
