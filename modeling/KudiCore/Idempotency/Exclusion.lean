import KudiCore.Idempotency.Completion

/-!
# At most once

While the claims of `k` are younger than `STALE_CLAIM_MS` nobody reclaims one, so a claim is a lock on
the key: it is the row, and whoever inserted it is the only caller that may invoke `execute()`
(`Exclusive`). Once an `execute()` has resolved, the row must not go any more; the one call that would
remove it is the `release` of the run whose `markCompleted` was rejected.
-/

namespace Kudi

open Interleave Protocol

/-! ## What is asked of a schedule -/

/-- The claim on `k` is not stale. -/
def Store.Timely (s : Store) (k : ClaimKey) : Prop :=
  ∀ row, s.db.idempotencyKeys.find? k = some row → row.status = .IN_PROGRESS →
    s.clock < row.createdAt + staleClaimMs

instance (s : Store) (k : ClaimKey) : Decidable (s.Timely k) :=
  match h : s.db.idempotencyKeys.find? k with
  | none => isTrue fun row hrow => by rw [h] at hrow; cases hrow
  | some row => decidable_of_iff (row.status = .IN_PROGRESS → s.clock < row.createdAt + staleClaimMs)
    ⟨fun hr row' hrow' => by rw [h, Option.some.injEq] at hrow'; exact hrow' ▸ hr, fun hr => hr row h⟩

def Mark.isResolved : Mark → Bool
  | .resolved .. => true
  | _ => false

/-- Caller `i`'s `execute()` has resolved under `k`. -/
def Store.HasResolved (s : Store) (k : ClaimKey) (i : PId) : Prop := ∃ r, (i, Mark.resolved k r) ∈ s.marksOf k

theorem Store.hasResolved_iff {s : Store} {k : ClaimKey} {i : PId} :
    s.HasResolved k i ↔ ∃ e ∈ s.marksOf k, e.1 = i ∧ e.2.isResolved = true := by
  constructor
  · rintro ⟨r, hr⟩
    exact ⟨_, hr, rfl, rfl⟩
  · rintro ⟨⟨j, m⟩, hm, rfl, hres⟩
    cases m with
    | resolved claim r =>
      have hc : claim = k := of_decide_eq_true (List.mem_filter.1 hm).2
      exact ⟨r, hc ▸ hm⟩
    | _ => cases hres

instance (s : Store) (k : ClaimKey) (i : PId) : Decidable (s.HasResolved k i) :=
  decidable_of_iff _ Store.hasResolved_iff.symm

/-- No `release` of `k` goes through for a caller whose `execute()` has resolved. -/
def KeptOnceResolved (k : ClaimKey) (s : Store) (i : PId) (a : Ans) (op : Op) : Prop :=
  s.Timely k ∧ (op.releases k = true → s.HasResolved k i → a.isFail = true)

instance (k : ClaimKey) (s : Store) (i : PId) (a : Ans) (op : Op) :
    Decidable ((scheduleOf (KeptOnceResolved k)).allow s i a op) :=
  inferInstanceAs (Decidable (_ ∧ (_ → _ → _)))

namespace Phase

/-- The caller's `execute()` has resolved with `r`. -/
def ResolvedWith (r : String) : Phase → Prop
  | .resolved r' | .done r' | .unsaved r' | .lost r' | .orphaned r' => r' = r
  | _ => False

/-- The caller has a claim, and its `execute()` has not resolved. -/
def Armed : Phase → Prop
  | .claimed | .executing | .rejected => True
  | _ => False

theorem Armed.active {ph : Phase} (h : ph.Armed) : ph.Active := by
  cases ph <;> trivial

end Phase

/-! ## The claim is a lock -/

/-- No `execute()` is invoked after one has resolved. -/
def NoneAfterResolved (marks : List (PId × Mark)) : Prop :=
  ∀ before i k r after, marks = before ++ (i, .resolved k r) :: after → ∀ j, (j, Mark.invoked k) ∉ after

structure Exclusive (claims : PId → ClaimKey) (k : ClaimKey) (s : Store) (phs : PId → Phase) : Prop where
  held : ∀ i, claims i = k → (phs i).Active → ∃ row, s.db.idempotencyKeys.find? k = some row ∧
    row.status = .IN_PROGRESS
  one : ∀ i j, claims i = k → claims j = k → (phs i).Active → (phs j).Active → i = j
  resolved : ∀ i r, claims i = k → (phs i).ResolvedWith r → (i, .resolved k r) ∈ s.marksOf k
  kept : ∀ i, s.HasResolved k i → ∃ row, s.db.idempotencyKeys.find? k = some row
  disarmed : ∀ i, s.HasResolved k i → ∀ j, claims j = k → ¬ (phs j).Armed
  order : NoneAfterResolved (s.marksOf k)
  once : ((s.marksOf k).filter fun e => e.2.isResolved).length ≤ 1

section
variable {claims : PId → ClaimKey} {k : ClaimKey} {s s' : Store} {phs phs' : PId → Phase} {i : PId}
  {a : Ans} {op : Op}
  {ph ph' : Phase} {marks : List (PId × Mark)}

theorem Store.hasResolved_congr (h : s'.marksOf k = s.marksOf k) (i : PId) : s'.HasResolved k i ↔
    s.HasResolved k i := by
  rw [HasResolved, h, HasResolved]

/-- A mark other than `resolved` after which no `invoked` may follow: none has resolved yet. -/
theorem NoneAfterResolved.append {e : PId × Mark} (h : NoneAfterResolved marks)
    (he : ∀ j k, e = (j, .invoked k) → ∀ i r, (i, Mark.resolved k r) ∉ marks) :
    NoneAfterResolved (marks ++ [e]) := by
  intro before i k r after heq j hj
  rcases List.eq_nil_or_concat after with rfl | ⟨after', e', rfl⟩
  · exact absurd hj List.not_mem_nil
  · rw [List.concat_eq_append] at heq hj
    rw [← List.cons_append, ← List.append_assoc] at heq
    obtain ⟨h1, h2⟩ := List.append_inj' heq rfl
    rw [List.singleton_inj] at h2
    rcases List.mem_append.1 hj with hj | hj
    · exact h before i k r after' h1 j hj
    · rw [List.mem_singleton, ← h2] at hj
      exact he j k hj.symm i r (by rw [h1]; simp)

/-- Steps of other keys' callers, and those that change nothing about `k`. -/
theorem Exclusive.congr (hI : Exclusive claims k s phs) (hs : s.SameKey k s')
    (hact : ∀ j, claims j = k → (phs' j).Active → (phs j).Active)
    (harm : ∀ j, claims j = k → (phs' j).Armed → (phs j).Armed)
    (hres : ∀ j r, claims j = k → (phs' j).ResolvedWith r → (phs j).ResolvedWith r) :
    Exclusive claims k s' phs' where
  held i hi h := by rw [hs.row]; exact hI.held i hi (hact i hi h)
  one i j hi hj h h' := hI.one i j hi hj (hact i hi h) (hact j hj h')
  resolved i r hi h := by rw [hs.marks]; exact hI.resolved i r hi (hres i r hi h)
  kept i h := by rw [hs.row]; exact hI.kept i ((Store.hasResolved_congr hs.marks i).1 h)
  disarmed i h j hj ha := hI.disarmed i ((Store.hasResolved_congr hs.marks i).1 h) j hj (harm j hj ha)
  order := by rw [hs.marks]; exact hI.order
  once := by rw [hs.marks]; exact hI.once

theorem Quiet.armed {claim : ClaimKey} (h : Quiet claim a s op ph ph') (ha : ph'.Armed) : ph.Armed := by
  cases h with
  | stay => exact ha
  | _ => exact ha.elim

theorem Quiet.resolvedWith {claim : ClaimKey} {r : String} (h : Quiet claim a s op ph ph') (ha : ph'.ResolvedWith r) :
    ph.ResolvedWith r := by
  cases h with
  | stay => exact ha
  | unsaved r' hop h => exact ha
  | orphaned r' hop h => exact ha
  | _ => exact ha.elim

/-- While the claim is not stale nobody reclaims it. -/
theorem not_reclaimed {row cur : IdempotencyKeyRecord} (ht : s.Timely k)
    (hlate : row.createdAt + staleClaimMs ≤ s.clock)
    (hl : Looked s k row) (hcur : s.db.idempotencyKeys.byId? row.id = some cur) (hst : cur.status = .IN_PROGRESS) :
    False := by
  obtain ⟨hid, hfind⟩ := IdempotencyKeys.find?_of_byId? hcur
  obtain ⟨hck, hcreated⟩ := hl.same _ cur hfind hid
  rw [hck] at hfind
  have hfresh := ht cur hfind hst
  rw [hcreated] at hfresh
  omega

/-- Not the one step that would break the lock: a caller of `k` lets go of the row though its `execute()` has
resolved. -/
def Keeps (k : ClaimKey) (a : Ans) (ph : Phase) (op : Op) : Prop :=
  op.releases k = true → ∀ r, ph = .unsaved r → a.isFail = true

/-- What a step makes true of a phase only where it was true before. -/
theorem of_update (phs : PId → Phase) (i : PId) {P : Phase → Prop} (h : P ph' → P (phs i)) (j : PId)
    (hj : P (Function.update phs i ph' j)) : P (phs j) := by
  by_cases e : j = i
  · subst e
    rw [Function.update_self] at hj
    exact h hj
  · rwa [Function.update_of_ne e] at hj

theorem filter_resolved_nil (h : ∀ i, ¬ s.HasResolved k i) : (s.marksOf k).filter (fun e => e.2.isResolved) =
    [] := by
  rw [List.filter_eq_nil_iff]
  exact fun e he hres => h e.1 (Store.hasResolved_iff.2 ⟨e, he, rfl, hres⟩)

/-- `invoked` and `rejected`: an armed caller stays armed. -/
theorem Exclusive.marked {m : Mark} (hI : Exclusive claims k s phs) (hk : claims i = k) (hm : m.claim = k)
    (hres : m.isResolved = false) (ha : (phs i).Armed) (ha' : ph'.Armed) :
    Exclusive claims k { s with marks := s.marks ++ [(i, m)] } (Function.update phs i ph') := by
  have hfresh : ∀ j, ¬ s.HasResolved k j := fun j hj => hI.disarmed j hj i hk ha
  have hmarks : { s with marks := s.marks ++ [(i, m)] }.marksOf k = s.marksOf k ++ [(i, m)] := by
    rw [Store.marksOf_append, if_pos hm]
  have hfresh' : ∀ j, ¬ { s with marks := s.marks ++ [(i, m)] }.HasResolved k j := by
    rintro j ⟨r, hj⟩
    rw [hmarks] at hj
    rcases List.mem_append.1 hj with hj | hj
    · exact hfresh j ⟨r, hj⟩
    · simp only [List.mem_singleton, Prod.mk.injEq] at hj
      rw [← hj.2] at hres
      cases hres
  have hact : ∀ j, (Function.update phs i ph' j).Active → (phs j).Active :=
    of_update phs i (P := Phase.Active) fun _ => ha.active
  exact {
    held := fun j hj h => hI.held j hj (hact j h)
    one := fun j j' hj hj' h h' => hI.one j j' hj hj' (hact j h) (hact j' h')
    resolved := fun j r hj h => by
      have hold := of_update phs i (P := Phase.ResolvedWith r) (fun h => by
        cases ph' <;> first | exact h.elim | exact ha'.elim) j h
      rw [hmarks]
      exact List.mem_append_left _ (hI.resolved j r hj hold)
    kept := fun j h => absurd h (hfresh' j)
    disarmed := fun j h => absurd h (hfresh' j)
    order := by
      rw [hmarks]
      refine hI.order.append fun j k' e j' r hj' => ?_
      rw [Prod.mk.injEq] at e
      rw [e.2] at hm
      rw [show k' = k from hm] at hj'
      exact hfresh j' ⟨r, hj'⟩
    once := by
      rw [hmarks, List.filter_append]
      simpa [hres] using hI.once }

/-- An insert: nobody held the key. -/
theorem Exclusive.created (hI : Exclusive claims k s phs)
    (hnone : s.db.idempotencyKeys.find? k = none) :
    Exclusive claims k (s.write i .prisma (.idempotencyKeyCreated k s.clock)) (Function.update phs i .claimed) := by
  have free : ∀ j, claims j = k → ¬ (phs j).Active := by
    intro j hj ha
    obtain ⟨row, hrow, -⟩ := hI.held j hj ha
    rw [hnone] at hrow
    cases hrow
  have fresh : ∀ j, ¬ s.HasResolved k j := by
    intro j hj
    obtain ⟨row, hrow⟩ := hI.kept j hj
    rw [hnone] at hrow
    cases hrow
  have own : ∀ j, claims j = k → (Function.update phs i Phase.claimed j).Active → j = i := by
    intro j hj ha
    by_contra hji
    rw [Function.update_of_ne hji] at ha
    exact free j hj ha
  exact {
    held := fun j hj _ => ⟨s.db.idempotencyKeys.newRow k s.clock, by simp [Db.apply], rfl⟩
    one := fun j j' hj hj' ha ha' => (own j hj ha).trans (own j' hj' ha').symm
    resolved := fun j r hj hr =>
      hI.resolved j r hj (of_update phs i (P := Phase.ResolvedWith r) (fun h => by exact h.elim) j hr)
    kept := fun j hj => absurd hj (fresh j)
    disarmed := fun j hj => absurd hj (fresh j)
    order := hI.order
    once := hI.once }

/-- Only the one active caller can be past its `execute()`. -/
theorem Exclusive.alone (hI : Exclusive claims k s phs) (hk : claims i = k) (ha : (phs i).Active) {P : Phase → Prop}
    (hP : ∀ ph, P ph → ph.Active) (hn : ¬ P ph') (j : PId) (hj : claims j = k) :
    ¬ P (Function.update phs i ph' j) := by
  intro h
  by_cases hji : j = i
  · subst hji
    rw [Function.update_self] at h
    exact hn h
  · rw [Function.update_of_ne hji] at h
    exact hji (hI.one j i hj hk (hP _ h) ha)

theorem Exclusive.resolves {r : String} (hI : Exclusive claims k s phs) (hk : claims i = k)
    (hph : phs i = .executing) :
    Exclusive claims k { s with marks := s.marks ++ [(i, .resolved k r)] } (Function.update phs i (.resolved r)) := by
  have harmed : (phs i).Armed := by rw [hph]; trivial
  have fresh : ∀ j, ¬ s.HasResolved k j := fun j hj => hI.disarmed j hj i hk harmed
  have hmarks : { s with marks := s.marks ++ [(i, Mark.resolved k r)] }.marksOf k =
      s.marksOf k ++ [(i, .resolved k r)] := by
    rw [Store.marksOf_append]
    exact congrArg _ (if_pos rfl)
  have hact : ∀ j, (Function.update phs i (Phase.resolved r) j).Active → (phs j).Active :=
    of_update phs i (P := Phase.Active) fun _ => harmed.active
  exact {
    held := fun j hj h => hI.held j hj (hact j h)
    one := fun j j' hj hj' h h' => hI.one j j' hj hj' (hact j h) (hact j' h')
    resolved := fun j r' hj h => by
      rw [hmarks]
      by_cases hji : j = i
      · subst hji
        rw [Function.update_self] at h
        obtain rfl : r = r' := h
        exact List.mem_append_right _ (List.mem_singleton_self _)
      · rw [Function.update_of_ne hji] at h
        exact List.mem_append_left _ (hI.resolved j r' hj h)
    kept := fun j _ => by
      obtain ⟨row, hrow, -⟩ := hI.held i hk harmed.active
      exact ⟨row, hrow⟩
    disarmed := fun _ _ j hj => hI.alone hk harmed.active (fun _ => Phase.Armed.active) id j hj
    order := by
      rw [hmarks]
      exact hI.order.append fun j k' e => by cases e
    once := by
      rw [hmarks, List.filter_append, filter_resolved_nil fresh]
      exact le_rfl }

theorem Exclusive.completes {r : String} {row : IdempotencyKeyRecord} (hI : Exclusive claims k s phs)
    (hk : claims i = k)
    (hph : phs i = .resolved r) (hrow : s.db.idempotencyKeys.find? k = some row) :
    Exclusive claims k (s.write i .prisma (.idempotencyKeyUpdated k .COMPLETED (some r) s.clock))
      (Function.update phs i (.done r)) := by
  have hactive : (phs i).Active := by rw [hph]; trivial
  have none_active := hI.alone hk hactive (P := Phase.Active) (fun _ h => h) (id : ¬ (Phase.done r).Active)
  exact {
    held := fun j hj h => absurd h (none_active j hj)
    one := fun j j' hj hj' h h' => absurd h (none_active j hj)
    resolved := fun j r' hj h =>
      hI.resolved j r' hj (of_update phs i (P := Phase.ResolvedWith r') (fun h => by rw [hph]; exact h) j h)
    kept := fun _ _ => ⟨{ row with status := .COMPLETED, resourceId := some r, updatedAt := s.clock }, by
      simp [Db.apply, hrow]⟩
    disarmed := fun j hj => hI.alone hk hactive (fun _ => Phase.Armed.active) id
    order := hI.order
    once := hI.once }

theorem Exclusive.releases (hI : Exclusive claims k s phs) (hk : claims i = k) (hph : phs i = .rejected) :
    Exclusive claims k (s.write i .prisma (.idempotencyKeyDeleted k)) (Function.update phs i .released) := by
  have harmed : (phs i).Armed := by rw [hph]; trivial
  have fresh : ∀ j, ¬ s.HasResolved k j := fun j hj => hI.disarmed j hj i hk harmed
  have none_active := hI.alone hk harmed.active (P := Phase.Active) (fun _ h => h) (id : ¬ (Phase.released).Active)
  exact {
    held := fun j hj h => absurd h (none_active j hj)
    one := fun j j' hj hj' h h' => absurd h (none_active j hj)
    resolved := fun j r hj h =>
      hI.resolved j r hj (of_update phs i (P := Phase.ResolvedWith r) (fun h => by exact h.elim) j h)
    kept := fun j hj => absurd hj (fresh j)
    disarmed := fun j hj => absurd hj (fresh j)
    order := hI.order
    once := hI.once }

/-- **The lock holds.** -/
theorem Exclusive.step (hC : CallersInv claims s phs) (hI : Exclusive claims k s phs) (ht : s.Timely k)
    (hkeep : claims i = k → Keeps k a (phs i) op) (h : GuardStep i (claims i) a s (phs i) op s' ph') :
    Exclusive claims k s' (Function.update phs i ph') := by
  by_cases hk : claims i = k
  swap
  · have other : ∀ j, claims j = k → Function.update phs i ph' j = phs j := fun j hj =>
      Function.update_of_ne (fun e : j = i => hk (e ▸ hj)) ..
    refine hI.congr (h.frame (hC.looked i) hk) (fun j hj => ?_) (fun j hj => ?_) fun j r hj => ?_ <;>
      exact (other j hj ▸ ·)
  have hlooked := hC.looked i
  have hlate := hC.late i
  have hkeep := hkeep hk
  have upd : ∀ {P : Phase → Prop}, (P ph' → P (phs i)) → ∀ j, P (Function.update phs i ph' j) → P (phs j) :=
    of_update phs i
  rw [hk] at h
  generalize hph : phs i = ph at h hlooked hlate hkeep upd
  cases h with
  | quiet hs hq =>
    exact hI.congr (hs.sameKey k) (fun j _ => upd hq.active j) (fun j _ => upd hq.armed j)
      fun j r _ => upd hq.resolvedWith j
  | created hok hnone => exact hI.created hnone
  | reclaimed hok hcur hst => exact (not_reclaimed ht (hlate _ rfl) (hk ▸ hlooked _ rfl) hcur hst).elim
  | marked hm =>
    cases hm with
    | invoked => exact hI.marked hk rfl rfl (by rw [hph]; trivial) trivial
    | rejected => exact hI.marked hk rfl rfl (by rw [hph]; trivial) trivial
    | resolved r => exact hI.resolves hk hph
  | completed hok hrow => exact hI.completes hk hph hrow
  | deleted hok hr =>
    cases hr with
    | rejected => exact hI.releases hk hph
    | unsaved r =>
      rw [hkeep (by simp) r rfl] at hok
      cases hok

theorem Exclusive.init (claims : PId → ClaimKey) (k : ClaimKey) (db0 : Db) (clock : Nat)
    (h : ∀ i, ¬ (phs i).Active ∧ ∀ r, ¬ (phs i).ResolvedWith r) :
    Exclusive claims k (.init db0 clock) phs where
  held i _ hi := absurd hi (h i).1
  one i j _ _ hi := absurd hi (h i).1
  resolved i r _ hr := absurd hr ((h i).2 r)
  kept i hi := by
    obtain ⟨r, hr⟩ := hi
    exact absurd hr List.not_mem_nil
  disarmed i hi := by
    obtain ⟨r, hr⟩ := hi
    exact absurd hr List.not_mem_nil
  order before i k r after h := absurd h (by simp [Store.marksOf, Store.init])
  once := Nat.zero_le _

theorem Exclusive.tick (hI : Exclusive claims k s phs) (ms : Nat) : Exclusive claims k (tick ms s) phs :=
  ⟨hI.held, hI.one, hI.resolved, hI.kept, hI.disarmed, hI.order, hI.once⟩

end

theorem GuardCall.start_idle {α : Type} (call : GuardCall α) :
    ¬ call.start.Active ∧ ∀ r, ¬ call.start.ResolvedWith r := by
  unfold start
  split <;> exact ⟨id, fun _ => id⟩

/-- **A resolved operation is not run again** under its key while claims are fresh, in every run in which
no `release` goes through for a caller whose own `execute()` has resolved. -/
theorem resolved_never_reinvoked {α : Type} (calls : PId → GuardCall α) (db0 : Db) (clock : Nat) (k : ClaimKey)
    {c : Config Op.Res Err Store Err α}
    (hr : (scheduleOf (KeptOnceResolved k)).Reach ⟨.init db0 clock, fun i => (calls i).program⟩ c) :
    NoneAfterResolved (c.store.marksOf k) := by
  have hpres : (guardProtocol fun i => (calls i).claim).Preserves (scheduleOf (KeptOnceResolved k)) fun s phs =>
      CallersInv (fun i => (calls i).claim) s phs ∧ Exclusive (fun i => (calls i).claim) k s phs := by
    refine guard_preserves (fun hC hI ha h => ?_) fun ms hI => hI.tick ms
    refine hI.step hC ha.1 (fun hk hrel r hph => ?_) h
    exact ha.2 hrel ⟨r, hI.resolved _ r hk (by rw [hph]; rfl)⟩
  have htracks := runs_track calls db0 clock (E := fun _ _ _ => True) (R := fun _ _ _ => True)
    (fun _ => Prog.returns_true _) (fun _ _ => Prog.returns_true _)
    (Exclusive.init (fun i => (calls i).claim) k db0 clock fun i => (calls i).start_idle)
  obtain ⟨phs, ht⟩ := reach hpres htracks hr
  exact ht.1.2.order

/-- Every program runs the operation that resolves. -/
def sampleRuns (_ : PId) : GuardCall Unit := sampleCall false

/-- `execute()` of run 0 resolves, its `markCompleted` is rejected. -/
def completionRejected : List (System.Move Ans Nat) :=
  System.calls 0 [.ok, .ok, .ok, .fail connectionLost]

/-- Run 0 releases the claim of what it has done; run 1 does it again. No time has passed. -/
theorem resolved_reinvoked : ∃ c, anySchedule.Reach ⟨.init .empty 0, fun i => (sampleRuns i).program⟩ c ∧
    c.store.clock = 0 ∧ ¬ NoneAfterResolved (c.store.marksOf sampleClaim) := by
  have hplay : (anySchedule.play (completionRejected ++ System.calls 0 [Ans.ok] ++ System.calls 1 [Ans.ok, .ok])
      ⟨.init .empty 0, fun i => (sampleRuns i).program⟩).any fun c => c.store.clock = 0 ∧
        c.store.marksOf sampleClaim = [(0, .invoked sampleClaim)] ++
          (0, .resolved sampleClaim "r") :: [(1, .invoked sampleClaim)] := by decide +kernel
  obtain ⟨c, hc, hclock, hmarks⟩ := System.play_seen _ hplay
  exact ⟨c, System.reach_of_play _ hc, hclock, fun h => h _ _ _ _ _ hmarks 1 (by simp)⟩

/-- Where the release is rejected, too, run 1 is told that the request is in progress. -/
theorem resolved_never_reinvoked_sample : ∃ c,
    (scheduleOf (KeptOnceResolved sampleClaim)).Reach ⟨.init .empty 0, fun i => (sampleRuns i).program⟩ c ∧
      c.Ended 1 (.error duplicateRequestInProgress) ∧ NoneAfterResolved (c.store.marksOf sampleClaim) := by
  have hplay : ((scheduleOf (KeptOnceResolved sampleClaim)).play (completionRejected ++
      System.calls 0 [Ans.fail connectionLost] ++ System.calls 1 [Ans.ok, .ok, .ok])
      ⟨.init .empty 0, fun i => (sampleRuns i).program⟩).any fun c =>
        c.Ended 1 (.error duplicateRequestInProgress) := by decide +kernel
  obtain ⟨c, hc, hend⟩ := System.play_seen _ hplay
  have hreach := System.reach_of_play _ hc
  exact ⟨c, hreach, hend, resolved_never_reinvoked sampleRuns .empty 0 sampleClaim hreach⟩

end Kudi
