import KudiCore.Idempotency.Callers

/-!
# Reclaiming a stale claim

The reclaim's update writes `updatedAt`. Neither its own condition (`id`, `status`) nor the staleness
check (`createdAt`) looks at that column, so the row stays as reclaimable as it was: every call of
`tryAcquire` on a stale IN_PROGRESS row that comes back has acquired the key.
-/

namespace Kudi

open Interleave Protocol

/-- No `markCompleted` and no `release` of `k` goes through. -/
def Unfinished (k : ClaimKey) (_ : Store) (_ : PId) (a : Ans) (op : Op) : Prop :=
  op.finishes k = true → a.isFail = true

/-- ... and no reclaim, once one has. -/
def ReclaimedOnce (k : ClaimKey) (s : Store) (i : PId) (a : Ans) (op : Op) : Prop :=
  Unfinished k s i a op ∧ (op.reclaims = true → a.isFail = true ∨ s.claimants k = [])

instance (k : ClaimKey) (s : Store) (i : PId) (a : Ans) (op : Op) :
    Decidable ((scheduleOf (Unfinished k)).allow s i a op) :=
  inferInstanceAs (Decidable (_ → _))

/-- `k`'s row is IN_PROGRESS and `STALE_CLAIM_MS` old. -/
def Store.StaleClaim (s : Store) (k : ClaimKey) : Prop :=
  ∃ row, s.db.idempotencyKeys.find? k = some row ∧ row.status = .IN_PROGRESS ∧
    row.createdAt + staleClaimMs ≤ s.clock

/-- Any number of calls of `tryAcquire`. -/
def acquirers (k : ClaimKey) (fuel : PId → Nat) (i : PId) : Handler IdempotencyAcquireResult :=
  PrismaIdempotencyKeyRepository.tryAcquire k (fuel i)

def AtMostOneAcquired (c : Config Op.Res Err Store Err IdempotencyAcquireResult) : Prop :=
  ∀ i j, c.Ended i (.ok .ACQUIRED) → c.Ended j (.ok .ACQUIRED) → i = j

def AtMostOneReturned (c : Config Op.Res Err Store Err IdempotencyAcquireResult) : Prop :=
  ∀ i j x y, c.Ended i (.ok x) → c.Ended j (.ok y) → i = j

/-! ## The row stays stale -/

/-- Everybody who has looked has seen a stale row. -/
structure StaleInv (k : ClaimKey) (s : Store) (phs : PId → Phase) : Prop where
  stale : s.StaleClaim k
  looked : ∀ i row, phs i = .looked row → row.createdAt + staleClaimMs ≤ s.clock
  not_busy : ∀ i, phs i ≠ .busy
  not_replaying : ∀ i r, phs i ≠ .replaying r

section
variable {k : ClaimKey} {s s' : Store} {phs : PId → Phase} {i : PId} {a : Ans} {op : Op} {ph ph' : Phase}

theorem Store.StaleClaim.step (hs : s.StaleClaim k) (ha : Unfinished k s i a op)
    (h : GuardStep i k a s ph op s' ph') : s'.StaleClaim k := by
  obtain ⟨row, hrow, hst, hold⟩ := hs
  cases h with
  | quiet hq _ => exact ⟨row, by rw [hq.keys, hrow], hst, by rw [hq.clock]; exact hold⟩
  | created _ hnone =>
    rw [hnone] at hrow
    cases hrow
  | @reclaimed _ cur updatedAt _ hcur hcst =>
    obtain ⟨-, hfind⟩ := IdempotencyKeys.find?_of_byId? hcur
    by_cases hk : cur.claim = k
    · rw [hk, hrow, Option.some.injEq] at hfind
      subst hfind
      exact ⟨{ row with status := .IN_PROGRESS, updatedAt }, by simp [Db.apply, hk, hrow], rfl, hold⟩
    · exact ⟨row, by simp [Db.apply, hk, hrow], hst, hold⟩
  | marked hm => exact ⟨row, hrow, hst, hold⟩
  | completed hok _ =>
    rw [ha (beq_self_eq_true k)] at hok
    cases hok
  | deleted hok _ =>
    rw [ha (beq_self_eq_true k)] at hok
    cases hok

theorem StaleInv.step (hI : StaleInv k s phs) (ha : Unfinished k s i a op)
    (h : GuardStep i k a s (phs i) op s' ph') : StaleInv k s' (Function.update phs i ph') := by
  have hstale := hI.stale.step ha h
  have hclock := h.clock
  obtain ⟨row, hrow, hst, hold⟩ := hI.stale
  have hlooked := hI.looked i
  have hbusy := hI.not_busy i
  have hrep := hI.not_replaying i
  -- What the caller's own new phase can be.
  have hnew : (∀ row, ph' = .looked row → row.createdAt + staleClaimMs ≤ s.clock) ∧ ph' ≠ .busy ∧
      ∀ r, ph' ≠ .replaying r := by
    generalize phs i = ph at h hlooked hbusy hrep
    cases h with
    | quiet hs hq =>
      cases hq with
      | stay => exact ⟨hlooked, hbusy, hrep⟩
      | looks hrow' hst' =>
        refine ⟨fun row' e => ?_, nofun, nofun⟩
        cases e
        rw [hrow, Option.some.injEq] at hrow'
        exact hrow' ▸ hold
      | replays hrow' hst' =>
        rw [hrow, Option.some.injEq] at hrow'
        rw [← hrow', hst] at hst'
        cases hst'
      | @young row' hy =>
        have := hlooked row' rfl
        omega
      | _ => exact ⟨nofun, nofun, nofun⟩
    | marked hm => cases hm <;> exact ⟨nofun, nofun, nofun⟩
    | deleted hok hr => cases hr <;> exact ⟨nofun, nofun, nofun⟩
    | _ => exact ⟨nofun, nofun, nofun⟩
  refine ⟨hstale, ?_, ?_, ?_⟩
  · rw [hclock]
    exact (Function.forall_update_iff phs fun _ ph => ∀ row, ph = .looked row →
      row.createdAt + staleClaimMs ≤ s.clock).2
      ⟨hnew.1, fun j _ => hI.looked j⟩
  · exact (Function.forall_update_iff phs fun _ ph => ph ≠ .busy).2 ⟨hnew.2.1, fun j _ => hI.not_busy j⟩
  · exact (Function.forall_update_iff phs fun _ ph => ∀ r, ph ≠ .replaying r).2
      ⟨hnew.2.2, fun j _ => hI.not_replaying j⟩

theorem StaleInv.tick (ms : Nat) (hI : StaleInv k s phs) : StaleInv k (tick ms s) phs := by
  obtain ⟨row, hrow, hst, hold⟩ := hI.stale
  refine ⟨⟨row, hrow, hst, Nat.le_add_right_of_le hold⟩, fun i row' e => ?_, hI.not_busy, hI.not_replaying⟩
  exact Nat.le_add_right_of_le (hI.looked i row' e)

/-! ## One reclaim at most -/

/-- A caller that holds a claim is the only one that has claimed the key. -/
def OnlyClaimant (k : ClaimKey) (s : Store) (phs : PId → Phase) : Prop := ∀ i, phs i = .claimed →
    s.claimants k = [i]

theorem OnlyClaimant.step (hC : CallersInv (fun _ => k) s phs) (hI : StaleInv k s phs) (hO : OnlyClaimant k s phs)
    (ha : ReclaimedOnce k s i a op) (h : GuardStep i k a s (phs i) op s' ph') :
    OnlyClaimant k s' (Function.update phs i ph') := by
  obtain ⟨row, hrow, hst, -⟩ := hI.stale
  have hlooked := hC.looked i
  have hown := hO i
  generalize hph : phs i = ph at h hlooked hown
  -- Whoever else holds a claim: only a reclaim could disturb it.
  have keep : s'.claimants k = s.claimants k → (ph' = .claimed → ph = .claimed) →
      OnlyClaimant k s' (Function.update phs i ph') := by
    intro hc hp
    refine (Function.forall_update_iff phs fun j ph => ph = .claimed → s'.claimants k = [j]).2 ⟨fun e => ?_, ?_⟩
    · rw [hc]
      exact hown (hp e)
    · intro j _ e
      rw [hc]
      exact hO j e
  cases h with
  | quiet hs hq =>
    refine keep (hs.claimants k) fun e => ?_
    subst e
    cases hq
    rfl
  | created _ hnone =>
    rw [hnone] at hrow
    cases hrow
  | @reclaimed looked cur updatedAt hok hcur hcst =>
    obtain ⟨hid, hfind⟩ := IdempotencyKeys.find?_of_byId? hcur
    have hk : cur.claim = k := ((hlooked looked rfl).same _ cur hfind hid).1
    have hnobody : s.claimants k = [] := by
      rcases ha.2 rfl with hf | hn
      · rw [hf] at hok
        cases hok
      · exact hn
    refine (Function.forall_update_iff phs fun j ph => ph = .claimed → _ = [j]).2 ⟨fun _ => ?_, fun j _ e => ?_⟩
    · rw [Store.claimants_write, if_pos (by rw [Write.claims?, hk]), hnobody, List.nil_append]
    · have := hO j e
      rw [hnobody] at this
      cases this
  | marked hm => exact keep rfl fun e => by subst e; cases hm
  | completed hok _ =>
    rw [ha.1 (beq_self_eq_true k)] at hok
    cases hok
  | deleted hok _ =>
    rw [ha.1 (beq_self_eq_true k)] at hok
    cases hok

end

/-! ## Every call that comes back has acquired -/

section
variable {k : ClaimKey} {allow : Store → PId → Ans → Op → Prop}
  {c c' : Config Op.Res Err Store Err IdempotencyAcquireResult} {Inv : Store → (PId → Phase) → Prop}

/-- The pool of `tryAcquire`s, under any invariant of the keys. -/
theorem acquirers_tracks {db0 : Db} {clock : Nat} (fuel : PId → Nat)
    (h0 : Inv (.init db0 clock) fun _ => .acquiring) :
    (guardProtocol fun _ => k).Tracks (fun s phs => CallersInv (fun _ => k) s phs ∧ Inv s phs) (fun _ => AcquireEnds)
      ⟨.init db0 clock, acquirers k fuel⟩ fun _ => .acquiring :=
  ⟨⟨.init _ db0 clock fun _ => rfl, h0⟩, fun i => tryAcquire_obeys (fun _ => k) i (fuel i)⟩

theorem StaleInv.init {db0 : Db} {clock : Nat} {row0 : IdempotencyKeyRecord}
    (h0 : db0.idempotencyKeys.find? k = some row0) (hst : row0.status = .IN_PROGRESS)
    (hold : row0.createdAt + staleClaimMs ≤ clock) : StaleInv k (.init db0 clock) fun _ => .acquiring :=
  ⟨⟨row0, h0, hst, hold⟩, nofun, nofun, nofun⟩

theorem StaleInv.ended {s : Store} {phs : PId → Phase} (hI : StaleInv k s phs) {i : PId}
    {x : IdempotencyAcquireResult}
    (h : AcquireEnds (phs i) (.ok x)) : x = .ACQUIRED ∧ phs i = .claimed := by
  cases x with
  | ACQUIRED => exact ⟨rfl, h⟩
  | COMPLETED r => exact absurd h (hI.not_replaying i r)
  | IN_PROGRESS => exact absurd h (hI.not_busy i)

end

/-- **A stale claim is reclaimed by everybody who asks.** As long as no `markCompleted` or `release` of
the key goes through, at most one call has acquired it exactly if at most one call has come back at
all; that is so in particular in every run in which no reclaim goes through after the first. -/
theorem reclaim_acquired_once (db0 : Db) (clock : Nat) (k : ClaimKey) (fuel : PId → Nat) (row0 : IdempotencyKeyRecord)
    (h0 : db0.idempotencyKeys.find? k = some row0) (hst : row0.status = .IN_PROGRESS)
    (hold : row0.createdAt + staleClaimMs ≤ clock) (c : Config Op.Res Err Store Err IdempotencyAcquireResult) :
    ((scheduleOf (ReclaimedOnce k)).Reach ⟨.init db0 clock, acquirers k fuel⟩ c → AtMostOneAcquired c) ∧
      ((scheduleOf (Unfinished k)).Reach ⟨.init db0 clock, acquirers k fuel⟩ c →
        (AtMostOneAcquired c ↔ AtMostOneReturned c)) := by
  have hstale := StaleInv.init h0 hst hold
  constructor
  · intro hr
    have hpres : (guardProtocol fun _ => k).Preserves (scheduleOf (ReclaimedOnce k)) fun s phs =>
        CallersInv (fun _ => k) s phs ∧ StaleInv k s phs ∧ OnlyClaimant k s phs :=
      guard_preserves (fun hC hI ha h => ⟨hI.1.step ha.1 h, hI.2.step hC hI.1 ha h⟩)
        fun ms hI => ⟨hI.1.tick ms, hI.2⟩
    obtain ⟨phs, ht⟩ := reach hpres (acquirers_tracks fuel ⟨hstale, nofun⟩) hr
    intro i j hi hj
    have hci := ht.1.2.2 i (ht.ended hi)
    have hcj := ht.1.2.2 j (ht.ended hj)
    rw [hci] at hcj
    exact List.singleton_inj.1 hcj
  · intro hr
    have hpres : (guardProtocol fun _ => k).Preserves (scheduleOf (Unfinished k)) fun s phs =>
        CallersInv (fun _ => k) s phs ∧ StaleInv k s phs :=
      guard_preserves (fun _ hI ha h => hI.step ha h) fun ms hI => hI.tick ms
    obtain ⟨phs, ht⟩ := reach hpres (acquirers_tracks fuel hstale) hr
    have hacq : ∀ i x, c.Ended i (.ok x) → x = .ACQUIRED := fun i x h => (ht.1.2.ended (ht.ended h)).1
    constructor
    · intro h i j x y hi hj
      rw [hacq i x hi] at hi
      rw [hacq j y hj] at hj
      exact h i j hi hj
    · exact fun h i j hi hj => h i j _ _ hi hj

def sampleClaim : ClaimKey := ⟨"user", "transfer.external", "key"⟩

/-- A claim was left behind at time 0. -/
def orphanedDb : Db := { Db.empty with idempotencyKeys := IdempotencyKeys.empty.create sampleClaim 0 }

/-- One call after the other: `create`, `findUnique`, the clock twice, the reclaim. -/
def twoReclaims : List (System.Move Ans Nat) :=
  System.calls 0 [Ans.ok, .ok, .ok, .ok, .ok] ++ System.calls 1 [Ans.ok, .ok, .ok, .ok, .ok]

/-- Two minutes later two calls reclaim it, and no time passes in between. -/
theorem stale_claim_acquired_twice : ∃ c,
    (scheduleOf (Unfinished sampleClaim)).Reach ⟨.init orphanedDb staleClaimMs,
      acquirers sampleClaim fun _ => 1⟩ c ∧
      c.store.clock < staleClaimMs + staleClaimMs ∧ ¬ AtMostOneAcquired c := by
  have hplay : ((scheduleOf (Unfinished sampleClaim)).play twoReclaims
      ⟨.init orphanedDb staleClaimMs, acquirers sampleClaim fun _ => 1⟩).any fun c =>
        c.store.clock < staleClaimMs + staleClaimMs ∧ c.Ended 0 (.ok .ACQUIRED) ∧ c.Ended 1 (.ok .ACQUIRED) := by
    decide +kernel
  obtain ⟨c, hc, hclock, h0, h1⟩ := System.play_seen _ hplay
  exact ⟨c, System.reach_of_play _ hc, hclock, fun h => absurd (h 0 1 h0 h1) (by decide)⟩

theorem reclaim_acquired_once_sample : ∃ c,
    (scheduleOf (Unfinished sampleClaim)).Reach ⟨.init orphanedDb staleClaimMs,
      acquirers sampleClaim fun _ => 1⟩ c ∧
      (AtMostOneAcquired c ↔ AtMostOneReturned c) := by
  have hplay : ((scheduleOf (Unfinished sampleClaim)).play twoReclaims
      ⟨.init orphanedDb staleClaimMs, acquirers sampleClaim fun _ => 1⟩).isSome := by decide +kernel
  have hreach := (scheduleOf (Unfinished sampleClaim)).reach_play hplay
  have h0 : orphanedDb.idempotencyKeys.find? sampleClaim = some
    ⟨0, sampleClaim, .IN_PROGRESS, none, 0, 0⟩ := by decide
  exact ⟨_, hreach, (reclaim_acquired_once orphanedDb staleClaimMs sampleClaim (fun _ => 1) _ h0 rfl (by decide) _).2
    hreach⟩

end Kudi
