import KudiCore.Idempotency.Reclaim

/-!
# A completed key

A claim has no owner: `markCompleted` and `release` act on whatever row the key has. As long as they
go through only for the caller that claimed the key last (`HoldersFinish`), a completed row stays. A
slow caller whose claim has been reclaimed is not held to that.
-/

namespace Kudi

open Interleave Protocol

/-- `k` is COMPLETED with resource id `r`. -/
def Store.CompletedWith (s : Store) (k : ClaimKey) (r : Option String) : Prop :=
  ∃ row, s.db.idempotencyKeys.find? k = some row ∧ row.status = .COMPLETED ∧ row.resourceId = r

instance (s : Store) (k : ClaimKey) (r : Option String) : Decidable (s.CompletedWith k r) :=
  decidable_of_iff ((s.db.idempotencyKeys.find? k).any fun row => row.status = .COMPLETED ∧ row.resourceId = r) (by
    simp [Store.CompletedWith, Option.any_eq_true])

/-- A `markCompleted` or `release` of `k` that goes through is that of the last caller to have claimed `k`. -/
def HoldersFinish (k : ClaimKey) (s : Store) (i : PId) (a : Ans) (op : Op) : Prop :=
  op.finishes k = true → a.isFail = true ∨ s.holder k = some i

instance (k : ClaimKey) (s : Store) (i : PId) (a : Ans) (op : Op) :
    Decidable ((scheduleOf (HoldersFinish k)).allow s i a op) :=
  inferInstanceAs (Decidable (_ → _))

/-- Once its row is COMPLETED, the holder of `k` is past its last call. -/
def HolderDone (k : ClaimKey) (s : Store) (phs : PId → Phase) : Prop :=
  ∀ i row, s.db.idempotencyKeys.find? k = some row → row.status = .COMPLETED → s.holder k = some i →
    ¬ (phs i).Active

section
variable {claims : PId → ClaimKey} {k : ClaimKey} {s s' : Store} {phs : PId → Phase} {i : PId} {a : Ans} {op : Op}
  {ph ph' : Phase} {r : Option String}

theorem Store.holder_mem (h : s.holder k = some i) : i ∈ s.claimants k := List.mem_of_getLast? h

/-- Only a claim makes a caller active. -/
theorem Quiet.active {claim : ClaimKey} (h : Quiet claim a s op ph ph') (hact : ph'.Active) : ph.Active := by
  cases h with
  | stay => exact hact
  | unsaved r hop h => trivial
  | _ => exact hact.elim

theorem Marks.active {claim : ClaimKey} {m : Mark} (h : Marks claim ph m ph') : ph.Active := by
  cases h <;> trivial

theorem Releases.active (h : Releases ph ph') : ph.Active := by
  cases h <;> trivial

theorem HolderDone.step (hC : CallersInv claims s phs) (hI : HolderDone k s phs) (ha : HoldersFinish k s i a op)
    (h : GuardStep i (claims i) a s (phs i) op s' ph') : HolderDone k s' (Function.update phs i ph') := by
  by_cases hk : claims i = k
  · -- The caller is one of `k`.
    have hlooked := hC.looked i
    have hown := hI i
    generalize hph : phs i = ph at h hlooked hown
    have keep : s'.db.idempotencyKeys.find? k = s.db.idempotencyKeys.find? k → s'.holder k = s.holder k →
        (ph'.Active → ph.Active) → HolderDone k s' (Function.update phs i ph') := by
      intro hrow hh hact j row hr hst hj
      rw [hrow] at hr
      rw [hh] at hj
      by_cases hji : j = i
      · subst hji
        rw [Function.update_self]
        exact fun ha' => hown row hr hst hj (hact ha')
      · rw [Function.update_of_ne hji]
        exact hI j row hr hst hj
    have vacuous : (∀ row, s'.db.idempotencyKeys.find? k = some row → row.status ≠ .COMPLETED) →
        HolderDone k s' (Function.update phs i ph') := fun hn j row hr hst => absurd hst (hn row hr)
    cases h with
    | quiet hs hq => exact keep (hs.sameKey k).row (hs.holder k) hq.active
    | marked hm => exact keep rfl rfl fun _ => hm.active
    | created hok hnone =>
      refine vacuous fun row hr => ?_
      simp only [Store.db_write_prisma, Db.apply, IdempotencyKeys.find?_create, hk, if_true, Option.some.injEq] at hr
      subst hr
      intro hcompleted
      cases hcompleted
    | @reclaimed looked cur updatedAt hok hcur hst =>
      obtain ⟨hid, hfind⟩ := IdempotencyKeys.find?_of_byId? hcur
      have hck : cur.claim = k := ((hlooked looked rfl).same _ cur hfind hid).1.trans hk
      rw [hck] at hfind
      refine vacuous fun row hr => ?_
      simp only [Store.db_write_prisma, Db.apply, IdempotencyKeys.find?_update, hck, if_true, hfind,
        Option.map_some, Option.some.injEq] at hr
      subst hr
      intro hcompleted
      cases hcompleted
    | @completed resourceId row0 hok hrow0 =>
      have hholder : s.holder k = some i := by
        rcases ha (by simp [hk]) with hf | hh
        · rw [hf] at hok
          cases hok
        · exact hh
      intro j row hr hst hj
      rw [Store.holder_write_of_ne (by simp [Write.claims?]), hholder, Option.some.injEq] at hj
      subst hj
      rw [Function.update_self]
      exact id
    | deleted hok hr =>
      refine vacuous fun row hr => ?_
      simp only [Store.db_write_prisma, Db.apply, IdempotencyKeys.find?_erase, hk, if_true] at hr
      cases hr
  · -- Another key's caller has not claimed `k`.
    have hsame := h.frame (hC.looked i) hk
    intro j row hr hst hj
    rw [hsame.row] at hr
    rw [hsame.holder] at hj
    have hji : j ≠ i := fun e => hk (e ▸ hC.claimed k j (Store.holder_mem hj))
    rw [Function.update_of_ne hji]
    exact hI j row hr hst hj

/-- **A completed row stays.** -/
theorem Store.CompletedWith.step (hC : CallersInv claims s phs) (hI : HolderDone k s phs)
    (ha : HoldersFinish k s i a op) (h : GuardStep i (claims i) a s (phs i) op s' ph') (hc : s.CompletedWith k r) :
    s'.CompletedWith k r := by
  obtain ⟨row, hrow, hst, hr⟩ := hc
  by_cases hk : claims i = k
  · have hlooked := hC.looked i
    have hown := hI i row hrow hst
    generalize phs i = ph at h hlooked hown
    have finished : op.finishes k = true → a.isFail = false → ph.Active → False := by
      intro hf hok hact
      rcases ha hf with hfail | hholder
      · rw [hfail] at hok
        cases hok
      · exact hown hholder hact
    cases h with
    | quiet hs hq => exact ⟨row, by rw [hs.keys, hrow], hst, hr⟩
    | marked hm => exact ⟨row, hrow, hst, hr⟩
    | created hok hnone =>
      rw [hk, hrow] at hnone
      cases hnone
    | @reclaimed looked cur updatedAt hok hcur hcst =>
      obtain ⟨hid, hfind⟩ := IdempotencyKeys.find?_of_byId? hcur
      have hck : cur.claim = k := ((hlooked looked rfl).same _ cur hfind hid).1.trans hk
      rw [hck, hrow, Option.some.injEq] at hfind
      rw [← hfind, hst] at hcst
      cases hcst
    | completed hok hrow0 => exact (finished (by simp [hk]) hok trivial).elim
    | deleted hok hrel => exact (finished (by simp [hk]) hok hrel.active).elim
  · exact ⟨row, by rw [(h.frame (hC.looked i) hk).row, hrow], hst, hr⟩

end

/-! ## Runs, and bare calls of `tryAcquire` -/

inductive Caller (α : Type) where
  | run (call : GuardCall α)
  | tryAcquire (claim : ClaimKey) (fuel : Nat)

namespace Caller

variable {α : Type}

def claim : Caller α → ClaimKey
  | .run call => call.claim
  | .tryAcquire claim _ => claim

noncomputable def start : Caller α → Phase
  | .run call => call.start
  | .tryAcquire .. => .acquiring

def program : Caller α → Handler (α ⊕ IdempotencyAcquireResult)
  | .run call => do return .inl (← call.program)
  | .tryAcquire claim fuel => do return .inr (← PrismaIdempotencyKeyRepository.tryAcquire claim fuel)

theorem obeys (caller : Caller α) {claims : PId → ClaimKey} {i : PId} (hc : claims i = caller.claim) :
    (guardProtocol claims).Obeys i (fun _ _ => True) caller.program caller.start := by
  cases caller with
  | run call =>
    have h := call.obeys hc (E := fun _ _ => True) (R := fun _ _ => True) (Prog.returns_true _) fun _ =>
      Prog.returns_true _
    exact Obeys.bind h (fun _ _ _ => trivial) fun _ _ _ => trivial
  | tryAcquire claim fuel =>
    have h := tryAcquire_obeys claims i fuel
    rw [show claims i = claim from hc] at h
    exact Obeys.bind h (fun _ _ _ => trivial) fun _ _ _ => trivial

end Caller

/-! ## What `tryAcquire` finds on a completed key -/

/-- Where a `tryAcquire` that began when `k` was completed can be. It throws only if storage fails. -/
inductive Replays (k : ClaimKey) (r : Option String) (fails : Prop) : Handler IdempotencyAcquireResult → Prop
  | begins (fuel : Nat) : Replays k r fails (PrismaIdempotencyKeyRepository.tryAcquire k (fuel + 1))
  | looks {f : Except Err (Option IdempotencyKeyRecord) → Handler IdempotencyAcquireResult}
      (hok : ∀ row, row.status = .COMPLETED → f (.ok (some row)) = .pure (.COMPLETED row.resourceId))
      (herr : ∀ e, f (.error e) = .throw e) : Replays k r fails (.call (.idempotencyKey (.findUnique k)) f)
  | returned : Replays k r fails (.pure (.COMPLETED r))
  | threw (h : fails) (e : Err) : Replays k r fails (.throw e)

section
variable {k : ClaimKey} {r : Option String} {fails : Prop} {s s' : Store} {i : PId} {a : Ans}

theorem Store.CompletedWith.create_error (hs : s.CompletedWith k r) {x : Except Err Unit}
    (hx : exec i a (.idempotencyKey (.create k)) s = some (x, s')) :
    ∃ e, x = .error e ∧ (a.isFail = true ∨ isUniqueViolation e = true) := by
  obtain ⟨row, hrow, -, -⟩ := hs
  rcases x with e | ⟨⟩
  · refine ⟨e, rfl, ?_⟩
    obtain ⟨-, hf | ⟨-, -, -, -, rfl⟩ | ⟨c, r, hc, -⟩⟩ := exec_idempotencyKey_error hx
    · exact .inl hf
    · exact .inr rfl
    · cases hc
  · rw [(exec_create_ok hx).1] at hrow
    cases hrow

theorem Replays.step {p : Handler IdempotencyAcquireResult} (h : Replays k r fails p) (hs : s.CompletedWith k r)
    {op : Op} {f : Except Err op.Res → Handler IdempotencyAcquireResult} (hp : p = .call op f)
    {x : Except Err op.Res} (hx : exec i a op s = some (x, s')) (hf : a.isFail = true → fails) :
    Replays k r fails (f x) := by
  cases h with
  | begins fuel =>
    rw [PrismaIdempotencyKeyRepository.tryAcquire] at hp
    cases hp
    obtain ⟨e, rfl, he⟩ := hs.create_error hx
    by_cases hu : isUniqueViolation e = true
    · simp only [hu, Bool.not_true, Bool.false_eq_true, ↓reduceIte]
      exact .looks (fun row hst => if_pos hst) fun e => rfl
    · simp only [hu, Bool.not_false, ↓reduceIte]
      exact .threw (hf (he.resolve_right hu)) e
  | looks hok herr =>
    cases hp
    rcases x with e | row
    · rw [herr]
      obtain ⟨-, ha | ⟨c, -, hc, -⟩ | ⟨c, r, hc, -⟩⟩ := exec_idempotencyKey_error hx
      · exact .threw (hf ha) e
      · cases hc
      · cases hc
    · obtain ⟨row0, hrow0, hst, rfl⟩ := hs
      obtain ⟨rfl, -⟩ := exec_findUnique_ok hx
      rw [hrow0, hok row0 hst]
      exact .returned
  | returned => cases hp
  | threw h e => cases hp

end

section
variable {α : Type} {callers : PId → Caller α} {k : ClaimKey} {r : Option String}
  {allow : Store → PId → Ans → Op → Prop} {c c' : Config Op.Res Err Store Err (α ⊕ IdempotencyAcquireResult)}

/-- Everything that is known of a pool in which only holders finish. -/
abbrev Tracked (callers : PId → Caller α) (k : ClaimKey)
    (c : Config Op.Res Err Store Err (α ⊕ IdempotencyAcquireResult)) (phs : PId → Phase) : Prop :=
  (guardProtocol fun i => (callers i).claim).Tracks
    (fun s phs => CallersInv (fun i => (callers i).claim) s phs ∧ HolderDone k s phs) (fun _ _ _ => True) c phs

theorem Tracked.init (callers : PId → Caller α) (db0 : Db) (clock : Nat) (k : ClaimKey) :
    Tracked callers k ⟨.init db0 clock, fun i => (callers i).program⟩ fun i => (callers i).start := by
  refine ⟨⟨.init _ db0 clock fun i => ?_, nofun⟩, fun i => (callers i).obeys rfl⟩
  cases callers i with
  | run call =>
    show call.start.row? = none
    unfold GuardCall.start
    split <;> rfl
  | tryAcquire claim fuel => rfl

theorem holderDone_preserves (hallow : ∀ s i a op, allow s i a op → HoldersFinish k s i a op) :
    (guardProtocol fun i => (callers i).claim).Preserves (scheduleOf allow)
      fun s phs => CallersInv (fun i => (callers i).claim) s phs ∧ HolderDone k s phs :=
  guard_preserves (fun hC hI ha h => hI.step hC (hallow _ _ _ _ ha) h) fun _ hI => hI

/-- From a completed key on: the row stays, and who begins a `tryAcquire` finds it. -/
theorem completed_run (hallow : ∀ s i a op, allow s i a op → HoldersFinish k s i a op) {phs : PId → Phase}
    (ht : Tracked callers k c phs) (hc : c.store.CompletedWith k r) (hr : (scheduleOf allow).Reach c c') :
    (∃ phs', Tracked callers k c' phs') ∧ c'.store.CompletedWith k r ∧
      ∀ i fails, ((∃ s a op, allow s i a op ∧ a.isFail = true) → fails) →
        (∃ p, Replays k r fails p ∧ c.pool i = p >>= fun x => .pure (.inr x)) →
        ∃ p, Replays k r fails p ∧ c'.pool i = p >>= fun x => .pure (.inr x) := by
  induction hr with
  | refl => exact ⟨⟨phs, ht⟩, hc, fun _ _ _ h => h⟩
  | @tail c1 c2 _ hs ih =>
    obtain ⟨⟨phs1, ht1⟩, hc1, hp1⟩ := ih
    refine ⟨tracks_step (holderDone_preserves hallow) ht1 hs, ?_⟩
    cases hs with
    | act ms => exact ⟨hc1, hp1⟩
    | @call j op f a x s' hp ha hx =>
      have hj := ht1.2 j
      rw [hp] at hj
      have hg := guardStep ht1.1.1.direct hj.1 hx
      refine ⟨hc1.step ht1.1.1 ht1.1.2 (hallow _ _ _ _ ha) hg, fun i fails hf hi => ?_⟩
      obtain ⟨p, hrep, hpi⟩ := hp1 i fails hf hi
      by_cases hij : i = j
      · subst hij
        rw [hp] at hpi
        cases p with
        | call op' f' =>
          rw [Prog.call_bind] at hpi
          cases hpi
          exact ⟨f' x, hrep.step hc1 rfl hx fun hfail => hf ⟨_, a, _, ha, hfail⟩, Function.update_self ..⟩
        | pure y => cases hpi
        | throw e => cases hpi
        | stuck => cases hpi
      · exact ⟨p, hrep, (Function.update_of_ne hij ..).trans hpi⟩

end

/-- ... and no call of caller `i` is rejected by storage. -/
def HoldersFinishAnd (k : ClaimKey) (i : PId) (s : Store) (j : PId) (a : Ans) (op : Op) : Prop :=
  HoldersFinish k s j a op ∧ (j = i → a.isFail = false)

section
variable {α : Type} {k : ClaimKey} {r : Option String}
  {c : Config Op.Res Err Store Err (α ⊕ IdempotencyAcquireResult)} {i : PId}

theorem reads_allowed {q : IdempotencyCall} (h : (Op.idempotencyKey q).finishes k = false) (s : Store) :
    (scheduleOf (HoldersFinishAnd k i)).allow s i .ok (.idempotencyKey q) :=
  ⟨fun hf => absurd hf (by simp [h]), fun _ => rfl⟩

/-- The `findUnique` of a `tryAcquire` on a completed key. -/
theorem looks_step {f : Except Err (Option IdempotencyKeyRecord) → Handler IdempotencyAcquireResult}
    (hs : c.store.CompletedWith k r)
    (hp : c.pool i = (.call (.idempotencyKey (.findUnique k)) f) >>= fun x => .pure (.inr x))
    (hok : ∀ row, row.status = .COMPLETED → f (.ok (some row)) = .pure (.COMPLETED row.resourceId)) :
    ∃ c', (scheduleOf (HoldersFinishAnd k i)).Step c c' ∧ c'.Ended i (.ok (.inr (.COMPLETED r))) := by
  obtain ⟨row, hrow, hst, rfl⟩ := hs
  refine ⟨_, .call hp (reads_allowed rfl _) (a := .ok) rfl, ?_⟩
  rw [Config.ended_ok]
  show Function.update c.pool i (f (.ok (c.store.db.idempotencyKeys.find? k)) >>= fun x => .pure (.inr x)) i = _
  rw [Function.update_self, hrow, hok row hst]
  rfl

/-- `tryAcquire` up to the look at the row it lost against. -/
theorem tryAcquire_lost (k : ClaimKey) (fuel : Nat) : ∃ f,
    PrismaIdempotencyKeyRepository.tryAcquire k (fuel + 1) = .call (.idempotencyKey (.create k)) f ∧
      ∃ g, f (.error uniqueViolation) = .call (.idempotencyKey (.findUnique k)) g ∧
        ∀ row, row.status = .COMPLETED → g (.ok (some row)) = .pure (.COMPLETED row.resourceId) :=
  ⟨_, rfl, _, rfl, fun _ hst => if_pos hst⟩

/-- A `tryAcquire` on a completed key gets to its end in two calls, if storage answers. -/
theorem Replays.finishes {p : Handler IdempotencyAcquireResult} (h : Replays k r False p)
    (hs : c.store.CompletedWith k r) (hp : c.pool i = p >>= fun x => .pure (.inr x)) :
    ∃ c', (scheduleOf (HoldersFinishAnd k i)).Reach c c' ∧ c'.Ended i (.ok (.inr (.COMPLETED r))) := by
  cases h with
  | begins fuel =>
    have hs' := hs
    obtain ⟨row, hrow, -, -⟩ := hs'
    have hx : exec i .ok (.idempotencyKey (.create k)) c.store = some (.error uniqueViolation, c.store) := by
      simp [exec, execIdempotency, hrow]
    obtain ⟨f, hf, g, hg, hok⟩ := tryAcquire_lost k fuel
    rw [hf, Prog.call_bind] at hp
    have hstep : (scheduleOf (HoldersFinishAnd k i)).Step c _ := .call hp (reads_allowed rfl _) hx
    obtain ⟨c', hs2, hend⟩ := looks_step (i := i) (f := g)
      (c := ⟨c.store, Function.update c.pool i (f (.error uniqueViolation) >>= fun x => .pure (.inr x))⟩) hs
      ((Function.update_self ..).trans (by rw [hg])) hok
    exact ⟨c', .tail (.single hstep) hs2, hend⟩
  | looks hok herr =>
    obtain ⟨c', hs2, hend⟩ := looks_step hs hp hok
    exact ⟨c', .single hs2, hend⟩
  | returned => exact ⟨c, .refl, Config.ended_ok.2 hp⟩
  | threw h e => exact h.elim

end

/-- **A completed key stays completed**, in every run in which `markCompleted` and `release` go through
for the last claimant of the key only: its row keeps the resource id, and a `tryAcquire` that begins
from then on returns it (whatever else runs, and without fail where storage answers its calls). -/
theorem completed_key_stays {α : Type} (callers : PId → Caller α) (db0 : Db) (clock : Nat) (k : ClaimKey)
    (r : String)
    {c : Config Op.Res Err Store Err (α ⊕ IdempotencyAcquireResult)}
    (hr : (scheduleOf (HoldersFinish k)).Reach ⟨.init db0 clock, fun i => (callers i).program⟩ c)
    (hc : c.store.CompletedWith k (some r)) :
    (∀ c', (scheduleOf (HoldersFinish k)).Reach c c' → c'.store.CompletedWith k (some r) ∧
      ∀ i fuel, c.pool i = (Caller.tryAcquire k (fuel + 1)).program →
        ∀ x, c'.Ended i (.ok x) → x = .inr (.COMPLETED (some r))) ∧
    ∀ i fuel, c.pool i = (Caller.tryAcquire k (fuel + 1)).program →
      ∀ c', (scheduleOf (HoldersFinishAnd k i)).Reach c c' → (∀ e, ¬ c'.Ended i (.error e)) ∧
        ∃ c'', (scheduleOf (HoldersFinishAnd k i)).Reach c' c'' ∧
          c''.Ended i (.ok (.inr (.COMPLETED (some r)))) := by
  obtain ⟨phs, ht⟩ := reach (holderDone_preserves fun _ _ _ _ h => h) (Tracked.init callers db0 clock k) hr
  constructor
  · intro c' hr'
    obtain ⟨-, hc', hrep⟩ := completed_run (fun _ _ _ _ h => h) ht hc hr'
    refine ⟨hc', fun i fuel hi x hx => ?_⟩
    obtain ⟨p, hp, hpi⟩ := hrep i True (fun _ => trivial) ⟨_, .begins fuel, hi⟩
    rw [Config.ended_ok, hpi] at hx
    cases hp with
    | begins fuel => cases hx
    | looks hok herr => cases hx
    | returned =>
      cases hx
      rfl
    | threw h e => cases hx
  · intro i fuel hi c' hr'
    obtain ⟨-, hc', hrep⟩ := completed_run (fun _ _ _ _ h => h.1) ht hc hr'
    obtain ⟨p, hp, hpi⟩ := hrep i False (fun ⟨_, _, _, ha, hf⟩ => by simp [ha.2 rfl] at hf)
      ⟨_, .begins fuel, hi⟩
    refine ⟨fun e he => ?_, hp.finishes hc' hpi⟩
    rw [Config.ended_error, hpi] at he
    cases hp with
    | begins fuel => cases he
    | looks hok herr => cases he
    | returned => cases he
    | threw h e => exact h

/-- A run under `sampleClaim` whose operation rejects, or resolves with resource `r`. -/
def sampleCall (rejects : Bool) : GuardCall Unit where
  userId := "user"
  scope := "transfer.external"
  key := some "key"
  fuel := 1
  operation :=
    { execute := if rejects then Prog.throw selfTransferNotAllowed else return ("r", ())
      rehydrate := fun _ => return () }
  execute_calls := by cases rejects <;> trivial
  rehydrate_calls _ := trivial

/-- A failing run, a successful one, and bare calls of `tryAcquire`. -/
def sampleCallers : PId → Caller Unit
  | 0 => .run (sampleCall true)
  | 1 => .run (sampleCall false)
  | _ => .tryAcquire sampleClaim 1

/-- Run 0 claims the key; run 1 reclaims it two minutes later and completes it. -/
def reclaimAndComplete : List (System.Move Ans Nat) :=
  System.calls 0 [Ans.ok, .ok] ++ [.act staleClaimMs] ++ System.calls 1 [Ans.ok, .ok, .ok, .ok, .ok, .ok, .ok, .ok]

/-- Then run 0 rejects and releases; call 2 asks. -/
def releaseLate : List (System.Move Ans Nat) := System.calls 0 [Ans.ok, .ok] ++ System.calls 2 [Ans.ok]

/-- The slow run's release has removed the completed row, and the key is acquired again. -/
theorem completed_key_lost : ∃ c c',
    anySchedule.Reach ⟨.init .empty 0, fun i => (sampleCallers i).program⟩ c ∧
      c.store.CompletedWith sampleClaim (some "r") ∧ c.pool 2 = (Caller.tryAcquire sampleClaim 1).program ∧
      anySchedule.Reach c c' ∧ c'.Ended 2 (.ok (.inr .ACQUIRED)) := by
  have hplay : (anySchedule.play reclaimAndComplete
    ⟨.init .empty 0, fun i => (sampleCallers i).program⟩).any fun c =>
      c.store.CompletedWith sampleClaim (some "r") ∧
        (anySchedule.play releaseLate c).any fun c' => c'.Ended 2 (.ok (.inr .ACQUIRED)) := by decide +kernel
  obtain ⟨c, hc, hdone, hplay'⟩ := System.play_seen _ hplay
  obtain ⟨c', hc', hend⟩ := System.play_seen _ hplay'
  exact ⟨c, c', System.reach_of_play _ hc, hdone, System.pool_of_play _ (by decide) hc,
    System.reach_of_play _ hc', hend⟩

theorem completed_key_stays_sample : ∃ c,
    (scheduleOf (HoldersFinish sampleClaim)).Reach ⟨.init .empty 0, fun i => (sampleCallers i).program⟩ c ∧
      c.store.CompletedWith sampleClaim (some "r") ∧ c.pool 2 = (Caller.tryAcquire sampleClaim 1).program ∧
      ∃ c', (scheduleOf (HoldersFinishAnd sampleClaim 2)).Reach c c' ∧
        c'.Ended 2 (.ok (.inr (.COMPLETED (some "r")))) := by
  have hplay : ((scheduleOf (HoldersFinish sampleClaim)).play reclaimAndComplete
      ⟨.init .empty 0, fun i => (sampleCallers i).program⟩).any fun c =>
        c.store.CompletedWith sampleClaim (some "r") := by decide +kernel
  obtain ⟨c, hc, hdone⟩ := System.play_seen _ hplay
  have hreach := System.reach_of_play _ hc
  have hpool := System.pool_of_play _ (i := 2) (by decide) hc
  have hstays := completed_key_stays sampleCallers .empty 0 sampleClaim "r" hreach hdone
  exact ⟨c, hreach, hdone, hpool, (hstays.2 2 0 hpool c .refl).2⟩

end Kudi
