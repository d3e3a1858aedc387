import KudiCore.Idempotency.Protocol
import KudiCore.Transfers.ExternalTransfer

/-!
# Callers of the guard

A `GuardCall` is one call of `run`, with an operation that leaves the idempotency table to the guard.
It obeys `guardProtocol`, whatever `execute` and `rehydrate` are (`GuardCall.obeys`). The two handlers
that call `run` are instances.
-/

namespace Kudi

open Interleave Protocol Prog

variable {α : Type} {claims : PId → ClaimKey} {i : PId}

/-! ## `tryAcquire` -/

/-- How `tryAcquire` ends. -/
def AcquireEnds (ph : Phase) : Except Err IdempotencyAcquireResult → Prop
  | .ok .ACQUIRED => ph = .claimed
  | .ok (.COMPLETED resourceId) => ph = .replaying resourceId
  | .ok .IN_PROGRESS => ph = .busy
  | .error _ => ph = .failed

theorem tryAcquire_obeys (claims : PId → ClaimKey) (i : PId) (fuel : Nat) : (guardProtocol claims).Obeys i AcquireEnds
    (PrismaIdempotencyKeyRepository.tryAcquire (claims i) fuel) .acquiring := by
  induction fuel with
  | zero => trivial
  | succ fuel ih =>
    refine ⟨.inl rfl, fun r _ => ?_⟩
    rcases r with error | ⟨⟩
    · by_cases hu : isUniqueViolation error = true
      · have hnext : (guardProtocol claims).next i .acquiring (.idempotencyKey (.create (claims i))) (.error error)
            = .acquiring := if_pos hu
        rw [hnext]
        simp only [hu, Bool.not_true, Bool.false_eq_true, ↓reduceIte]
        refine Obeys.await_bind (.inr rfl) (fun existing _ => ?_) fun _ _ => rfl
        cases existing with
        | none => exact ih
        | some existing =>
          by_cases hst : existing.status = .COMPLETED
          · have hlook : (guardProtocol claims).next i .acquiring (.idempotencyKey (.findUnique (claims i)))
                (.ok (some existing)) = .replaying existing.resourceId := if_pos hst
            rw [hlook]
            simp only [hst, ↓reduceIte]
            rfl
          · have hlook : (guardProtocol claims).next i .acquiring (.idempotencyKey (.findUnique (claims i)))
                (.ok (some existing)) = .looked existing := if_neg hst
            rw [hlook]
            simp only [hst, ↓reduceIte]
            refine Obeys.await_bind rfl (fun now _ => ?_) fun _ _ => rfl
            by_cases hage : now - existing.createdAt < staleClaimMs
            · have hnow : (guardProtocol claims).next i (.looked existing) .dateNow (.ok now) = .busy := if_pos hage
              rw [hnow]
              simp only [hage, ↓reduceIte]
              rfl
            · have hnow : (guardProtocol claims).next i (.looked existing) .dateNow (.ok now) = .late existing :=
                if_neg hage
              rw [hnow]
              simp only [hage, ↓reduceIte]
              refine Obeys.await_bind (.inl rfl) (fun updatedAt _ => ?_) fun e hy => nomatch hy rfl
              refine Obeys.await_bind (.inr ⟨updatedAt, rfl⟩) (fun reclaimed _ => ?_) fun _ _ => rfl
              cases reclaimed with
              | zero => exact ih
              | succ n => exact (rfl : Phase.claimed = .claimed)
      · have hnext : (guardProtocol claims).next i .acquiring (.idempotencyKey (.create (claims i))) (.error error)
            = .failed := if_neg hu
        rw [hnext]
        simp only [hu, Bool.not_false, ↓reduceIte]
        rfl
    · exact (rfl : Phase.claimed = .claimed)

/-! ## `run` -/

structure GuardCall (α : Type) where
  userId : String
  scope : String
  key : Option String
  fuel : Nat
  operation : Operation α
  execute_calls : operation.execute.Calls NoKey
  rehydrate_calls : ∀ resourceId, (operation.rehydrate resourceId).Calls NoKey

namespace GuardCall

def claim (call : GuardCall α) : ClaimKey := ⟨call.userId, call.scope, call.key.getD ""⟩

/-- The caller has sent a key. -/
def Guarded (call : GuardCall α) : Prop := call.claim.key ≠ ""

def program (call : GuardCall α) : Handler α :=
  IdempotencyGuardService.run call.userId call.scope call.key call.fuel call.operation

open Classical in
/-- The phase before the first call. -/
noncomputable def start (call : GuardCall α) : Phase := if call.Guarded then .acquiring else .unguarded

end GuardCall

namespace Phase

/-- The caller is at its end and its `execute()` has not been turned into a completed key. -/
def Unsettled : Phase → Prop
  | .failed | .busy | .replaying _ | .released | .lost _ | .orphaned _ => True
  | _ => False

/-- How a run that has a key ends: `E` is what its `execute` may return, `R` what its `rehydrate` may. -/
def Ends (E : String → α → Prop) (R : Option String → α → Prop) (ph : Phase) : Except Err α → Prop
  | .ok x => (∃ r, ph = .done r ∧ E r x) ∨ ∃ r, ph = .replaying r ∧ R r x
  | .error _ => ph.Unsettled

end Phase

/-- Neither phase is left by a call that has nothing to do with keys. -/
theorem after_noKey {ph : Phase} {op : Op} (h : ph = .executing ∨ ∃ r, ph = .replaying r) (hop : NoKey op)
    (r : Except Err op.Res) : ph.after op r = ph := by
  rcases h with rfl | ⟨x, rfl⟩
  · cases op <;> first | rfl | exact absurd hop id
  · rfl

theorem observed_obeys {o : Operation α} {E : String → α → Prop} (ho : o.execute.Calls NoKey)
    (hE : o.execute.Returns fun p => E p.1 p.2) :
    (guardProtocol claims).Obeys i (fun ph x => match x with
        | .ok p => ph = .resolved p.1 ∧ E p.1 p.2
        | .error _ => ph = .rejected) (o.observed (claims i)) .claimed := by
  refine Obeys.await_bind rfl (fun _ _ => ?_) fun e hy => nomatch hy rfl
  have hexec := Obeys.of_calls_returns (P := guardProtocol claims) (K := (· = Phase.executing)) (i := i)
    (fun st op hK hT => by
      subst hK
      exact ⟨.inl hT, fun r _ => after_noKey (.inl rfl) hT r⟩) ho hE (rfl : Phase.executing = .executing)
  refine Obeys.bind (R := fun ph x => match x with
      | .ok p => ph = .executing ∧ E p.1 p.2
      | .error _ => ph = .rejected) (Obeys.tryCatch hexec ?_ ?_) ?_ ?_
  · exact fun st p h => ⟨h.1, h.2 p rfl⟩
  · rintro st e ⟨rfl, -⟩
    exact Obeys.await_bind (.inr (.inl rfl)) (fun _ _ => (rfl : Phase.rejected = .rejected)) fun e hy => nomatch hy rfl
  · rintro st p ⟨rfl, hp⟩
    refine Obeys.await_bind (.inr (.inr ⟨p.1, rfl⟩)) (fun _ _ => ⟨rfl, hp⟩) fun e hy => nomatch hy rfl
  · exact fun st e h => h

/-- **A run obeys the protocol of its key**, and ends as it should. -/
theorem run_obeys_guard {o : Operation α} {E : String → α → Prop} {R : Option String → α → Prop}
    (ho : o.execute.Calls NoKey) (hr : ∀ r, (o.rehydrate r).Calls NoKey) (hE : o.execute.Returns fun p => E p.1 p.2)
    (hR : ∀ r, (o.rehydrate r).Returns (R r)) {userId scope key : String} (hkey : key ≠ "")
    (hc : claims i = ⟨userId, scope, key⟩) (fuel : Nat) :
    (guardProtocol claims).Obeys i (Phase.Ends E R) (IdempotencyGuardService.run userId scope (some key) fuel o)
      .acquiring := by
  unfold IdempotencyGuardService.run
  split
  · rename_i h
    cases h
  · rename_i h
    exact absurd (Option.some.inj h) hkey
  rename_i key' _ hk
  obtain rfl := Option.some.inj hk
  dsimp only
  rw [← hc]
  refine Obeys.bind (tryAcquire_obeys claims i fuel) (fun ph acquisition hA => ?_)
    fun ph e (he : ph = .failed) => he ▸ trivial
  cases acquisition with
  | COMPLETED resourceId =>
    obtain rfl : ph = .replaying resourceId := hA
    have hre := Obeys.of_calls_returns (P := guardProtocol claims) (K := (· = Phase.replaying resourceId)) (i := i)
      (fun st op hK hT => by
        subst hK
        exact ⟨hT, fun _ _ => rfl⟩) (hr resourceId) (hR resourceId)
      (rfl : Phase.replaying resourceId = .replaying resourceId)
    refine Obeys.mono hre ?_
    rintro st (e | x) ⟨rfl, hx⟩
    · trivial
    · exact .inr ⟨resourceId, rfl, hx x rfl⟩
  | IN_PROGRESS =>
    obtain rfl : ph = .busy := hA
    trivial
  | ACQUIRED =>
    obtain rfl : ph = .claimed := hA
    refine Obeys.tryCatch (R := fun ph x => match x with
        | .ok y => ∃ r, ph = .done r ∧ E r y
        | .error _ => ph = .rejected ∨ ∃ r, ph = .unsaved r) ?_ (fun st y h => .inl h) ?_
    · refine Obeys.bind (observed_obeys ho hE) ?_ fun ph e h => .inl h
      rintro ph ⟨resourceId, response⟩ ⟨rfl, hx⟩
      exact Obeys.await_bind rfl (fun _ _ => ⟨resourceId, rfl, hx⟩) fun _ _ => .inr ⟨resourceId, rfl⟩
    · rintro ph e (rfl | ⟨r, rfl⟩)
      · exact Obeys.await_bind rfl (fun _ _ => trivial) fun _ _ => trivial
      · exact Obeys.await_bind rfl (fun _ _ => trivial) fun _ _ => trivial

theorem GuardCall.obeys (call : GuardCall α) (hc : claims i = call.claim) {E : String → α → Prop}
    {R : Option String → α → Prop} (hE : call.operation.execute.Returns fun p => E p.1 p.2)
    (hR : ∀ r, (call.operation.rehydrate r).Returns (R r)) :
    (guardProtocol claims).Obeys i (fun ph x => call.Guarded → ph.Ends E R x) call.program call.start := by
  by_cases hg : call.Guarded
  · obtain ⟨key, hk⟩ : ∃ key, call.key = some key := by
      cases h : call.key with
      | none => exact absurd (by simp [claim, h]) hg
      | some key => exact ⟨key, rfl⟩
    have hkey : key ≠ "" := by simpa [Guarded, claim, hk] using hg
    rw [start, if_pos hg, program, hk]
    refine Obeys.mono ?_ fun ph x h _ => h
    exact run_obeys_guard call.execute_calls call.rehydrate_calls hE hR hkey (by simp [hc, claim, hk]) call.fuel
  · have hun : (guardProtocol claims).Obeys i (fun ph _ => ph = Phase.unguarded)
        (do return (← call.operation.execute).2 : Handler α) .unguarded := by
      refine Obeys.of_calls (P := guardProtocol claims) (K := (· = Phase.unguarded)) (T := NoKey)
        (fun st op hK hT => by
          subst hK
          exact ⟨hT, fun _ _ => rfl⟩) ?_ rfl
      exact .bind call.execute_calls fun _ => trivial
    have hprog : call.program = (do return (← call.operation.execute).2 : Handler α) := by
      unfold program IdempotencyGuardService.run
      split
      · rfl
      · rfl
      · rename_i key hne h
        exact absurd (show call.Guarded from fun e => hne (by simpa [claim, h] using e)) hg
    rw [start, if_neg hg, hprog]
    exact Obeys.mono hun fun _ _ _ h => absurd h hg

/-- A run begins with its claim, and goes on to invoke `execute()` if it gets it. -/
theorem GuardCall.program_begins (call : GuardCall α) (hg : call.Guarded) (hf : call.fuel ≠ 0) :
    ∃ f g, call.program = .call (.idempotencyKey (.create call.claim)) f ∧
      f (.ok ()) = .call (.mark (.invoked call.claim)) g := by
  obtain ⟨n, hn⟩ := Nat.exists_eq_succ_of_ne_zero hf
  cases hk : call.key with
  | none => exact absurd (by simp [claim, hk]) hg
  | some key =>
    have hclaim : call.claim = ⟨call.userId, call.scope, key⟩ := by simp [claim, hk]
    have hkey : key ≠ "" := by simpa [Guarded, hclaim] using hg
    rw [program, hk, hn, hclaim]
    unfold IdempotencyGuardService.run
    split
    · rename_i h
      cases h
    · rename_i h
      exact absurd (Option.some.inj h) hkey
    · rename_i key' _ h
      obtain rfl := Option.some.inj h
      exact ⟨_, _, rfl, rfl⟩

/-- A pool of runs, under any invariant of the keys. -/
theorem runs_track (calls : PId → GuardCall α) (db0 : Db) (clock : Nat) {E : PId → String → α → Prop}
    {R : PId → Option String → α → Prop}
    (hE : ∀ i, (calls i).operation.execute.Returns fun p => E i p.1 p.2)
    (hR : ∀ i r, ((calls i).operation.rehydrate r).Returns (R i r)) {Inv : Store → (PId → Phase) → Prop}
    (h0 : Inv (.init db0 clock) fun i => (calls i).start) :
    (guardProtocol fun i => (calls i).claim).Tracks
      (fun s phs => CallersInv (fun i => (calls i).claim) s phs ∧ Inv s phs)
      (fun i ph x => (calls i).Guarded → ph.Ends (E i) (R i) x)
      ⟨.init db0 clock, fun i => (calls i).program⟩ fun i => (calls i).start := by
  refine ⟨⟨.init _ db0 clock fun i => ?_, h0⟩, fun i => (calls i).obeys rfl (hE i) (hR i)⟩
  unfold GuardCall.start
  split <;> rfl

/-! ## The handlers that call the guard -/

theorem postTransferJournal_noKey (transfer : Transfer) (narration : String) (legs : List LedgerPostingLeg) :
    (postTransferJournal transfer narration legs).Calls NoKey :=
  postTransferJournal_calls trivial (fun _ => trivial) _ _ _

theorem rehydrateTransfer_noKey (resourceId : Option String) : (rehydrateTransfer resourceId).Calls NoKey :=
  rehydrateTransfer_calls (fun _ => trivial) resourceId

namespace PrismaInternalTransferExecutor

theorem execute_noKey (params : InternalTransferParams) : (execute params).Calls NoKey := by
  refine .bind (draw_calls trivial trivial trivial _) fun transfer => ?_
  refine .bind (.tryCatch (transaction_calls (fun _ => trivial) ?_) fun thrown => ?_) fun _ => trivial
  · exact .bind (calls_during (moveFunds_calls (fun _ => trivial) (fun _ => trivial) trivial
      (fun _ => trivial) _ _)) fun _ =>
      .bind (calls_during (.ofExcept _)) fun _ => .bind (calls_during (.await trivial)) fun _ => trivial
  · exact .bind (.ofExcept _) fun _ => .bind (PrismaTransferRepository.save_calls (fun _ => trivial) _)
      fun _ => trivial

end PrismaInternalTransferExecutor

theorem InitiateInternalTransferHandler.doExecute_noKey (command : InitiateInternalTransferCommand) :
    (doExecute command).Calls NoKey := by
  unfold doExecute
  split
  · trivial
  refine .bind (PrismaAccountRepository.findById_calls (fun _ => trivial) _) fun sourceAccount => ?_
  cases sourceAccount with
  | none => trivial
  | some sourceAccount =>
    dsimp only
    split
    · trivial
    refine .bind (.ofExcept _) fun amount => ?_
    refine .bind (KycTransferLimitCheckerService.assertWithinLimits_calls (fun _ => trivial) trivial
      (fun _ _ _ => trivial) _ _ _) fun _ => ?_
    exact .bind (.ofExcept _) fun fee => .bind (PrismaInternalTransferExecutor.execute_noKey _) fun result =>
      .bind (publishAll_calls (fun _ => trivial) _) fun _ => trivial

namespace InitiateExternalTransferHandler

theorem hold_noKey (command : InitiateExternalTransferCommand) : (hold command).Calls NoKey :=
  hold_calls (fun _ => trivial) (fun _ => trivial) trivial (fun _ _ _ => trivial) command

theorem record_noKey (command : InitiateExternalTransferCommand) (sourceAccount : Account)
    (recipient : ExternalRecipient) (amount fee totalDebit : Money) :
    (record command sourceAccount recipient amount fee totalDebit).Calls NoKey :=
  .bind (draw_calls trivial trivial trivial _) fun _ =>
    .bind (PrismaTransferRepository.save_calls (fun _ => trivial) _) fun _ =>
      .bind (postTransferJournal_noKey _ _ _) fun _ => trivial

theorem accepted_noKey (command : InitiateExternalTransferCommand) (totalDebit : Money) (events : List DomainEvent)
    (transfer : Transfer) (payoutResult : PayoutInitiationResult) :
    (accepted command totalDebit events transfer payoutResult).Calls NoKey := by
  refine .bind ?_ fun marked => .bind (calls_during (PrismaTransferRepository.save_calls (fun _ => trivial) _)) fun _ =>
    .bind (calls_during (publishAll_calls (fun _ => trivial) _)) fun _ => trivial
  unfold markAccepted
  split
  · exact .bind (calls_during (.ofExcept _)) fun settled =>
      .bind (calls_during (postTransferJournal_noKey _ _ _)) fun _ => trivial
  · exact calls_during (.ofExcept _)

theorem reverse_noKey {β : Type} (command : InitiateExternalTransferCommand) (totalDebit : Money)
    (events : List DomainEvent) (payoutError : Err) (transfer : Transfer) :
    (reverse command totalDebit events payoutError transfer : Handler β).Calls NoKey := by
  refine .bind (compensate_calls (fun _ => trivial) trivial (fun _ => trivial) _ _ _) fun accountEvents => ?_
  exact .bind (.ofExcept _) fun _ => .bind (PrismaTransferRepository.save_calls (fun _ => trivial) _) fun _ =>
    .bind (publishAll_calls (fun _ => trivial) _) fun _ => trivial

theorem doExecute_noKey (command : InitiateExternalTransferCommand) : (doExecute command).Calls NoKey := by
  refine .bind (hold_noKey command) fun held => .bind (record_noKey _ _ _ _ _ _) fun transfer =>
    .bind (.tryCatch ?_ fun thrown => reverse_noKey _ _ _ _ _) fun _ => trivial
  exact .bind (calls_during (FlutterwavePayoutProvider.initiatePayout_calls (fun _ => trivial) _ _ _ _)) fun _ =>
    accepted_noKey _ _ _ _ _

end InitiateExternalTransferHandler

def InitiateInternalTransferCommand.guardCall (fuel : Nat) (command : InitiateInternalTransferCommand) :
    GuardCall TransferResponseDto :=
  ⟨command.initiatorUserId, "transfer.internal", command.idempotencyKey, fuel,
    ⟨InitiateInternalTransferHandler.doExecute command, rehydrateTransfer⟩,
    InitiateInternalTransferHandler.doExecute_noKey command, rehydrateTransfer_noKey⟩

def InitiateExternalTransferCommand.guardCall (fuel : Nat) (command : InitiateExternalTransferCommand) :
    GuardCall TransferResponseDto :=
  ⟨command.initiatorUserId, "transfer.external", command.idempotencyKey, fuel,
    ⟨InitiateExternalTransferHandler.doExecute command, rehydrateTransfer⟩,
    InitiateExternalTransferHandler.doExecute_noKey command, rehydrateTransfer_noKey⟩

theorem initiateInternal_program (fuel : Nat) (command : InitiateInternalTransferCommand) :
    (command.guardCall fuel).program = InitiateInternalTransferHandler.execute fuel command := rfl

theorem initiateExternal_program (fuel : Nat) (command : InitiateExternalTransferCommand) :
    (command.guardCall fuel).program = InitiateExternalTransferHandler.execute fuel command := rfl

end Kudi
