import KudiCore.Runtime

/-!
# Idempotency keys

| here | there |
| --- | --- |
| `PrismaIdempotencyKeyRepository` | `shared/idempotency/prisma-idempotency-key.repository.ts` |
| `IdempotencyGuardService.run`    | `shared/idempotency/idempotency-guard.service.ts` |

`tryAcquire` calls itself again when the row it lost against is gone by the time it looks; `fuel`
bounds how often.
-/

namespace Kudi

open Interleave

def duplicateRequestInProgress : Err :=
  .exception "DuplicateRequestInProgressException"
    "A request with this idempotency key is already being processed" "DUPLICATE_REQUEST_IN_PROGRESS"

inductive IdempotencyAcquireResult where
  | ACQUIRED
  | COMPLETED (resourceId : Option String)
  | IN_PROGRESS
deriving DecidableEq, Repr

/-- `STALE_CLAIM_MS`. -/
def staleClaimMs : Nat := 2 * 60 * 1000

def isUniqueViolation : Err → Bool
  | .prismaKnown code _ => code == "P2002"
  | _ => false

namespace PrismaIdempotencyKeyRepository

/-- `tryAcquire`. A completed row's `resourceId` is handed on as it is (`existing.resourceId!`). -/
def tryAcquire (claim : ClaimKey) : Nat → Handler IdempotencyAcquireResult
  | 0 => .stuck
  | fuel + 1 => .call (.idempotencyKey (.create claim)) fun
    | .ok () => .pure .ACQUIRED
    | .error error =>
      if !isUniqueViolation error then .throw error
      else do
        -- Someone already claimed this key.
        let existing ← Prog.await (Op.idempotencyKey (.findUnique claim))
        match existing with
        | none => tryAcquire claim fuel
        | some existing =>
          if existing.status = .COMPLETED then return .COMPLETED existing.resourceId
          else do
            let now ← Prog.await Op.dateNow
            if now - existing.createdAt < staleClaimMs then return .IN_PROGRESS
            else do
              -- The reclaim rewrites `updatedAt` alone, which no condition here reads.
              let updatedAt ← Prog.await Op.dateNow
              let reclaimed ← Prog.await (Op.idempotencyKey (.touch existing.id .IN_PROGRESS updatedAt))
              if reclaimed = 0 then tryAcquire claim fuel
              else return .ACQUIRED

def markCompleted (claim : ClaimKey) (resourceId : String) : Handler Unit :=
  Prog.await (Op.idempotencyKey (.complete claim resourceId))

def release (claim : ClaimKey) : Handler Unit :=
  Prog.await (Op.idempotencyKey (.deleteMany claim))

theorem tryAcquire_calls {T : Op → Prop} (h : ∀ q, T (.idempotencyKey q)) (hd : T .dateNow) (claim : ClaimKey) :
    ∀ fuel, (tryAcquire claim fuel).Calls T
  | 0 => trivial
  | fuel + 1 => by
    refine ⟨h _, fun r => ?_⟩
    rcases r with error | ⟨⟩
    · dsimp only
      split
      · trivial
      · refine .bind (.await (h _)) fun existing => ?_
        cases existing with
        | none => exact tryAcquire_calls h hd claim fuel
        | some existing =>
          dsimp only
          split
          · trivial
          · refine .bind (.await hd) fun now => ?_
            split
            · trivial
            · refine .bind (.await hd) fun _ => .bind (.await (h _)) fun reclaimed => ?_
              split
              · exact tryAcquire_calls h hd claim fuel
              · trivial
    · trivial

end PrismaIdempotencyKeyRepository

/-- What `run` is given to protect. -/
structure Operation (α : Type) where
  execute : Handler (String × α)
  rehydrate : Option String → Handler α

/-- `execute()` with the moments it is invoked, resolves and rejects on record. -/
def Operation.observed {α : Type} (claim : ClaimKey) (o : Operation α) : Handler (String × α) := do
  Prog.await (Op.mark (.invoked claim))
  let result ← o.execute.tryCatch fun error => do
    Prog.await (Op.mark (.rejected claim))
    Prog.throw error
  Prog.await (Op.mark (.resolved claim result.1))
  return result

namespace IdempotencyGuardService

open PrismaIdempotencyKeyRepository

/-- `run`; a key that is absent or empty is falsy. -/
def run {α : Type} (userId scope : String) (key : Option String) (fuel : Nat) (o : Operation α) : Handler α :=
  match key with
  | none | some "" => do return (← o.execute).2
  | some key => do
    let claim : ClaimKey := ⟨userId, scope, key⟩
    let acquisition ← tryAcquire claim fuel
    match acquisition with
    | .COMPLETED resourceId => o.rehydrate resourceId
    | .IN_PROGRESS => Prog.throw duplicateRequestInProgress
    | .ACQUIRED =>
      let completed : Handler α := do
        let (resourceId, response) ← o.observed claim
        markCompleted claim resourceId
        return response
      completed.tryCatch fun error => do
        release claim
        Prog.throw error

/-! ### `run` under a protocol -/

open Protocol in
/-- `run` adds calls on the key, the clock and the marks: a protocol that these do not move is obeyed if the
protected operation obeys it. `K` is what its state keeps to. -/
theorem run_obeys_of {α : Type} {P : Protocol Op.Res Err} {i : PId} {K : P.State → Prop} {o : Operation α}
    {st : P.State}
    (hkey : ∀ q, P.Quiet i (.idempotencyKey q)) (hnow : P.Quiet i .dateNow) (hmark : ∀ m, P.Quiet i (.mark m))
    (hst : K st) (he : P.Obeys i (fun st' _ => K st') o.execute st)
    (hr : ∀ resourceId, P.Obeys i (fun st' _ => K st') (o.rehydrate resourceId) st)
    (userId scope : String) (key : Option String) (fuel : Nat) :
    P.Obeys i (fun st' _ => K st') (run userId scope key fuel o) st := by
  have unguarded : P.Obeys i (fun st' _ => K st') (do return (← o.execute).2 : Handler α) st :=
    he.bind (fun _ _ h => h) fun _ _ h => h
  have one : ∀ {op : Op} {β : Type} {f : op.Res → Handler β} {st' : P.State}, P.Quiet i op → K st' →
      (∀ x, P.Obeys i (fun st'' _ => K st'') (f x) st') →
      P.Obeys i (fun st'' _ => K st'') (Prog.await op >>= f) st' := fun hop hK hf =>
    .quiet_bind (.await hop) hf fun _ => hK
  unfold run
  split
  · exact unguarded
  · exact unguarded
  · have hacquire : ∀ claim, (tryAcquire claim fuel).Calls (P.Quiet i) := fun claim =>
      tryAcquire_calls hkey hnow claim fuel
    refine .quiet_bind (hacquire _) (fun acquisition => ?_) fun _ => hst
    cases acquisition with
    | COMPLETED resourceId => exact hr resourceId
    | IN_PROGRESS => exact hst
    | ACQUIRED =>
      refine Obeys.tryCatch (R := fun st' _ => K st') ?_ (fun _ _ h => h) fun st' e h => one (hkey _) h fun _ => h
      refine Obeys.bind (R := fun st' _ => K st') ?_ (fun st' _ h => one (hkey _) h fun _ => h) fun _ _ h => h
      refine one (hmark _) hst fun _ => ?_
      refine Obeys.bind (R := fun st' _ => K st') ?_ (fun st' _ h => one (hmark _) h fun _ => h) fun _ _ h => h
      exact Obeys.tryCatch he (fun _ _ h => h) fun st' e h => one (hmark _) h fun _ => h

end IdempotencyGuardService

end Kudi
