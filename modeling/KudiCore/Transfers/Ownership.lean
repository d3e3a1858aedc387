import KudiCore.Interleave.InStep
import KudiCore.Idempotency.Replay
import KudiCore.Transfers.Sequential

/-!
# Transfers from someone else's account

| here | there |
| --- | --- |
| `Foreign`   | the source account does not exist, or is not the initiator's |
| `SeenAlike` | two databases that differ in nothing the initiator is told about |
| `Untouched` | no account, transfer or ledger row is written |

Both handlers ask for the owner before they look at anything else of the account. So whatever the account holds, someone
else's initiation makes the same calls and is refused with the same error.
-/

namespace Kudi

open Interleave IdempotencyGuardService PrismaIdempotencyKeyRepository

/-! ## What may differ, and what may not change -/

namespace InitiateRequest

def initiatorUserId : InitiateRequest → String
  | .internal _ command => command.initiatorUserId
  | .external _ command => command.initiatorUserId

def sourceAccountId : InitiateRequest → String
  | .internal _ command => command.sourceAccountId
  | .external _ command => command.sourceAccountId

def fuel : InitiateRequest → Nat
  | .internal fuel _ => fuel
  | .external fuel _ => fuel

/-- The initiator does not own the source account. -/
def Foreign (request : InitiateRequest) (s : Store) : Prop :=
  ∀ row, s.db.accounts.find? request.sourceAccountId = some row → row.userId ≠ request.initiatorUserId

/-- The key, if there is one, has no completed record. -/
def Unanswered (request : InitiateRequest) (s : Store) : Prop :=
  ∀ claim, request.claim = some claim → ∀ row, s.db.idempotencyKeys.find? claim = some row →
    row.status ≠ .COMPLETED

end InitiateRequest

/-- The source account loads, as every saved account does. -/
def InitiateRequest.SourceLoads (request : InitiateRequest) (s : Store) : Prop :=
  ∀ row, s.db.accounts.find? request.sourceAccountId = some row → ∃ a, AccountMapper.toDomain row = .ok a

/-- As far as `userId` is concerned: at the same time, with the same rows under his own keys, and an account of the same
owner, or none. -/
structure SeenAlike (userId accountId : String) (s t : Store) : Prop where
  clock : s.clock = t.clock
  owner : (s.db.accounts.find? accountId).map (·.userId) = (t.db.accounts.find? accountId).map (·.userId)
  keys : ∀ claim, claim.userId = userId → s.db.idempotencyKeys.find? claim = t.db.idempotencyKeys.find? claim

/-- The write is to the idempotency keys. -/
def Write.OfKeys (w : Write) : Prop := w.account? = none ∧ w.transfer? = none ∧ w.ledgerRows = []

/-- From `s` to `s'` nothing has been written to an account, a transfer or the ledger, nor is about to be. -/
structure Untouched (s s' : Store) : Prop where
  accounts : s'.db.accounts = s.db.accounts
  transfers : s'.db.transfers = s.db.transfers
  ledgerEntries : s'.db.ledgerEntries = s.db.ledgerEntries
  txs : s'.txs = s.txs
  written : ∃ ws, s'.wal = s.wal ++ ws ∧ ∀ t ∈ ws, ∀ w ∈ t.2, Write.OfKeys w

namespace Untouched

theorem refl (s : Store) : Untouched s s :=
  ⟨rfl, rfl, rfl, rfl, [], (List.append_nil _).symm, fun _ h => (nomatch h)⟩

variable {s s' : Store}

theorem tick (h : Untouched s s') (ms : Nat) : Untouched s (tick ms s') := ⟨h.1, h.2, h.3, h.4, h.5⟩

theorem mark (h : Untouched s s') (marks : List (PId × Mark)) : Untouched s { s' with marks } :=
  ⟨h.1, h.2, h.3, h.4, h.5⟩

theorem write (h : Untouched s s') (i : PId) {w : Write} (hw : w.OfKeys) : Untouched s (s'.write i .prisma w) := by
  obtain ⟨ws, hwal, hws⟩ := h.written
  have hledger : (s'.db.apply w).ledgerEntries = s'.db.ledgerEntries := by
    rw [Db.apply_ledgerEntries, hw.2.2, List.append_nil]
  refine ⟨(Db.apply_accounts_of_none hw.1 _).trans h.accounts,
    (Db.apply_transfers_of_none hw.2.1 _).trans h.transfers,
    hledger.trans h.ledgerEntries, h.txs, ws ++ [(i, [w])], ?_, ?_⟩
  · rw [← List.append_assoc, ← hwal]
    rfl
  · intro t ht w' hw'
    rcases List.mem_append.1 ht with ht | ht
    · exact hws t ht w' hw'
    · rw [List.mem_singleton.1 ht] at hw'
      rw [List.mem_singleton.1 hw']
      exact hw

end Untouched

/-! ## One call, on both sides -/

/-- Calls that the outside world lets through or rejects, and that leave no transaction open. -/
def Op.plain : Op → Bool
  | .account .. | .transfer .. | .idempotencyKey _ | .dateNow | .mark _ => true
  | _ => false

theorem exec_plain {i : PId} {a : Ans} {op : Op} {s s' : Store} {r : Except Err op.Res} (hop : op.plain = true)
    (h : exec i a op s = some (r, s')) :
    a = .ok ∨ ∃ e, a = .fail e ∧ op.fallible = true ∧ r = .error e ∧ s' = s := by
  cases a with
  | ok => exact .inl rfl
  | fail e =>
    obtain ⟨hfallible, hr, hs⟩ := exec_fail h
    refine .inr ⟨e, rfl, hfallible, hr, ?_⟩
    cases op <;> first | exact hs | cases hop
  | _ => cases op <;> first | (cases hop; done) | cases h

section
variable {i : PId} {α β : Type} {Q : α → β → Store → Store → Prop}
  {R : Err → Err → Store → Store → Prop} {s t : Store}

theorem inStep_call {op : Op} {k : Except Err op.Res → Handler α} {k' : Except Err op.Res → Handler β}
    (hop : op.plain = true)
    (hok : ∀ ms, ∃ r s' r' t', exec i .ok op (tick ms s) = some (r, s') ∧
      exec i .ok op (tick ms t) = some (r', t') ∧
      InStep anySchedule i Q R (k r) (k' r') s' t')
    (hfail : ∀ ms e, InStep anySchedule i Q R (k (.error e)) (k' (.error e)) (tick ms s) (tick ms t)) :
    InStep anySchedule i Q R (.call op k) (.call op k') s t := by
  refine .call (fun _ _ => .rfl) (fun ms a => ?_) fun ms a r s' r' t' hx hx' => ?_
  · have hsome : ∀ {s t : Store}, (∃ r s', exec i .ok op t = some (r, s')) → exec i a op t = none →
        exec i a op s = none := by
      intro s t ⟨r, s', hx⟩ hnone
      refine Option.eq_none_iff_forall_ne_some.2 fun y hy => ?_
      rcases exec_plain hop hy with rfl | ⟨e, rfl, hfallible, -⟩
      · exact nomatch hx.symm.trans hnone
      · simp [exec, hfallible] at hnone
    obtain ⟨r, s', r', t', hx, hx', -⟩ := hok ms
    exact ⟨hsome ⟨r, s', hx⟩, hsome ⟨r', t', hx'⟩⟩
  · rcases exec_plain hop hx with rfl | ⟨e, rfl, hfallible, rfl, rfl⟩
    · obtain ⟨r₁, s₁, r₂, t₁, h1, h2, h⟩ := hok ms
      cases hx.symm.trans h1
      cases hx'.symm.trans h2
      exact h
    · have hx' : exec i (.fail e) op (tick ms t) = some (r', t') := hx'
      rcases exec_plain hop hx' with h | ⟨_, h, -, rfl, rfl⟩
      · cases h
      · cases h
        exact hfail ms e

theorem inStep_await {op : Op} {f : op.Res → Handler α} {g : op.Res → Handler β} (hop : op.plain = true)
    (hok : ∀ ms, ∃ v s' v' t', exec i .ok op (tick ms s) = some (.ok v, s') ∧
      exec i .ok op (tick ms t) = some (.ok v', t') ∧ InStep anySchedule i Q R (f v) (g v') s' t')
    (hfail : ∀ ms e, R e e (tick ms s) (tick ms t)) :
    InStep anySchedule i Q R (Prog.await op >>= f) (Prog.await op >>= g) s t := by
  rw [Prog.await_bind, Prog.await_bind]
  refine inStep_call hop (fun ms => ?_) fun ms e => .throw (hfail ms e)
  obtain ⟨v, s', v', t', hx, hx', h⟩ := hok ms
  exact ⟨_, s', _, t', hx, hx', h⟩

theorem inStep_now {f : Nat → Handler α} {g : Nat → Handler β} (hclock : s.clock = t.clock)
    (hok : ∀ ms now, InStep anySchedule i Q R (f now) (g now) (tick ms s) (tick ms t))
    (hfail : ∀ ms e, R e e (tick ms s) (tick ms t)) :
    InStep anySchedule i Q R (Prog.await Op.dateNow >>= f) (Prog.await Op.dateNow >>= g) s t := by
  refine inStep_await rfl (fun ms => ⟨s.clock + ms, tick ms s, s.clock + ms, tick ms t, rfl, ?_, hok ms _⟩) hfail
  rw [hclock]
  rfl

variable {Q : α → Store → Prop} {R : Err → Store → Prop}

/-- Where nothing is rejected. -/
abbrev Ends (i : PId) (Q : α → Store → Prop) (R : Err → Store → Prop) (p : Handler α) (s : Store) : Prop :=
  CanEnd anySchedule i (· = .ok) Q R p s

theorem ends_await {op : Op} {f : op.Res → Handler α}
    (hok : ∀ ms, ∃ v s', exec i .ok op (tick ms s) = some (.ok v, s') ∧ Ends i Q R (f v) s') :
    Ends i Q R (Prog.await op >>= f) s := by
  rw [Prog.await_bind]
  intro ms
  obtain ⟨v, s', hx, h⟩ := hok ms
  exact ⟨.ok, _, s', rfl, trivial, hx, h⟩

end

/-! ## The guard -/

/-- What two runs have come to, from `s₀` and from `t₀`. -/
structure Together (s₀ t₀ s t : Store) : Prop where
  left : Untouched s₀ s
  right : Untouched t₀ t
  clock : s.clock = t.clock

/-- Turned away with the same error. -/
def Refused (s₀ t₀ : Store) (e e' : Err) (s t : Store) : Prop := e = e' ∧ Together s₀ t₀ s t

namespace Together

variable {s₀ t₀ s t : Store}

theorem tick (h : Together s₀ t₀ s t) (ms : Nat) : Together s₀ t₀ (tick ms s) (tick ms t) :=
  ⟨h.left.tick ms, h.right.tick ms, congrArg (· + ms) h.clock⟩

theorem write (h : Together s₀ t₀ s t) (i : PId) {w w' : Write} (hw : w.OfKeys) (hw' : w'.OfKeys) :
    Together s₀ t₀ (s.write i .prisma w) (t.write i .prisma w') :=
  ⟨h.left.write i hw, h.right.write i hw', h.clock⟩

theorem mark (h : Together s₀ t₀ s t) (i : PId) (m : Mark) :
    Together s₀ t₀ { s with marks := s.marks ++ [(i, m)] } { t with marks := t.marks ++ [(i, m)] } :=
  ⟨h.left.mark _, h.right.mark _, h.clock⟩

end Together

theorem ofKeys_created (claim : ClaimKey) (now : Nat) : (Write.idempotencyKeyCreated claim now).OfKeys :=
  ⟨rfl, rfl, rfl⟩

theorem ofKeys_updated (claim : ClaimKey) (status : IdempotencyKeyStatus) (resourceId : Option String)
    (updatedAt : Nat) : (Write.idempotencyKeyUpdated claim status resourceId updatedAt).OfKeys := ⟨rfl, rfl, rfl⟩

theorem ofKeys_deleted (claim : ClaimKey) : (Write.idempotencyKeyDeleted claim).OfKeys := ⟨rfl, rfl, rfl⟩

/-- `tryAcquire`, once the claim has turned out to be there. -/
def reclaim (claim : ClaimKey) (again : Handler IdempotencyAcquireResult) : Handler IdempotencyAcquireResult := do
  let existing ← Prog.await (Op.idempotencyKey (.findUnique claim))
  match existing with
  | none => again
  | some existing =>
    if existing.status = .COMPLETED then return .COMPLETED existing.resourceId
    else do
      let now ← Prog.await Op.dateNow
      if now - existing.createdAt < staleClaimMs then return .IN_PROGRESS
      else do
        let updatedAt ← Prog.await Op.dateNow
        let reclaimed ← Prog.await (Op.idempotencyKey (.touch existing.id .IN_PROGRESS updatedAt))
        if reclaimed = 0 then again
        else return .ACQUIRED

theorem tryAcquire_succ (claim : ClaimKey) (fuel : Nat) : tryAcquire claim (fuel + 1) =
    .call (.idempotencyKey (.create claim)) fun
      | .ok () => .pure .ACQUIRED
      | .error error => if !isUniqueViolation error then .throw error else reclaim claim (tryAcquire claim fuel) := rfl

theorem exec_touch {i : PId} {s : Store} {claim : ClaimKey} {row : IdempotencyKeyRecord} (now : Nat)
    (hrow : s.db.idempotencyKeys.find? claim = some row) (hnew : row.status ≠ .COMPLETED) :
    exec i .ok (.idempotencyKey (.touch row.id .IN_PROGRESS now)) s =
      some (.ok 1, s.write i .prisma (.idempotencyKeyUpdated row.claim .IN_PROGRESS row.resourceId now)) := by
  have hstatus : row.status = .IN_PROGRESS := by
    cases hs : row.status with
    | IN_PROGRESS => rfl
    | COMPLETED => exact absurd hs hnew
  simp only [exec, execIdempotency, IdempotencyKeys.byId?_of_find? hrow, hstatus, if_true]

section
variable {i : PId} {s₀ t₀ s t : Store} {claim : ClaimKey}

/-- The key is free, or its holder may be working. -/
def Acquired (s₀ t₀ : Store) (x y : IdempotencyAcquireResult) (s t : Store) : Prop :=
  x = y ∧ (x = .ACQUIRED ∨ x = .IN_PROGRESS) ∧ Together s₀ t₀ s t

theorem reclaim_inStep {again : Handler IdempotencyAcquireResult} (h : Together s₀ t₀ s t)
    (hkey : s.db.idempotencyKeys.find? claim = t.db.idempotencyKeys.find? claim)
    (hnew : ∀ row, s.db.idempotencyKeys.find? claim = some row → row.status ≠ .COMPLETED)
    (hagain : ∀ ms, InStep anySchedule i (Acquired s₀ t₀) (Refused s₀ t₀) again again (tick ms s)
      (tick ms t)) :
    InStep anySchedule i (Acquired s₀ t₀) (Refused s₀ t₀) (reclaim claim again) (reclaim claim again) s t := by
  refine inStep_await rfl (fun ms => ?_) fun ms e => ⟨rfl, h.tick ms⟩
  refine ⟨s.db.idempotencyKeys.find? claim, _, t.db.idempotencyKeys.find? claim, _, rfl, rfl, ?_⟩
  rw [← hkey]
  cases hrow : s.db.idempotencyKeys.find? claim with
  | none => exact hagain ms
  | some row =>
    simp only [if_neg (hnew row hrow)]
    have h := h.tick ms
    refine inStep_now h.clock (fun ms' now => ?_) fun ms' e => ⟨rfl, h.tick ms'⟩
    have h := h.tick ms'
    split
    · exact .pure ⟨rfl, .inr rfl, h⟩
    · refine inStep_now h.clock (fun ms updatedAt => ?_) fun ms e => ⟨rfl, h.tick ms⟩
      have h := h.tick ms
      refine inStep_await rfl (fun ms => ?_) fun ms e => ⟨rfl, h.tick ms⟩
      refine ⟨1, _, 1, _, exec_touch _ hrow (hnew row hrow),
        exec_touch _ (hkey.symm.trans hrow) (hnew row hrow), ?_⟩
      exact .pure ⟨rfl, .inl rfl, (h.tick ms).write i (ofKeys_updated ..) (ofKeys_updated ..)⟩

theorem tryAcquire_inStep (fuel : Nat) (h : Together s₀ t₀ s t)
    (hkey : s.db.idempotencyKeys.find? claim = t.db.idempotencyKeys.find? claim)
    (hnew : ∀ row, s.db.idempotencyKeys.find? claim = some row → row.status ≠ .COMPLETED) :
    InStep anySchedule i (Acquired s₀ t₀) (Refused s₀ t₀) (tryAcquire claim fuel)
      (tryAcquire claim fuel) s t := by
  induction fuel generalizing s t with
  | zero => exact .stuck
  | succ fuel ih =>
    have hreclaim : ∀ ms, InStep anySchedule i (Acquired s₀ t₀) (Refused s₀ t₀)
      (reclaim claim (tryAcquire claim fuel))
        (reclaim claim (tryAcquire claim fuel)) (tick ms s) (tick ms t) := fun ms =>
      reclaim_inStep (h.tick ms) hkey hnew fun ms' => ih ((h.tick ms).tick ms') hkey hnew
    rw [tryAcquire_succ]
    refine inStep_call rfl (fun ms => ?_) fun ms e => ?_
    · cases hrow : s.db.idempotencyKeys.find? claim with
      | none =>
        have hcreated : ∀ {s : Store}, s.db.idempotencyKeys.find? claim = none →
            exec i .ok (.idempotencyKey (.create claim)) s =
              some (.ok (), s.write i .prisma (.idempotencyKeyCreated claim s.clock)) := fun hnone => by
          simp only [exec, execIdempotency, hnone]
        refine ⟨_, _, _, _, hcreated hrow, hcreated (hkey.symm.trans hrow), .pure ⟨rfl, .inl rfl, ?_⟩⟩
        exact (h.tick ms).write i (ofKeys_created ..) (ofKeys_created ..)
      | some row =>
        have htaken : ∀ {s : Store}, s.db.idempotencyKeys.find? claim = some row →
            exec i .ok (.idempotencyKey (.create claim)) s = some (.error uniqueViolation, s) := fun hsome => by
          simp only [exec, execIdempotency, hsome]
        exact ⟨_, _, _, _, htaken hrow, htaken (hkey.symm.trans hrow), hreclaim ms⟩
    · dsimp only
      split
      · exact .throw ⟨rfl, h.tick ms⟩
      · exact hreclaim ms

theorem run_inStep {α : Type} {userId scope : String} {key : Option String} {fuel : Nat} {o : Operation α}
    (h : Together s₀ t₀ s t)
    (hkeys : ∀ claim, claim.userId = userId → s.db.idempotencyKeys.find? claim = t.db.idempotencyKeys.find? claim)
    (hnew : ∀ claim, claimOf userId scope key = some claim →
      ∀ row, s.db.idempotencyKeys.find? claim = some row → row.status ≠ .COMPLETED)
    (hexecute : ∀ {s t}, Together s₀ t₀ s t →
      InStep anySchedule i (fun _ _ _ _ => False) (Refused s₀ t₀) o.execute o.execute s t) :
    InStep anySchedule i (fun _ _ _ _ => False) (Refused s₀ t₀) (run userId scope key fuel o)
      (run userId scope key fuel o) s t := by
  unfold run
  split
  · exact .bind (hexecute h) fun hreturned => hreturned.elim
  · exact .bind (hexecute h) fun hreturned => hreturned.elim
  · rename_i key hempty
    have hclaim : claimOf userId scope (some key) = some ⟨userId, scope, key⟩ := claimOf_some fun e => hempty e
    refine .bind (tryAcquire_inStep fuel h (hkeys _ rfl) (hnew _ hclaim)) fun {x y s t} hacquired => ?_
    obtain ⟨rfl, rfl | rfl, h⟩ := hacquired
    swap
    · exact .throw ⟨rfl, h⟩
    refine .tryCatch (N := Refused s₀ t₀) ?_ fun {e e' s t} hrefused => ?_
    · refine .bind (N := fun _ _ _ _ => False) ?_ fun hreturned => hreturned.elim
      refine inStep_await rfl (fun ms => ⟨(), _, (), _, rfl, rfl, ?_⟩) fun ms e => ⟨rfl, h.tick ms⟩
      refine .bind (N := fun _ _ _ _ => False) ?_ fun hreturned => hreturned.elim
      refine .tryCatch (hexecute ((h.tick ms).mark i _)) fun {e e' s t} hrefused => ?_
      obtain ⟨rfl, h⟩ := hrefused
      refine inStep_await rfl (fun ms => ⟨(), _, (), _, rfl, rfl, ?_⟩) fun ms e => ⟨rfl, h.tick ms⟩
      exact .throw ⟨rfl, (h.tick ms).mark i _⟩
    · obtain ⟨rfl, h⟩ := hrefused
      refine inStep_await rfl (fun ms => ⟨(), _, (), _, rfl, rfl, ?_⟩) fun ms e => ⟨rfl, h.tick ms⟩
      exact .throw ⟨rfl, (h.tick ms).write i (ofKeys_deleted _) (ofKeys_deleted _)⟩

/-! ## The owner check -/

/-- Of the account, if there is one, only the owner is known. -/
def OwnerOnly (s₀ t₀ : Store) (owner : Option String) (a b : Option Account) (s t : Store) : Prop :=
  a.map (·.userId) = owner ∧ b.map (·.userId) = owner ∧ Together s₀ t₀ s t

theorem findById_inStep {id : String} (h : Together s₀ t₀ s t)
    (hs : ∀ row, s₀.db.accounts.find? id = some row → ∃ a, AccountMapper.toDomain row = .ok a)
    (ht : ∀ row, t₀.db.accounts.find? id = some row → ∃ a, AccountMapper.toDomain row = .ok a)
    (howner : (s₀.db.accounts.find? id).map (·.userId) = (t₀.db.accounts.find? id).map (·.userId)) :
    InStep anySchedule i (OwnerOnly s₀ t₀ ((s₀.db.accounts.find? id).map (·.userId))) (Refused s₀ t₀)
      (PrismaAccountRepository.findById id) (PrismaAccountRepository.findById id) s t := by
  refine inStep_await rfl (fun ms => ⟨s.db.accounts.find? id, _, t.db.accounts.find? id, _, rfl, rfl, ?_⟩)
    fun ms e => ⟨rfl, h.tick ms⟩
  rw [h.left.accounts, h.right.accounts]
  cases hrow : s₀.db.accounts.find? id with
  | none =>
    rw [hrow, Option.map_none, eq_comm, Option.map_eq_none_iff] at howner
    rw [howner]
    exact .pure ⟨rfl, rfl, h.tick ms⟩
  | some row =>
    rw [hrow, Option.map_some, eq_comm, Option.map_eq_some_iff] at howner
    obtain ⟨row', hrow', howner⟩ := howner
    obtain ⟨a, ha⟩ := hs row hrow
    obtain ⟨b, hb⟩ := ht row' hrow'
    rw [hrow']
    simp only [ha, hb]
    refine .pure ⟨?_, ?_, h.tick ms⟩
    · rw [Option.map_some, Option.map_some, ← (AccountMapper.toDomain_ok ha).1]
      rfl
    · rw [Option.map_some, Option.map_some, ← howner, ← (AccountMapper.toDomain_ok hb).1]
      rfl

/-- What either handler does with the account it has loaded. -/
theorem loaded_inStep {request : InitiateRequest} (hforeign : request.Foreign s₀) {α : Type} {a b : Option Account}
    {s t : Store} {f : Account → Handler α} {e : Err}
    (h : OwnerOnly s₀ t₀ ((s₀.db.accounts.find? request.sourceAccountId).map (·.userId)) a b s t) :
    InStep anySchedule i (fun _ _ _ _ => False) (Refused s₀ t₀)
      (match a with
        | none => Prog.throw e
        | some a => if a.userId ≠ request.initiatorUserId then Prog.throw unauthorizedTransfer else f a)
      (match b with
        | none => Prog.throw e
        | some b => if b.userId ≠ request.initiatorUserId then Prog.throw unauthorizedTransfer else f b) s t := by
  obtain ⟨ha, hb, h⟩ := h
  cases hrow : s₀.db.accounts.find? request.sourceAccountId with
  | none =>
    rw [hrow, Option.map_none, Option.map_eq_none_iff] at ha hb
    rw [ha, hb]
    exact .throw ⟨rfl, h⟩
  | some row =>
    rw [hrow, Option.map_some, Option.map_eq_some_iff] at ha hb
    obtain ⟨a, rfl, ha⟩ := ha
    obtain ⟨b, rfl, hb⟩ := hb
    have hne := hforeign row hrow
    simp only [ha, hb, if_pos hne]
    exact .throw ⟨rfl, h⟩

/-- Neither handler gets past the owner check. -/
theorem foreign_inStep {request : InitiateRequest} (hforeign : request.Foreign s₀) (hs : request.SourceLoads s₀)
    (ht : request.SourceLoads t₀) (h : SeenAlike request.initiatorUserId request.sourceAccountId s₀ t₀)
    (hnew : request.Unanswered s₀) :
    InStep anySchedule i (fun _ _ _ _ => False) (Refused s₀ t₀) request.program request.program s₀ t₀ := by
  have hstart : Together s₀ t₀ s₀ t₀ := ⟨.refl s₀, .refl t₀, h.clock⟩
  cases request with
  | internal fuel command =>
    refine run_inStep hstart h.keys hnew fun {s t} hst => ?_
    show InStep _ _ _ _ (InitiateInternalTransferHandler.doExecute command)
      (InitiateInternalTransferHandler.doExecute command) _ _
    unfold InitiateInternalTransferHandler.doExecute
    split
    · exact .throw ⟨rfl, hst⟩
    · exact .bind (findById_inStep hst hs ht h.owner) (loaded_inStep hforeign)
  | external fuel command =>
    refine run_inStep hstart h.keys hnew fun {s t} hst => ?_
    show InStep _ _ _ _ (InitiateExternalTransferHandler.doExecute command)
      (InitiateExternalTransferHandler.doExecute command) _ _
    have hheld : InStep anySchedule i (fun _ _ _ _ => False) (Refused s₀ t₀)
        (InitiateExternalTransferHandler.hold command) (InitiateExternalTransferHandler.hold command) s t :=
      .bind (findById_inStep hst hs ht h.owner) (loaded_inStep hforeign)
    exact .bind hheld fun hreturned => hreturned.elim

/-! ## The end is reached -/

theorem tryAcquire_ends (fuel : Nat) (h : Untouched s₀ s)
    (hnew : ∀ row, s.db.idempotencyKeys.find? claim = some row → row.status ≠ .COMPLETED) :
    Ends i (fun x s => (x = .ACQUIRED ∨ x = .IN_PROGRESS) ∧ Untouched s₀ s) (fun _ _ => True)
      (tryAcquire claim (fuel + 1)) s := by
  rw [tryAcquire_succ]
  intro ms
  cases hrow : s.db.idempotencyKeys.find? claim with
  | none =>
    refine ⟨.ok, .ok (), (tick ms s).write i .prisma (.idempotencyKeyCreated claim (tick ms s).clock), rfl,
      trivial, ?_,
      .inl rfl, (h.tick ms).write i (ofKeys_created ..)⟩
    show exec i .ok (.idempotencyKey (.create claim)) (tick ms s) = _
    have hrow : (tick ms s).db.idempotencyKeys.find? claim = none := hrow
    simp only [exec, execIdempotency, hrow]
  | some row =>
    have hlive := hnew row hrow
    refine ⟨.ok, .error uniqueViolation, tick ms s, rfl, trivial, ?_, ?_⟩
    · show exec i .ok (.idempotencyKey (.create claim)) (tick ms s) = _
      have hrow : (tick ms s).db.idempotencyKeys.find? claim = some row := hrow
      simp only [exec, execIdempotency, hrow]
    have h := h.tick ms
    show Ends i _ _ (reclaim claim (tryAcquire claim fuel)) (tick ms s)
    refine ends_await fun ms' => ⟨s.db.idempotencyKeys.find? claim, _, rfl, ?_⟩
    have h := h.tick ms'
    rw [hrow]
    simp only [if_neg hlive]
    refine ends_await fun ms => ⟨_, _, rfl, ?_⟩
    have h := h.tick ms
    split
    · exact ⟨.inr rfl, h⟩
    · refine ends_await fun ms => ⟨_, _, rfl, ?_⟩
      have h := h.tick ms
      exact ends_await fun ms => ⟨1, _, exec_touch _ hrow hlive, .inl rfl, (h.tick ms).write i (ofKeys_updated ..)⟩

theorem run_ends {α : Type} {userId scope : String} {key : Option String} {fuel : Nat} {o : Operation α}
    (h : Untouched s₀ s) (hfuel : fuel ≠ 0)
    (hnew : ∀ claim, claimOf userId scope key = some claim →
      ∀ row, s.db.idempotencyKeys.find? claim = some row → row.status ≠ .COMPLETED)
    (hexecute : ∀ {s}, Untouched s₀ s → Ends i (fun _ _ => False) (fun _ _ => True) o.execute s) :
    Ends i (fun _ _ => False) (fun _ _ => True) (run userId scope key fuel o) s := by
  obtain ⟨fuel, rfl⟩ := Nat.exists_eq_succ_of_ne_zero hfuel
  unfold run
  split
  · exact .bind (hexecute h) fun hreturned => hreturned.elim
  · exact .bind (hexecute h) fun hreturned => hreturned.elim
  · rename_i key hempty
    refine .bind (tryAcquire_ends fuel h (hnew _ (claimOf_some fun e => hempty e))) fun {x s} hacquired => ?_
    obtain ⟨rfl | rfl, h⟩ := hacquired
    swap
    · exact trivial
    refine .tryCatch (N := fun _ _ => True) ?_ fun _ => ends_await fun ms => ⟨(), _, rfl, trivial⟩
    refine .bind (N := fun _ _ => False) ?_ fun hreturned => hreturned.elim
    refine ends_await fun ms => ⟨(), _, rfl, ?_⟩
    refine .bind (N := fun _ _ => False) ?_ fun hreturned => hreturned.elim
    exact .tryCatch (hexecute ((h.tick ms).mark _)) fun _ => ends_await fun ms => ⟨(), _, rfl, trivial⟩

theorem findById_ends {id : String} (h : Untouched s₀ s)
    (hs : ∀ row, s₀.db.accounts.find? id = some row → ∃ a, AccountMapper.toDomain row = .ok a) :
    Ends i (fun a _ => a.map (·.userId) = (s₀.db.accounts.find? id).map (·.userId)) (fun _ _ => True)
      (PrismaAccountRepository.findById id) s := by
  refine ends_await fun ms => ⟨s.db.accounts.find? id, _, rfl, ?_⟩
  rw [h.accounts]
  cases hrow : s₀.db.accounts.find? id with
  | none => exact rfl
  | some row =>
    obtain ⟨a, ha⟩ := hs row hrow
    simp only [ha]
    have howner : a.userId = row.userId := congrArg AccountRecord.userId (AccountMapper.toDomain_ok ha).1
    exact congrArg some howner

theorem loaded_ends {request : InitiateRequest} (hforeign : request.Foreign s₀) {α : Type} {a : Option Account}
    {s : Store} {f : Account → Handler α} {e : Err}
    (ha : a.map (·.userId) = (s₀.db.accounts.find? request.sourceAccountId).map (·.userId)) :
    Ends i (fun _ _ => False) (fun _ _ => True)
      (match a with
        | none => Prog.throw e
        | some a => if a.userId ≠ request.initiatorUserId then Prog.throw unauthorizedTransfer else f a) s := by
  cases a with
  | none => exact trivial
  | some a =>
    rw [Option.map_some, eq_comm, Option.map_eq_some_iff] at ha
    obtain ⟨row, hrow, ha⟩ := ha
    have hne : a.userId ≠ request.initiatorUserId := ha ▸ hforeign row hrow
    simp only [if_pos hne]
    exact trivial

theorem foreign_ends {request : InitiateRequest} (hforeign : request.Foreign s₀) (hs : request.SourceLoads s₀)
    (hnew : request.Unanswered s₀) (hfuel : request.fuel ≠ 0) :
    Ends i (fun _ _ => False) (fun _ _ => True) request.program s₀ := by
  cases request with
  | internal fuel command =>
    refine run_ends (.refl s₀) hfuel hnew fun {s} hst => ?_
    show Ends _ _ _ (InitiateInternalTransferHandler.doExecute command) _
    unfold InitiateInternalTransferHandler.doExecute
    split
    · exact trivial
    · exact .bind (findById_ends hst hs) (loaded_ends hforeign)
  | external fuel command =>
    refine run_ends (.refl s₀) hfuel hnew fun {s} hst => ?_
    show Ends _ _ _ (InitiateExternalTransferHandler.doExecute command) _
    have hheld : Ends i (fun _ _ => False) (fun _ _ => True) (InitiateExternalTransferHandler.hold command) s :=
      .bind (findById_ends hst hs) (loaded_ends hforeign)
    exact .bind hheld fun hreturned => hreturned.elim

end

/-- Whatever one store can answer, the other can. -/
theorem foreign_runs_match {i : PId} {request : InitiateRequest} {s t s' : Store} {tr : List (Event Op.Res Err Store)}
    {x : Except Err TransferResponseDto} (hforeign : request.Foreign s) (hnew : request.Unanswered s)
    (hs : request.SourceLoads s) (ht : request.SourceLoads t)
    (h : SeenAlike request.initiatorUserId request.sourceAccountId s t)
    (hrun : Run anySchedule TimePasses i request.program s tr x s') :
    ∃ e tr' t', x = .error e ∧ Run anySchedule TimePasses i request.program t tr' (.error e) t' ∧
      tr.map (·.op) = tr'.map (·.op) ∧ Untouched s s' ∧ Untouched t t' := by
  have hrun : Run anySchedule (fun s s' => ∃ ms, s' = anySchedule.act ms s) i request.program s tr x s' := hrun
  obtain ⟨script, hplay⟩ := run_iff_script.1 hrun
  rcases (foreign_inStep (i := i) hforeign hs ht h hnew).play script with
    ⟨hnone, -⟩ | ⟨_, _, _, tr', y, t', hx, hy, hcalls, hend⟩
  · cases hplay.symm.trans hnone
  · cases hplay.symm.trans hx
    rcases x with e | a <;> rcases y with e' | b
    · obtain ⟨rfl, hkept⟩ := hend
      exact ⟨e, tr', t', rfl, run_iff_script.2 ⟨script, hy⟩, hcalls, hkept.left, hkept.right⟩
    all_goals exact hend.elim

/-- **Someone else's initiation is refused alike whatever the account holds**: under every script, with the same error
after the same calls, and with no account, transfer or ledger row written. Where no call is rejected it is refused
indeed, however time passes. -/
theorem foreign_initiations_agree {i : PId} {request : InitiateRequest} {s t : Store} (hforeign : request.Foreign s)
    (hnew : request.Unanswered s) (hs : request.SourceLoads s) (ht : request.SourceLoads t)
    (h : SeenAlike request.initiatorUserId request.sourceAccountId s t) :
    (∀ script,
      (playScript anySchedule i script request.program s = none ∧
        playScript anySchedule i script request.program t = none) ∨
      ∃ tr tr' e s' t', playScript anySchedule i script request.program s = some (tr, .error e, s') ∧
        playScript anySchedule i script request.program t = some (tr', .error e, t') ∧
        tr.map (·.op) = tr'.map (·.op) ∧ Untouched s s' ∧ Untouched t t') ∧
    (request.fuel ≠ 0 → ∀ times : Nat → Nat, ∃ script,
      (playScript anySchedule i script request.program s).isSome = true ∧ (∀ step ∈ script, step.2 = Ans.ok) ∧
        script.map (·.1) = (List.range script.length).map times) := by
  refine ⟨fun script => ?_, fun hfuel times => (foreign_ends hforeign hs hnew hfuel).play times⟩
  rcases (foreign_inStep (i := i) hforeign hs ht h hnew).play script with
    hnone | ⟨tr, x, s', tr', y, t', hx, hy, hcalls, hend⟩
  · exact .inl hnone
  · refine .inr ?_
    rcases x with e | a <;> rcases y with e' | b
    · obtain ⟨rfl, hkept⟩ := hend
      exact ⟨tr, tr', e, s', t', hx, hy, hcalls, hkept.left, hkept.right⟩
    all_goals exact hend.elim

/-- Mallory would like to move ten naira out of someone else's account. -/
def mallorysRequest : InitiateRequest :=
  .internal 1 ⟨"mallory", "acc", "hers", "10.00", "", some "k"⟩

def openStore : Store := .init (.of [sampleAccount] []) 0

/-- The same account, emptied and frozen. -/
def frozenStore : Store := .init (.of [{ sampleAccount with balance := 0, status := .FROZEN, version := 9 }] []) 0

theorem foreign_initiations_agree_sample : ∃ script tr tr' e s' t',
    playScript anySchedule 0 script mallorysRequest.program openStore = some (tr, .error e, s') ∧
      playScript anySchedule 0 script mallorysRequest.program frozenStore = some (tr', .error e, t') ∧
      Untouched openStore s' ∧ Untouched frozenStore t' := by
  have hloads : ∀ (row : AccountRecord), (∃ a, AccountMapper.toDomain row = .ok a) ↔
      (AccountMapper.toDomain row).isOk = true := fun row => by
    cases AccountMapper.toDomain row <;> simp [Except.isOk, Except.toBool]
  have hopen : openStore.db.accounts.find? "acc" = some sampleAccount := by decide +kernel
  have hfrozen : frozenStore.db.accounts.find? "acc" =
      some { sampleAccount with balance := 0, status := .FROZEN, version := 9 } := by decide +kernel
  obtain ⟨hagree, hends⟩ := foreign_initiations_agree (i := 0) (s := openStore) (t := frozenStore)
    (show mallorysRequest.Foreign openStore from fun row hrow => by cases hopen.symm.trans hrow; decide)
    (fun _ _ _ h => by cases h)
    (fun row hrow => (hloads row).2 (by cases hopen.symm.trans hrow; decide +kernel))
    (fun row hrow => (hloads row).2 (by cases hfrozen.symm.trans hrow; decide +kernel))
    ⟨rfl, by decide +kernel, fun _ _ => rfl⟩
  obtain ⟨script, hsome, -⟩ := hends (by decide) fun _ => 0
  rcases hagree script with ⟨hnone, -⟩ | ⟨tr, tr', e, s', t', hs, ht, -, hkept⟩
  · exact nomatch hnone ▸ hsome
  · exact ⟨script, tr, tr', e, s', t', hs, ht, hkept⟩

end Kudi
