import KudiCore.Idempotency.KeyCalls
import KudiCore.Idempotency.Guard
import KudiCore.Interleave.Protocol

/-!
# What a caller of the guard does with its key

`guardProtocol` follows one caller of `tryAcquire` or `run` from its first `create` on. A phase
remembers what the caller's local variables remember: the row it has looked at, whether it has judged
that row stale, the resource id `execute()` resolved with. `execute` and `rehydrate` are arbitrary,
except that they leave the idempotency table to the guard (`NoKey`), as the handlers' own do.

`GuardStep` says, once, what a caller's next call can do to the table and to its phase. Every invariant
of a key is derived from it.
-/

namespace Kudi

open Interleave Protocol

/-! ## The phases of a caller -/

inductive Phase where
  /-- It has no key. -/
  | unguarded
  | acquiring
  /-- `findUnique` returned this IN_PROGRESS row. -/
  | looked (row : IdempotencyKeyRecord)
  /-- It is `STALE_CLAIM_MS` old. -/
  | late (row : IdempotencyKeyRecord)
  | busy
  | replaying (resourceId : Option String)
  | claimed
  | executing
  | resolved (resourceId : String)
  | done (resourceId : String)
  /-- `markCompleted` was rejected. -/
  | unsaved (resourceId : String)
  /-- ... and the claim released. -/
  | lost (resourceId : String)
  /-- ... and its release rejected, too. -/
  | orphaned (resourceId : String)
  | rejected
  | released
  /-- A storage error, and nothing more to do. -/
  | failed

namespace Phase

/-- The calls a caller of `claim` makes in this phase. -/
def Permits (claim : ClaimKey) : Phase → Op → Prop
  | .unguarded, op | .replaying _, op => NoKey op
  | .acquiring, op => op = .idempotencyKey (.create claim) ∨ op = .idempotencyKey (.findUnique claim)
  | .looked _, op => op = .dateNow
  | .late row, op => op = .dateNow ∨ ∃ updatedAt, op = .idempotencyKey (.touch row.id .IN_PROGRESS updatedAt)
  | .claimed, op => op = .mark (.invoked claim)
  | .executing, op => NoKey op ∨ op = .mark (.rejected claim) ∨ ∃ r, op = .mark (.resolved claim r)
  | .resolved r, op => op = .idempotencyKey (.complete claim r)
  | .unsaved _, op | .rejected, op => op = .idempotencyKey (.deleteMany claim)
  | _, _ => False

/-- The phase after `tryAcquire`'s `findUnique`. -/
def afterLook : Except Err (Option IdempotencyKeyRecord) → Phase
  | .error _ => .failed
  | .ok none => .acquiring
  | .ok (some row) => if row.status = .COMPLETED then .replaying row.resourceId else .looked row

def afterCreate : Except Err Unit → Phase
  | .ok () => .claimed
  | .error e => if isUniqueViolation e then .acquiring else .failed

def afterTouch : Except Err Nat → Phase
  | .error _ => .failed
  | .ok n => if n = 0 then .acquiring else .claimed

def afterNow (row : IdempotencyKeyRecord) : Except Err Nat → Phase
  | .error _ => .failed
  | .ok now => if now - row.createdAt < staleClaimMs then .busy else .late row

def after : Phase → (op : Op) → Except Err op.Res → Phase
  | .acquiring, .idempotencyKey (.create _), r => afterCreate r
  | .acquiring, .idempotencyKey (.findUnique _), r => afterLook r
  | .looked row, .dateNow, r => afterNow row r
  | .late _, .idempotencyKey (.touch ..), r => afterTouch r
  | .claimed, .mark (.invoked _), _ => .executing
  | .executing, .mark (.resolved _ r), _ => .resolved r
  | .executing, .mark (.rejected _), _ => .rejected
  | .resolved r, .idempotencyKey (.complete ..), x => if x.isOk then .done r else .unsaved r
  | .rejected, .idempotencyKey (.deleteMany _), x => if x.isOk then .released else .failed
  | .unsaved r, .idempotencyKey (.deleteMany _), x => if x.isOk then .lost r else .orphaned r
  | ph, _, _ => ph

/-- It holds a claim that it will still act on. -/
def Active : Phase → Prop
  | .claimed | .executing | .resolved _ | .unsaved _ | .rejected => True
  | _ => False

/-- The row a caller has looked at. -/
def row? : Phase → Option IdempotencyKeyRecord
  | .looked row | .late row => some row
  | _ => none

end Phase

/-- Caller `i` is about the key `claims i`. `new Date()`, `randomUUID` and the marks are not rejected. -/
def guardProtocol (claims : PId → ClaimKey) : Protocol Op.Res Err where
  State := Phase
  ok i ph op := ph.Permits (claims i) op
  yields _ _ op r := op.fallible = false → ∃ x, r = .ok x
  next _ ph op r := ph.after op r

/-! ## One call -/

/-- The marks a run leaves, from phase to phase. -/
inductive Marks (claim : ClaimKey) : Phase → Mark → Phase → Prop
  | invoked : Marks claim .claimed (.invoked claim) .executing
  | resolved (r : String) : Marks claim .executing (.resolved claim r) (.resolved r)
  | rejected : Marks claim .executing (.rejected claim) .rejected

/-- What a caller learns from a call that changes nothing the guard can see. -/
inductive Quiet (claim : ClaimKey) (a : Ans) (s : Store) (op : Op) : Phase → Phase → Prop
  | stay (ph : Phase) : Quiet claim a s op ph ph
  | looks {row : IdempotencyKeyRecord} (hrow : s.db.idempotencyKeys.find? claim = some row)
      (hst : row.status = .IN_PROGRESS) : Quiet claim a s op .acquiring (.looked row)
  | replays {row : IdempotencyKeyRecord} (hrow : s.db.idempotencyKeys.find? claim = some row)
      (hst : row.status = .COMPLETED) : Quiet claim a s op .acquiring (.replaying row.resourceId)
  | young {row : IdempotencyKeyRecord} (h : s.clock < row.createdAt + staleClaimMs) :
      Quiet claim a s op (.looked row) .busy
  | old {row : IdempotencyKeyRecord} (h : row.createdAt + staleClaimMs ≤ s.clock) :
      Quiet claim a s op (.looked row) (.late row)
  | retries (row : IdempotencyKeyRecord) : Quiet claim a s op (.late row) .acquiring
  | gone {ph : Phase} (hop : op.isKeyCall = true) (ha : a.isFail = true) 
      (h : ph = .acquiring ∨ (∃ row, ph = .late row) ∨ ph = .rejected) : Quiet claim a s op ph .failed
  | unsaved (r : String) (hop : op.isKeyCall = true) (h : a.isFail = true ∨ s.db.idempotencyKeys.find? claim = none) :
      Quiet claim a s op (.resolved r) (.unsaved r)
  | orphaned (r : String) (hop : op.isKeyCall = true) (ha : a.isFail = true) : Quiet claim a s op (.unsaved r)
    (.orphaned r)

/-- Why a caller deletes the row of its key. -/
inductive Releases : Phase → Phase → Prop
  | rejected : Releases .rejected .released
  | unsaved (r : String) : Releases (.unsaved r) (.lost r)

/-- One call of caller `i` of `claim`: what it does to the store and to the caller's phase. -/
inductive GuardStep (i : PId) (claim : ClaimKey) (a : Ans) (s : Store) : Phase → Op → Store → Phase → Prop
  | quiet {ph ph' : Phase} {op : Op} {s' : Store} (hs : s.SameKeys s') (h : Quiet claim a s op ph ph') :
      GuardStep i claim a s ph op s' ph'
  | created (ha : a.isFail = false) (hnone : s.db.idempotencyKeys.find? claim = none) :
      GuardStep i claim a s .acquiring (.idempotencyKey (.create claim))
        (s.write i .prisma (.idempotencyKeyCreated claim s.clock)) .claimed
  | reclaimed {row cur : IdempotencyKeyRecord} {updatedAt : Nat} (ha : a.isFail = false)
      (hcur : s.db.idempotencyKeys.byId? row.id = some cur) (hst : cur.status = .IN_PROGRESS) :
      GuardStep i claim a s (.late row) (.idempotencyKey (.touch row.id .IN_PROGRESS updatedAt))
        (s.write i .prisma (.idempotencyKeyUpdated cur.claim .IN_PROGRESS cur.resourceId updatedAt)) .claimed
  | marked {m : Mark} {ph ph' : Phase} (h : Marks claim ph m ph') :
      GuardStep i claim a s ph (.mark m) { s with marks := s.marks ++ [(i, m)] } ph'
  | completed {r : String} {row : IdempotencyKeyRecord} (ha : a.isFail = false)
      (hrow : s.db.idempotencyKeys.find? claim = some row) :
      GuardStep i claim a s (.resolved r) (.idempotencyKey (.complete claim r))
        (s.write i .prisma (.idempotencyKeyUpdated claim .COMPLETED (some r) s.clock)) (.done r)
  | deleted {ph ph' : Phase} (ha : a.isFail = false) (h : Releases ph ph') :
      GuardStep i claim a s ph (.idempotencyKey (.deleteMany claim))
        (s.write i .prisma (.idempotencyKeyDeleted claim)) ph'

theorem Store.SameKeys.refl {s : Store} (hd : s.KeysDirect) : s.SameKeys s := ⟨rfl, rfl, rfl, fun _ => rfl, hd⟩

section
variable {i : PId} {a : Ans} {s s' : Store} {claim : ClaimKey} {ph : Phase}

/-- **What one call of a caller does.** -/
theorem guardStep {op : Op} {r : Except Err op.Res} (hd : s.KeysDirect) (hop : ph.Permits claim op)
    (h : exec i a op s = some (r, s')) : GuardStep i claim a s ph op s' (ph.after op r) := by
  have same : ∀ {ph' : Phase}, s' = s → Quiet claim a s op ph ph' → GuardStep i claim a s ph op s' ph' := by
    rintro ph' rfl hq
    exact .quiet (.refl hd) hq
  have own : ∀ {ph : Phase}, NoKey op → GuardStep i claim a s ph op s' ph := fun ho =>
    .quiet (exec_noKey ho hd h) (.stay _)
  cases ph with
  | unguarded => exact own hop
  | replaying resourceId => exact own hop
  | acquiring =>
    rcases hop with rfl | rfl
    · rcases r with e | ⟨⟩
      · obtain ⟨hs, hr⟩ := exec_idempotencyKey_error h
        refine same hs ?_
        show Quiet claim a s _ .acquiring (if isUniqueViolation e then .acquiring else .failed)
        split
        · exact .stay _
        · rename_i hu
          rcases hr with ha | ⟨-, -, -, -, rfl⟩ | ⟨c, r, hc, -⟩
          · exact .gone rfl ha (.inl rfl)
          · exact absurd rfl hu
          · cases hc
      · obtain ⟨hnone, rfl⟩ := exec_create_ok h
        exact .created (isFail_of_ok h) hnone
    · rcases r with e | row
      · obtain ⟨hs, ha | ⟨c, -, hc, -⟩ | ⟨c, r, hc, -⟩⟩ := exec_idempotencyKey_error h
        · exact same hs (.gone rfl ha (.inl rfl))
        · cases hc
        · cases hc
      · obtain ⟨hrow, hs⟩ := exec_findUnique_ok h
        refine same hs ?_
        cases row with
        | none => exact .stay _
        | some row =>
          show Quiet claim a s _ .acquiring (if row.status = .COMPLETED then .replaying row.resourceId else .looked row)
          split
          · rename_i hst
            exact .replays hrow.symm hst
          · rename_i hst
            refine .looks hrow.symm ?_
            cases hrs : row.status with
            | IN_PROGRESS => rfl
            | COMPLETED => exact absurd hrs hst
  | looked row =>
    obtain rfl := hop
    obtain ⟨rfl, hs⟩ := exec_dateNow h
    refine same hs ?_
    show Quiet claim a s _ (.looked row) (if s.clock - row.createdAt < staleClaimMs then .busy else .late row)
    have hpos : 0 < staleClaimMs := by decide
    split
    · exact .young (by omega)
    · exact .old (by omega)
  | late row =>
    rcases hop with rfl | ⟨updatedAt, rfl⟩
    · exact same (exec_dateNow h).2 (.stay _)
    · rcases r with e | n
      · obtain ⟨hs, ha | ⟨c, -, hc, -⟩ | ⟨c, r, hc, -⟩⟩ := exec_idempotencyKey_error h
        · exact same hs (.gone rfl ha (.inr (.inl ⟨row, rfl⟩)))
        · cases hc
        · cases hc
      · rcases exec_touch_ok h with ⟨rfl, hs⟩ | ⟨rfl, cur, hcur, hst, rfl⟩
        · exact same hs (.retries row)
        · exact .reclaimed (isFail_of_ok h) hcur hst
  | claimed =>
    obtain rfl := hop
    obtain ⟨-, rfl⟩ := exec_mark h
    exact .marked .invoked
  | executing =>
    rcases hop with ho | rfl | ⟨resourceId, rfl⟩
    · have hstay : Phase.executing.after op r = .executing := by
        cases op <;> first | rfl | exact absurd ho id
      rw [hstay]
      exact own ho
    · obtain ⟨-, rfl⟩ := exec_mark h
      exact .marked .rejected
    · obtain ⟨-, rfl⟩ := exec_mark h
      exact .marked (.resolved resourceId)
  | resolved resourceId =>
    obtain rfl := hop
    rcases r with e | ⟨⟩
    · obtain ⟨hs, ha | ⟨c, -, hc, -⟩ | ⟨c, r, hc, hnone⟩⟩ := exec_idempotencyKey_error h
      · exact same hs (.unsaved resourceId rfl (.inl ha))
      · cases hc
      · cases hc
        exact same hs (.unsaved resourceId rfl (.inr hnone))
    · obtain ⟨⟨row, hrow⟩, rfl⟩ := exec_complete_ok h
      exact .completed (isFail_of_ok h) hrow
  | rejected =>
    obtain rfl := hop
    rcases r with e | ⟨⟩
    · obtain ⟨hs, ha | ⟨c, -, hc, -⟩ | ⟨c, r, hc, -⟩⟩ := exec_idempotencyKey_error h
      · exact same hs (.gone rfl ha (.inr (.inr rfl)))
      · cases hc
      · cases hc
    · obtain rfl := exec_deleteMany_ok h
      exact .deleted (isFail_of_ok h) .rejected
  | unsaved resourceId =>
    obtain rfl := hop
    rcases r with e | ⟨⟩
    · obtain ⟨hs, ha | ⟨c, -, hc, -⟩ | ⟨c, r, hc, -⟩⟩ := exec_idempotencyKey_error h
      · exact same hs (.orphaned resourceId rfl ha)
      · cases hc
      · cases hc
    · obtain rfl := exec_deleteMany_ok h
      exact .deleted (isFail_of_ok h) (.unsaved resourceId)
  | _ => exact absurd hop id

end

/-! ## What a caller has looked at -/

/-- `row` was the row of `claim` at some time: its id is taken, and no row of another key, and none
inserted since, has it. -/
structure Looked (s : Store) (claim : ClaimKey) (row : IdempotencyKeyRecord) : Prop where
  key : row.claim = claim
  taken : row.id < s.db.idempotencyKeys.nextId
  same : ∀ k cur, s.db.idempotencyKeys.find? k = some cur → cur.id = row.id →
    k = claim ∧ cur.createdAt = row.createdAt

theorem Looked.of_find? {s : Store} {claim : ClaimKey} {row : IdempotencyKeyRecord}
    (h : s.db.idempotencyKeys.find? claim = some row) : Looked s claim row := by
  refine ⟨IdempotencyKeys.claim_of_find? h, IdempotencyKeys.id_lt_of_find? h, fun k cur hcur hid => ?_⟩
  have hb := IdempotencyKeys.byId?_of_find? hcur
  rw [hid, IdempotencyKeys.byId?_of_find? h, Option.some.injEq] at hb
  subst hb
  exact ⟨(IdempotencyKeys.claim_of_find? hcur).symm.trans (IdempotencyKeys.claim_of_find? h), rfl⟩

theorem Looked.congr {s s' : Store} {claim : ClaimKey} {row : IdempotencyKeyRecord}
    (h : s'.db.idempotencyKeys = s.db.idempotencyKeys) (hl : Looked s claim row) : Looked s' claim row :=
  ⟨hl.key, by rw [h]; exact hl.taken, by rw [h]; exact hl.same⟩

theorem Looked.created {s : Store} {i : PId} {claim k : ClaimKey} {now : Nat} {row : IdempotencyKeyRecord}
    (hl : Looked s claim row) : Looked (s.write i .prisma (.idempotencyKeyCreated k now)) claim row := by
  refine ⟨hl.key, Nat.lt_succ_of_lt hl.taken, fun k' cur hcur hid => ?_⟩
  simp only [Store.db_write_prisma, Db.apply, IdempotencyKeys.find?_create] at hcur
  split at hcur
  · simp only [Option.some.injEq] at hcur
    subst hcur
    exact absurd hid hl.taken.ne'
  · exact hl.same k' cur hcur hid

theorem Looked.updated {s : Store} {i : PId} {claim k : ClaimKey} {status : IdempotencyKeyStatus}
    {resourceId : Option String} {updatedAt : Nat} {row : IdempotencyKeyRecord} (hl : Looked s claim row) :
    Looked (s.write i .prisma (.idempotencyKeyUpdated k status resourceId updatedAt)) claim row := by
  refine ⟨hl.key, by simpa [Db.apply] using hl.taken, fun k' cur hcur hid => ?_⟩
  simp only [Store.db_write_prisma, Db.apply, IdempotencyKeys.find?_update] at hcur
  split at hcur
  · rename_i hk
    subst hk
    obtain ⟨old, hold, rfl⟩ := Option.map_eq_some_iff.1 hcur
    exact hl.same k old hold hid
  · exact hl.same k' cur hcur hid

theorem Looked.deleted {s : Store} {i : PId} {claim k : ClaimKey} {row : IdempotencyKeyRecord}
    (hl : Looked s claim row) : Looked (s.write i .prisma (.idempotencyKeyDeleted k)) claim row := by
  refine ⟨hl.key, hl.taken, fun k' cur hcur hid => ?_⟩
  simp only [Store.db_write_prisma, Db.apply, IdempotencyKeys.find?_erase] at hcur
  split at hcur
  · cases hcur
  · exact hl.same k' cur hcur hid

theorem GuardStep.looked {i : PId} {claim claim' : ClaimKey} {a : Ans} {s s' : Store} {ph ph' : Phase} {op : Op}
    {row : IdempotencyKeyRecord} (h : GuardStep i claim a s ph op s' ph') (hl : Looked s claim' row) :
    Looked s' claim' row := by
  cases h with
  | quiet hs => exact hl.congr hs.keys
  | created ha hnone => exact hl.created
  | reclaimed ha hcur hst => exact hl.updated
  | marked hm => exact ⟨hl.key, hl.taken, hl.same⟩
  | completed ha hrow => exact hl.updated
  | deleted ha hr => exact hl.deleted

theorem GuardStep.clock {i : PId} {claim : ClaimKey} {a : Ans} {s s' : Store} {ph ph' : Phase} {op : Op}
    (h : GuardStep i claim a s ph op s' ph') : s'.clock = s.clock := by
  cases h with
  | quiet hs => exact hs.clock
  | _ => rfl

theorem GuardStep.direct {i : PId} {claim : ClaimKey} {a : Ans} {s s' : Store} {ph ph' : Phase} {op : Op}
    (h : GuardStep i claim a s ph op s' ph') (hd : s.KeysDirect) : s'.KeysDirect := by
  cases h with
  | quiet hs => exact hs.direct
  | _ => exact hd

/-- What holds of every pool of callers, in every schedule. -/
structure CallersInv (claims : PId → ClaimKey) (s : Store) (phs : PId → Phase) : Prop where
  direct : s.KeysDirect
  claimed : ∀ k, ∀ i ∈ s.claimants k, claims i = k
  looked : ∀ i row, (phs i).row? = some row → Looked s (claims i) row
  late : ∀ i row, phs i = .late row → row.createdAt + staleClaimMs ≤ s.clock

theorem CallersInv.init (claims : PId → ClaimKey) (db : Db) (clock : Nat) {phs : PId → Phase}
    (h : ∀ i, (phs i).row? = none) : CallersInv claims (.init db clock) phs := by
  refine ⟨fun i w hw => ?_, nofun, fun i row hrow => ?_, fun i row hl => ?_⟩
  · rw [Store.staged_init] at hw
    exact absurd hw List.not_mem_nil
  · rw [h i] at hrow
    cases hrow
  · have hn := h i
    rw [hl] at hn
    cases hn

theorem Quiet.row {claim : ClaimKey} {a : Ans} {s : Store} {op : Op} {ph ph' : Phase} {row : IdempotencyKeyRecord}
    (h : Quiet claim a s op ph ph') (hr : ph'.row? = some row) :
    ph.row? = some row ∨ s.db.idempotencyKeys.find? claim = some row := by
  cases h with
  | stay => exact .inl hr
  | looks hrow hst => exact .inr (by simpa [Phase.row?] using hrow.trans hr)
  | old h => exact .inl hr
  | _ => cases hr

theorem Quiet.late {claim : ClaimKey} {a : Ans} {s : Store} {op : Op} {ph : Phase} {row : IdempotencyKeyRecord}
    (h : Quiet claim a s op ph (.late row)) : ph = .late row ∨ row.createdAt + staleClaimMs ≤ s.clock := by
  cases h with
  | stay => exact .inl rfl
  | old h => exact .inr h

theorem GuardStep.row {i : PId} {claim : ClaimKey} {a : Ans} {s s' : Store} {ph ph' : Phase} {op : Op}
    {row : IdempotencyKeyRecord} (h : GuardStep i claim a s ph op s' ph') (hr : ph'.row? = some row) :
    ph.row? = some row ∨ s.db.idempotencyKeys.find? claim = some row := by
  cases h with
  | quiet hs hq => exact hq.row hr
  | marked hm => cases hm <;> cases hr
  | deleted ha hd => cases hd <;> cases hr
  | _ => cases hr

theorem GuardStep.late {i : PId} {claim : ClaimKey} {a : Ans} {s s' : Store} {ph : Phase} {op : Op}
    {row : IdempotencyKeyRecord} (h : GuardStep i claim a s ph op s' (.late row)) :
    ph = .late row ∨ row.createdAt + staleClaimMs ≤ s.clock := by
  cases h with
  | quiet hs hq => exact hq.late
  | marked hm => cases hm
  | deleted ha hd => cases hd

/-- A call claims no key but the caller's own. -/
theorem GuardStep.claimants {i : PId} {claim : ClaimKey} {a : Ans} {s s' : Store} {ph ph' : Phase} {op : Op}
    (hl : ∀ row, ph.row? = some row → Looked s claim row) (h : GuardStep i claim a s ph op s' ph') (k : ClaimKey) :
    s'.claimants k = s.claimants k ∨ k = claim ∧ s'.claimants k = s.claimants k ++ [i] := by
  have of_write : ∀ w : Write, (w.claims? = some k → k = claim) →
      (s.write i .prisma w).claimants k = s.claimants k ∨
        k = claim ∧ (s.write i .prisma w).claimants k = s.claimants k ++ [i] := by
    intro w hw
    rw [Store.claimants_write]
    split
    · rename_i hc
      exact .inr ⟨hw hc, rfl⟩
    · exact .inl (List.append_nil _)
  cases h with
  | quiet hs hq => exact .inl (hs.claimants k)
  | marked hm => exact .inl rfl
  | created ha hnone =>
    refine of_write _ fun hc => ?_
    simpa [Write.claims?, eq_comm] using hc
  | @reclaimed row cur updatedAt ha hcur hst =>
    refine of_write _ fun hc => ?_
    obtain ⟨hid, hfind⟩ := IdempotencyKeys.find?_of_byId? hcur
    have hk : cur.claim = claim := ((hl row rfl).same _ cur hfind hid).1
    rw [Write.claims?, Option.some.injEq] at hc
    exact hc.symm.trans hk
  | completed ha hrow => exact of_write _ nofun
  | deleted ha hr => exact of_write _ nofun

theorem CallersInv.step {claims : PId → ClaimKey} {s s' : Store} {phs : PId → Phase} {i : PId} {a : Ans} {op : Op}
    {ph' : Phase} (hI : CallersInv claims s phs) (h : GuardStep i (claims i) a s (phs i) op s' ph') :
    CallersInv claims s' (Function.update phs i ph') := by
  refine ⟨h.direct hI.direct, fun k j hj => ?_, fun j row hrow => ?_, fun j row hl => ?_⟩
  · rcases h.claimants (hI.looked i) k with hc | ⟨rfl, hc⟩ <;> rw [hc] at hj
    · exact hI.claimed k j hj
    · rcases List.mem_append.1 hj with hj | hj
      · exact hI.claimed _ j hj
      · rw [List.mem_singleton.1 hj]
  · by_cases hj : j = i
    · subst hj
      rw [Function.update_self] at hrow
      rcases h.row hrow with hr | hr
      · exact h.looked (hI.looked j row hr)
      · exact h.looked (.of_find? hr)
    · rw [Function.update_of_ne hj] at hrow
      exact h.looked (hI.looked j row hrow)
  · rw [h.clock]
    by_cases hj : j = i
    · subst hj
      rw [Function.update_self] at hl
      subst hl
      rcases h.late with hl | hl
      · exact hI.late j row hl
      · exact hl
    · rw [Function.update_of_ne hj] at hl
      exact hI.late j row hl

/-! ## One key -/

def Mark.claim : Mark → ClaimKey
  | .invoked claim | .resolved claim _ | .rejected claim => claim

/-- The marks of runs under `k`, in order. -/
def Store.marksOf (s : Store) (k : ClaimKey) : List (PId × Mark) := s.marks.filter fun e => e.2.claim = k

theorem Store.marksOf_append {s : Store} {k : ClaimKey} {e : PId × Mark} :
    { s with marks := s.marks ++ [e] }.marksOf k = s.marksOf k ++ if e.2.claim = k then [e] else [] := by
  by_cases h : e.2.claim = k <;> simp [marksOf, h]

/-- Nothing about `k` is different. -/
structure Store.SameKey (k : ClaimKey) (s s' : Store) : Prop where
  row : s'.db.idempotencyKeys.find? k = s.db.idempotencyKeys.find? k
  claimants : s'.claimants k = s.claimants k
  marks : s'.marksOf k = s.marksOf k

theorem Store.SameKey.holder {k : ClaimKey} {s s' : Store} (h : s.SameKey k s') : s'.holder k = s.holder k := by
  rw [Store.holder, h.claimants, Store.holder]

theorem Store.SameKeys.sameKey {s s' : Store} (h : s.SameKeys s') (k : ClaimKey) : s.SameKey k s' :=
  ⟨by rw [h.keys], h.claimants k, by rw [Store.marksOf, h.marks, Store.marksOf]⟩

/-- **Callers of other keys do not matter to `k`.** -/
theorem GuardStep.frame {i : PId} {claim k : ClaimKey} {a : Ans} {s s' : Store} {ph ph' : Phase} {op : Op}
    (hl : ∀ row, ph.row? = some row → Looked s claim row) (h : GuardStep i claim a s ph op s' ph')
    (hk : claim ≠ k) :
    s.SameKey k s' := by
  have hc : s'.claimants k = s.claimants k := (h.claimants hl k).resolve_right fun e => hk e.1.symm
  cases h with
  | quiet hs hq => exact hs.sameKey k
  | created ha hnone => exact ⟨by simp [Db.apply, hk], hc, rfl⟩
  | @reclaimed row cur updatedAt ha hcur hst =>
    obtain ⟨hid, hfind⟩ := IdempotencyKeys.find?_of_byId? hcur
    have hne : cur.claim ≠ k := fun e => hk (((hl row rfl).same _ cur hfind hid).1.symm.trans e)
    exact ⟨by simp [Db.apply, hne], hc, rfl⟩
  | @marked m ph ph' hm =>
    have hne : m.claim ≠ k := by
      cases hm <;> exact hk
    exact ⟨rfl, hc, by rw [Store.marksOf_append, if_neg hne, List.append_nil]⟩
  | completed ha hrow => exact ⟨by simp [Db.apply, hk], hc, rfl⟩
  | deleted ha hr => exact ⟨by simp [Db.apply, hk], hc, rfl⟩

/-- **An invariant of the keys needs one case for each way a caller can step**, and that time passes. -/
theorem guard_preserves {claims : PId → ClaimKey} {allow : Store → PId → Ans → Op → Prop}
    {Inv : Store → (PId → Phase) → Prop}
    (hstep : ∀ {s phs i a op s' ph'}, CallersInv claims s phs → Inv s phs → allow s i a op →
      GuardStep i (claims i) a s (phs i) op s' ph' → Inv s' (Function.update phs i ph'))
    (htick : ∀ {s phs} ms, Inv s phs → Inv (tick ms s) phs) :
    (guardProtocol claims).Preserves (scheduleOf allow) fun s phs => CallersInv claims s phs ∧ Inv s phs where
  call := by
    rintro s phs i a op r s' ⟨hC, hI⟩ hop ha hx
    have hg := guardStep hC.direct hop hx
    exact ⟨fun ho => exec_infallible ho hx, hC.step hg, hstep hC hI ha hg⟩
  act := by
    rintro s phs ms ⟨hC, hI⟩
    refine ⟨⟨hC.direct, hC.claimed, fun i row h => ?_, fun i row h => ?_⟩, htick ms hI⟩
    · have hl := hC.looked i row h
      exact ⟨hl.key, hl.taken, hl.same⟩
    · exact Nat.le_add_right_of_le (hC.late i row h)

end Kudi
