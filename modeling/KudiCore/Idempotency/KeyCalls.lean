import KudiCore.Execution

/-!
# The calls of the idempotency guard

What each call on the idempotency-key table can do, who has claimed a key (`Store.holder`), and what
the guard does not see of everything else (`exec_noKey`): the accounts, the transfers and the ledger
can be written to around it, its table and its marks stay.
-/

namespace Kudi

open Interleave Protocol

/-! ## The idempotency calls, one by one -/

section
variable {i j : PId} {a : Ans} {s s' : Store} {claim k : ClaimKey}

theorem exec_create_ok {x : Unit} (h : exec i a (.idempotencyKey (.create claim)) s = some (.ok x, s')) :
    s.db.idempotencyKeys.find? claim = none ∧
      s' = s.write i .prisma (.idempotencyKeyCreated claim s.clock) := by
  have h := exec_idempotencyKey h
  simp only [execIdempotency] at h
  split at h
  · simp at h
  · rename_i hnone
    simp only [Option.some.injEq, Prod.mk.injEq, true_and] at h
    exact ⟨hnone, h.symm⟩

theorem exec_findUnique_ok {row : Option IdempotencyKeyRecord}
    (h : exec i a (.idempotencyKey (.findUnique claim)) s = some (.ok row, s')) :
    row = s.db.idempotencyKeys.find? claim ∧ s' = s := by
  have h := exec_idempotencyKey h
  simp only [execIdempotency, Option.some.injEq, Prod.mk.injEq, Except.ok.injEq] at h
  exact ⟨h.1.symm, h.2.symm⟩

theorem exec_touch_ok {id n updatedAt : Nat} {status : IdempotencyKeyStatus}
    (h : exec i a (.idempotencyKey (.touch id status updatedAt)) s = some (.ok n, s')) :
    (n = 0 ∧ s' = s) ∨ (n = 1 ∧ ∃ row, s.db.idempotencyKeys.byId? id = some row ∧ row.status = status ∧
      s' = s.write i .prisma (.idempotencyKeyUpdated row.claim status row.resourceId updatedAt)) := by
  have h := exec_idempotencyKey h
  simp only [execIdempotency] at h
  split at h
  · simp only [Option.some.injEq, Prod.mk.injEq, Except.ok.injEq] at h
    exact .inl ⟨h.1.symm, h.2.symm⟩
  · rename_i row hrow
    split at h <;> simp only [Option.some.injEq, Prod.mk.injEq, Except.ok.injEq] at h
    · rename_i hst
      exact .inr ⟨h.1.symm, row, hrow, hst, h.2.symm⟩
    · exact .inl ⟨h.1.symm, h.2.symm⟩

theorem exec_complete_ok {resourceId : String} {x : Unit}
    (h : exec i a (.idempotencyKey (.complete claim resourceId)) s = some (.ok x, s')) :
    (∃ row, s.db.idempotencyKeys.find? claim = some row) ∧
      s' = s.write i .prisma (.idempotencyKeyUpdated claim .COMPLETED (some resourceId) s.clock) := by
  have h := exec_idempotencyKey h
  simp only [execIdempotency] at h
  split at h
  · simp at h
  · rename_i row hrow
    simp only [Option.some.injEq, Prod.mk.injEq, true_and] at h
    exact ⟨⟨row, hrow⟩, h.symm⟩

theorem exec_deleteMany_ok {x : Unit} (h : exec i a (.idempotencyKey (.deleteMany claim)) s = some (.ok x, s')) :
    s' = s.write i .prisma (.idempotencyKeyDeleted claim) := by
  have h := exec_idempotencyKey h
  simp only [execIdempotency, Option.some.injEq, Prod.mk.injEq, true_and] at h
  exact h.symm

/-- A rejected call on the table changes nothing: it is the outside world, or a constraint. -/
theorem exec_idempotencyKey_error {q : IdempotencyCall} {e : Err}
    (h : exec i a (.idempotencyKey q) s = some (.error e, s')) :
    s' = s ∧ (a.isFail = true ∨
      (∃ claim row, q = .create claim ∧ s.db.idempotencyKeys.find? claim = some row ∧ e = uniqueViolation) ∨
      ∃ claim resourceId, q = .complete claim resourceId ∧ s.db.idempotencyKeys.find? claim = none) := by
  cases a with
  | fail e => exact ⟨(exec_fail h).2.2, .inl rfl⟩
  | ok =>
    cases q with
    | create claim =>
      simp only [exec, execIdempotency] at h
      split at h
      · rename_i row hrow
        simp only [Option.some.injEq, Prod.mk.injEq, Except.error.injEq] at h
        exact ⟨h.2.symm, .inr (.inl ⟨claim, row, rfl, hrow, h.1.symm⟩)⟩
      · simp at h
    | complete claim resourceId =>
      simp only [exec, execIdempotency] at h
      split at h
      · rename_i hrow
        simp only [Option.some.injEq, Prod.mk.injEq] at h
        exact ⟨h.2.symm, .inr (.inr ⟨claim, resourceId, rfl, hrow⟩)⟩
      · simp at h
    | findUnique claim => simp [exec, execIdempotency] at h
    | deleteMany claim => simp [exec, execIdempotency] at h
    | touch id status updatedAt =>
      simp only [exec, execIdempotency] at h
      split at h
      · simp at h
      · split at h <;> simp at h
  | pick n => cases h
  | uuid u => cases h
  | reference r => cases h
  | payout r => cases h

theorem exec_infallible {op : Op} {r : Except Err op.Res} (hop : op.fallible = false)
    (h : exec i a op s = some (r, s')) : ∃ x, r = .ok x := by
  rcases r with e | x
  · cases a with
    | fail e => exact absurd (exec_fail h).1 (by simp [hop])
    | ok =>
      cases op with
      | transaction q =>
        cases q with
        | rollback => exact absurd h exec_rollback_error
        | _ => cases hop
      | dateNow => cases h
      | mark m => cases h
      | randomUUID => cases h
      | generateReference => cases h
      | _ => cases hop
    | pick n => cases op <;> first | cases h | cases hop
    | uuid u => cases op <;> cases h
    | reference u => cases op <;> cases h
    | payout u => cases op <;> cases h
  · exact ⟨x, rfl⟩

theorem isFail_of_ok {op : Op} {x : op.Res} (h : exec i a op s = some (.ok x, s')) : a.isFail = false := by
  cases a with
  | fail e => exact nomatch (exec_fail h).2.1
  | _ => rfl

theorem exec_dateNow {r : Except Err Nat} (h : exec i a .dateNow s = some (r, s')) : r = .ok s.clock ∧ s' = s := by
  cases a with
  | ok =>
    simp only [exec, Option.some.injEq, Prod.mk.injEq] at h
    exact ⟨h.1.symm, h.2.symm⟩
  | fail e => cases (exec_fail h).1
  | pick n => cases h
  | uuid u => cases h
  | reference r => cases h
  | payout r => cases h

theorem exec_mark {m : Mark} {r : Except Err Unit} (h : exec i a (.mark m) s = some (r, s')) :
    r = .ok () ∧ s' = { s with marks := s.marks ++ [(i, m)] } := by
  cases a with
  | ok =>
    simp only [exec, Option.some.injEq, Prod.mk.injEq] at h
    exact ⟨h.1.symm, h.2.symm⟩
  | fail e => cases (exec_fail h).1
  | pick n => cases h
  | uuid u => cases h
  | reference r => cases h
  | payout r => cases h

/-! ## Who has claimed a key -/

/-- The key a write claims: an insert, or the reclaim's update. -/
def Write.claims? : Write → Option ClaimKey
  | .idempotencyKeyCreated claim _ => some claim
  | .idempotencyKeyUpdated claim .IN_PROGRESS _ _ => some claim
  | _ => none

/-- The programs that have claimed `k`, in the order of their claims. -/
def Store.claimants (s : Store) (k : ClaimKey) : List PId :=
  (s.wal.filter fun e => e.2.any fun w => w.claims? = some k).map (·.1)

/-- The last of them. -/
def Store.holder (s : Store) (k : ClaimKey) : Option PId := (s.claimants k).getLast?

theorem Store.claimants_write {w : Write} :
    (s.write i .prisma w).claimants k = s.claimants k ++ if w.claims? = some k then [i] else [] := by
  by_cases h : w.claims? = some k <;> simp [Store.claimants, h]

theorem Store.holder_write_of_claims {w : Write} (h : w.claims? = some k) :
    (s.write i .prisma w).holder k = some i := by
  simp [Store.holder, Store.claimants_write, h]

theorem Store.holder_write_of_ne {w : Write} (h : w.claims? ≠ some k) :
    (s.write i .prisma w).holder k = s.holder k := by
  simp [Store.holder, Store.claimants_write, h]

def Op.isKeyCall : Op → Bool
  | .idempotencyKey _ => true
  | _ => false

/-- `markCompleted` or `release` of `k`. -/
def Op.finishes (k : ClaimKey) : Op → Bool
  | .idempotencyKey (.complete claim _) | .idempotencyKey (.deleteMany claim) => claim == k
  | _ => false

def Op.releases (k : ClaimKey) : Op → Bool
  | .idempotencyKey (.deleteMany claim) => claim == k
  | _ => false

/-- The reclaim's update. -/
def Op.reclaims : Op → Bool
  | .idempotencyKey (.touch ..) => true
  | _ => false

@[simp] theorem Op.finishes_complete {resourceId : String} :
    (Op.idempotencyKey (.complete claim resourceId)).finishes k = (claim == k) := rfl

@[simp] theorem Op.releases_deleteMany : (Op.idempotencyKey (.deleteMany claim)).releases k = (claim == k) := rfl

@[simp] theorem Op.finishes_deleteMany : (Op.idempotencyKey (.deleteMany claim)).finishes k = (claim == k) := rfl

/-! ## Calls that leave the table alone -/

/-- Neither an idempotency-key call nor a mark. -/
def NoKey : Op → Prop
  | .idempotencyKey _ | .mark _ => False
  | _ => True

def Write.isKey : Write → Bool
  | .idempotencyKeyCreated .. | .idempotencyKeyUpdated .. | .idempotencyKeyDeleted _ => true
  | _ => false

/-- No transaction has staged a write of an idempotency key: the repository does not take `tx`. -/
def Store.KeysDirect (s : Store) : Prop := ∀ i, ∀ w ∈ s.staged i, w.isKey = false

theorem apply_keys_of_not {w : Write} (h : w.isKey = false) (db : Db) :
    (db.apply w).idempotencyKeys = db.idempotencyKeys := by
  cases w <;> first | rfl | cases h

theorem applyAll_keys_of_not : ∀ {ws : List Write} (db : Db), (∀ w ∈ ws, w.isKey = false) →
    (db.applyAll ws).idempotencyKeys = db.idempotencyKeys
  | [], _, _ => rfl
  | w :: ws, db, h => by
    rw [Db.applyAll_cons, applyAll_keys_of_not _ fun w' hw' => h w' (List.mem_cons_of_mem _ hw'),
      apply_keys_of_not (h w List.mem_cons_self)]

theorem claims?_of_not {w : Write} (h : w.isKey = false) : w.claims? = none := by
  cases w <;> first | rfl | cases h

/-- What the guard can see is unchanged. -/
structure Store.SameKeys (s s' : Store) : Prop where
  keys : s'.db.idempotencyKeys = s.db.idempotencyKeys
  marks : s'.marks = s.marks
  clock : s'.clock = s.clock
  claimants : ∀ k, s'.claimants k = s.claimants k
  direct : s'.KeysDirect

theorem Store.SameKeys.holder (h : s.SameKeys s') (k : ClaimKey) : s'.holder k = s.holder k := by
  rw [Store.holder, h.claimants, Store.holder]

theorem performs_isKey {op : Op} {c : Client} {w : Write} (hop : NoKey op) (h : op.Performs c w) :
    w.isKey = false := by
  cases op with
  | account c q =>
    cases q with
    | create data => exact h.2 ▸ rfl
    | updateMany version data events => exact h.2 ▸ rfl
    | _ => exact absurd h id
  | transfer c q =>
    cases q with
    | create data => exact h.2 ▸ rfl
    | updateMany version data => exact h.2 ▸ rfl
    | _ => exact absurd h id
  | ledgerEntry c q =>
    cases q with
    | findFirst key => exact absurd h id
    | createMany data =>
      obtain ⟨-, n, rfl⟩ := h
      rfl
  | idempotencyKey q => exact absurd hop id
  | _ => exact absurd h id

theorem marks_of_noKey {op : Op} {r : Except Err op.Res} (hop : NoKey op) (h : exec i a op s = some (r, s')) :
    s'.marks = s.marks ∧ s'.clock = s.clock := by
  have fail : ∀ e, a = .fail e → s'.marks = s.marks ∧ s'.clock = s.clock := by
    rintro e rfl
    obtain ⟨-, -, rfl⟩ := exec_fail h
    unfold Store.afterFailure
    split <;> exact ⟨rfl, rfl⟩
  cases a with
  | fail e => exact fail e rfl
  | ok =>
    cases op with
    | account c q =>
      simp only [exec, execAccount, Store.tryWrite] at h
      grind [Store.marks_write, Store.clock_write]
    | transfer c q =>
      simp only [exec, execTransfer, Store.tryWrite] at h
      grind [Store.marks_write, Store.clock_write]
    | ledgerEntry c q =>
      simp only [exec, execLedger, Store.tryWrite] at h
      grind [Store.marks_write, Store.clock_write]
    | idempotencyKey q => exact absurd hop id
    | mark m => exact absurd hop id
    | kyc c q =>
      simp only [exec, execKyc] at h
      grind
    | transaction q =>
      simp only [exec, execTransaction] at h
      grind [Store.commit, Store.rollback]
    | publish e =>
      simp only [exec] at h
      grind
    | dateNow =>
      simp only [exec] at h
      grind
    | _ => cases h
  | pick n =>
    cases op with
    | ledgerEntry c q =>
      simp only [exec, execLedger, Store.tryWrite] at h
      grind [Store.marks_write, Store.clock_write]
    | _ => cases h
  | uuid u =>
    cases op <;> cases h
    exact ⟨rfl, rfl⟩
  | reference u =>
    cases op <;> cases h
    exact ⟨rfl, rfl⟩
  | payout u =>
    cases op <;> cases h
    exact ⟨rfl, rfl⟩

theorem Store.claimants_append {e : PId × List Write} {wal : List (PId × List Write)} (hs : s'.wal = wal ++ [e])
    (hw : s.wal = wal) (h : ∀ w ∈ e.2, w.isKey = false) : s'.claimants k = s.claimants k := by
  have hnone : (e.2.any fun w => w.claims? = some k) = false := by
    simp only [List.any_eq_false, decide_eq_true_eq]
    intro w hm
    rw [claims?_of_not (h w hm)]
    simp
  simp [Store.claimants, hs, hw, hnone]

/-- **What `execute()` does is invisible to the guard.** -/
theorem exec_noKey {op : Op} {r : Except Err op.Res} (hop : NoKey op) (hd : s.KeysDirect)
    (h : exec i a op s = some (r, s')) : s.SameKeys s' := by
  obtain ⟨hm, hc⟩ := marks_of_noKey hop h
  have of_same : s.SameRows s' → s.SameKeys s' := fun hs =>
    ⟨congrArg Db.idempotencyKeys hs.db, hm, hc, fun k => by rw [Store.claimants, hs.wal, Store.claimants],
      fun j w hw => hd j w (hs.staged ▸ hw)⟩
  have of_rollback : s' = s.rollback i → s.SameKeys s' := by
    rintro rfl
    refine ⟨rfl, hm, hc, fun k => rfl, fun j w hw => ?_⟩
    rw [Store.staged_rollback] at hw
    split at hw
    · exact absurd hw List.not_mem_nil
    · exact hd j w hw
  by_cases ht : ∃ q, op = .transaction q
  · obtain ⟨q, rfl⟩ := ht
    cases q with
    | begin =>
      rcases r with e | x
      · exact of_same ((exec_error h).resolve_right nofun)
      · obtain ⟨hs, rfl⟩ := exec_begin h
        refine ⟨rfl, rfl, rfl, fun k => rfl, fun j w hw => hd j w ?_⟩
        by_cases hj : i = j
        · subst hj
          simp [Store.staged] at hw
        · simpa [Store.staged, hj] using hw
    | commit =>
      rcases r with e | x
      · exact of_rollback (exec_commit_error h)
      · rw [exec_commit h]
        refine ⟨applyAll_keys_of_not _ (hd i), rfl, rfl, fun k => ?_, fun j w hw => ?_⟩
        · exact Store.claimants_append rfl rfl (hd i)
        · rw [Store.staged_commit] at hw
          split at hw
          · exact absurd hw List.not_mem_nil
          · exact hd j w hw
    | rollback =>
      rcases r with e | x
      · exact absurd h exec_rollback_error
      · exact of_rollback (exec_rollback h)
  · rcases exec_performs (fun q e => ht ⟨q, e⟩) h with hs | ⟨c, w, rfl, hp⟩
    · exact of_same hs
    · have hw := performs_isKey hop hp
      cases c with
      | prisma =>
        refine ⟨apply_keys_of_not hw _, hm, hc, fun k => ?_, hd⟩
        exact Store.claimants_append rfl rfl fun w' hw' => by rwa [List.mem_singleton.1 hw']
      | tx =>
        refine ⟨rfl, hm, hc, fun k => rfl, fun j w' hw' => ?_⟩
        rw [Store.staged_write_tx] at hw'
        split at hw'
        · rcases List.mem_append.1 hw' with hw' | hw'
          · exact hd i w' hw'
          · rwa [List.mem_singleton.1 hw']
        · exact hd j w' hw'

end

end Kudi
