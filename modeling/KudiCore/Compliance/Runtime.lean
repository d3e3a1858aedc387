import KudiCore.Interleave.Triple
import KudiCore.Interleave.Table
import KudiCore.Compliance.Audit

/-!
# What the compliance handlers call

| here | there |
| --- | --- |
| `KycProfileCall` | `prisma.kycProfile`, as `prisma-kyc-profile.repository.ts` calls it |
| `Op` | one awaited (or otherwise fallible) call |
| `Ans` | what the outside world decides about one call |
| `Store` | the tables and the clock |
| `exec` | one call: atomic, as PostgreSQL executes one statement |

The calls are those of the Prisma delegates, of the verification provider, of `randomUUID`, of the clock and of
`EventBus.publish`.

No handler opens a transaction. `EventBus.publish` is fire-and-forget: nothing of it reaches its caller.
-/

namespace Kudi.Compliance

open Interleave

/-! ## Calls and their results -/

/-- `findUnique` is by user; `updateMany` is by id and version. -/
inductive KycProfileCall where
  | findUnique (userId : String)
  | create (data : KycProfileRecord)
  | updateMany (version : Nat) (data : KycProfileRecord)

@[reducible] def KycProfileCall.Res : KycProfileCall → Type
  | .findUnique _ => Option KycProfileRecord
  | .create _ => Unit
  | .updateMany .. => Nat

inductive Op where
  | kycProfile (q : KycProfileCall)
  | createAuditLogEntry (data : KycAuditLogEntry)
  | findAllIndividuals
  | findUser (id : String)
  | resolve (type : VerificationType) (number : String)
  | randomUUID
  | dateNow
  | publish (event : KycEvent)

@[reducible] def Op.Res : Op → Type
  | .kycProfile q => q.Res
  | .createAuditLogEntry _ => Unit
  | .findAllIndividuals => List SanctionsListEntry
  | .findUser _ => Option Identity.UserRecord
  | .resolve .. => FlutterwaveVerificationResponse
  | .randomUUID => String
  | .dateNow => Nat
  | .publish _ => Unit

/-- An `async` method. -/
abbrev Handler (α : Type) := Prog Op.Res Err Err α

/-! ## The store -/

structure Store where
  users : Table Identity.UserRecord.id
  kycProfiles : Table KycProfileRecord.id
  kycAuditLog : Table KycAuditLogEntry.id
  sanctionsList : List SanctionsListEntry
  clock : Nat

inductive Ans where
  | ok
  | fail (e : Err)
  | uuid (s : String)
  | resolved (response : FlutterwaveVerificationResponse)
deriving DecidableEq

/-- The calls that can be rejected. -/
def Op.fallible : Op → Bool
  | .randomUUID | .dateNow | .publish _ => false
  | _ => true

def uniqueViolation : Err := .prismaKnown "P2002" "Unique constraint failed"

/-! ## Executing one call -/

/-- A user has one profile. -/
def Store.ownedByAnother (s : Store) (data : KycProfileRecord) : Bool :=
  s.kycProfiles.rows.any fun r => r.id != data.id && r.userId == data.userId

def execKycProfile (q : KycProfileCall) (s : Store) : Except Err q.Res × Store :=
  match q with
  | .findUnique userId => (.ok (s.kycProfiles.rows.find? fun r => r.userId = userId), s)
  | .create data =>
    if (s.kycProfiles.find? data.id).isSome || s.ownedByAnother data then (.error uniqueViolation, s)
    else (.ok (), { s with kycProfiles := s.kycProfiles.put data })
  | .updateMany version data =>
    if (s.kycProfiles.find? data.id).any fun r => r.version = version then
      if s.ownedByAnother data then (.error uniqueViolation, s)
      else (.ok 1, { s with kycProfiles := s.kycProfiles.put data })
    else (.ok 0, s)

def execCreateAuditLogEntry (data : KycAuditLogEntry) (s : Store) : Except Err Unit × Store :=
  if (s.kycAuditLog.find? data.id).isSome then (.error uniqueViolation, s)
  else (.ok (), { s with kycAuditLog := s.kycAuditLog.put data })

def exec : Ans → (op : Op) → Store → Option (Except Err op.Res × Store)
  | .fail e, op, s => if op.fallible then some (.error e, s) else none
  | .ok, .kycProfile q, s => some (execKycProfile q s)
  | .ok, .createAuditLogEntry data, s => some (execCreateAuditLogEntry data s)
  | .ok, .findAllIndividuals, s => some (.ok s.sanctionsList, s)
  | .ok, .findUser id, s => some (.ok (s.users.find? id), s)
  | .resolved response, .resolve .., s => some (.ok response, s)
  | .uuid u, .randomUUID, s => some (.ok u, s)
  | .ok, .dateNow, s => some (.ok s.clock, s)
  | .ok, .publish _, s => some (.ok (), s)
  | _, _, _ => none

/-- Time passes. -/
def tick (ms : Nat) (s : Store) : Store := { s with clock := s.clock + ms }

/-- Any schedule whose steps meet `allow`. -/
def scheduleOf (allow : Store → PId → Ans → Op → Prop) : System Op.Res Err Store Ans Nat :=
  ⟨fun _ => exec, tick, allow⟩

/-- Every schedule. -/
def anySchedule : System Op.Res Err Store Ans Nat := scheduleOf fun _ _ _ _ => True

instance (s : Store) (i : PId) (a : Ans) (op : Op) : Decidable (anySchedule.allow s i a op) := instDecidableTrue

/-- Nothing but time passes. -/
def TimePasses (s s' : Store) : Prop := ∃ ms, s' = tick ms s

theorem TimePasses.refl (s : Store) : TimePasses s s := ⟨0, rfl⟩

theorem TimePasses.trans {s s' s'' : Store} (h : TimePasses s s') (h' : TimePasses s' s'') : TimePasses s s'' := by
  obtain ⟨ms, rfl⟩ := h
  obtain ⟨ms', rfl⟩ := h'
  exact ⟨ms + ms', by simp only [tick, Nat.add_assoc]⟩

/-- The row that an update saves. -/
def Op.savedProfile? : Op → Option KycProfileRecord
  | .kycProfile (.updateMany _ data) => some data
  | _ => none

/-! ## What a call leaves alone -/

section
variable {a : Ans} {s s' : Store}

theorem exec_fail {op : Op} {r : Except Err op.Res} {e : Err} (h : exec (.fail e) op s = some (r, s')) :
    r = .error e ∧ s' = s := by
  simp only [exec] at h
  split at h
  · simp only [Option.some.injEq, Prod.mk.injEq] at h
    exact ⟨h.1.symm, h.2.symm⟩
  · cases h

theorem exec_kycProfile {q : KycProfileCall} {x : q.Res} (h : exec a (.kycProfile q) s = some (.ok x, s')) :
    execKycProfile q s = (.ok x, s') := by
  cases a with
  | ok => exact Option.some.inj h
  | fail e => exact nomatch (exec_fail h).1
  | _ => cases h

theorem exec_findProfile {userId : String} {found : Option KycProfileRecord}
    (h : exec a (.kycProfile (.findUnique userId)) s = some (.ok found, s')) :
    found = s.kycProfiles.rows.find? (fun r => r.userId = userId) ∧ s' = s := by
  cases exec_kycProfile h
  exact ⟨rfl, rfl⟩

theorem exec_createProfile {data : KycProfileRecord} {x : Unit}
    (h : exec a (.kycProfile (.create data)) s = some (.ok x, s')) :
    s.kycProfiles.find? data.id = none ∧ s' = { s with kycProfiles := s.kycProfiles.put data } := by
  have h := exec_kycProfile h
  simp only [execKycProfile] at h
  split at h
  · cases h
  · rename_i hnew
    cases h
    simp only [Bool.or_eq_true, not_or, Option.isSome_iff_ne_none, ne_eq, not_not] at hnew
    exact ⟨hnew.1, rfl⟩

/-- Either no row has that version, or the row is updated. -/
theorem exec_updateProfile {version n : Nat} {data : KycProfileRecord}
    (h : exec a (.kycProfile (.updateMany version data)) s = some (.ok n, s')) :
    (n = 0 ∧ s' = s ∧ ∀ r, s.kycProfiles.find? data.id = some r → r.version ≠ version) ∨
      (n = 1 ∧ s' = { s with kycProfiles := s.kycProfiles.put data } ∧
        ∃ r, s.kycProfiles.find? data.id = some r ∧ r.version = version) := by
  have h := exec_kycProfile h
  simp only [execKycProfile] at h
  cases hfind : s.kycProfiles.find? data.id with
  | none =>
    rw [hfind] at h
    cases h
    exact .inl ⟨rfl, rfl, fun r hr => by cases hr⟩
  | some r =>
    rw [hfind, Option.any_some] at h
    split at h
    · rename_i hv
      split at h
      · cases h
      · cases h
        exact .inr ⟨rfl, rfl, r, rfl, of_decide_eq_true hv⟩
    · rename_i hv
      cases h
      refine .inl ⟨rfl, rfl, fun r' hr' hv' => hv ?_⟩
      cases hr'
      exact decide_eq_true hv'

theorem exec_findUser {id : String} {found : Option Identity.UserRecord}
    (h : exec a (.findUser id) s = some (.ok found, s')) : found = s.users.find? id := by
  cases a with
  | ok =>
    cases h
    rfl
  | fail e => exact nomatch (exec_fail h).1
  | _ => cases h

theorem exec_findAllIndividuals {found : List SanctionsListEntry}
    (h : exec a .findAllIndividuals s = some (.ok found, s')) : found = s.sanctionsList := by
  cases a with
  | ok =>
    cases h
    rfl
  | fail e => exact nomatch (exec_fail h).1
  | _ => cases h

theorem exec_createEntry {data : KycAuditLogEntry} {x : Unit}
    (h : exec a (.createAuditLogEntry data) s = some (.ok x, s')) :
    s.kycAuditLog.find? data.id = none ∧ s' = { s with kycAuditLog := s.kycAuditLog.put data } := by
  cases a with
  | ok =>
    simp only [exec, execCreateAuditLogEntry, Option.some.injEq] at h
    split at h
    · cases h
    · rename_i hnew
      cases h
      exact ⟨by simpa [Option.isSome_iff_ne_none] using hnew, rfl⟩
  | fail e => cases (exec_fail h).1
  | _ => cases h

/-- A rejected call changes nothing. -/
theorem exec_error {op : Op} {e : Err} (h : exec a op s = some (.error e, s')) : s' = s := by
  cases a with
  | fail e' => exact (exec_fail h).2
  | ok =>
    cases op with
    | kycProfile q =>
      cases q with
      | findUnique userId => cases h
      | create data =>
        simp only [exec, execKycProfile, Option.some.injEq] at h
        split at h <;> cases h
        rfl
      | updateMany version data =>
        simp only [exec, execKycProfile, Option.some.injEq] at h
        split at h
        · split at h <;> cases h
          rfl
        · cases h
    | createAuditLogEntry data =>
      simp only [exec, execCreateAuditLogEntry, Option.some.injEq] at h
      split at h <;> cases h
      rfl
    | _ => cases h
  | uuid u => cases op <;> cases h
  | resolved u => cases op <;> cases h

theorem exec_infallible {op : Op} {r : Except Err op.Res} (hop : op.fallible = false) (h : exec a op s = some (r, s')) :
    ∃ v, r = .ok v := by
  rcases r with e | v
  · cases a with
    | fail e' => simp [exec, hop] at h
    | ok => cases op <;> first | cases h | cases hop
    | _ => cases op <;> cases h
  · exact ⟨v, rfl⟩

def Op.writes : Op → Bool
  | .kycProfile (.create _) | .kycProfile (.updateMany ..) | .createAuditLogEntry _ => true
  | _ => false

/-- A call that writes nothing. -/
theorem exec_read {op : Op} {r : Except Err op.Res} (hop : op.writes = false) (h : exec a op s = some (r, s')) :
    s' = s := by
  rcases r with e | v
  · exact exec_error h
  cases a with
  | fail e => exact (exec_fail h).2
  | ok =>
    cases op with
    | kycProfile q =>
      cases q with
      | findUnique userId => exact (exec_findProfile h).2
      | _ => cases hop
    | createAuditLogEntry data => cases hop
    | findAllIndividuals => cases h; rfl
    | findUser id => cases h; rfl
    | dateNow => cases h; rfl
    | publish event => cases h; rfl
    | _ => cases h
  | uuid u =>
    cases op <;> cases h
    rfl
  | resolved u =>
    cases op <;> cases h
    rfl

def Op.ofProfiles : Op → Bool
  | .kycProfile _ => true
  | _ => false

theorem exec_sameProfiles {op : Op} {r : Except Err op.Res} (hop : op.ofProfiles = false)
    (h : exec a op s = some (r, s')) : s'.kycProfiles = s.kycProfiles := by
  rcases r with e | v
  · rw [exec_error h]
  cases op with
  | kycProfile q => cases hop
  | createAuditLogEntry data =>
    obtain ⟨-, rfl⟩ := exec_createEntry h
    rfl
  | _ => rw [exec_read rfl h]

end

end Kudi.Compliance
