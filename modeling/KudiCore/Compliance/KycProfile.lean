import Mathlib.Data.List.Induction
import KudiCore.Database

/-!
# The `KycProfile` aggregate

| here | there |
| --- | --- |
| `VerificationType` | `modules/compliance/domain/enums/verification-type.enum.ts` |
| `KycEvent` | `modules/compliance/domain/events/*.ts` |
| `KycProfile` | `modules/compliance/domain/entities/kyc-profile.entity.ts` |
| `KycOperation` | its public mutators |

The two timestamps of a row are never read and are left out.

The tier is stored, and moved by two mutators that each look at the other verification. Only the
NIN's looks back: a BVN verified last leaves the profile at TIER_2 (`tier_matches_iff`).
-/

namespace Kudi

inductive VerificationType where
  | BVN | NIN
deriving DecidableEq, Repr

def VerificationType.value : VerificationType → String
  | .BVN => "BVN"
  | .NIN => "NIN"

def verificationAlreadyPassed (type : VerificationType) : Err :=
  .exception "VerificationAlreadyPassedException"
    s!"{type.value} verification has already been completed for this user" "VERIFICATION_ALREADY_PASSED"

def sanctionsFlagNotOpen (userId : String) : Err :=
  .exception "SanctionsFlagNotOpenException" s!"User {userId} has no open sanctions flag to clear"
    "SANCTIONS_FLAG_NOT_OPEN"

structure KycTierUpgradedEvent where
  aggregateId : String
  userId : String
  newTier : KycTier
deriving DecidableEq, Repr

inductive KycEvent where
  | profileCreated (aggregateId userId : String)
  | verificationPassed (aggregateId userId : String) (type : VerificationType)
  | verificationFailed (aggregateId userId : String) (type : VerificationType) (reason : String)
  | tierUpgraded (e : KycTierUpgradedEvent)
  | flaggedForSanctionsReview (aggregateId userId matchSummary : String)
  | sanctionsFlagCleared (aggregateId userId clearedByStaffUserId reason : String)
deriving DecidableEq, Repr

structure KycProfile where
  id : String
  userId : String
  tier : KycTier
  bvnVerifiedAt : Option Nat
  bvnHash : Option String
  bvnMasked : Option String
  ninVerifiedAt : Option Nat
  ninHash : Option String
  ninMasked : Option String
  sanctionsFlaggedAt : Option Nat
  sanctionsClearedAt : Option Nat
  version : Nat
  domainEvents : List KycEvent
deriving DecidableEq, Repr

namespace KycProfile

def addDomainEvent (p : KycProfile) (e : KycEvent) : KycProfile := { p with domainEvents := p.domainEvents ++ [e] }

def touch (p : KycProfile) : KycProfile := { p with version := p.version + 1 }

def createDefault (id userId : String) : KycProfile :=
  { id, userId, tier := .TIER_1, bvnVerifiedAt := none, bvnHash := none, bvnMasked := none,
    ninVerifiedAt := none, ninHash := none, ninMasked := none, sanctionsFlaggedAt := none,
    sanctionsClearedAt := none, version := 0, domainEvents := [.profileCreated id userId] }

/-- `this.props.tier = newTier`, announced. -/
def upgrade (p : KycProfile) (newTier : KycTier) : KycProfile :=
  { p with tier := newTier }.addDomainEvent (.tierUpgraded ⟨p.id, p.userId, newTier⟩)

def recordBvnVerified (p : KycProfile) (now : Nat) (bvnHash bvnMasked : String) : Except Err KycProfile :=
  if p.bvnVerifiedAt.isSome then .error (verificationAlreadyPassed .BVN)
  else
    let p := { p with bvnVerifiedAt := some now, bvnHash := some bvnHash, bvnMasked := some bvnMasked }.touch
    let p := p.addDomainEvent (.verificationPassed p.id p.userId .BVN)
    .ok (if p.tier = .TIER_1 then p.upgrade .TIER_2 else p)

def recordNinVerified (p : KycProfile) (now : Nat) (ninHash ninMasked : String) : Except Err KycProfile :=
  if p.ninVerifiedAt.isSome then .error (verificationAlreadyPassed .NIN)
  else
    let p := { p with ninVerifiedAt := some now, ninHash := some ninHash, ninMasked := some ninMasked }.touch
    let p := p.addDomainEvent (.verificationPassed p.id p.userId .NIN)
    .ok (if p.tier = .TIER_2 ∧ p.bvnVerifiedAt.isSome = true then p.upgrade .TIER_3 else p)

def recordVerificationFailed (p : KycProfile) (type : VerificationType) (reason : String) : KycProfile :=
  p.touch.addDomainEvent (.verificationFailed p.id p.userId type reason)

def isSanctionsFlagOpen (p : KycProfile) : Bool := p.sanctionsFlaggedAt.isSome && p.sanctionsClearedAt.isNone

def flagForSanctionsReview (p : KycProfile) (now : Nat) (matchSummary : String) : KycProfile :=
  if p.isSanctionsFlagOpen then p
  else { p with sanctionsFlaggedAt := some now, sanctionsClearedAt := none }.touch.addDomainEvent
    (.flaggedForSanctionsReview p.id p.userId matchSummary)

def clearSanctionsFlag (p : KycProfile) (now : Nat) (clearedByStaffUserId reason : String) : Except Err KycProfile :=
  if !p.isSanctionsFlagOpen then .error (sanctionsFlagNotOpen p.userId)
  else .ok ({ p with sanctionsClearedAt := some now }.touch.addDomainEvent
    (.sanctionsFlagCleared p.id p.userId clearedByStaffUserId reason))

end KycProfile

/-! ## Sequences of operations -/

inductive KycOperation where
  | recordBvnVerified (now : Nat) (bvnHash bvnMasked : String)
  | recordNinVerified (now : Nat) (ninHash ninMasked : String)
  | recordVerificationFailed (type : VerificationType) (reason : String)
  | flagForSanctionsReview (now : Nat) (matchSummary : String)
  | clearSanctionsFlag (now : Nat) (clearedByStaffUserId reason : String)

namespace KycOperation

def apply : KycOperation → KycProfile → Except Err KycProfile
  | .recordBvnVerified now bvnHash bvnMasked, p => p.recordBvnVerified now bvnHash bvnMasked
  | .recordNinVerified now ninHash ninMasked, p => p.recordNinVerified now ninHash ninMasked
  | .recordVerificationFailed type reason, p => .ok (p.recordVerificationFailed type reason)
  | .flagForSanctionsReview now matchSummary, p => .ok (p.flagForSanctionsReview now matchSummary)
  | .clearSanctionsFlag now staff reason, p => p.clearSanctionsFlag now staff reason

def verifies : KycOperation → Option VerificationType
  | .recordBvnVerified .. => some .BVN
  | .recordNinVerified .. => some .NIN
  | _ => none

end KycOperation

def KycEvent.upgrade? : KycEvent → Option KycTierUpgradedEvent
  | .tierUpgraded e => some e
  | _ => none

/-- An operation announces an upgrade of the profile's own user, to a tier that is no longer the first. -/
theorem KycOperation.apply_upgrades {op : KycOperation} {p p' : KycProfile} (h : op.apply p = .ok p')
    (hp : p.domainEvents = []) : p'.userId = p.userId ∧
      ∀ e ∈ p'.domainEvents.filterMap KycEvent.upgrade?, e.userId = p.userId ∧ p'.tier ≠ .TIER_1 := by
  cases op with
  | recordBvnVerified now hash masked =>
    by_cases hb : p.bvnVerifiedAt.isSome = true
    · simp [apply, KycProfile.recordBvnVerified, hb] at h
    · by_cases ht : p.tier = .TIER_1 <;>
        simp only [apply, KycProfile.recordBvnVerified, hb, KycProfile.touch, KycProfile.addDomainEvent,
          KycProfile.upgrade, ht, hp, if_true, if_false, Bool.false_eq_true, Except.ok.injEq] at h <;>
        subst h <;> simp [KycEvent.upgrade?]
  | recordNinVerified now hash masked =>
    by_cases hn : p.ninVerifiedAt.isSome = true
    · simp [apply, KycProfile.recordNinVerified, hn] at h
    · by_cases ht : p.tier = .TIER_2 ∧ p.bvnVerifiedAt.isSome = true <;>
        simp only [apply, KycProfile.recordNinVerified, hn, KycProfile.touch, KycProfile.addDomainEvent,
          KycProfile.upgrade, ht, hp, if_true, if_false, Bool.false_eq_true, Except.ok.injEq, and_self] at h <;>
        subst h <;> simp [KycEvent.upgrade?]
  | recordVerificationFailed type reason =>
    cases h
    simp [KycProfile.recordVerificationFailed, KycProfile.touch, KycProfile.addDomainEvent, hp, KycEvent.upgrade?]
  | flagForSanctionsReview now summary =>
    cases h
    by_cases ho : p.isSanctionsFlagOpen = true <;>
      simp [KycProfile.flagForSanctionsReview, ho, KycProfile.touch, KycProfile.addDomainEvent, hp, KycEvent.upgrade?]
  | clearSanctionsFlag now staff reason =>
    by_cases ho : p.isSanctionsFlagOpen = true
    · simp only [apply, KycProfile.clearSanctionsFlag, ho, Bool.not_true, Bool.false_eq_true, if_false,
        Except.ok.injEq] at h
      subst h
      simp [KycProfile.touch, KycProfile.addDomainEvent, hp, KycEvent.upgrade?]
    · simp [apply, KycProfile.clearSanctionsFlag, ho] at h

/-- The first of the two verifications in `ops`. -/
def firstVerified (ops : List KycOperation) : Option VerificationType := ops.findSome? KycOperation.verifies

def verified (ops : List KycOperation) (type : VerificationType) : Bool := ops.any fun op => op.verifies = some type

/-- The tier that the verifications of a profile stand for. -/
def tierOf : (bvn nin : Bool) → KycTier
  | true, true => .TIER_3
  | true, false => .TIER_2
  | false, _ => .TIER_1

namespace KycProfile

/-- An operation that throws leaves the profile as it was. -/
def attempt (p : KycProfile) (op : KycOperation) : KycProfile :=
  match op.apply p with
  | .ok p' => p'
  | .error _ => p

def run (p : KycProfile) (ops : List KycOperation) : KycProfile := ops.foldl attempt p

def TierMatches (p : KycProfile) : Prop := p.tier = tierOf p.bvnVerifiedAt.isSome p.ninVerifiedAt.isSome

instance (p : KycProfile) : Decidable p.TierMatches := inferInstanceAs (Decidable (_ = _))

/-! ### What one operation does to the tier -/

section
variable {p : KycProfile} {op : KycOperation}

theorem attempt_bvn (h : op.verifies = some .BVN) :
    (p.attempt op).bvnVerifiedAt.isSome = true ∧ (p.attempt op).ninVerifiedAt = p.ninVerifiedAt ∧
      (p.attempt op).tier = if p.bvnVerifiedAt.isSome = false ∧ p.tier = .TIER_1 then .TIER_2 else p.tier := by
  cases op with
  | recordBvnVerified now hash masked =>
    by_cases hb : p.bvnVerifiedAt.isSome = true
    · simp [attempt, KycOperation.apply, recordBvnVerified, hb]
    · by_cases ht : p.tier = .TIER_1 <;>
        simp [attempt, KycOperation.apply, recordBvnVerified, hb, ht, touch, addDomainEvent, upgrade]
  | _ => cases h

theorem attempt_nin (h : op.verifies = some .NIN) :
    (p.attempt op).ninVerifiedAt.isSome = true ∧ (p.attempt op).bvnVerifiedAt = p.bvnVerifiedAt ∧
      (p.attempt op).tier = if p.ninVerifiedAt.isSome = false ∧ p.tier = .TIER_2 ∧ p.bvnVerifiedAt.isSome = true
        then .TIER_3 else p.tier := by
  cases op with
  | recordNinVerified now hash masked =>
    by_cases hn : p.ninVerifiedAt.isSome = true
    · simp [attempt, KycOperation.apply, recordNinVerified, hn]
    · by_cases ht : p.tier = .TIER_2 ∧ p.bvnVerifiedAt.isSome = true
      · simp [attempt, KycOperation.apply, recordNinVerified, hn, ht, touch, addDomainEvent, upgrade]
      · simp [attempt, KycOperation.apply, recordNinVerified, hn, ht, touch, addDomainEvent]
  | _ => cases h

theorem attempt_other (h : op.verifies = none) :
    (p.attempt op).bvnVerifiedAt = p.bvnVerifiedAt ∧ (p.attempt op).ninVerifiedAt = p.ninVerifiedAt ∧
      (p.attempt op).tier = p.tier := by
  cases op with
  | recordBvnVerified now hash masked => cases h
  | recordNinVerified now hash masked => cases h
  | recordVerificationFailed type reason => exact ⟨rfl, rfl, rfl⟩
  | flagForSanctionsReview now summary =>
    by_cases ho : p.isSanctionsFlagOpen = true <;>
      simp [attempt, KycOperation.apply, flagForSanctionsReview, ho, touch, addDomainEvent]
  | clearSanctionsFlag now staff reason =>
    by_cases ho : p.isSanctionsFlagOpen = true <;>
      simp [attempt, KycOperation.apply, clearSanctionsFlag, ho, touch, addDomainEvent]

end

/-! ### ... and a sequence -/

/-- The profile after `ops`. -/
structure After (ops : List KycOperation) (p : KycProfile) : Prop where
  bvn : p.bvnVerifiedAt.isSome = verified ops .BVN
  nin : p.ninVerifiedAt.isSome = verified ops .NIN
  tier : p.tier =
    if firstVerified ops = some .NIN ∧ verified ops .BVN = true then .TIER_2
    else tierOf (verified ops .BVN) (verified ops .NIN)

theorem firstVerified_append (ops : List KycOperation) (op : KycOperation) :
    firstVerified (ops ++ [op]) = (firstVerified ops).or op.verifies := by
  simp [firstVerified, List.findSome?_append]

theorem verified_append (ops : List KycOperation) (op : KycOperation) (type : VerificationType) :
    verified (ops ++ [op]) type = (verified ops type || decide (op.verifies = some type)) := by
  simp [verified]

/-- Something has been verified first if and only if something has been verified. -/
theorem firstVerified_eq_none {ops : List KycOperation} :
    firstVerified ops = none ↔ verified ops .BVN = false ∧ verified ops .NIN = false := by
  simp only [firstVerified, verified, List.findSome?_eq_none_iff, List.any_eq_false, decide_eq_true_eq]
  constructor
  · intro h
    exact ⟨fun op hop => by simp [h op hop], fun op hop => by simp [h op hop]⟩
  · rintro ⟨hb, hn⟩ op hop
    cases hv : op.verifies with
    | none => rfl
    | some type =>
      cases type with
      | BVN => exact absurd hv (hb op hop)
      | NIN => exact absurd hv (hn op hop)

theorem verified_of_first {ops : List KycOperation} {type : VerificationType} (h : firstVerified ops = some type) :
    verified ops type = true := by
  obtain ⟨op, hop, hv⟩ := List.exists_of_findSome?_eq_some h
  exact List.any_eq_true.2 ⟨op, hop, by simp [hv]⟩

theorem After.step {ops : List KycOperation} {p : KycProfile} (h : After ops p) (op : KycOperation) :
    After (ops ++ [op]) (p.attempt op) := by
  obtain ⟨hb, hn, ht⟩ := h
  cases hv : op.verifies with
  | none =>
    obtain ⟨hb', hn', ht'⟩ := attempt_other (p := p) hv
    refine ⟨?_, ?_, ?_⟩
    · rw [hb', hb, verified_append, hv]
      simp
    · rw [hn', hn, verified_append, hv]
      simp
    · rw [ht', ht, firstVerified_append, verified_append, verified_append, hv]
      simp
  | some type =>
    cases type with
    | BVN =>
      obtain ⟨hb', hn', ht'⟩ := attempt_bvn (p := p) hv
      refine ⟨?_, ?_, ?_⟩
      · rw [hb', verified_append, hv]
        simp
      · rw [hn', hn, verified_append, hv]
        simp
      · rw [ht', ht, hb, firstVerified_append, verified_append, verified_append, hv]
        -- Which verification came first decides; nothing verified yet means no tier yet.
        cases hf : firstVerified ops with
        | none =>
          obtain ⟨hb0, hn0⟩ := firstVerified_eq_none.1 hf
          simp [hb0, hn0, tierOf]
        | some first =>
          have hfirst := verified_of_first hf
          cases first with
          | BVN => simp [hfirst]
          | NIN => cases hb0 : verified ops .BVN <;> simp [tierOf]
    | NIN =>
      obtain ⟨hn', hb', ht'⟩ := attempt_nin (p := p) hv
      refine ⟨?_, ?_, ?_⟩
      · rw [hb', hb, verified_append, hv]
        simp
      · rw [hn', verified_append, hv]
        simp
      · rw [ht', ht, hb, hn, firstVerified_append, verified_append, verified_append, hv]
        cases hf : firstVerified ops with
        | none =>
          obtain ⟨hb0, hn0⟩ := firstVerified_eq_none.1 hf
          simp [hb0, hn0, tierOf]
        | some first =>
          have hfirst := verified_of_first hf
          cases first with
          | BVN => cases hn0 : verified ops .NIN <;> simp [hfirst, tierOf]
          | NIN => simp [hfirst]

theorem after_run (ops : List KycOperation) (id userId : String) : After ops ((createDefault id userId).run ops) := by
  induction ops using List.reverseRecOn with
  | nil => exact ⟨rfl, rfl, rfl⟩
  | append_singleton ops op ih =>
    rw [run, List.foldl_append]
    exact ih.step op

/-- **The tier follows the verifications, except where the NIN is verified before the BVN.** -/
theorem tier_matches_iff (id userId : String) (ops : List KycOperation) :
    ((createDefault id userId).run ops).TierMatches ↔
      ¬ (firstVerified ops = some .NIN ∧ verified ops .BVN = true) := by
  obtain ⟨hb, hn, ht⟩ := after_run ops id userId
  rw [TierMatches, ht, hb, hn]
  by_cases h : firstVerified ops = some .NIN ∧ verified ops .BVN = true
  · rw [if_pos h, h.2, verified_of_first h.1]
    simp [h, tierOf]
  · simp [h]

/-- Both verified, and TIER_2. -/
theorem nin_first_stays_tier2 :
    let p := (createDefault "id" "user").run [.recordNinVerified 0 "nin" "*", .recordBvnVerified 1 "bvn" "*"]
    p.bvnVerifiedAt.isSome = true ∧ p.ninVerifiedAt.isSome = true ∧ p.tier = .TIER_2 ∧ ¬ p.TierMatches := by
  decide

end KycProfile

end Kudi
