import KudiCore.Compliance.Screening

/-!
# The compliance audit log

| here | there |
| --- | --- |
| `KycAuditLogEntry` | `modules/compliance/domain/entities/kyc-audit-log-entry.entity.ts`, and its rows |
| `KycProfileRecord`, `KycProfileMapper` | `model KycProfile` in `schema.prisma`, `kyc-profile.mapper.ts` |
| `KycStatusResponseDto` | `modules/compliance/application/dto/kyc-status-response.dto.ts` |

`createdAt` of a log entry and the two row timestamps of a profile are never read, and are left out.
-/

namespace Kudi.Compliance

/-! ## Exceptions -/

def kycProfileNotFound (userId : String) : Err :=
  .exception "KycProfileNotFoundException" s!"KYC profile not found for user: {userId}" "KYC_PROFILE_NOT_FOUND"

def identityMismatch : Err :=
  .exception "IdentityMismatchException"
    "The identity details returned by the verification provider do not match your registered name" "IDENTITY_MISMATCH"

/-! ## Entries -/

inductive KycAuditEventType where
  | VERIFICATION_ATTEMPT | TIER_CHANGE | SANCTIONS_SCREENING
deriving DecidableEq, Repr

inductive KycAuditOutcome where
  | PASSED | FAILED
deriving DecidableEq, Repr

structure KycAuditLogEntry where
  id : String
  userId : String
  kycProfileId : String
  eventType : KycAuditEventType
  verificationType : Option VerificationType
  outcome : Option KycAuditOutcome
  failureReason : Option String
  previousTier : Option KycTier
  newTier : Option KycTier
  performedByUserId : Option String
  notes : Option String
deriving DecidableEq, Repr

namespace KycAuditLogEntry

def forVerificationAttempt (id userId kycProfileId : String) (verificationType : VerificationType)
    (outcome : KycAuditOutcome) (failureReason performedByUserId notes : Option String) : KycAuditLogEntry :=
  { id, userId, kycProfileId, eventType := .VERIFICATION_ATTEMPT, verificationType := some verificationType,
    outcome := some outcome, failureReason, previousTier := none, newTier := none, performedByUserId, notes }

def forTierChange (id userId kycProfileId : String) (previousTier newTier : KycTier) : KycAuditLogEntry :=
  { id, userId, kycProfileId, eventType := .TIER_CHANGE, verificationType := none, outcome := none,
    failureReason := none, previousTier := some previousTier, newTier := some newTier, performedByUserId := none,
    notes := none }

def forSanctionsScreening (id userId kycProfileId : String) (outcome : KycAuditOutcome)
    (notes performedByUserId : Option String) : KycAuditLogEntry :=
  { id, userId, kycProfileId, eventType := .SANCTIONS_SCREENING, verificationType := none, outcome := some outcome,
    failureReason := none, previousTier := none, newTier := none, performedByUserId, notes }

end KycAuditLogEntry

/-- The tier before, as the recorder derives it. -/
def previousTierOf (newTier : KycTier) : KycTier := if newTier = .TIER_3 then .TIER_2 else .TIER_1

/-- The entry of an event that is relevant to the audit, once it has an id. -/
def entryOf : KycEvent → Option (String → KycAuditLogEntry)
  | .verificationPassed aggregateId userId type =>
    some fun id => .forVerificationAttempt id userId aggregateId type .PASSED none none none
  | .verificationFailed aggregateId userId type reason =>
    some fun id => .forVerificationAttempt id userId aggregateId type .FAILED (some reason) none none
  | .tierUpgraded e =>
    some fun id => .forTierChange id e.userId e.aggregateId (previousTierOf e.newTier) e.newTier
  | _ => none

/-! ## Profiles -/

structure KycProfileRecord where
  id : String
  userId : String
  tier : KycTier
  bvnVerifiedAt : Option Nat
  bvnHash : Option String
  bvnMasked : Option String
  ninVerifiedAt : Option Nat
  ninHash : Option String
  ninMasked : Option String
  sanctionsFlaggedAt : Option Nat
  sanctionsClearedAt : Option Nat
  version : Nat
deriving DecidableEq, Repr

namespace KycProfileRecord

def hashOf (r : KycProfileRecord) : VerificationType → Option String
  | .BVN => r.bvnHash
  | .NIN => r.ninHash

def verifiedAt (r : KycProfileRecord) : VerificationType → Option Nat
  | .BVN => r.bvnVerifiedAt
  | .NIN => r.ninVerifiedAt

end KycProfileRecord

namespace KycProfileMapper

def toDomain (r : KycProfileRecord) : KycProfile :=
  { id := r.id, userId := r.userId, tier := r.tier, bvnVerifiedAt := r.bvnVerifiedAt, bvnHash := r.bvnHash,
    bvnMasked := r.bvnMasked, ninVerifiedAt := r.ninVerifiedAt, ninHash := r.ninHash, ninMasked := r.ninMasked,
    sanctionsFlaggedAt := r.sanctionsFlaggedAt, sanctionsClearedAt := r.sanctionsClearedAt, version := r.version,
    domainEvents := [] }

def toPersistence (p : KycProfile) : KycProfileRecord :=
  { id := p.id, userId := p.userId, tier := p.tier, bvnVerifiedAt := p.bvnVerifiedAt, bvnHash := p.bvnHash,
    bvnMasked := p.bvnMasked, ninVerifiedAt := p.ninVerifiedAt, ninHash := p.ninHash, ninMasked := p.ninMasked,
    sanctionsFlaggedAt := p.sanctionsFlaggedAt, sanctionsClearedAt := p.sanctionsClearedAt, version := p.version }

end KycProfileMapper

structure KycStatusResponseDto where
  userId : String
  tier : KycTier
  bvnVerified : Bool
  bvnVerifiedAt : Option String
  bvnMasked : Option String
  ninVerified : Bool
  ninVerifiedAt : Option String
  ninMasked : Option String
deriving DecidableEq, Repr

def KycStatusResponseDto.fromDomain (p : KycProfile) : KycStatusResponseDto :=
  { userId := p.userId, tier := p.tier, bvnVerified := p.bvnVerifiedAt.isSome,
    bvnVerifiedAt := p.bvnVerifiedAt.map Identity.toISOString, bvnMasked := p.bvnMasked,
    ninVerified := p.ninVerifiedAt.isSome, ninVerifiedAt := p.ninVerifiedAt.map Identity.toISOString,
    ninMasked := p.ninMasked }

end Kudi.Compliance
