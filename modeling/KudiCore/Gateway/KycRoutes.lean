import KudiCore.Compliance.Deduplication
import KudiCore.Gateway.Controllers

/-!
# The routes to verifications

| here | there |
| --- | --- |
| `GetMyKycStatusHandler` | `modules/compliance/application/queries/get-my-kyc-status/get-my-kyc-status.handler.ts` |
| `KycRoute`      | a route of `kyc.controller.ts`; its guards are those of `Gateway.Controllers` |
| `KycIncoming`   | what sets a program of the compliance module going |

The two routes that freeze and unfreeze are with the accounts. `getStaffLookup` and `getFlaggedSanctionsProfiles`, two
reads for staff, are left out.
-/

namespace Kudi.Compliance

open Interleave
open Identity (AccessTokenPayload UserRole)

def GetMyKycStatusHandler.execute (userId : String) : Handler KycStatusResponseDto := do
  match ← PrismaKycProfileRepository.findByUserId userId with
  | none => throw (kycProfileNotFound userId)
  | some profile => return .fromDomain profile

structure SubmitBvnVerificationDto where
  bvn : String

structure SubmitNinVerificationDto where
  nin : String

structure ManualBvnOverrideDto where
  bvn : String
  reason : String

structure ManualNinOverrideDto where
  nin : String
  reason : String

structure ClearSanctionsFlagDto where
  reason : String

namespace KycController

def getMyStatus (user : AccessTokenPayload) : Handler KycStatusResponseDto := GetMyKycStatusHandler.execute user.sub

def clearSanctionsFlag (staff : AccessTokenPayload) (userId : String) (dto : ClearSanctionsFlagDto) :
    Handler KycStatusResponseDto := ClearSanctionsFlagHandler.execute ⟨staff.sub, userId, dto.reason⟩

def manuallyVerifyBvn (services : Services) (staff : AccessTokenPayload) (userId : String)
    (dto : ManualBvnOverrideDto) : Handler KycStatusResponseDto :=
  ManuallyVerifyBvnHandler.execute services ⟨staff.sub, userId, dto.bvn, dto.reason⟩

def manuallyVerifyNin (services : Services) (staff : AccessTokenPayload) (userId : String)
    (dto : ManualNinOverrideDto) : Handler KycStatusResponseDto :=
  ManuallyVerifyNinHandler.execute services ⟨staff.sub, userId, dto.nin, dto.reason⟩

def verifyBvn (services : Services) (user : AccessTokenPayload) (dto : SubmitBvnVerificationDto) :
    Handler KycStatusResponseDto := SubmitBvnVerificationHandler.execute services ⟨user.sub, dto.bvn⟩

def verifyNin (services : Services) (user : AccessTokenPayload) (dto : SubmitNinVerificationDto) :
    Handler KycStatusResponseDto := SubmitNinVerificationHandler.execute services ⟨user.sub, dto.nin⟩

end KycController

inductive KycRoute where
  | getMyStatus
  | clearSanctionsFlag (userId : String) (dto : ClearSanctionsFlagDto)
  | manuallyVerifyBvn (userId : String) (dto : ManualBvnOverrideDto)
  | manuallyVerifyNin (userId : String) (dto : ManualNinOverrideDto)
  | verifyBvn (dto : SubmitBvnVerificationDto)
  | verifyNin (dto : SubmitNinVerificationDto)

namespace KycRoute

/-- `@Roles(...COMPLIANCE_ROLES)`. -/
def roles : KycRoute → List UserRole
  | .clearSanctionsFlag .. | .manuallyVerifyBvn .. | .manuallyVerifyNin .. => complianceRoles
  | _ => []

def handle (services : Services) (user : AccessTokenPayload) : KycRoute → Handler KycStatusResponseDto
  | .getMyStatus => KycController.getMyStatus user
  | .clearSanctionsFlag userId dto => KycController.clearSanctionsFlag user userId dto
  | .manuallyVerifyBvn userId dto => KycController.manuallyVerifyBvn services user userId dto
  | .manuallyVerifyNin userId dto => KycController.manuallyVerifyNin services user userId dto
  | .verifyBvn dto => KycController.verifyBvn services user dto
  | .verifyNin dto => KycController.verifyNin services user dto

end KycRoute

inductive KycIncoming where
  | request (user : Option AccessTokenPayload) (route : KycRoute)
  /-- The identity module has published a `UserRegisteredEvent`. -/
  | userRegistered (aggregateId : String)

/-- The guards, then the controller. -/
def KycIncoming.program (services : Services) : KycIncoming → Handler (Option KycStatusResponseDto)
  | .request user route => do
    let user ← Prog.ofExcept (JwtAuthGuard.canActivate user)
    Prog.ofExcept (RolesGuard.canActivate route.roles user)
    let status ← route.handle services user
    return some status
  | .userRegistered aggregateId => do
    UserRegisteredHandler.handle aggregateId
    return none

end Kudi.Compliance
