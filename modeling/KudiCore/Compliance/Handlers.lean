import KudiCore.Identity.Runtime
import KudiCore.Compliance.Runtime

/-!
# Verifying a customer

| here | there |
| --- | --- |
| `PrismaKycProfileRepository`, `PrismaKycAuditLogRepository` | `modules/compliance/infrastructure/persistence/*.ts` |
| `PrismaUserRepository` | `modules/identity/infrastructure/persistence/prisma-user.repository.ts` |
| `FlutterwaveIdentityVerificationProvider` | its service in `modules/compliance/infrastructure/services` |
| `OfacSanctionsScreeningProvider` | `modules/compliance/infrastructure/services/ofac-sanctions-screening.service.ts` |
| `KycAuditRecorderService`, `SanctionsScreeningService` | `modules/compliance/application/services/*.ts` |
| `submit`, `manuallyVerify` | what the BVN and the NIN handlers share |
| `SubmitBvnVerificationHandler` … | `modules/compliance/application/commands/*/*.handler.ts` |
| `UserRegisteredHandler` | `modules/compliance/application/event-handlers/user-registered.handler.ts` |

A program has the profile in hand, and hands it on as the source mutates it; `pullDomainEvents` empties its events.
-/

namespace Kudi.Compliance

open Interleave

variable (services : Services)

/-! ## Repositories -/

namespace PrismaKycProfileRepository

def findByUserId (userId : String) : Handler (Option KycProfile) := do
  let record ← Prog.await (Op.kycProfile (.findUnique userId))
  return record.map KycProfileMapper.toDomain

def modifiedConcurrently (id : String) : Err :=
  domainException s!"KYC profile {id} was modified concurrently; please retry" "CONCURRENT_MODIFICATION"

/-- `previousVersion < 0` is version 0. -/
def save (profile : KycProfile) : Handler Unit :=
  let data := KycProfileMapper.toPersistence profile
  if data.version = 0 then Prog.await (Op.kycProfile (.create data))
  else do
    let count ← Prog.await (Op.kycProfile (.updateMany (data.version - 1) data))
    if count = 0 then throw (modifiedConcurrently data.id) else return ()

end PrismaKycProfileRepository

def PrismaKycAuditLogRepository.save (entry : KycAuditLogEntry) : Handler Unit :=
  Prog.await (Op.createAuditLogEntry entry)

/-- `record ? UserMapper.toDomain(record) : null`. -/
def PrismaUserRepository.findById (id : String) : Handler (Option Identity.User) := do
  match ← Prog.await (Op.findUser id) with
  | none => return none
  | some record => do
    let user ← Prog.ofExcept (Identity.UserMapper.toDomain services.identity record)
    return some user

/-! ## Services -/

/-- What `pullDomainEvents` leaves of a profile. -/
def pulled (p : KycProfile) : KycProfile := { p with domainEvents := [] }

def FlutterwaveIdentityVerificationProvider.verify (type : VerificationType) (number : Identifier)
    (user : Identity.User) : Handler IdentityVerificationResult := do
  let response ← Prog.await (Op.resolve type number.value)
  Prog.ofExcept (FlutterwaveIdentityVerificationProvider.judge services user.firstName user.lastName response)

/-- `{ matched, matches }`: matched if there are any. -/
def OfacSanctionsScreeningProvider.screen (fullName : String) : Handler (List SanctionsListEntry) :=
  let candidateTokens := OfacSanctionsScreeningProvider.normalizeToTokens services fullName
  if OfacSanctionsScreeningProvider.isScreenable candidateTokens then do
    let entries ← Prog.await Op.findAllIndividuals
    return OfacSanctionsScreeningProvider.findMatches services candidateTokens entries
  else return []

/-- `events.forEach((event) => this.eventBus.publish(event))`. -/
def publishAll : List KycEvent → Handler Unit
  | [] => return ()
  | event :: events => do
    Prog.await (Op.publish event)
    publishAll events

/-- An entry that is new: `randomUUID()` makes its id. -/
def saveEntry (entry : String → KycAuditLogEntry) : Handler Unit := do
  let id ← Prog.await Op.randomUUID
  PrismaKycAuditLogRepository.save (entry id)

namespace KycAuditRecorderService

def recordDomainEvent (event : KycEvent) : Handler Unit :=
  match entryOf event with
  | some entry => saveEntry entry
  | none => return ()

def recordDomainEvents : List KycEvent → Handler Unit
  | [] => return ()
  | event :: events => do
    recordDomainEvent event
    recordDomainEvents events

end KycAuditRecorderService

namespace SanctionsScreeningService

/-- `${match.fullName}${match.program ? ` (${match.program})` : ''}`. -/
def describe (entry : SanctionsListEntry) : String :=
  entry.fullName ++ match entry.program with
    | some program => if program = "" then "" else s!" ({program})"
    | none => ""

def matchSummary (entries : List SanctionsListEntry) : String := "; ".intercalate (entries.map describe)

/-- The profile, flagged if it has been. -/
def screenAndFlag (profile : KycProfile) (fullName : String) : Handler KycProfile := do
  let found ← OfacSanctionsScreeningProvider.screen services fullName
  if found.isEmpty then do
    saveEntry fun id => .forSanctionsScreening id profile.userId profile.id .PASSED none none
    return profile
  else do
    let summary := matchSummary found
    let now ← Prog.await Op.dateNow
    let profile := profile.flagForSanctionsReview now summary
    PrismaKycProfileRepository.save profile
    let events := profile.domainEvents
    let profile := pulled profile
    saveEntry fun id =>
      .forSanctionsScreening id profile.userId profile.id .FAILED (some s!"Candidate match(es): {summary}") none
    publishAll events
    return profile

end SanctionsScreeningService

/-! ## The handlers -/

def recordVerified : VerificationType → KycProfile → Nat → (hash masked : String) → Except Err KycProfile
  | .BVN => KycProfile.recordBvnVerified
  | .NIN => KycProfile.recordNinVerified

/-- `result.verifiedFullName ?? …`: the name to screen. -/
def nameOf (result : IdentityVerificationResult) (user : Identity.User) : String :=
  result.verifiedFullName.getD s!"{user.firstName} {user.lastName}"

/-- The user, the profile, the number, and what the provider says of it. -/
def lookUp (type : VerificationType) (userId rawNumber : String) :
    Handler (Identity.User × KycProfile × Identifier × IdentityVerificationResult) := do
  match ← PrismaUserRepository.findById services userId with
  | none => throw (kycProfileNotFound userId)
  | some user =>
    match ← PrismaKycProfileRepository.findByUserId userId with
    | none => throw (kycProfileNotFound userId)
    | some profile => do
      let number ← Prog.ofExcept (createIdentifier type rawNumber)
      let result ← FlutterwaveIdentityVerificationProvider.verify services type number user
      return (user, profile, number, result)

/-- The names do not match. -/
def refuse (type : VerificationType) (profile : KycProfile) : Handler KycStatusResponseDto := do
  let profile := profile.recordVerificationFailed type "Provider-returned name did not match"
  PrismaKycProfileRepository.save profile
  KycAuditRecorderService.recordDomainEvents profile.domainEvents
  publishAll profile.domainEvents
  throw identityMismatch

/-- The number has been verified: the profile is saved. -/
def verify (type : VerificationType) (profile : KycProfile) (number : Identifier) : Handler KycProfile := do
  let hash ← Prog.ofExcept (HmacIdentifierHasher.hash services number.value)
  let now ← Prog.await Op.dateNow
  let profile ← Prog.ofExcept (recordVerified type profile now hash number.toMasked)
  PrismaKycProfileRepository.save profile
  return profile

/-- A verification has gone through: it is recorded, announced, and its name screened. -/
def conclude (profile : KycProfile) (fullName : String) : Handler KycStatusResponseDto := do
  let successEvents := profile.domainEvents
  let profile := pulled profile
  KycAuditRecorderService.recordDomainEvents successEvents
  publishAll successEvents
  let profile ← SanctionsScreeningService.screenAndFlag services profile fullName
  return .fromDomain profile

def submit (type : VerificationType) (userId rawNumber : String) : Handler KycStatusResponseDto := do
  let (user, profile, number, result) ← lookUp services type userId rawNumber
  if !result.matched then refuse type profile
  else do
    let profile ← verify services type profile number
    conclude services profile (nameOf result user)

def overrideNotes (reason : String) (verifiedFullName : Option String) : String :=
  s!"Manual override by staff. Reason: {reason}. Provider-returned name: " ++ verifiedFullName.getD "unavailable" ++ "."

/-- The same, with the staff member's entry in place of the routine one. -/
def concludeOverride (type : VerificationType) (staffUserId targetUserId notes : String) (profile : KycProfile)
    (fullName : String) : Handler KycStatusResponseDto := do
  let events := profile.domainEvents
  let profile := pulled profile
  saveEntry fun id =>
    .forVerificationAttempt id targetUserId profile.id type .PASSED none (some staffUserId) (some notes)
  KycAuditRecorderService.recordDomainEvents (events.filter fun event => event.upgrade?.isSome)
  publishAll events
  let profile ← SanctionsScreeningService.screenAndFlag services profile fullName
  return .fromDomain profile

/-- `result.matched` is never read. -/
def manuallyVerify (type : VerificationType) (staffUserId targetUserId rawNumber reason : String) :
    Handler KycStatusResponseDto := do
  let (user, profile, number, result) ← lookUp services type targetUserId rawNumber
  let profile ← verify services type profile number
  concludeOverride services type staffUserId targetUserId (overrideNotes reason result.verifiedFullName) profile
    (nameOf result user)

structure SubmitBvnVerificationCommand where
  userId : String
  bvn : String
deriving DecidableEq, Repr

def SubmitBvnVerificationHandler.execute (command : SubmitBvnVerificationCommand) : Handler KycStatusResponseDto :=
  submit services .BVN command.userId command.bvn

structure SubmitNinVerificationCommand where
  userId : String
  nin : String
deriving DecidableEq, Repr

def SubmitNinVerificationHandler.execute (command : SubmitNinVerificationCommand) : Handler KycStatusResponseDto :=
  submit services .NIN command.userId command.nin

structure ManuallyVerifyBvnCommand where
  staffUserId : String
  targetUserId : String
  bvn : String
  reason : String
deriving DecidableEq, Repr

def ManuallyVerifyBvnHandler.execute (command : ManuallyVerifyBvnCommand) : Handler KycStatusResponseDto :=
  manuallyVerify services .BVN command.staffUserId command.targetUserId command.bvn command.reason

structure ManuallyVerifyNinCommand where
  staffUserId : String
  targetUserId : String
  nin : String
  reason : String
deriving DecidableEq, Repr

def ManuallyVerifyNinHandler.execute (command : ManuallyVerifyNinCommand) : Handler KycStatusResponseDto :=
  manuallyVerify services .NIN command.staffUserId command.targetUserId command.nin command.reason

structure ClearSanctionsFlagCommand where
  staffUserId : String
  targetUserId : String
  reason : String
deriving DecidableEq, Repr

def ClearSanctionsFlagHandler.execute (command : ClearSanctionsFlagCommand) : Handler KycStatusResponseDto := do
  match ← PrismaKycProfileRepository.findByUserId command.targetUserId with
  | none => throw (kycProfileNotFound command.targetUserId)
  | some profile => do
    let now ← Prog.await Op.dateNow
    let profile ← Prog.ofExcept (profile.clearSanctionsFlag now command.staffUserId command.reason)
    PrismaKycProfileRepository.save profile
    let events := profile.domainEvents
    let profile := pulled profile
    saveEntry fun id => .forSanctionsScreening id command.targetUserId profile.id .PASSED
      (some s!"Flag cleared by staff. Reason: {command.reason}.") (some command.staffUserId)
    publishAll events
    return .fromDomain profile

/-- `UserRegisteredEvent`: `aggregateId` is the user's id. -/
def UserRegisteredHandler.handle (aggregateId : String) : Handler Unit := do
  let id ← Prog.await Op.randomUUID
  let profile := KycProfile.createDefault id aggregateId
  PrismaKycProfileRepository.save profile
  publishAll profile.domainEvents

/-! ## All of them -/

inductive VerificationCommand where
  | submitBvn (command : SubmitBvnVerificationCommand)
  | submitNin (command : SubmitNinVerificationCommand)
  | manuallyVerifyBvn (command : ManuallyVerifyBvnCommand)
  | manuallyVerifyNin (command : ManuallyVerifyNinCommand)
deriving DecidableEq

def VerificationCommand.program : VerificationCommand → Handler KycStatusResponseDto
  | .submitBvn command => SubmitBvnVerificationHandler.execute services command
  | .submitNin command => SubmitNinVerificationHandler.execute services command
  | .manuallyVerifyBvn command => ManuallyVerifyBvnHandler.execute services command
  | .manuallyVerifyNin command => ManuallyVerifyNinHandler.execute services command

/-! ## Which calls they make -/

omit services

section
variable {T : Op → Prop}

theorem saveEntry_calls (hu : T .randomUUID) (hc : ∀ data, T (.createAuditLogEntry data))
    (entry : String → KycAuditLogEntry) : (saveEntry entry).Calls T := .bind (.await hu) fun _ => .await (hc _)

theorem recordDomainEvents_calls (hu : T .randomUUID) (hc : ∀ data, T (.createAuditLogEntry data)) :
    ∀ events, (KycAuditRecorderService.recordDomainEvents events).Calls T
  | [] => trivial
  | event :: events => by
    refine .bind ?_ fun _ => recordDomainEvents_calls hu hc events
    unfold KycAuditRecorderService.recordDomainEvent
    split
    · exact saveEntry_calls hu hc _
    · trivial

theorem publishAll_calls (h : ∀ e, T (.publish e)) : ∀ events, (publishAll events).Calls T
  | [] => trivial
  | event :: events => .bind (.await (h event)) fun _ => publishAll_calls h events

theorem PrismaUserRepository.findById_calls {services : Services} (h : ∀ id, T (.findUser id)) (id : String) :
    (PrismaUserRepository.findById services id).Calls T := by
  refine .bind (.await (h id)) fun record => ?_
  cases record with
  | none => trivial
  | some record => exact .bind (.ofExcept _) fun _ => trivial

theorem FlutterwaveIdentityVerificationProvider.verify_calls {services : Services}
    (h : ∀ type number, T (.resolve type number)) (type : VerificationType) (number : Identifier)
    (user : Identity.User) :
    (FlutterwaveIdentityVerificationProvider.verify services type number user).Calls T :=
  .bind (.await (h type number.value)) fun _ => .ofExcept _

theorem OfacSanctionsScreeningProvider.screen_calls {services : Services} (h : T .findAllIndividuals)
    (fullName : String) :
    (OfacSanctionsScreeningProvider.screen services fullName).Calls T := by
  show Prog.Calls T (if _ then _ else _)
  split
  · exact .bind (.await h) fun _ => trivial
  · trivial

end

/-! ## A sample -/

/-- A digest that can be looked through. -/
def sampleServices : Services :=
  { identity := Identity.sampleServices, identifierHmacKey := some "0123456789abcdef0123456789abcdef",
    createHmac := fun _ value => "#" ++ value, toUpperCase := fun s => String.ofList (s.toList.map Char.toUpper) }

/-- Ada, and Bola; neither has been verified. -/
def sampleStore : Store :=
  { users := (Table.empty.put { Identity.sampleUser with id := "ada" }).put
      { Identity.sampleUser with id := "bola", firstName := "Bola", lastName := "Ade" }
    kycProfiles := (Table.empty.put (KycProfileMapper.toPersistence (KycProfile.createDefault "profile-a" "ada"))).put
      (KycProfileMapper.toPersistence (KycProfile.createDefault "profile-b" "bola"))
    kycAuditLog := Table.empty, sanctionsList := [], clock := 0 }

/-- Ada's own BVN. -/
def sampleSubmission : VerificationCommand := .submitBvn ⟨"ada", "22123456789"⟩

/-- A BVN, put through for Bola by staff. -/
def sampleOverride (bvn : String) : VerificationCommand :=
  .manuallyVerifyBvn ⟨"staff", "bola", bvn, "Called the customer back"⟩

/-- The record of Ada Obi. -/
def sampleResponse : FlutterwaveVerificationResponse := ⟨true, "BVN details fetched", some ⟨"Ada", none, "Obi"⟩⟩

/-- The answers to a verification that goes through, with log entries `e-1`, `e-2` and `e-3`. -/
def sampleVerification (e : String) : List Ans :=
  [.ok, .ok, .resolved sampleResponse, .ok, .ok, .uuid (e ++ "-1"), .ok, .uuid (e ++ "-2"), .ok, .ok, .ok, .ok,
   .uuid (e ++ "-3"), .ok]

end Kudi.Compliance
