import KudiCore.Interleave.Triple
import KudiCore.Compliance.Handlers

/-!
# What a failed verification leaves

| here | there |
| --- | --- |
| `Audited`     | the profile is verified, and the log says so: the attempt, the change of tier, the screening |
| `Accounted`   | nothing has been verified; or it is audited, if need be once the command has been retried |
| `Recoverable` | the names did not match; or nothing came after the save of the profile |

The profile is saved first, and what is owed to it is written afterwards, call by call. A retry does not get there: a
profile that is verified is not verified again, and nothing else screens it (`Unscreened.retried`).
-/

namespace Kudi.Compliance

open Interleave

namespace VerificationCommand

def type : VerificationCommand → VerificationType
  | .submitBvn _ | .manuallyVerifyBvn _ => .BVN
  | .submitNin _ | .manuallyVerifyNin _ => .NIN

/-- Whose profile it is about. -/
def userId : VerificationCommand → String
  | .submitBvn command => command.userId
  | .submitNin command => command.userId
  | .manuallyVerifyBvn command => command.targetUserId
  | .manuallyVerifyNin command => command.targetUserId

/-- Self-service: the name has to match. -/
def isSubmission : VerificationCommand → Bool
  | .submitBvn _ | .submitNin _ => true
  | .manuallyVerifyBvn _ | .manuallyVerifyNin _ => false

end VerificationCommand

/-! ## The trail -/

def Store.profileOf (s : Store) (userId : String) : Option KycProfileRecord :=
  s.kycProfiles.rows.find? fun r => r.userId = userId

/-- The row, but for its version: a failed attempt is counted there and nowhere else. -/
def KycProfileRecord.unversioned (r : KycProfileRecord) : KycProfileRecord := { r with version := 0 }

theorem unversioned_verifiedAt (r : KycProfileRecord) (type : VerificationType) :
    r.unversioned.verifiedAt type = r.verifiedAt type := by
  cases type <;> rfl

/-- Nothing about the user has been verified. -/
def Unchanged (userId : String) (s s' : Store) : Prop :=
  (s'.profileOf userId).map KycProfileRecord.unversioned = (s.profileOf userId).map KycProfileRecord.unversioned

/-- An entry that the log has come to hold. -/
def Logged (s s' : Store) (e : KycAuditLogEntry) : Prop := e ∈ s'.kycAuditLog.rows ∧ e ∉ s.kycAuditLog.rows

structure Audited (type : VerificationType) (s s' : Store) (p p' : KycProfileRecord) : Prop where
  verified : (p'.verifiedAt type).isSome = true
  attempt : ∃ e, Logged s s' e ∧ e.kycProfileId = p'.id ∧ e.eventType = .VERIFICATION_ATTEMPT ∧
    e.verificationType = some type ∧ e.outcome = some .PASSED
  tierChange : p'.tier ≠ p.tier → ∃ e, Logged s s' e ∧ e.kycProfileId = p'.id ∧ e.eventType = .TIER_CHANGE ∧
    e.previousTier = some p.tier ∧ e.newTier = some p'.tier
  screening : ∃ e, Logged s s' e ∧ e.kycProfileId = p'.id ∧ e.eventType = .SANCTIONS_SCREENING

/-- The same command, any number of times. -/
def Retried (services : Services) (command : VerificationCommand) : Store → Store → Prop :=
  Relation.ReflTransGen (Serves anySchedule TimePasses fun _ : Unit => command.program services)

def Accounted (services : Services) (command : VerificationCommand) (s s' : Store) : Prop :=
  Unchanged command.userId s s' ∨ ∃ s'' p p', Retried services command s' s'' ∧
    s.profileOf command.userId = some p ∧ s''.profileOf command.userId = some p' ∧ Audited command.type s s'' p p'

/-! ## Where a run fails -/

abbrev Call := Event Op.Res Err Store

/-- The provider's record. -/
def response? (call : Call) : Option FlutterwaveVerificationResponse :=
  match call with
  | ⟨.resolve .., .ok response, _, _⟩ => some response
  | _ => none

/-- The record is under another name than the user's. -/
def NameDiffers (services : Services) (userId : String) (s : Store) (tr : List Call) : Prop :=
  ∃ row user response result, s.users.find? userId = some row ∧
    Identity.UserMapper.toDomain services.identity row = .ok user ∧ tr.findSome? response? = some response ∧
    FlutterwaveIdentityVerificationProvider.judge services user.firstName user.lastName response = .ok result ∧
    result.matched = false

/-- No call follows the save of a profile. -/
def NoneAfterSave (tr : List Call) : Prop := ∀ call ∈ tr.dropLast, call.op.savedProfile? = none

instance (tr : List Call) : Decidable (NoneAfterSave tr) :=
  inferInstanceAs (Decidable (∀ call ∈ tr.dropLast, call.op.savedProfile? = none))

def Recoverable (services : Services) (command : VerificationCommand) (s : Store) (tr : List Call) : Prop :=
  command.isSubmission = true ∧ NameDiffers services command.userId s tr ∨ NoneAfterSave tr

/-! ## One call after another -/

section
variable {i : PId} {ε α : Type} {s s' : Store} {tr : List Call}

/-- Reads leave the store to the clock. -/
theorem passes_of_calls {p : Prog Op.Res Err ε α} {x : Except ε α} (hp : p.Calls fun op => op.writes = false)
    (h : Run anySchedule TimePasses i p s tr x s') : TimePasses s s' :=
  h.keeps hp TimePasses.refl TimePasses.trans (fun hs => hs) fun hop hx => (exec_read hop hx) ▸ TimePasses.refl _

theorem profileOf_passes (h : TimePasses s s') (userId : String) : s'.profileOf userId = s.profileOf userId := by
  obtain ⟨ms, rfl⟩ := h
  rfl

/-- A save is one call: it is refused, or misses, or replaces the row. -/
theorem save_run {p : KycProfile} {x : Except Err Unit} (hv : 0 < p.version)
    (h : Run anySchedule TimePasses i (PrismaKycProfileRepository.save p) s tr x s') :
    ∃ call, tr = [call] ∧ call.op.savedProfile? = some (KycProfileMapper.toPersistence p) ∧
      ((∃ e, x = .error e) ∧ TimePasses s s' ∨
        x = .ok () ∧ (∃ r, s.kycProfiles.find? p.id = some r) ∧
          TimePasses { s with kycProfiles := s.kycProfiles.put (KycProfileMapper.toPersistence p) } s') := by
  have hversion : (KycProfileMapper.toPersistence p).version ≠ 0 := Nat.pos_iff_ne_zero.1 hv
  unfold PrismaKycProfileRepository.save at h
  simp only [if_neg hversion] at h
  obtain ⟨s1, a, r, s2, rest, ⟨ms, rfl⟩, -, hx, rfl,
    ⟨n, rfl, hend⟩ | ⟨e, rfl, rfl, rfl, rfl⟩⟩ := h.await_bind
  · rcases exec_updateProfile hx with ⟨rfl, rfl, -⟩ | ⟨rfl, rfl, r, hr, -⟩
    · rw [if_pos rfl] at hend
      obtain ⟨rfl, rfl, rfl⟩ := hend
      exact ⟨_, rfl, rfl, .inl ⟨⟨_, rfl⟩, ms, rfl⟩⟩
    · rw [if_neg Nat.one_ne_zero] at hend
      obtain ⟨rfl, rfl, rfl⟩ := hend
      exact ⟨_, rfl, rfl, .inr ⟨rfl, ⟨r, hr⟩, ms, rfl⟩⟩
  · obtain rfl := exec_error hx
    exact ⟨_, rfl, rfl, .inl ⟨⟨_, rfl⟩, ms, rfl⟩⟩

end

/-! ## Of a user whose name has not been screened -/

/-- The user's profile meets `I`, and no screening has been logged since `log`. -/
structure Unscreened (userId : String) (I : KycProfileRecord → Prop) (log : List KycAuditLogEntry)
    (s : Store) : Prop where
  profile : ∃ r, s.profileOf userId = some r ∧ I r
  screenings : ∀ e ∈ s.kycAuditLog.rows, e.eventType = .SANCTIONS_SCREENING → e ∈ log

namespace Unscreened

variable {i : PId} {userId id : String} {I : KycProfileRecord → Prop} {log : List KycAuditLogEntry} {s s' : Store}

theorem passes (h : Unscreened userId I log s) (hs : TimePasses s s') : Unscreened userId I log s' := by
  obtain ⟨ms, rfl⟩ := hs
  exact ⟨h.profile, h.screenings⟩

/-- The row of the user is the row of its id. -/
theorem stored {r : KycProfileRecord} (h : s.profileOf userId = some r) : s.kycProfiles.find? r.id = some r :=
  Table.find?_of_mem (List.mem_of_find?_eq_some h)

theorem put (h : Unscreened userId I log s) (hI : ∀ r, I r → r.id = id ∧ r.userId = userId)
    {data : KycProfileRecord}
    (hdata : I data) : Unscreened userId I log { s with kycProfiles := s.kycProfiles.put data } := by
  obtain ⟨r, hr, hIr⟩ := h.profile
  have hid : r.id = data.id := (hI r hIr).1.trans (hI data hdata).1.symm
  have hfind : s.kycProfiles.find? data.id = some r := hid ▸ stored hr
  exact ⟨⟨data, Table.find?_put_where hfind hr (decide_eq_true (hI data hdata).2), hdata⟩, h.screenings⟩

theorem reads {ε α : Type} {p : Prog Op.Res Err ε α} (hp : p.Calls fun op => op.writes = false) :
    Upholds anySchedule TimePasses i (Unscreened userId I log) p where
  returns h hr := h.passes (passes_of_calls hp hr)
  throws h hr := h.passes (passes_of_calls hp hr)

theorem save (hI : ∀ r, I r → r.id = id ∧ r.userId = userId) {p : KycProfile} (hv : 0 < p.version)
    (hp : I (KycProfileMapper.toPersistence p)) :
    Upholds anySchedule TimePasses i (Unscreened userId I log) (PrismaKycProfileRepository.save p) where
  returns h hr := by
    obtain ⟨-, -, -, ⟨⟨_, he⟩, -⟩ | ⟨-, -, hs⟩⟩ := save_run hv hr
    · cases he
    · exact (h.put hI hp).passes hs
  throws h hr := by
    obtain ⟨-, -, -, ⟨-, hs⟩ | ⟨he, -⟩⟩ := save_run hv hr
    · exact h.passes hs
    · cases he

/-- Whatever is logged but a screening. -/
theorem saveEntry {entry : String → KycAuditLogEntry}
    (hentry : ∀ id, (entry id).eventType ≠ .SANCTIONS_SCREENING) :
    Upholds anySchedule TimePasses i (Unscreened userId I log) (saveEntry entry) := by
  refine Upholds.bind (reads (Prog.Calls.await rfl)) fun id => ?_
  refine Triple.await (fun hs h => h.passes hs) (fun h _ hx => ?_) fun h _ hx => ?_
  · obtain ⟨-, rfl⟩ := exec_createEntry hx
    refine ⟨h.profile, fun e he htype => ?_⟩
    rcases (Table.mem_put _ _ _).1 he with rfl | ⟨he, -⟩
    · exact absurd htype (hentry id)
    · exact h.screenings e he htype
  · exact exec_error hx ▸ h

theorem recordDomainEvents : ∀ events, Upholds anySchedule TimePasses i (Unscreened userId I log)
    (KycAuditRecorderService.recordDomainEvents events)
  | [] => .pure
  | event :: events => by
    refine Upholds.bind ?_ fun _ => recordDomainEvents events
    unfold KycAuditRecorderService.recordDomainEvent
    split
    · rename_i entry hentry
      refine saveEntry fun id htype => ?_
      cases event with
      | verificationPassed | verificationFailed | tierUpgraded =>
        cases hentry
        cases htype
      | _ => cases hentry
    · exact .pure

theorem publishAll (events : List KycEvent) :
    Upholds anySchedule TimePasses i (Unscreened userId I log) (publishAll events) :=
  reads (publishAll_calls (T := fun op => op.writes = false) (fun _ => rfl) events)

/-- Nobody waits for an event. -/
theorem publishAll_unfailing : ∀ events, (Compliance.publishAll events).Unfailing
  | [] => trivial
  | _ :: events => .bind (.await _) fun _ => publishAll_unfailing events

theorem publishAll_returns {R : Err → Store → Prop} (events : List KycEvent) :
    Triple anySchedule TimePasses i (fun _ => True) (Compliance.publishAll events) (fun _ _ => True) R := by
  have hcalls := publishAll_calls (T := fun op => op.fallible = false) (fun _ => rfl) events
  refine Triple.mono (Triple.of_calls_unfailing hcalls (publishAll_unfailing events) (Prog.returns_true _)
    (fun _ _ => trivial) fun _ hop _ hx => ⟨trivial, exec_infallible hop hx⟩) (fun _ h => h) (fun _ _ _ => trivial)
    fun _ _ h => h.elim

/-- An entry that could not be saved. -/
theorem saveEntry_refused (entry : String → KycAuditLogEntry) :
    Triple anySchedule TimePasses i (Unscreened userId I log) (Compliance.saveEntry entry) (fun _ _ => True)
      fun _ => Unscreened userId I log := by
  refine Triple.bind (reads (Prog.Calls.await rfl)) fun id => ?_
  exact Triple.await (fun hs h => h.passes hs) (fun _ _ _ => trivial) fun h _ hx => exec_error hx ▸ h

/-- **A screening that throws has logged nothing of itself.** -/
theorem screenAndFlag {services : Services} (hI : ∀ r, I r → r.id = id ∧ r.userId = userId) {p : KycProfile}
    (hv : 0 < p.version)
    (hp : ∀ now summary, I (KycProfileMapper.toPersistence (p.flagForSanctionsReview now summary)))
    (fullName : String) : Triple anySchedule TimePasses i (Unscreened userId I log)
      (SanctionsScreeningService.screenAndFlag services p fullName) (fun _ _ => True)
      fun _ => Unscreened userId I log := by
  unfold SanctionsScreeningService.screenAndFlag
  refine Triple.bind (reads (OfacSanctionsScreeningProvider.screen_calls
    (T := fun op => op.writes = false) rfl fullName))
    fun found => ?_
  show Triple _ _ _ _ (if _ then _ else _) _ _
  split
  · exact Triple.bind (saveEntry_refused _) fun _ => .pure fun _ _ => trivial
  · refine Triple.bind (reads (Prog.Calls.await rfl)) fun now => ?_
    have hflagged : 0 < (p.flagForSanctionsReview now (SanctionsScreeningService.matchSummary found)).version := by
      unfold KycProfile.flagForSanctionsReview
      split
      · exact hv
      · exact Nat.succ_pos p.version
    refine Triple.bind (save hI hflagged (hp now _)) fun _ => ?_
    refine Triple.bind (saveEntry_refused _) fun _ => ?_
    exact Triple.bind (publishAll_returns _) fun _ => .pure fun _ _ => trivial

end Unscreened

/-! ## What a run has looked up -/

section
variable {services : Services} {type : VerificationType} {i : PId} {userId rawNumber : String} {s s' : Store}
  {tr : List Call}

theorem findById_run {user : Identity.User}
    (h : Run anySchedule TimePasses i (PrismaUserRepository.findById services userId) s tr (.ok (some user)) s') :
    ∃ row, s.users.find? userId = some row ∧ Identity.UserMapper.toDomain services.identity row = .ok user := by
  unfold PrismaUserRepository.findById at h
  obtain ⟨s1, a, r, s2, rest, ⟨ms, rfl⟩, -, hx, rfl,
    ⟨found, rfl, hend⟩ | ⟨e, rfl, rfl, hend, rfl⟩⟩ := h.await_bind
  · have hfound := exec_findUser hx
    cases found with
    | none => exact nomatch hend.2.1
    | some row =>
      rcases hend.ofExcept_bind with ⟨user', huser, hend⟩ | ⟨e, -, -, he, -⟩
      · obtain ⟨-, he, -⟩ := hend
        cases he
        exact ⟨row, hfound.symm, huser⟩
      · cases he
  · cases hend

theorem findByUserId_run {p : KycProfile}
    (h : Run anySchedule TimePasses i (PrismaKycProfileRepository.findByUserId userId) s tr (.ok (some p)) s') :
    ∃ r, s.profileOf userId = some r ∧ p = KycProfileMapper.toDomain r := by
  unfold PrismaKycProfileRepository.findByUserId at h
  obtain ⟨s1, a, r, s2, rest, ⟨ms, rfl⟩, -, hx, rfl,
    ⟨found, rfl, hend⟩ | ⟨e, rfl, rfl, hend, rfl⟩⟩ := h.await_bind
  · obtain ⟨hfound, -⟩ := exec_findProfile hx
    obtain ⟨-, he, -⟩ := hend
    obtain ⟨r, hr, rfl⟩ := Option.map_eq_some_iff.1 (Except.ok.inj he).symm
    exact ⟨r, hfound.symm.trans hr, rfl⟩
  · cases hend

theorem verifyNumber_run {number : Identifier} {user : Identity.User} {result : IdentityVerificationResult}
    (h : Run anySchedule TimePasses i (FlutterwaveIdentityVerificationProvider.verify services type number user) s tr
      (.ok result) s') :
    ∃ response, tr.findSome? response? = some response ∧
      FlutterwaveIdentityVerificationProvider.judge services user.firstName user.lastName response = .ok result := by
  unfold FlutterwaveIdentityVerificationProvider.verify at h
  obtain ⟨s1, a, r, s2, rest, -, -, -, rfl, ⟨response, rfl, hend⟩ | ⟨e, rfl, rfl, hend, rfl⟩⟩ :=
    h.await_bind
  · exact ⟨response, rfl, hend.ofExcept.2.1.symm⟩
  · cases hend

theorem lookUp_reads : (lookUp services type userId rawNumber).Calls fun op => op.writes = false := by
  refine .bind (PrismaUserRepository.findById_calls (fun _ => rfl) userId) fun user => ?_
  cases user with
  | none => trivial
  | some user =>
    refine .bind (.bind (.await rfl) fun _ => trivial) fun profile => ?_
    cases profile with
    | none => trivial
    | some profile =>
      refine .bind (.ofExcept _) fun number => ?_
      exact .bind (FlutterwaveIdentityVerificationProvider.verify_calls (fun _ _ => rfl) type number user)
        fun _ => trivial

theorem response?_of_reads {ε α : Type} {p : Prog Op.Res Err ε α} {x : Except ε α}
    (hp : p.Calls fun op => ∀ type number, op ≠ .resolve type number)
    (h : Run anySchedule TimePasses i p s tr x s') :
    tr.findSome? response? = none := by
  refine List.findSome?_eq_none_iff.2 fun call hcall => ?_
  have hop := h.calls hp call hcall
  unfold response?
  split
  · exact absurd rfl (hop _ _)
  · rfl

/-- A look-up that returns: the user and the profile are the stored ones, and the provider has been asked. -/
theorem lookUp_run {found : Identity.User × KycProfile × Identifier × IdentityVerificationResult}
    (h : Run anySchedule TimePasses i (lookUp services type userId rawNumber) s tr (.ok found) s') :
    ∃ row r response, s.users.find? userId = some row ∧
      Identity.UserMapper.toDomain services.identity row = .ok found.1 ∧ s.profileOf userId = some r ∧
      found.2.1 = KycProfileMapper.toDomain r ∧ tr.findSome? response? = some response ∧
      FlutterwaveIdentityVerificationProvider.judge services found.1.firstName found.1.lastName response =
        .ok found.2.2.2 := by
  unfold lookUp at h
  rcases h.bind with ⟨user, s1, tr1, tr2, h1, h, rfl⟩ | ⟨e, he, -⟩
  swap
  · cases he
  have hfindById : (PrismaUserRepository.findById services userId).Calls fun op => op.writes = false :=
    PrismaUserRepository.findById_calls (fun _ => rfl) userId
  have hs1 := passes_of_calls hfindById h1
  have htr1 := response?_of_reads (PrismaUserRepository.findById_calls (fun _ _ _ hop => nomatch hop) userId) h1
  cases user with
  | none => exact nomatch h.2.1
  | some user =>
    obtain ⟨row, hrow, huser⟩ := findById_run h1
    rcases h.bind with ⟨profile, s2, tr3, tr4, h3, h, rfl⟩ | ⟨e, he, -⟩
    swap
    · cases he
    have hfindByUserId : (PrismaKycProfileRepository.findByUserId userId).Calls
        fun op => ∀ type number, op ≠ .resolve type number :=
      .bind (.await fun type number hop => by cases hop) fun _ => trivial
    have htr3 := response?_of_reads hfindByUserId h3
    cases profile with
    | none => exact nomatch h.2.1
    | some profile =>
      obtain ⟨r, hr, rfl⟩ := findByUserId_run h3
      rw [profileOf_passes hs1] at hr
      rcases h.ofExcept_bind with ⟨number, -, h⟩ | ⟨e, -, -, he, -⟩
      swap
      · cases he
      rcases h.bind with ⟨result, s3, tr5, tr6, h5, ⟨rfl, he, rfl⟩, rfl⟩ | ⟨e, he, -⟩
      swap
      · cases he
      cases he
      obtain ⟨response, hresponse, hjudge⟩ := verifyNumber_run h5
      refine ⟨row, r, response, hrow, huser, hr, rfl, ?_, hjudge⟩
      rw [List.findSome?_append, htr1, List.findSome?_append, htr3, List.append_nil, hresponse]
      rfl

/-- The names differ where the look-up says so. -/
theorem nameDiffers_iff {found : Identity.User × KycProfile × Identifier × IdentityVerificationResult}
    {tr' : List Call}
    (h : Run anySchedule TimePasses i (lookUp services type userId rawNumber) s tr (.ok found) s') :
    NameDiffers services userId s (tr ++ tr') ↔ found.2.2.2.matched = false := by
  obtain ⟨row, r, response, hrow, huser, -, -, hresponse, hjudge⟩ := lookUp_run h
  have hresponse' : (tr ++ tr').findSome? response? = some response := by
    rw [List.findSome?_append, hresponse]
    rfl
  constructor
  · rintro ⟨row', user', response', result', hrow', huser', hresponse'', hjudge', hdiffers⟩
    cases hrow.symm.trans hrow'
    cases huser.symm.trans huser'
    cases hresponse'.symm.trans hresponse''
    cases hjudge.symm.trans hjudge'
    exact hdiffers
  · exact fun hdiffers => ⟨row, found.1, response, found.2.2.2, hrow, huser, hresponse', hjudge, hdiffers⟩

end

/-! ## What has been verified, and saved -/

/-- The profile `id`, verified. -/
def VerifiedAs (id userId : String) (type : VerificationType) (r : KycProfileRecord) : Prop :=
  (r.id = id ∧ r.userId = userId) ∧ (r.verifiedAt type).isSome = true

/-- The user's profile has been verified, and its name not screened. -/
def Orphaned (userId : String) (type : VerificationType) (s s' : Store) : Prop :=
  ∃ r, s.profileOf userId = some r ∧ r.verifiedAt type = none ∧
    Unscreened userId (VerifiedAs r.id userId type) s.kycAuditLog.rows s'

section
variable {type : VerificationType} {p p' : KycProfile} {now : Nat} {hash masked : String}

theorem recordVerified_ok (h : recordVerified type p now hash masked = .ok p') :
    (KycProfileMapper.toPersistence p).verifiedAt type = none ∧
      VerifiedAs p.id p.userId type (KycProfileMapper.toPersistence p') ∧ 0 < p'.version ∧
      ∃ events, p'.domainEvents = p.domainEvents ++ .verificationPassed p.id p.userId type :: events := by
  cases type with
  | BVN =>
    simp only [recordVerified, KycProfile.recordBvnVerified] at h
    split at h
    · cases h
    · rename_i hnew
      cases h
      refine ⟨?_, ⟨⟨?_, ?_⟩, ?_⟩, ?_, ?_⟩
      · show p.bvnVerifiedAt = none
        simpa using hnew
      · show (ite _ _ _ : KycProfile).id = p.id
        split <;> rfl
      · show (ite _ _ _ : KycProfile).userId = p.userId
        split <;> rfl
      · show (ite _ _ _ : KycProfile).bvnVerifiedAt.isSome = true
        split <;> rfl
      · split <;> exact Nat.succ_pos p.version
      · split
        · exact ⟨_, List.append_assoc _ _ _⟩
        · exact ⟨[], rfl⟩
  | NIN =>
    simp only [recordVerified, KycProfile.recordNinVerified] at h
    split at h
    · cases h
    · rename_i hnew
      cases h
      refine ⟨?_, ⟨⟨?_, ?_⟩, ?_⟩, ?_, ?_⟩
      · show p.ninVerifiedAt = none
        simpa using hnew
      · show (ite _ _ _ : KycProfile).id = p.id
        split <;> rfl
      · show (ite _ _ _ : KycProfile).userId = p.userId
        split <;> rfl
      · show (ite _ _ _ : KycProfile).ninVerifiedAt.isSome = true
        split <;> rfl
      · split <;> exact Nat.succ_pos p.version
      · split
        · exact ⟨_, List.append_assoc _ _ _⟩
        · exact ⟨[], rfl⟩

theorem VerifiedAs.flagForSanctionsReview {id userId : String}
    (h : VerifiedAs id userId type (KycProfileMapper.toPersistence p))
    (now : Nat) (summary : String) :
    VerifiedAs id userId type (KycProfileMapper.toPersistence (p.flagForSanctionsReview now summary)) := by
  unfold KycProfile.flagForSanctionsReview
  split
  · exact h
  · cases type <;> exact h

end

section
variable {services : Services} {type : VerificationType} {i : PId} {s s' : Store} {tr tr' : List Call}

theorem noneAfterSave_append (h : ∀ call ∈ tr, call.op.savedProfile? = none) :
    NoneAfterSave (tr ++ tr') ↔ NoneAfterSave tr' := by
  unfold NoneAfterSave
  cases tr' with
  | nil => simpa using fun call hcall => h call (List.dropLast_subset tr hcall)
  | cons call' tr' =>
    rw [List.dropLast_append_of_ne_nil (List.cons_ne_nil _ _)]
    constructor
    · exact fun hall call hcall => hall call (List.mem_append_right tr hcall)
    · intro hlater call hcall
      rcases List.mem_append.1 hcall with hcall | hcall
      · exact h call hcall
      · exact hlater call hcall

/-- Up to its save a verification changes nothing. -/
theorem verify_run {p : KycProfile} {number : Identifier} {x : Except Err KycProfile}
    (h : Run anySchedule TimePasses i (verify services type p number) s tr x s') :
    (∃ e, x = .error e) ∧ TimePasses s s' ∧ NoneAfterSave tr ∨
      ∃ now hash masked p', x = .ok p' ∧ recordVerified type p now hash masked = .ok p' ∧
        (∃ call ∈ tr, call.op.savedProfile? = some (KycProfileMapper.toPersistence p')) ∧
        TimePasses { s with kycProfiles := s.kycProfiles.put (KycProfileMapper.toPersistence p') } s' := by
  unfold verify at h
  rcases h.ofExcept_bind with ⟨hash, -, h⟩ | ⟨e, -, rfl, rfl, rfl⟩
  swap
  · exact .inl ⟨⟨e, rfl⟩, TimePasses.refl _, fun _ hcall => nomatch hcall⟩
  obtain ⟨s1, a, r, s2, rest, hpass, -, hx, rfl, hend⟩ := h.await_bind
  obtain rfl := exec_read rfl hx
  rcases hend with ⟨now, rfl, hend⟩ | ⟨e, rfl, rfl, rfl, rfl⟩
  swap
  · exact .inl ⟨⟨e, rfl⟩, hpass, fun _ hcall => nomatch hcall⟩
  rcases hend.ofExcept_bind with ⟨p', hp', hend⟩ | ⟨e, -, rfl, rfl, rfl⟩
  swap
  · exact .inl ⟨⟨e, rfl⟩, hpass, fun _ hcall => nomatch hcall⟩
  have hv := (recordVerified_ok hp').2.2.1
  have hnone : ∀ {call : Call}, NoneAfterSave [⟨.dateNow, .ok now, s2, s2⟩, call] := by
    intro call _ hcall
    obtain rfl := List.mem_singleton.1 hcall
    rfl
  rcases hend.bind with ⟨_, s3, tr1, tr2, hsave, ⟨rfl, rfl, rfl⟩, rfl⟩ | ⟨e, rfl, hsave⟩
  · obtain ⟨call, rfl, hcall, ⟨⟨e, he⟩, -⟩ | ⟨-, -, hs⟩⟩ := save_run hv hsave
    · cases he
    · obtain ⟨ms, rfl⟩ := hpass
      refine .inr ⟨now, hash, _, p', rfl, hp', ⟨call, by simp, hcall⟩, TimePasses.trans ⟨ms, ?_⟩ hs⟩
      rfl
  · obtain ⟨call, rfl, -, ⟨-, hs⟩ | ⟨he, -⟩⟩ := save_run hv hsave
    · exact .inl ⟨⟨e, rfl⟩, hpass.trans hs, hnone⟩
    · cases he

end

/-! ## What is left when a handler throws -/

section
variable {services : Services} {type : VerificationType} {i : PId} {userId id : String} {I : KycProfileRecord → Prop}
  {log : List KycAuditLogEntry} {s s' : Store} {tr : List Call} {e : Err}

/-- A failed attempt is recorded, and logged. -/
theorem Unscreened.refuse (hI : ∀ r, I r → r.id = id ∧ r.userId = userId) {p : KycProfile}
    (hp : ∀ reason, I (KycProfileMapper.toPersistence (p.recordVerificationFailed type reason))) :
    Upholds anySchedule TimePasses i (Unscreened userId I log) (refuse type p) := by
  refine Upholds.bind (Unscreened.save hI (Nat.succ_pos p.version) (hp _)) fun _ => ?_
  refine Upholds.bind (Unscreened.recordDomainEvents _) fun _ => ?_
  exact Upholds.bind (Unscreened.publishAll _) fun _ => .throw

theorem verifiedAs_ids (r : KycProfileRecord) (h : VerifiedAs id userId type r) : r.id = id ∧ r.userId = userId := h.1

theorem conclude_throws {p : KycProfile} (hp : VerifiedAs id userId type (KycProfileMapper.toPersistence p))
    (hv : 0 < p.version) (fullName : String) :
    Triple anySchedule TimePasses i (Unscreened userId (VerifiedAs id userId type) log)
      (conclude services p fullName) (fun _ _ => True) fun _ => Unscreened userId (VerifiedAs id userId type) log := by
  refine Triple.bind (Unscreened.recordDomainEvents _) fun _ => ?_
  refine Triple.bind (Unscreened.publishAll _) fun _ => ?_
  refine Triple.bind (Unscreened.screenAndFlag (p := pulled p) verifiedAs_ids hv ?_ fullName) fun _ =>
    .pure fun _ _ => trivial
  exact fun now summary => VerifiedAs.flagForSanctionsReview (p := pulled p) hp now summary

theorem concludeOverride_throws {p : KycProfile} (hp : VerifiedAs id userId type (KycProfileMapper.toPersistence p))
    (hv : 0 < p.version) (staffUserId targetUserId notes fullName : String) :
    Triple anySchedule TimePasses i (Unscreened userId (VerifiedAs id userId type) log)
      (concludeOverride services type staffUserId targetUserId notes p fullName) (fun _ _ => True)
      fun _ => Unscreened userId (VerifiedAs id userId type) log := by
  refine Triple.bind (Unscreened.saveEntry fun id htype => by cases htype) fun _ => ?_
  refine Triple.bind (Unscreened.recordDomainEvents _) fun _ => ?_
  refine Triple.bind (Unscreened.publishAll _) fun _ => ?_
  refine Triple.bind (Unscreened.screenAndFlag (p := pulled p) verifiedAs_ids hv ?_ fullName) fun _ =>
    .pure fun _ _ => trivial
  exact fun now summary => VerifiedAs.flagForSanctionsReview (p := pulled p) hp now summary

/-- The pass that it has to record makes the first call. -/
theorem conclude_calls {p : KycProfile} {a u : String} {events : List KycEvent} {fullName : String}
    (hp : p.domainEvents = .verificationPassed a u type :: events) :
    ¬ Run anySchedule TimePasses i (conclude services p fullName) s [] (.error e) s' := by
  unfold conclude
  rw [hp]
  rintro ⟨_, _, _, _, _, -, -, -, htr, -⟩
  cases htr

theorem concludeOverride_calls {p : KycProfile} {staffUserId targetUserId notes fullName : String} :
    ¬ Run anySchedule TimePasses i (concludeOverride services type staffUserId targetUserId notes p fullName) s []
      (.error e) s' := by
  rintro ⟨_, _, _, _, _, -, -, -, htr, -⟩
  cases htr

/-- **Before its save a verification leaves all as it was; after it, the name unscreened.** -/
theorem verified_thrown {r : KycProfileRecord} {number : Identifier}
    {tail : KycProfile → Handler KycStatusResponseDto}
    (hr : s.profileOf userId = some r)
    (htail : ∀ {p}, VerifiedAs r.id userId type (KycProfileMapper.toPersistence p) → 0 < p.version →
      Triple anySchedule TimePasses i (Unscreened userId (VerifiedAs r.id userId type) s.kycAuditLog.rows) (tail p)
        (fun _ _ => True) fun _ => Unscreened userId (VerifiedAs r.id userId type) s.kycAuditLog.rows)
    (hcalls : ∀ {p a u events s1}, p.domainEvents = .verificationPassed a u type :: events →
      ¬ Run anySchedule TimePasses i (tail p) s1 [] (.error e) s')
    (h : Run anySchedule TimePasses i (verify services type (KycProfileMapper.toDomain r) number >>= tail) s tr
      (.error e) s') :
    Unchanged userId s s' ∧ NoneAfterSave tr ∨ ¬ NoneAfterSave tr ∧ Orphaned userId type s s' := by
  rcases h.bind with ⟨p, s1, tr1, tr2, hverify, hend, rfl⟩ | ⟨e', -, hverify⟩
  · obtain ⟨⟨e', he⟩, -⟩ | ⟨now, hash, masked, p', he, hp', ⟨call, hcall, hsaved⟩, hs⟩ :=
      verify_run hverify
    · cases he
    · cases he
      obtain ⟨hnew, hverified, hv, events, hevents⟩ := recordVerified_ok hp'
      have huser : r.userId = userId := by simpa using List.find?_some hr
      change VerifiedAs r.id r.userId type _ at hverified
      rw [huser] at hverified
      have hid : (KycProfileMapper.toPersistence p).id = r.id := hverified.1.1
      have hstored : ({ s with kycProfiles := s.kycProfiles.put (KycProfileMapper.toPersistence p) } :
        Store).profileOf userId =
          some (KycProfileMapper.toPersistence p) :=
        Table.find?_put_where (hid ▸ Unscreened.stored hr) hr (decide_eq_true hverified.1.2)
      have hsave : Unscreened userId (VerifiedAs r.id userId type) s.kycAuditLog.rows s1 :=
        Unscreened.passes ⟨⟨_, hstored, hverified⟩, fun _ he _ => he⟩ hs
      refine .inr ⟨fun hnone => ?_, r, hr, hnew, (htail hverified hv).throws hsave hend⟩
      have htr2 : tr2 ≠ [] := by
        rintro rfl
        exact hcalls hevents hend
      have hmem : call ∈ (tr1 ++ tr2).dropLast := by
        rw [List.dropLast_append_of_ne_nil htr2]
        exact List.mem_append_left _ hcall
      exact nomatch hsaved.symm.trans (hnone call hmem)
  · obtain ⟨-, hs, hnone⟩ | ⟨_, _, _, _, he, -⟩ := verify_run hverify
    · exact .inl ⟨congrArg _ (profileOf_passes hs userId), hnone⟩
    · cases he

theorem reads_unsaved {ε α : Type} {p : Prog Op.Res Err ε α} {x : Except ε α}
    (hp : p.Calls fun op => op.writes = false)
    (h : Run anySchedule TimePasses i p s tr x s') : ∀ call ∈ tr, call.op.savedProfile? = none := by
  intro call hcall
  have hop := h.calls hp call hcall
  unfold Op.savedProfile?
  split
  · rename_i heq
    rw [heq] at hop
    cases hop
  · rfl

theorem Orphaned.passes {s1 : Store} (h : Orphaned userId type s1 s') (hs : TimePasses s s1) :
    Orphaned userId type s s' := by
  obtain ⟨ms, rfl⟩ := hs
  exact h

theorem Unchanged.passes {s1 : Store} (h : Unchanged userId s1 s') (hs : TimePasses s s1) : Unchanged userId s s' := by
  obtain ⟨ms, rfl⟩ := hs
  exact h

variable {rawNumber : String}

/-- A look-up that throws has written nothing. -/
theorem lookUp_thrown (h : Run anySchedule TimePasses i (lookUp services type userId rawNumber) s tr (.error e) s') :
    Unchanged userId s s' ∧ NoneAfterSave tr :=
  ⟨congrArg _ (profileOf_passes (passes_of_calls lookUp_reads h) userId),
    fun call hcall => reads_unsaved lookUp_reads h call (List.dropLast_subset _ hcall)⟩

/-- **How a manual override leaves a profile when it throws.** -/
theorem manuallyVerify_thrown {staffUserId reason : String}
    (h : Run anySchedule TimePasses i (manuallyVerify services type staffUserId userId rawNumber reason) s tr
      (.error e) s') :
    Unchanged userId s s' ∧ NoneAfterSave tr ∨ ¬ NoneAfterSave tr ∧ Orphaned userId type s s' := by
  unfold manuallyVerify at h
  rcases h.bind with ⟨⟨user, p, number, result⟩, s1, tr1, tr2, hlook, hend, rfl⟩ | ⟨e', -, hlook⟩
  swap
  · exact .inl (lookUp_thrown hlook)
  obtain ⟨row, r, response, -, -, hr, hp, -, -⟩ := lookUp_run hlook
  obtain rfl : p = KycProfileMapper.toDomain r := hp
  have hs := passes_of_calls lookUp_reads hlook
  rw [noneAfterSave_append (reads_unsaved lookUp_reads hlook)]
  have hthrown : Unchanged userId s1 s' ∧ NoneAfterSave tr2 ∨ ¬ NoneAfterSave tr2 ∧ Orphaned userId type s1 s' :=
    verified_thrown ((profileOf_passes hs userId).trans hr) (fun hp hv => concludeOverride_throws hp hv _ _ _ _)
      (fun _ => concludeOverride_calls) hend
  rcases hthrown with ⟨hsame, hnone⟩ | ⟨hnone, horphaned⟩
  · exact .inl ⟨hsame.passes hs, hnone⟩
  · exact .inr ⟨hnone, horphaned.passes hs⟩

/-- **How a submission leaves a profile when it throws**: one that is refused leaves all as it was. -/
theorem submit_thrown (h : Run anySchedule TimePasses i (submit services type userId rawNumber) s tr (.error e) s') :
    Unchanged userId s s' ∧ (NameDiffers services userId s tr ∨ NoneAfterSave tr) ∨
      (¬ NameDiffers services userId s tr ∧ ¬ NoneAfterSave tr) ∧ Orphaned userId type s s' := by
  unfold submit at h
  rcases h.bind with ⟨⟨user, p, number, result⟩, s1, tr1, tr2, hlook, hend, rfl⟩ | ⟨e', -, hlook⟩
  swap
  · obtain ⟨hsame, hnone⟩ := lookUp_thrown hlook
    exact .inl ⟨hsame, .inr hnone⟩
  obtain ⟨row, r, response, -, -, hr, hp, -, -⟩ := lookUp_run hlook
  obtain rfl : p = KycProfileMapper.toDomain r := hp
  have hs := passes_of_calls lookUp_reads hlook
  have hname : NameDiffers services userId s (tr1 ++ tr2) ↔ result.matched = false := nameDiffers_iff hlook
  have hr1 := (profileOf_passes hs userId).trans hr
  rw [noneAfterSave_append (reads_unsaved lookUp_reads hlook)]
  by_cases hmatched : result.matched = true
  · have hname : ¬ NameDiffers services userId s (tr1 ++ tr2) := by
      rw [hname, hmatched]
      exact Bool.true_eq_false.mp
    simp only [hmatched, Bool.not_true, Bool.false_eq_true, if_false] at hend
    rcases verified_thrown hr1 (fun hp hv => conclude_throws hp hv _) (fun hp => conclude_calls hp) hend with
      ⟨hsame, hnone⟩ | ⟨hnone, horphaned⟩
    · exact .inl ⟨hsame.passes hs, .inr hnone⟩
    · exact .inr ⟨⟨hname, hnone⟩, horphaned.passes hs⟩
  · have hdiffers : result.matched = false := by simpa using hmatched
    simp only [hdiffers, Bool.not_false, if_true] at hend
    have hids : ∀ r' : KycProfileRecord, r'.unversioned = r.unversioned → r'.id = r.id ∧ r'.userId = userId := by
      intro r' h'
      have hid : r'.unversioned.id = r.unversioned.id := congrArg _ h'
      have huserId : r'.unversioned.userId = r.unversioned.userId := congrArg _ h'
      have huser : r.userId = userId := by simpa using List.find?_some hr
      exact ⟨hid, huserId.trans huser⟩
    have hstart : Unscreened userId (fun r' => r'.unversioned = r.unversioned) s1.kycAuditLog.rows s1 :=
      ⟨⟨r, hr1, rfl⟩, fun _ he _ => he⟩
    obtain ⟨⟨r', hr', hsame⟩, -⟩ :=
      (Unscreened.refuse (p := KycProfileMapper.toDomain r) hids fun _ => rfl).run hend hstart
    refine .inl ⟨?_, .inl (hname.2 hdiffers)⟩
    unfold Unchanged
    rw [hr', hr, Option.map_some, Option.map_some, hsame]

/-- How any of the four leaves a profile when it throws. -/
theorem thrown_cases {command : VerificationCommand}
    (h : Run anySchedule TimePasses i (command.program services) s tr (.error e) s') :
    Unchanged command.userId s s' ∧ Recoverable services command s tr ∨
      ¬ Recoverable services command s tr ∧ Orphaned command.userId command.type s s' := by
  have hsubmission : command.isSubmission = true →
      (Unchanged command.userId s s' ∧ (NameDiffers services command.userId s tr ∨ NoneAfterSave tr) ∨
        (¬ NameDiffers services command.userId s tr ∧ ¬ NoneAfterSave tr) ∧
          Orphaned command.userId command.type s s') →
      Unchanged command.userId s s' ∧ Recoverable services command s tr ∨
        ¬ Recoverable services command s tr ∧ Orphaned command.userId command.type s s' := by
    rintro hsub (⟨hsame, hname | hnone⟩ | ⟨⟨hname, hnone⟩, horphaned⟩)
    · exact .inl ⟨hsame, .inl ⟨hsub, hname⟩⟩
    · exact .inl ⟨hsame, .inr hnone⟩
    · exact .inr ⟨not_or.2 ⟨fun hdiffers => hname hdiffers.2, hnone⟩, horphaned⟩
  have hoverride : command.isSubmission = false →
      (Unchanged command.userId s s' ∧ NoneAfterSave tr ∨
        ¬ NoneAfterSave tr ∧ Orphaned command.userId command.type s s') →
      Unchanged command.userId s s' ∧ Recoverable services command s tr ∨
        ¬ Recoverable services command s tr ∧ Orphaned command.userId command.type s s' := by
    rintro hsub (⟨hsame, hnone⟩ | ⟨hnone, horphaned⟩)
    · exact .inl ⟨hsame, .inr hnone⟩
    · refine .inr ⟨not_or.2 ⟨fun hdiffers => ?_, hnone⟩, horphaned⟩
      exact Bool.false_ne_true (hsub.symm.trans hdiffers.1)
  cases command with
  | submitBvn command => exact hsubmission rfl (submit_thrown h)
  | submitNin command => exact hsubmission rfl (submit_thrown h)
  | manuallyVerifyBvn command => exact hoverride rfl (manuallyVerify_thrown h)
  | manuallyVerifyNin command => exact hoverride rfl (manuallyVerify_thrown h)

/-! ## Retrying -/

theorem recordVerified_again {p : KycProfile} {now : Nat} {hash masked : String}
    (h : VerifiedAs id userId type (KycProfileMapper.toPersistence p)) :
    recordVerified type p now hash masked = .error (verificationAlreadyPassed type) := by
  cases type with
  | BVN => exact if_pos h.2
  | NIN => exact if_pos h.2

/-- What a retry loads has been verified. -/
theorem lookUp_again : Triple anySchedule TimePasses i (Unscreened userId (VerifiedAs id userId type) log)
    (lookUp services type userId rawNumber)
    (fun found s => VerifiedAs id userId type (KycProfileMapper.toPersistence found.2.1) ∧
      Unscreened userId (VerifiedAs id userId type) log s)
    fun _ => Unscreened userId (VerifiedAs id userId type) log where
  returns h hr := by
    refine ⟨?_, h.passes (passes_of_calls lookUp_reads hr)⟩
    obtain ⟨row, r, response, -, -, hfound, hp, -, -⟩ := lookUp_run hr
    obtain ⟨r', hr', hverified⟩ := h.profile
    cases hfound.symm.trans hr'
    rw [hp]
    exact hverified
  throws h hr := h.passes (passes_of_calls lookUp_reads hr)

/-- A profile that is verified is not verified again. -/
theorem verify_again {p : KycProfile} {number : Identifier}
    (hp : VerifiedAs id userId type (KycProfileMapper.toPersistence p)) :
    Triple anySchedule TimePasses i (Unscreened userId (VerifiedAs id userId type) log) (verify services type p number)
      (fun _ _ => False) fun _ => Unscreened userId (VerifiedAs id userId type) log := by
  refine .ofExcept_bind (fun hash _ => ?_) fun _ _ _ h => h
  refine Triple.bind (Unscreened.reads (Prog.Calls.await rfl)) fun now => ?_
  refine .ofExcept_bind (fun p' hp' => ?_) fun _ _ _ h => h
  rw [recordVerified_again hp] at hp'
  cases hp'

/-- **A retry completes nothing.** -/
theorem Unscreened.retry {command : VerificationCommand} :
    Upholds anySchedule TimePasses i (Unscreened command.userId (VerifiedAs id command.userId command.type) log)
      (command.program services) := by
  have hsubmit : ∀ {type userId rawNumber}, Upholds anySchedule TimePasses i
      (Unscreened userId (VerifiedAs id userId type) log) (submit services type userId rawNumber) := by
    intro type userId rawNumber
    refine Triple.bind lookUp_again fun found => .of_and fun hp => ?_
    show Triple _ _ _ _ (if _ then _ else _) _ _
    split
    · exact Unscreened.refuse (p := found.2.1) verifiedAs_ids fun _ => by cases type <;> exact hp
    · exact Triple.bind (verify_again hp) fun _ => ⟨fun h => h.elim, fun h => h.elim⟩
  have hoverride : ∀ {type staffUserId userId rawNumber reason}, Upholds anySchedule TimePasses i
      (Unscreened userId (VerifiedAs id userId type) log)
      (manuallyVerify services type staffUserId userId rawNumber reason) := by
    intro type staffUserId userId rawNumber reason
    refine Triple.bind lookUp_again fun found => .of_and fun hp => ?_
    exact Triple.bind (verify_again hp) fun _ => ⟨fun h => h.elim, fun h => h.elim⟩
  cases command with
  | submitBvn command => exact hsubmit
  | submitNin command => exact hsubmit
  | manuallyVerifyBvn command => exact hoverride
  | manuallyVerifyNin command => exact hoverride

theorem Unscreened.retried {command : VerificationCommand}
    (h : Unscreened command.userId (VerifiedAs id command.userId command.type) log s) {s'' : Store}
    (hretried : Retried services command s s'') :
    Unscreened command.userId (VerifiedAs id command.userId command.type) log s'' :=
  Serves.invariant hretried (fun _ _ => Unscreened.retry) h

/-- What has been orphaned is accounted for by no retry. -/
theorem not_accounted {command : VerificationCommand} (h : Orphaned command.userId command.type s s') :
    ¬ Accounted services command s s' := by
  obtain ⟨r, hr, hnew, hunscreened⟩ := h
  rintro (hsame | ⟨s'', p, p', hretried, -, -, haudited⟩)
  · obtain ⟨r', hr', -, hverified⟩ := hunscreened.profile
    unfold Unchanged at hsame
    rw [hr, hr', Option.map_some, Option.map_some, Option.some.injEq] at hsame
    rw [← unversioned_verifiedAt, hsame, unversioned_verifiedAt, hnew] at hverified
    cases hverified
  · obtain ⟨e, ⟨hlogged, hnotyet⟩, -, htype⟩ := haudited.screening
    exact hnotyet ((hunscreened.retried hretried).screenings e hlogged htype)

end

/-- **A verification that throws is accounted for if and only if nothing was owed to the profile yet**: the call that
failed was the save itself or one before it, or the names did not match. -/
theorem accounted_iff_recoverable {services : Services} {command : VerificationCommand} {i : PId} {s s' : Store}
    {tr : List Call} {e : Err} (h : Run anySchedule TimePasses i (command.program services) s tr (.error e) s') :
    Accounted services command s s' ↔ Recoverable services command s tr := by
  rcases thrown_cases h with ⟨hsame, hrecoverable⟩ | ⟨hrecoverable, horphaned⟩
  · exact ⟨fun _ => hrecoverable, fun _ => .inl hsame⟩
  · exact ⟨fun haccounted => absurd haccounted (not_accounted horphaned), fun h => absurd h hrecoverable⟩

/-! ## A save that fails, and an entry that fails -/

def connectionLost : Err := .prismaKnown "P1017" "Server has closed the connection"

/-- Ada's BVN goes through; her profile is not saved. -/
theorem accounted_iff_recoverable_sample : ∃ tr s',
    Run anySchedule TimePasses 0 (sampleSubmission.program sampleServices) sampleStore tr (.error connectionLost) s' ∧
    Accounted sampleServices sampleSubmission sampleStore s' := by
  have hplay : (playRun anySchedule 0 [.ok, .ok, .resolved sampleResponse, .ok, .fail connectionLost]
      (sampleSubmission.program sampleServices) sampleStore).any fun r =>
        r.2.1 = .error connectionLost ∧ NoneAfterSave r.1 := by
    decide +kernel
  obtain ⟨tr, x, s', hrun, rfl, hnone⟩ := playRun_seen
    (Q := fun (tr : List Call) x (_ : Store) => x = .error connectionLost ∧ NoneAfterSave tr) hplay
  have h := run_of_play TimePasses.refl hrun
  exact ⟨tr, s', h, (accounted_iff_recoverable h).2 (.inr hnone)⟩

/-- Her profile is saved; the entry of her attempt is not. -/
theorem verified_and_unaudited : ∃ tr s',
    Run anySchedule TimePasses 0 (sampleSubmission.program sampleServices) sampleStore tr (.error connectionLost) s' ∧
    ¬ Accounted sampleServices sampleSubmission sampleStore s' := by
  have hplay : (playRun anySchedule 0
      [.ok, .ok, .resolved sampleResponse, .ok, .ok, .uuid "e-1", .fail connectionLost]
      (sampleSubmission.program sampleServices) sampleStore).any fun r =>
        r.2.1 = .error connectionLost ∧ (r.2.2.profileOf "ada").map (·.bvnVerifiedAt) = some (some 0) := by
    decide +kernel
  obtain ⟨tr, x, s', hrun, rfl, hverified⟩ := playRun_seen
    (Q := fun (_ : List Call) x (s' : Store) => x = .error connectionLost ∧
      (s'.profileOf "ada").map (·.bvnVerifiedAt) = some (some 0)) hplay
  have h := run_of_play TimePasses.refl hrun
  refine ⟨tr, s', h, ?_⟩
  rcases thrown_cases h with ⟨hsame, -⟩ | ⟨-, horphaned⟩
  · have hsame : (s'.profileOf "ada").map KycProfileRecord.unversioned =
        (sampleStore.profileOf "ada").map KycProfileRecord.unversioned := hsame
    have hat : ((s'.profileOf "ada").map KycProfileRecord.unversioned).map (·.bvnVerifiedAt) = some none := by
      rw [hsame]
      decide +kernel
    rw [Option.map_map] at hat
    exact nomatch hverified.symm.trans hat
  · exact not_accounted horphaned

end Kudi.Compliance
