import KudiCore.Interleave.Protocol
import KudiCore.Compliance.Handlers

/-!
# One number, one profile

| here | there |
| --- | --- |
| `ComplianceRequest` | what writes profiles: the four verification commands, the clearing of flags, registration |
| `SavedFrom` | what a program saves is what it has loaded, changed by one mutator |
| `Unclaimed` | the number that a command carries is not another profile's when its hash is saved |

No index and no query asks whose number a BVN or a NIN is. The version of a profile makes sure of the rest: a hash that
a profile has is never written back from a stale copy.
-/

namespace Kudi.Compliance

open Interleave Protocol

/-! ## The writers of profiles -/

inductive ComplianceRequest where
  | verify (command : VerificationCommand)
  | clearSanctionsFlag (command : ClearSanctionsFlagCommand)
  | userRegistered (aggregateId : String)
deriving DecidableEq

def ComplianceRequest.program (services : Services) : ComplianceRequest → Handler (Option KycStatusResponseDto)
  | .verify command => do
    let status ← command.program services
    return some status
  | .clearSanctionsFlag command => do
    let status ← ClearSanctionsFlagHandler.execute command
    return some status
  | .userRegistered aggregateId => do
    UserRegisteredHandler.handle aggregateId
    return none

/-- The number that it carries. -/
def ComplianceRequest.number? : ComplianceRequest → Option (VerificationType × String)
  | .verify (.submitBvn command) => some (.BVN, command.bvn)
  | .verify (.submitNin command) => some (.NIN, command.nin)
  | .verify (.manuallyVerifyBvn command) => some (.BVN, command.bvn)
  | .verify (.manuallyVerifyNin command) => some (.NIN, command.nin)
  | .clearSanctionsFlag _ => none
  | .userRegistered _ => none

/-! ## What is saved -/

/-- `data` is `r`, changed by a mutator; or `r` itself, where the mutator had nothing to do. -/
structure SavedFrom (services : Services) (request : ComplianceRequest) (r data : KycProfileRecord) : Prop where
  id : data.id = r.id
  version : data.version = r.version + 1 ∨ (data = r ∧ 0 < r.version)
  hashes : ∀ type, data.hashOf type = r.hashOf type ∨ ∃ number hash, request.number? = some (type, number) ∧
    HmacIdentifierHasher.hash services number = .ok hash ∧ data.hashOf type = some hash

namespace SavedFrom

variable {services : Services} {request : ComplianceRequest} {p p' : KycProfile}

/-- Flags, versions and attempts are no hashes. -/
theorem of_same (hid : p'.id = p.id) (hversion : p'.version = p.version + 1) (hbvn : p'.bvnHash = p.bvnHash)
    (hnin : p'.ninHash = p.ninHash) :
    SavedFrom services request (KycProfileMapper.toPersistence p) (KycProfileMapper.toPersistence p') where
  id := hid
  version := .inl hversion
  hashes type := by
    cases type with
    | BVN => exact .inl hbvn
    | NIN => exact .inl hnin

theorem recordVerificationFailed (type : VerificationType) (reason : String) :
    SavedFrom services request (KycProfileMapper.toPersistence p)
      (KycProfileMapper.toPersistence (p.recordVerificationFailed type reason)) := .of_same rfl rfl rfl rfl

theorem clearSanctionsFlag {now : Nat} {staffUserId reason : String}
    (h : p.clearSanctionsFlag now staffUserId reason = .ok p') :
    SavedFrom services request (KycProfileMapper.toPersistence p) (KycProfileMapper.toPersistence p') := by
  unfold KycProfile.clearSanctionsFlag at h
  split at h
  · cases h
  · cases h
    exact .of_same rfl rfl rfl rfl

/-- A flag that is open stays as it is. -/
theorem flagForSanctionsReview (hv : 0 < p.version) (now : Nat) (matchSummary : String) :
    SavedFrom services request (KycProfileMapper.toPersistence p)
      (KycProfileMapper.toPersistence (p.flagForSanctionsReview now matchSummary)) := by
  unfold KycProfile.flagForSanctionsReview
  split
  · exact ⟨rfl, .inr ⟨rfl, hv⟩, fun _ => .inl rfl⟩
  · exact .of_same rfl rfl rfl rfl

theorem recordVerified {type : VerificationType} {now : Nat} {number hash masked : String}
    (hnumber : request.number? = some (type, number)) (hhash : HmacIdentifierHasher.hash services number = .ok hash)
    (h : recordVerified type p now hash masked = .ok p') :
    SavedFrom services request (KycProfileMapper.toPersistence p) (KycProfileMapper.toPersistence p') := by
  cases type with
  | BVN =>
    simp only [Compliance.recordVerified, KycProfile.recordBvnVerified] at h
    split at h
    · cases h
    · cases h
      refine ⟨?_, .inl ?_, fun type' => ?_⟩
      · split <;> rfl
      · split <;> rfl
      · cases type' with
        | BVN => exact .inr ⟨number, hash, hnumber, hhash, by split <;> rfl⟩
        | NIN => exact .inl (by split <;> rfl)
  | NIN =>
    simp only [Compliance.recordVerified, KycProfile.recordNinVerified] at h
    split at h
    · cases h
    · cases h
      refine ⟨?_, .inl ?_, fun type' => ?_⟩
      · split <;> rfl
      · split <;> rfl
      · cases type' with
        | BVN => exact .inl (by split <;> rfl)
        | NIN => exact .inr ⟨number, hash, hnumber, hhash, by split <;> rfl⟩

end SavedFrom

/-! ## The protocol -/

/-- The state is the row of the profile in hand, as it was loaded or last saved. -/
def savingProtocol (services : Services) (requests : PId → ComplianceRequest) : Protocol Op.Res Err where
  State := Option KycProfileRecord
  ok i st op := match op with
    | .kycProfile (.create data) => ∀ type, data.hashOf type = none
    | .kycProfile (.updateMany version data) =>
      data.version = version + 1 ∧ ∃ r, st = some r ∧ SavedFrom services (requests i) r data
    | _ => True
  yields _ _ _ _ := True
  next _ st op r := match op, r with
    | .kycProfile (.findUnique _), .ok found => found
    | .kycProfile (.updateMany _ data), .ok n => if n = 0 then st else some data
    | _, _ => st

section
variable {services : Services} {requests : PId → ComplianceRequest} {i : PId}

theorem quiet_of_ofProfiles {op : Op} (h : op.ofProfiles = false) : (savingProtocol services requests).Quiet i op := by
  intro st
  cases op with
  | kycProfile q => cases h
  | _ => exact ⟨trivial, fun _ => rfl⟩

theorem aside {ε α : Type} {p : Prog Op.Res Err ε α} (h : p.Calls fun op => op.ofProfiles = false) :
    p.Calls ((savingProtocol services requests).Quiet i) := h.mono fun _ => quiet_of_ofProfiles

end

/-! ## Every writer obeys -/

theorem createIdentifier_value {type : VerificationType} {rawNumber : String} {number : Identifier}
    (h : createIdentifier type rawNumber = .ok number) : number.value = rawNumber := by
  have hcreate : ∀ {message code}, Identifier.create message code rawNumber = .ok number →
    number.value = rawNumber := by
    intro message code h
    unfold Identifier.create at h
    split at h <;> cases h
    rfl
  cases type <;> exact hcreate h

section
variable {services : Services} {requests : PId → ComplianceRequest} {i : PId}

theorem saveEntry_aside (entry : String → KycAuditLogEntry) :
    (saveEntry entry).Calls ((savingProtocol services requests).Quiet i) :=
  aside (saveEntry_calls (T := fun op => op.ofProfiles = false) rfl (fun _ => rfl) entry)

theorem recordDomainEvents_aside (events : List KycEvent) :
    (KycAuditRecorderService.recordDomainEvents events).Calls ((savingProtocol services requests).Quiet i) :=
  aside (recordDomainEvents_calls (T := fun op => op.ofProfiles = false) rfl (fun _ => rfl) events)

theorem publishAll_aside (events : List KycEvent) :
    (publishAll events).Calls ((savingProtocol services requests).Quiet i) :=
  aside (publishAll_calls (T := fun op => op.ofProfiles = false) (fun _ => rfl) events)

theorem screen_aside (fullName : String) :
    (OfacSanctionsScreeningProvider.screen services fullName).Calls ((savingProtocol services requests).Quiet i) :=
  aside (OfacSanctionsScreeningProvider.screen_calls (T := fun op => op.ofProfiles = false) rfl fullName)

theorem findByUserId_obeys (userId : String) :
    (savingProtocol services requests).Obeys i
      (fun st x => ∀ p, x = .ok (some p) → st = some (KycProfileMapper.toPersistence p))
      (PrismaKycProfileRepository.findByUserId userId) none := by
  refine .await_bind trivial (fun found _ => ?_) fun _ _ _ h => nomatch h
  cases found with
  | none => exact fun _ h => nomatch h
  | some r =>
    rintro _ ⟨⟩
    rfl

theorem save_obeys {p : KycProfile} {r : KycProfileRecord}
    (h : SavedFrom services (requests i) r (KycProfileMapper.toPersistence p)) :
    (savingProtocol services requests).Obeys i (fun st x => x = .ok () → st = some (KycProfileMapper.toPersistence p))
      (PrismaKycProfileRepository.save p) (some r) := by
  have hversion : (KycProfileMapper.toPersistence p).version ≠ 0 := by
    rcases h.version with hv | ⟨hr, hv⟩
    · omega
    · rw [hr]
      omega
  show Obeys _ i _ (if _ then _ else _) _
  rw [if_neg hversion]
  refine .await_bind ⟨by omega, r, rfl, h⟩ (fun n _ => ?_) fun e _ he => nomatch he
  show Obeys _ i _ (if n = 0 then _ else _) (if n = 0 then _ else _)
  by_cases hn : n = 0
  · rw [if_pos hn]
    exact fun he => nomatch he
  · rw [if_neg hn]
    exact fun _ => if_neg hn

/-- The profile has been saved before, so its version is not the first. -/
theorem screenAndFlag_obeys {p : KycProfile} (hv : 0 < p.version) (fullName : String) :
    (savingProtocol services requests).Obeys i (fun _ _ => True)
      (SanctionsScreeningService.screenAndFlag services p fullName) (some (KycProfileMapper.toPersistence p)) := by
  unfold SanctionsScreeningService.screenAndFlag
  refine Obeys.quiet_bind (screen_aside fullName) (fun found => ?_)
    fun _ => trivial
  show Obeys _ i _ (if _ then _ else _) _
  split
  · exact Obeys.quiet_bind (saveEntry_aside _) (fun _ => trivial) fun _ => trivial
  · refine .await_bind trivial (fun now _ => ?_) fun _ _ => trivial
    refine (save_obeys (SavedFrom.flagForSanctionsReview hv now _)).bind (fun st _ _ => ?_) fun _ _ _ => trivial
    refine Obeys.quiet_bind (saveEntry_aside _) (fun _ => ?_) fun _ => trivial
    exact Obeys.quiet_bind (publishAll_aside _) (fun _ => trivial) fun _ => trivial

/-- The profile in hand is the one that has been loaded. -/
theorem lookUp_obeys (type : VerificationType) (userId rawNumber : String) :
    (savingProtocol services requests).Obeys i
      (fun st x => ∀ user p number result, x = .ok (user, p, number, result) →
        st = some (KycProfileMapper.toPersistence p) ∧ number.value = rawNumber)
      (lookUp services type userId rawNumber) none := by
  unfold lookUp
  refine Obeys.quiet_bind (aside (PrismaUserRepository.findById_calls (fun _ => rfl) userId)) (fun user => ?_)
    fun _ _ _ _ _ h => nomatch h
  cases user with
  | none => exact fun _ _ _ _ h => nomatch h
  | some user =>
    refine (findByUserId_obeys userId).bind (fun st found hfound => ?_) fun _ _ _ _ _ _ _ h => nomatch h
    cases found with
    | none => exact fun _ _ _ _ h => nomatch h
    | some p =>
      obtain rfl := hfound p rfl
      refine .ofExcept_bind (fun number hnumber => ?_) fun _ _ _ _ _ _ h => nomatch h
      refine Obeys.quiet_bind
        (aside (FlutterwaveIdentityVerificationProvider.verify_calls (fun _ _ => rfl) type number user))
        (fun result => ?_) fun _ _ _ _ _ h => nomatch h
      rintro _ _ _ _ ⟨⟩
      exact ⟨rfl, createIdentifier_value hnumber⟩

theorem verify_obeys {type : VerificationType} {p : KycProfile} {number : Identifier}
    (hnumber : (requests i).number? = some (type, number.value)) :
    (savingProtocol services requests).Obeys i
      (fun st x => ∀ p', x = .ok p' → st = some (KycProfileMapper.toPersistence p') ∧ 0 < p'.version)
      (verify services type p number) (some (KycProfileMapper.toPersistence p)) := by
  unfold verify
  refine .ofExcept_bind (fun hash hhash => ?_) fun _ _ _ h => nomatch h
  refine .await_bind trivial (fun now _ => ?_) fun _ _ _ h => nomatch h
  refine .ofExcept_bind (fun p' hp' => ?_) fun _ _ _ h => nomatch h
  have hsaved := SavedFrom.recordVerified hnumber hhash hp'
  refine (save_obeys hsaved).bind (fun st _ hst => ?_) fun _ _ _ _ h => nomatch h
  rintro _ ⟨⟩
  refine ⟨hst rfl, ?_⟩
  rcases hsaved.version with hv | ⟨hr, hv⟩
  · exact Nat.lt_of_lt_of_eq (Nat.succ_pos p.version) hv.symm
  · exact Nat.lt_of_lt_of_eq hv (congrArg KycProfileRecord.version hr).symm

theorem submit_obeys {type : VerificationType} {userId rawNumber : String}
    (hnumber : (requests i).number? = some (type, rawNumber)) :
    (savingProtocol services requests).Obeys i (fun _ _ => True) (submit services type userId rawNumber) none := by
  unfold submit conclude
  refine (lookUp_obeys type userId rawNumber).bind ?_ fun _ _ _ => trivial
  rintro st ⟨user, p, number, result⟩ h
  obtain ⟨rfl, rfl⟩ := h user p number result rfl
  show Obeys _ i _ (if _ then _ else _) _
  split
  · unfold refuse
    refine (save_obeys (SavedFrom.recordVerificationFailed type _)).bind (fun st _ _ => ?_) fun _ _ _ => trivial
    refine Obeys.quiet_bind (recordDomainEvents_aside _) (fun _ => ?_) fun _ => trivial
    exact Obeys.quiet_bind (publishAll_aside _) (fun _ => trivial) fun _ => trivial
  · refine (verify_obeys hnumber).bind (fun st p' h => ?_) fun _ _ _ => trivial
    obtain ⟨rfl, hv⟩ := h p' rfl
    refine Obeys.quiet_bind (recordDomainEvents_aside _) (fun _ => ?_) fun _ => trivial
    refine Obeys.quiet_bind (publishAll_aside _) (fun _ => ?_) fun _ => trivial
    exact (screenAndFlag_obeys (p := pulled p') hv _).bind (fun _ _ _ => trivial) fun _ _ _ => trivial

theorem manuallyVerify_obeys {type : VerificationType} {staffUserId targetUserId rawNumber reason : String}
    (hnumber : (requests i).number? = some (type, rawNumber)) :
    (savingProtocol services requests).Obeys i (fun _ _ => True)
      (manuallyVerify services type staffUserId targetUserId rawNumber reason) none := by
  unfold manuallyVerify concludeOverride
  refine (lookUp_obeys type targetUserId rawNumber).bind ?_ fun _ _ _ => trivial
  rintro st ⟨user, p, number, result⟩ h
  obtain ⟨rfl, rfl⟩ := h user p number result rfl
  refine (verify_obeys hnumber).bind (fun st p' h => ?_) fun _ _ _ => trivial
  obtain ⟨rfl, hv⟩ := h p' rfl
  refine Obeys.quiet_bind (saveEntry_aside _) (fun _ => ?_) fun _ => trivial
  refine Obeys.quiet_bind (recordDomainEvents_aside _) (fun _ => ?_) fun _ => trivial
  refine Obeys.quiet_bind (publishAll_aside _) (fun _ => ?_) fun _ => trivial
  exact (screenAndFlag_obeys (p := pulled p') hv _).bind (fun _ _ _ => trivial) fun _ _ _ => trivial

theorem clearSanctionsFlag_obeys (command : ClearSanctionsFlagCommand) :
    (savingProtocol services requests).Obeys i (fun _ _ => True) (ClearSanctionsFlagHandler.execute command) none := by
  refine (findByUserId_obeys command.targetUserId).bind (fun st found hfound => ?_) fun _ _ _ => trivial
  cases found with
  | none => trivial
  | some p =>
    obtain rfl := hfound p rfl
    refine .await_bind trivial (fun now _ => ?_) fun _ _ => trivial
    refine .ofExcept_bind (fun p' hp' => ?_) fun _ _ => trivial
    refine (save_obeys (SavedFrom.clearSanctionsFlag hp')).bind (fun st _ _ => ?_) fun _ _ _ => trivial
    refine Obeys.quiet_bind (saveEntry_aside _) (fun _ => ?_) fun _ => trivial
    exact Obeys.quiet_bind (publishAll_aside _) (fun _ => trivial) fun _ => trivial

theorem userRegistered_obeys (aggregateId : String) :
    (savingProtocol services requests).Obeys i (fun _ _ => True) (UserRegisteredHandler.handle aggregateId) none := by
  refine .await_bind trivial (fun id _ => ?_) fun _ _ => trivial
  refine .await_bind (fun type => by cases type <;> rfl) (fun _ _ => ?_) fun _ _ => trivial
  exact (Obeys.quiet (publishAll_aside _) (Prog.returns_true _) _).mono fun _ _ _ => trivial

/-- **Every writer saves what it has loaded, changed**, and hashes nothing but the number it carries. -/
theorem ComplianceRequest.obeys :
    (savingProtocol services requests).Obeys i (fun _ _ => True) ((requests i).program services) none := by
  cases hrequest : requests i with
  | verify command =>
    refine Obeys.bind (P := savingProtocol services requests) (R := fun _ _ => True) ?_ (fun _ _ _ => trivial)
      fun _ _ _ => trivial
    cases command with
    | submitBvn command => exact submit_obeys (hrequest ▸ rfl)
    | submitNin command => exact submit_obeys (hrequest ▸ rfl)
    | manuallyVerifyBvn command => exact manuallyVerify_obeys (hrequest ▸ rfl)
    | manuallyVerifyNin command => exact manuallyVerify_obeys (hrequest ▸ rfl)
  | clearSanctionsFlag command =>
    exact (clearSanctionsFlag_obeys command).bind (fun _ _ _ => trivial) fun _ _ _ => trivial
  | userRegistered aggregateId =>
    exact (userRegistered_obeys aggregateId).bind (fun _ _ _ => trivial) fun _ _ _ => trivial

end

/-! ## No hash twice -/

/-- No two profiles hold the same BVN, and no two the same NIN. -/
def Deduplicated (s : Store) : Prop :=
  ∀ type, ∀ r ∈ s.kycProfiles.rows, ∀ r' ∈ s.kycProfiles.rows, ∀ hash, r.hashOf type = some hash →
    r'.hashOf type = some hash → r = r'

/-- Where a row with the hash of the carried number is saved, no other row has that hash. -/
def Unclaimed (services : Services) (requests : PId → ComplianceRequest) (s : Store) (i : PId) (_ : Ans)
    (op : Op) : Prop :=
  ∀ data ∈ op.savedProfile?, ∀ carried ∈ (requests i).number?,
    ∀ hash ∈ (HmacIdentifierHasher.hash services carried.2).toOption, data.hashOf carried.1 = some hash →
    ∀ r ∈ s.kycProfiles.rows, r.id ≠ data.id → r.hashOf carried.1 ≠ some hash

instance (services : Services) (requests : PId → ComplianceRequest) (s : Store) (i : PId) (a : Ans) (op : Op) :
    Decidable ((scheduleOf (Unclaimed services requests)).allow s i a op) := by
  show Decidable (Unclaimed services requests s i a op)
  unfold Unclaimed
  infer_instance

/-- `r` is a copy of the stored row, or of one that it has replaced. -/
def CopyOf (s : Store) (r : KycProfileRecord) : Prop :=
  ∃ cur, s.kycProfiles.find? r.id = some cur ∧ r.version ≤ cur.version ∧ (r.version = cur.version → r = cur)

structure ProfilesInv (s : Store) (sts : PId → Option KycProfileRecord) : Prop where
  unique : Deduplicated s
  held : ∀ i r, sts i = some r → CopyOf s r

theorem copyOf_stored {s : Store} {r : KycProfileRecord} (h : r ∈ s.kycProfiles.rows) : CopyOf s r :=
  ⟨r, Table.find?_of_mem h, le_rfl, fun _ => rfl⟩

/-- A version only grows. -/
theorem CopyOf.save {s : Store} {r data : KycProfileRecord} (h : CopyOf s r)
    (hnewer : ∀ cur, s.kycProfiles.find? data.id = some cur → cur.version < data.version) :
    CopyOf { s with kycProfiles := s.kycProfiles.put data } r := by
  obtain ⟨cur, hcur, hle, heq⟩ := h
  by_cases hid : data.id = r.id
  · have hlt := hnewer cur (hid ▸ hcur)
    exact ⟨data, by rw [← hid]; exact Table.find?_put_self _ _, by omega, fun hv => absurd hv (by omega)⟩
  · exact ⟨cur, (Table.find?_put_ne _ hid).trans hcur, hle, heq⟩

/-- A row whose hashes are nobody else's. -/
theorem Deduplicated.save {s : Store} {data : KycProfileRecord} (h : Deduplicated s)
    (hnew : ∀ type hash, data.hashOf type = some hash → ∀ r ∈ s.kycProfiles.rows, r.id ≠ data.id →
      r.hashOf type ≠ some hash) : Deduplicated { s with kycProfiles := s.kycProfiles.put data } := by
  intro type r hr r' hr' hash hh hh'
  rcases (Table.mem_put _ _ _).1 hr with rfl | ⟨hold, hne⟩ <;>
    rcases (Table.mem_put _ _ _).1 hr' with rfl | ⟨hold', hne'⟩
  · rfl
  · exact absurd hh' (hnew type hash hh r' hold' hne')
  · exact absurd hh (hnew type hash hh' r hold hne)
  · exact h type r hold r' hold' hash hh hh'

namespace ProfilesInv

variable {s : Store} {sts : PId → Option KycProfileRecord} {i : PId}

/-- A program has another profile in hand, or the same. -/
theorem load (h : ProfilesInv s sts) {found : Option KycProfileRecord} (hfound : ∀ r, found = some r → CopyOf s r) :
    ProfilesInv s (Function.update sts i found) := by
  refine ⟨h.unique, fun j r hj => ?_⟩
  rcases update_or sts i j found with ⟨-, he⟩ | ⟨-, he⟩
  · exact hfound r (he ▸ hj)
  · exact h.held j r (he ▸ hj)

theorem save (h : ProfilesInv s sts) {data : KycProfileRecord}
    (hnewer : ∀ cur, s.kycProfiles.find? data.id = some cur → cur.version < data.version)
    (hnew : ∀ type hash, data.hashOf type = some hash → ∀ r ∈ s.kycProfiles.rows, r.id ≠ data.id →
      r.hashOf type ≠ some hash) : ProfilesInv { s with kycProfiles := s.kycProfiles.put data } sts :=
  ⟨h.unique.save hnew, fun j r hj => (h.held j r hj).save hnewer⟩

/-- The profiles have not changed. -/
theorem elsewhere (h : ProfilesInv s sts) {s' : Store} (hs : s'.kycProfiles = s.kycProfiles) :
    ProfilesInv s' (Function.update sts i (sts i)) := by
  rw [Function.update_eq_self]
  refine ⟨?_, fun j r hj => ?_⟩
  · unfold Deduplicated
    rw [hs]
    exact h.unique
  · unfold CopyOf
    rw [hs]
    exact h.held j r hj

end ProfilesInv

/-- What is saved over the row that was loaded takes no hash from another. -/
theorem SavedFrom.unclaimed {services : Services} {requests : PId → ComplianceRequest} {i : PId} {a : Ans} {s : Store}
    {version : Nat} {r data : KycProfileRecord} (hsaved : SavedFrom services (requests i) r data)
    (hunique : Deduplicated s)
    (hr : r ∈ s.kycProfiles.rows)
    (hfree : Unclaimed services requests s i a (.kycProfile (.updateMany version data))) :
    ∀ type hash, data.hashOf type = some hash → ∀ r' ∈ s.kycProfiles.rows, r'.id ≠ data.id →
      r'.hashOf type ≠ some hash := by
  intro type hash hh r' hr' hne
  rcases hsaved.hashes type with hsame | ⟨number, hash', hnumber, hhash, hdata⟩
  · intro hh'
    have hrr := hunique type r hr r' hr' hash (hsame ▸ hh) hh'
    exact hne (hrr ▸ hsaved.id.symm)
  · have hmem : hash ∈ (HmacIdentifierHasher.hash services number).toOption := by
      rw [hhash, ← Option.some.inj (hdata.symm.trans hh)]
      rfl
    exact hfree data rfl (type, number) hnumber hash hmem hh r' hr' hne

/-- **Every permitted call keeps the hashes apart.** -/
theorem profiles_preserves (services : Services) (requests : PId → ComplianceRequest) :
    (savingProtocol services requests).Preserves (scheduleOf (Unclaimed services requests)) ProfilesInv where
  call {s sts i a op r s'} h hok ha hx := by
    refine ⟨trivial, ?_⟩
    rcases r with e | v
    · obtain rfl := exec_error hx
      have hnext : (savingProtocol services requests).next i (sts i) op (.error e) = sts i := by
        cases op with
        | kycProfile q => cases q <;> rfl
        | _ => rfl
      rw [hnext]
      exact h.elsewhere rfl
    cases op with
    | kycProfile q =>
      cases q with
      | findUnique userId =>
        obtain ⟨rfl, rfl⟩ := exec_findProfile hx
        exact h.load fun r hr => copyOf_stored (List.mem_of_find?_eq_some hr)
      | create data =>
        obtain ⟨hnone, rfl⟩ := exec_createProfile hx
        refine (h.save (fun cur hcur => nomatch hnone.symm.trans hcur) fun type hash hh => ?_).load fun r hr => ?_
        · exact nomatch (hok type).symm.trans hh
        · exact (h.held i r hr).save fun cur hcur => nomatch hnone.symm.trans hcur
      | updateMany version data =>
        obtain ⟨hversion, r, hst, hsaved⟩ := hok
        rcases exec_updateProfile hx with ⟨rfl, rfl, -⟩ | ⟨rfl, rfl, cur, hcur, hv⟩
        · exact h.load fun r hr => h.held i r hr
        · -- The row in hand is the stored one: their versions are the same, or the save would have missed.
          obtain ⟨cur', hcur', hle, heq⟩ := h.held i r hst
          obtain rfl : cur' = cur := Option.some.inj (hcur'.symm.trans (hsaved.id ▸ hcur))
          have hrv : r.version = cur'.version := by
            rcases hsaved.version with hnew | ⟨hdata, hpos⟩
            · omega
            · rw [hdata] at hversion
              omega
          obtain rfl := heq hrv
          have hnewer : ∀ cur, s.kycProfiles.find? data.id = some cur → cur.version < data.version := by
            intro cur hcur''
            obtain rfl : r = cur := Option.some.inj (hcur.symm.trans hcur'')
            omega
          refine (h.save hnewer (hsaved.unclaimed (a := a) h.unique (Table.mem_of_find? hcur) ha)).load fun r' hr' => ?_
          cases hr'
          exact copyOf_stored ((Table.mem_put _ _ _).2 (.inl rfl))
    | _ => exact h.elsewhere (exec_sameProfiles rfl hx)
  act x h := ⟨h.unique, h.held⟩

/-- **No number is two profiles'**, in every state of every run in which no command saves the hash of a number that is
another profile's: whatever else interleaves, and whatever fails. -/
theorem hashes_deduplicated (services : Services) (requests : PId → ComplianceRequest) {start : Store}
    (hstart : Deduplicated start) {c : Config Op.Res Err Store Err (Option KycStatusResponseDto)}
    (hr : (scheduleOf (Unclaimed services requests)).Reach ⟨start, fun i => (requests i).program services⟩ c) :
    Deduplicated c.store := by
  have htracks : (savingProtocol services requests).Tracks ProfilesInv (fun _ _ _ => True)
      (⟨start, fun i => (requests i).program services⟩ : Config Op.Res Err Store Err (Option KycStatusResponseDto))
      fun _ => none := ⟨⟨hstart, fun _ _ h => nomatch h⟩, fun i => ComplianceRequest.obeys⟩
  obtain ⟨sts, hend⟩ := reach (profiles_preserves services requests) htracks hr
  have hinv : ProfilesInv c.store sts := hend.1
  exact hinv.unique

/-! ## One BVN, two customers -/

/-- Ada's BVN, and the number that staff puts through for Bola. -/
def sampleRequests (bvn : String) : PId → ComplianceRequest
  | 0 => .verify sampleSubmission
  | _ => .verify (sampleOverride bvn)

theorem sampleStore_deduplicated : Deduplicated sampleStore := by
  intro type r hr r' hr' hash hh hh'
  have hnone : ∀ r ∈ sampleStore.kycProfiles.rows, ∀ type, r.hashOf type = none := by
    intro r hr type
    simp only [sampleStore, Table.mem_put] at hr
    rcases hr with rfl | ⟨rfl | ⟨hr, -⟩, -⟩
    · cases type <;> rfl
    · cases type <;> rfl
    · exact absurd hr List.not_mem_nil
  exact nomatch (hnone r hr type).symm.trans hh

theorem hashes_deduplicated_sample : ∃ c, (scheduleOf (Unclaimed sampleServices (sampleRequests "22987654321"))).Reach
      ⟨sampleStore, fun i => (sampleRequests "22987654321" i).program sampleServices⟩ c ∧
    ((c.store.kycProfiles.find? "profile-a").bind (·.bvnHash)) = some "#22123456789" ∧
    ((c.store.kycProfiles.find? "profile-b").bind (·.bvnHash)) = some "#22987654321" ∧ Deduplicated c.store := by
  have hplay : ((scheduleOf (Unclaimed sampleServices (sampleRequests "22987654321"))).play
      (System.calls 0 (sampleVerification "a") ++ System.calls 1 (sampleVerification "b"))
      ⟨sampleStore, fun i => (sampleRequests "22987654321" i).program sampleServices⟩).any fun c =>
        ((c.store.kycProfiles.find? "profile-a").bind (·.bvnHash)) = some "#22123456789" ∧
        ((c.store.kycProfiles.find? "profile-b").bind (·.bvnHash)) = some "#22987654321" := by
    decide +kernel
  obtain ⟨c, hc, ha, hb⟩ := System.play_seen _ hplay
  have hr := System.reach_of_play _ hc
  exact ⟨c, hr, ha, hb, hashes_deduplicated sampleServices _ sampleStore_deduplicated hr⟩

/-- Nobody asks whose BVN it is: staff puts Ada's through for Bola. -/
theorem number_of_two_profiles : ∃ c,
    anySchedule.Reach ⟨sampleStore, fun i => (sampleRequests "22123456789" i).program sampleServices⟩ c ∧
    ¬ Deduplicated c.store := by
  have hplay : (anySchedule.play
      (System.calls 0 (sampleVerification "a") ++ System.calls 1 (sampleVerification "b"))
      ⟨sampleStore, fun i => (sampleRequests "22123456789" i).program sampleServices⟩).any fun c =>
        (c.store.kycProfiles.rows.map fun r => (r.id, r.bvnHash)) =
          [("profile-a", some "#22123456789"), ("profile-b", some "#22123456789")] := by
    decide +kernel
  obtain ⟨c, hc, hrows⟩ := System.play_seen _ hplay
  refine ⟨c, System.reach_of_play _ hc, fun h => ?_⟩
  have hmem : ∀ id, (id, some "#22123456789") ∈ c.store.kycProfiles.rows.map (fun r => (r.id, r.bvnHash)) →
      ∃ r ∈ c.store.kycProfiles.rows, r.id = id ∧ r.hashOf .BVN = some "#22123456789" := by
    intro id hid
    obtain ⟨r, hr, he⟩ := List.mem_map.1 hid
    exact ⟨r, hr, congrArg Prod.fst he, congrArg Prod.snd he⟩
  obtain ⟨r, hr, hid, hh⟩ := hmem "profile-a" (by rw [hrows]; decide)
  obtain ⟨r', hr', hid', hh'⟩ := hmem "profile-b" (by rw [hrows]; decide)
  have hsame := h .BVN r hr r' hr' _ hh hh'
  rw [hsame, hid'] at hid
  exact absurd hid (by decide)

end Kudi.Compliance
