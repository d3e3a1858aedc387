import KudiCore.Gateway.AccountRoutes
import KudiCore.Gateway.KycAuthority

/-!
# What comes of verifications

Every request and the handler of `UserRegisteredEvent` obey `entitlementProtocol`, so in every run of any of them every
profile is what operations have made of it to which somebody was entitled.

| here | there |
| --- | --- |
| `profiles_written_by_authority` | the guards, the provider's answers and the `version` column together |
| `only_authority_verifies_or_clears` | ... and what they mean for a verified number and for an open flag |
-/

namespace Kudi.Compliance

open Interleave Protocol
open Identity (AccessTokenPayload)

/-- The provider answers as `provider` says that it may. -/
def AnsweredBy (provider : Provider) (_ : Store) (_ : PId) (a : Ans) (op : Op) : Prop :=
  match op, a with
  | .resolve type number, .resolved response => provider type number response
  | _, _ => True

instance (provider : Provider) [∀ type number response, Decidable (provider type number response)] (s : Store)
    (i : PId)
    (a : Ans) (op : Op) : Decidable ((scheduleOf (AnsweredBy provider)).allow s i a op) := by
  show Decidable (AnsweredBy provider s i a op)
  unfold AnsweredBy
  split <;> infer_instance

/-! ## The protocol -/

/-- The state is the row of the profile in hand, as it was loaded or last saved. -/
def entitlementProtocol (services : Services) (start : Store) (provider : Provider) (incoming : PId → KycIncoming) :
    Protocol Op.Res Err where
  State := Option KycProfileRecord
  ok i st op := match op with
    | .kycProfile (.create data) => ∃ id userId, incoming i = .userRegistered userId ∧
        data = KycProfileMapper.toPersistence (KycProfile.createDefault id userId)
    | .kycProfile (.updateMany version data) => data.version = version + 1 ∧ ∃ row op, st = some row ∧
        EntitledTo services start provider (incoming i) row.userId op ∧ row.apply op = .ok data
    | _ => True
  yields _ _ op r := match op, r with
    | .kycProfile (.findUnique userId), .ok found => ∀ row ∈ found, row.userId = userId
    | .findUser id, .ok found => found = start.users.find? id
    | .findAllIndividuals, .ok entries => entries = start.sanctionsList
    | .resolve type number, .ok response => provider type number response
    | _, _ => True
  next _ st op r := match op, r with
    | .kycProfile (.findUnique _), .ok found => found
    | .kycProfile (.updateMany _ data), .ok n => if n = 0 then st else some data
    | _, _ => st

section
variable {services : Services} {start : Store} {provider : Provider} {incoming : PId → KycIncoming} {i : PId}

theorem quiet_of_otherThanProfiles {op : Op} (h : op.ofProfiles = false) :
    (entitlementProtocol services start provider incoming).Quiet i op := by
  intro st
  cases op with
  | kycProfile q => cases h
  | _ => exact ⟨trivial, fun _ => rfl⟩

theorem quietly {ε α : Type} {p : Prog Op.Res Err ε α} (h : p.Calls fun op => op.ofProfiles = false) :
    p.Calls ((entitlementProtocol services start provider incoming).Quiet i) :=
  h.mono fun _ => quiet_of_otherThanProfiles

theorem saveEntry_quiet (entry : String → KycAuditLogEntry) :
    (saveEntry entry).Calls ((entitlementProtocol services start provider incoming).Quiet i) :=
  quietly (saveEntry_calls (T := fun op => op.ofProfiles = false) rfl (fun _ => rfl) entry)

theorem recordDomainEvents_quiet (events : List KycEvent) : (KycAuditRecorderService.recordDomainEvents events).Calls
    ((entitlementProtocol services start provider incoming).Quiet i) :=
  quietly (recordDomainEvents_calls (T := fun op => op.ofProfiles = false) rfl (fun _ => rfl) events)

theorem publishAll_quiet (events : List KycEvent) :
    (publishAll events).Calls ((entitlementProtocol services start provider incoming).Quiet i) :=
  quietly (publishAll_calls (T := fun op => op.ofProfiles = false) (fun _ => rfl) events)

/-! ## What a program loads -/

/-- `p` is loaded, or just saved. -/
structure ProfileInHand (p : KycProfile) (st : Option KycProfileRecord) : Prop where
  held : st = some (KycProfileMapper.toPersistence p)
  pulled : p.domainEvents = []

theorem findByUserId_inHand (userId : String) (st : Option KycProfileRecord) :
    (entitlementProtocol services start provider incoming).Obeys i
      (fun st x => ∀ p, x = .ok (some p) → ProfileInHand p st ∧ p.userId = userId)
      (PrismaKycProfileRepository.findByUserId userId) st := by
  refine .await_bind trivial (fun found hfound => ?_) fun _ _ _ h => nomatch h
  cases found with
  | none => exact fun _ h => nomatch h
  | some row =>
    rintro _ ⟨⟩
    exact ⟨⟨rfl, rfl⟩, hfound row rfl⟩

theorem findById_registered (id : String) (st : Option KycProfileRecord) :
    (entitlementProtocol services start provider incoming).Obeys i
      (fun st' x => st' = st ∧ ∀ user, x = .ok (some user) → ∃ record, start.users.find? id = some record ∧
        Identity.UserMapper.toDomain services.identity record = .ok user)
      (PrismaUserRepository.findById services id) st := by
  refine .await_bind trivial (fun found hfound => ?_) fun _ _ => ⟨rfl, fun _ h => nomatch h⟩
  cases found with
  | none => exact ⟨rfl, fun _ h => nomatch h⟩
  | some record =>
    refine .ofExcept_bind (fun user huser => ?_) fun _ _ => ⟨rfl, fun _ h => nomatch h⟩
    refine ⟨rfl, ?_⟩
    rintro _ ⟨⟩
    exact ⟨record, Eq.symm hfound, huser⟩

/-- The profile, and what the provider has said of the number. -/
theorem lookUp_looked (type : VerificationType) (userId rawNumber : String) (st : Option KycProfileRecord) :
    (entitlementProtocol services start provider incoming).Obeys i
      (fun st x => ∀ user p number result, x = .ok (user, p, number, result) → ProfileInHand p st ∧
        p.userId = userId ∧
        createIdentifier type rawNumber = .ok number ∧
        LookedUp services start provider type userId rawNumber user result)
      (lookUp services type userId rawNumber) st := by
  unfold lookUp
  refine (findById_registered userId st).bind (fun st' user huser => ?_) fun _ _ _ _ _ _ _ h => nomatch h
  obtain ⟨rfl, huser⟩ := huser
  cases user with
  | none => exact fun _ _ _ _ h => nomatch h
  | some user =>
    refine (findByUserId_inHand userId st').bind (fun st found hfound => ?_) fun _ _ _ _ _ _ _ h => nomatch h
    cases found with
    | none => exact fun _ _ _ _ h => nomatch h
    | some p =>
      obtain ⟨hp, howner⟩ := hfound p rfl
      refine .ofExcept_bind (fun number hnumber => ?_) fun _ _ _ _ _ _ h => nomatch h
      refine Obeys.bind (P := entitlementProtocol services start provider incoming)
        (R := fun st' x => st' = st ∧ ∀ result, x = .ok result →
          ∃ response, provider type number.value response ∧
          FlutterwaveIdentityVerificationProvider.judge services user.firstName user.lastName response = .ok result)
        (Obeys.await_bind trivial
          (fun response hresponse => .ofExcept ⟨rfl, fun result hresult => ⟨response, hresponse, hresult⟩⟩)
          fun _ _ => ⟨rfl, fun _ h => nomatch h⟩) ?_ fun _ _ _ _ _ _ _ h => nomatch h
      rintro st' result ⟨rfl, hresult⟩
      rintro _ _ _ _ ⟨⟩
      obtain ⟨response, hresponse, hjudged⟩ := hresult result rfl
      refine ⟨hp, howner, hnumber, huser user rfl, response, ?_, hjudged⟩
      rwa [createIdentifier_value hnumber] at hresponse

/-! ## What it saves -/

/-- What comes of an operation that the request entitles to is saved. -/
theorem save_entitled {p p' : KycProfile} {op : KycOperation} {st : Option KycProfileRecord} (hp : ProfileInHand p st)
    (hentitled : EntitledTo services start provider (incoming i) p.userId op) (hop : op.apply p = .ok p')
    (hother : 0 < p.version ∨ ∀ now summary, op ≠ .flagForSanctionsReview now summary) :
    (entitlementProtocol services start provider incoming).Obeys i
      (fun st x => x = .ok () → st = some (KycProfileMapper.toPersistence p'))
      (PrismaKycProfileRepository.save p') st := by
  have hversion := KycProfileRecord.operation_version hop hother
  have hsaves : (KycProfileMapper.toPersistence p').version = (KycProfileMapper.toPersistence p').version - 1 + 1 :=
    (Nat.sub_add_cancel hversion).symm
  have hlater : (KycProfileMapper.toPersistence p').version ≠ 0 := Nat.pos_iff_ne_zero.1 hversion
  show Obeys _ i _ (if _ then _ else _) _
  rw [if_neg hlater]
  refine .await_bind ⟨hsaves, _, op, hp.held, hentitled, KycProfileRecord.apply_of_pulled hp.pulled hop⟩
    (fun n _ => ?_) fun e _ he => nomatch he
  show Obeys _ i _ (if n = 0 then _ else _) (if n = 0 then _ else _)
  by_cases hn : n = 0
  · rw [if_pos hn]
    exact fun he => nomatch he
  · rw [if_neg hn]
    exact fun _ => if_neg hn

/-- `Op.findAllIndividuals` is asked only where the name can be screened; then the list is the one of the start. -/
theorem screen_hits (fullName : String) (st : Option KycProfileRecord) :
    (entitlementProtocol services start provider incoming).Obeys i
      (fun st' x => st' = st ∧ ∀ found, x = .ok found → found ≠ [] →
        found = start.sanctionsList.filter fun entry => Hits services fullName entry)
      (OfacSanctionsScreeningProvider.screen services fullName) st := by
  show Obeys _ i _ (if _ then _ else _) _
  split
  · rename_i hscreenable
    refine .await_bind trivial (fun entries hentries => ⟨rfl, ?_⟩) fun _ _ => ⟨rfl, fun _ h => nomatch h⟩
    rintro _ ⟨⟩ -
    obtain rfl : entries = start.sanctionsList := hentries
    exact findMatches_eq (of_decide_eq_true hscreenable)
  · refine ⟨rfl, ?_⟩
    rintro _ ⟨⟩ hne
    exact absurd rfl hne

/-- A name is screened that the request has had verified. -/
theorem screenAndFlag_entitled {p : KycProfile} {fullName : String} {st : Option KycProfileRecord}
    (hp : ProfileInHand p st) (hversion : 0 < p.version)
    (hflags : ∀ found, found = start.sanctionsList.filter (fun entry => Hits services fullName entry) →
      found ≠ [] →
      ∀ now, EntitledTo services start provider (incoming i) p.userId
        (.flagForSanctionsReview now (SanctionsScreeningService.matchSummary found))) :
    (entitlementProtocol services start provider incoming).Obeys i (fun _ _ => True)
      (SanctionsScreeningService.screenAndFlag services p fullName) st := by
  unfold SanctionsScreeningService.screenAndFlag
  refine (screen_hits fullName st).bind (fun st' found hfound => ?_) fun _ _ _ => trivial
  obtain ⟨rfl, hfound⟩ := hfound
  show Obeys _ i _ (if _ then _ else _) _
  split
  · exact Obeys.quiet_bind (saveEntry_quiet _) (fun _ => trivial) fun _ => trivial
  · rename_i hne
    have hlisted : found ≠ [] := fun h => hne (by rw [h]; rfl)
    refine .await_bind trivial (fun now _ => ?_) fun _ _ => trivial
    have hentitled := hflags found (hfound found rfl hlisted) hlisted now
    refine (save_entitled hp hentitled rfl (.inl hversion)).bind (fun _ _ _ => ?_) fun _ _ _ => trivial
    refine Obeys.quiet_bind (saveEntry_quiet _) (fun _ => ?_) fun _ => trivial
    exact Obeys.quiet_bind (publishAll_quiet _) (fun _ => trivial) fun _ => trivial

/-- The number, once it is known to be one, is stored: `op` is what stores it. -/
theorem verify_entitled {type : VerificationType} {p : KycProfile} {number : Identifier} {st : Option KycProfileRecord}
    (hp : ProfileInHand p st) (hnumber : createIdentifier type number.value = .ok number)
    (hstores : ∀ op, Stores services type number.value op →
      EntitledTo services start provider (incoming i) p.userId op) :
    (entitlementProtocol services start provider incoming).Obeys i
      (fun st x => ∀ p', x = .ok p' → ProfileInHand (pulled p') st ∧ p'.userId = p.userId ∧ 0 < p'.version)
      (verify services type p number) st := by
  unfold verify
  refine .ofExcept_bind (fun hash hhash => ?_) fun _ _ _ h => nomatch h
  refine .await_bind trivial (fun now _ => ?_) fun _ _ _ h => nomatch h
  refine .ofExcept_bind (fun p' hp' => ?_) fun _ _ _ h => nomatch h
  obtain ⟨op, hop, hmine⟩ : ∃ op : KycOperation, op.apply p = .ok p' ∧
    Stores services type number.value op := by
    cases type with
    | BVN => exact ⟨.recordBvnVerified now hash number.toMasked, hp', .bvn hnumber hhash now⟩
    | NIN => exact ⟨.recordNinVerified now hash number.toMasked, hp', .nin hnumber hhash now⟩
  have hother : 0 < p.version ∨ ∀ now summary, op ≠ .flagForSanctionsReview now summary := .inr hmine.not_flags
  obtain ⟨-, huser, -⟩ := KycProfileRecord.operation_frame hop
  refine (save_entitled hp (hstores op hmine) hop hother).bind (fun st _ hst => ?_) fun _ _ _ _ h => nomatch h
  rintro _ ⟨⟩
  exact ⟨⟨hst rfl, rfl⟩, huser, KycProfileRecord.operation_version hop hother⟩

/-! ## The commands -/

theorem submit_entitled {type : VerificationType} {userId rawNumber : String}
    (hsubmits : Submits (incoming i) userId type rawNumber) (st : Option KycProfileRecord) :
    (entitlementProtocol services start provider incoming).Obeys i (fun _ _ => True)
      (submit services type userId rawNumber) st := by
  unfold submit conclude
  refine (lookUp_looked type userId rawNumber st).bind ?_ fun _ _ _ => trivial
  rintro st ⟨user, p, number, result⟩ h
  obtain ⟨hp, rfl, hnumber, hlooked⟩ := h user p number result rfl
  have hvalue := createIdentifier_value hnumber
  subst hvalue
  show Obeys _ i _ (if _ then _ else _) _
  split
  · rename_i hother
    unfold refuse
    refine (save_entitled hp (.refused hsubmits hlooked (by simpa using hother)) rfl (.inr nofun)).bind
      (fun st _ _ => ?_) fun _ _ _ => trivial
    refine Obeys.quiet_bind (recordDomainEvents_quiet _) (fun _ => ?_) fun _ => trivial
    exact Obeys.quiet_bind (publishAll_quiet _) (fun _ => trivial) fun _ => trivial
  · rename_i hmatched
    have hmatched : result.matched = true := by simpa using hmatched
    refine (verify_entitled hp hnumber fun op hop => .verified hsubmits hlooked hmatched hop).bind (fun st p' h => ?_)
      fun _ _ _ => trivial
    obtain ⟨hp', huser, hversion⟩ := h p' rfl
    refine Obeys.quiet_bind (recordDomainEvents_quiet _) (fun _ => ?_) fun _ => trivial
    refine Obeys.quiet_bind (publishAll_quiet _) (fun _ => ?_) fun _ => trivial
    refine (screenAndFlag_entitled hp' hversion fun found hfound hlisted now => ?_).bind (fun _ _ _ => trivial)
      fun _ _ _ => trivial
    show EntitledTo services start provider (incoming i) p'.userId _
    rw [huser]
    exact .flagged (.inl ⟨hsubmits, hmatched⟩) hlooked hfound hlisted now

theorem manuallyVerify_entitled {type : VerificationType} {staffUserId targetUserId rawNumber reason : String}
    (hoverrides : Overrides (incoming i) targetUserId type rawNumber) (st : Option KycProfileRecord) :
    (entitlementProtocol services start provider incoming).Obeys i (fun _ _ => True)
      (manuallyVerify services type staffUserId targetUserId rawNumber reason) st := by
  unfold manuallyVerify concludeOverride
  refine (lookUp_looked type targetUserId rawNumber st).bind ?_ fun _ _ _ => trivial
  rintro st ⟨user, p, number, result⟩ h
  obtain ⟨hp, rfl, hnumber, hlooked⟩ := h user p number result rfl
  have hvalue := createIdentifier_value hnumber
  subst hvalue
  refine (verify_entitled hp hnumber fun op hop => .overridden hoverrides hlooked hop).bind (fun st p' h => ?_)
    fun _ _ _ => trivial
  obtain ⟨hp', huser, hversion⟩ := h p' rfl
  refine Obeys.quiet_bind (saveEntry_quiet _) (fun _ => ?_) fun _ => trivial
  refine Obeys.quiet_bind (recordDomainEvents_quiet _) (fun _ => ?_) fun _ => trivial
  refine Obeys.quiet_bind (publishAll_quiet _) (fun _ => ?_) fun _ => trivial
  refine (screenAndFlag_entitled hp' hversion fun found hfound hlisted now => ?_).bind (fun _ _ _ => trivial)
    fun _ _ _ => trivial
  show EntitledTo services start provider (incoming i) p'.userId _
  rw [huser]
  exact .flagged (.inr hoverrides) hlooked hfound hlisted now

theorem clearSanctionsFlag_entitled {staff : AccessTokenPayload} {userId : String} {dto : ClearSanctionsFlagDto}
    (hrole : staff.role ∈ complianceRoles)
    (hincoming : incoming i = .request (some staff) (.clearSanctionsFlag userId dto))
    (st : Option KycProfileRecord) :
    (entitlementProtocol services start provider incoming).Obeys i (fun _ _ => True)
      (KycController.clearSanctionsFlag staff userId dto) st := by
  refine (findByUserId_inHand userId st).bind (fun st found hfound => ?_) fun _ _ _ => trivial
  cases found with
  | none => trivial
  | some p =>
    obtain ⟨hp, rfl⟩ := hfound p rfl
    refine .await_bind trivial (fun now _ => ?_) fun _ _ => trivial
    refine .ofExcept_bind (fun p' hp' => ?_) fun _ _ => trivial
    refine (save_entitled hp (.cleared hrole hincoming now) hp' (.inr nofun)).bind (fun _ _ _ => ?_)
      fun _ _ _ => trivial
    refine Obeys.quiet_bind (saveEntry_quiet _) (fun _ => ?_) fun _ => trivial
    exact Obeys.quiet_bind (publishAll_quiet _) (fun _ => trivial) fun _ => trivial

theorem userRegistered_entitled {aggregateId : String} (hincoming : incoming i = .userRegistered aggregateId)
    (st : Option KycProfileRecord) :
    (entitlementProtocol services start provider incoming).Obeys i (fun _ _ => True)
      (UserRegisteredHandler.handle aggregateId) st := by
  refine .await_bind trivial (fun id _ => ?_) fun _ _ => trivial
  refine .await_bind ⟨id, aggregateId, hincoming, rfl⟩ (fun _ _ => ?_) fun _ _ => trivial
  exact (Obeys.quiet (publishAll_quiet _) (Prog.returns_true _) _).mono fun _ _ _ => trivial

theorem KycRoute.handle_entitled {user : AccessTokenPayload} {route : KycRoute}
    (hincoming : incoming i = .request (some user) route) (hroles : RolesGuard.canActivate route.roles user = .ok ())
    (st : Option KycProfileRecord) :
    (entitlementProtocol services start provider incoming).Obeys i (fun _ _ => True)
      (route.handle services user) st := by
  have hrole : route.roles ≠ [] → user.role ∈ route.roles :=
    fun h => (RolesGuard.canActivate_ok hroles).resolve_left h
  cases route with
  | getMyStatus =>
    refine (findByUserId_inHand user.sub st).bind (fun st found _ => ?_) fun _ _ _ => trivial
    cases found <;> trivial
  | clearSanctionsFlag userId dto => exact clearSanctionsFlag_entitled (hrole (List.cons_ne_nil _ _)) hincoming st
  | manuallyVerifyBvn userId dto =>
    exact manuallyVerify_entitled (hincoming ▸ .bvn (hrole (List.cons_ne_nil _ _)) userId dto) st
  | manuallyVerifyNin userId dto =>
    exact manuallyVerify_entitled (hincoming ▸ .nin (hrole (List.cons_ne_nil _ _)) userId dto) st
  | verifyBvn dto => exact submit_entitled (hincoming ▸ .bvn user dto) st
  | verifyNin dto => exact submit_entitled (hincoming ▸ .nin user dto) st

/-- Without a token that passes, and without the role that the route asks for, nothing is called. -/
theorem KycIncoming.program_entitled (st : Option KycProfileRecord) :
    (entitlementProtocol services start provider incoming).Obeys i (fun _ _ => True)
      ((incoming i).program services) st := by
  cases hincoming : incoming i with
  | request user route =>
    refine .ofExcept_bind (fun user' huser => ?_) fun _ _ => trivial
    refine .ofExcept_bind (fun _ hroles => ?_) fun _ _ => trivial
    obtain rfl : user = some user' := by
      cases user with
      | none => cases huser
      | some user =>
        cases huser
        rfl
    exact (KycRoute.handle_entitled hincoming hroles st).bind (fun _ _ _ => trivial) fun _ _ _ => trivial
  | userRegistered aggregateId =>
    exact (userRegistered_entitled hincoming st).bind (fun _ _ _ => trivial) fun _ _ _ => trivial

end

/-! ## Every state of every run -/

/-- `row` is what operations have made of `row0` to which the requests of their authors have entitled. -/
structure Worked (services : Services) (start : Store) (provider : Provider) (incoming : PId → KycIncoming)
    (row0 : KycProfileRecord) (ops : List (PId × KycOperation)) (row : KycProfileRecord) : Prop where
  entitled : ∀ e ∈ ops, EntitledTo services start provider (incoming e.1) row0.userId e.2
  performed : row0.perform (ops.map Prod.snd) = .ok row

/-- A profile that was there at the start, or that registration has created. -/
def Origin (start : Store) (incoming : PId → KycIncoming) (row0 : KycProfileRecord) : Prop :=
  row0 ∈ start.kycProfiles.rows ∨ ∃ i id userId, incoming i = .userRegistered userId ∧
    row0 = KycProfileMapper.toPersistence (KycProfile.createDefault id userId)

section
variable {services : Services} {start : Store} {provider : Provider} {incoming : PId → KycIncoming} {i : PId}
  {row0 row row' : KycProfileRecord} {ops : List (PId × KycOperation)}

theorem Worked.init (row0 : KycProfileRecord) : Worked services start provider incoming row0 [] row0 :=
  ⟨fun _ h => absurd h List.not_mem_nil, rfl⟩

theorem Worked.step (h : Worked services start provider incoming row0 ops row) {op : KycOperation}
    (hentitled : EntitledTo services start provider (incoming i) row.userId op) (hop : row.apply op = .ok row') :
    Worked services start provider incoming row0 (ops ++ [(i, op)]) row' := by
  obtain ⟨-, huser⟩ := KycProfileRecord.perform_frame h.performed
  refine ⟨fun e he => ?_, ?_⟩
  · rcases List.mem_append.1 he with he | he
    · exact h.entitled e he
    · obtain rfl := List.mem_singleton.1 he
      exact huser ▸ hentitled
  · rw [List.map_append]
    exact KycProfileRecord.perform_snoc h.performed hop

/-- `row` has come of `row0` by what those in `moved` have done. -/
def Descends (services : Services) (start : Store) (provider : Provider) (incoming : PId → KycIncoming)
    (moved : PId → Prop) (row0 row : KycProfileRecord) : Prop :=
  ∃ ops, Worked services start provider incoming row0 ops row ∧ ∀ e ∈ ops, moved e.1

theorem Descends.init (moved : PId → Prop) (row0 : KycProfileRecord) :
    Descends services start provider incoming moved row0 row0 :=
  ⟨[], .init row0, fun _ h => absurd h List.not_mem_nil⟩

theorem Descends.mono {moved moved' : PId → Prop} (hmoved : ∀ j, moved j → moved' j)
    (h : Descends services start provider incoming moved row0 row) :
    Descends services start provider incoming moved' row0 row := by
  obtain ⟨ops, hworked, hauthors⟩ := h
  exact ⟨ops, hworked, fun e he => hmoved _ (hauthors e he)⟩

theorem Descends.step {moved : PId → Prop} (h : Descends services start provider incoming moved row0 row)
    {op : KycOperation} (hi : moved i) (hentitled : EntitledTo services start provider (incoming i) row.userId op)
    (hop : row.apply op = .ok row') : Descends services start provider incoming moved row0 row' := by
  obtain ⟨ops, hworked, hauthors⟩ := h
  refine ⟨_, hworked.step hentitled hop, fun e he => ?_⟩
  rcases List.mem_append.1 he with he | he
  · exact hauthors e he
  · obtain rfl := List.mem_singleton.1 he
    exact hi

/-- `base` is the store of some earlier moment, and `moved` are those that have called anything since. -/
structure EntitlementInv (services : Services) (start : Store) (provider : Provider) (incoming : PId → KycIncoming)
    (base s : Store) (sts : PId → Option KycProfileRecord) (moved : PId → Prop) : Prop where
  users : s.users = start.users
  entries : s.sanctionsList = start.sanctionsList
  worked : ∀ row ∈ s.kycProfiles.rows, ∃ row0, Origin base incoming row0 ∧
    Descends services start provider incoming moved row0 row
  kept : ∀ row0 ∈ base.kycProfiles.rows, ∃ row, s.kycProfiles.find? row0.id = some row ∧
    Descends services start provider incoming moved row0 row
  held : ∀ i row, sts i = some row → CopyOf s row

namespace EntitlementInv

variable {base s : Store} {sts : PId → Option KycProfileRecord} {moved : PId → Prop}

/-- From any moment on. -/
theorem init (husers : base.users = start.users) (hentries : base.sanctionsList = start.sanctionsList)
    (hheld : ∀ i row, sts i = some row → CopyOf base row) :
    EntitlementInv services start provider incoming base base sts fun _ => False where
  users := husers
  entries := hentries
  worked row hrow := ⟨row, .inl hrow, .init _ row⟩
  kept row0 hrow0 := ⟨row0, Table.find?_of_mem hrow0, .init _ row0⟩
  held := hheld

theorem mono {moved' : PId → Prop} (hmoved : ∀ j, moved j → moved' j)
    (h : EntitlementInv services start provider incoming base s sts moved) :
    EntitlementInv services start provider incoming base s sts moved' where
  users := h.users
  entries := h.entries
  worked row hrow := by
    obtain ⟨row0, horigin, hdescends⟩ := h.worked row hrow
    exact ⟨row0, horigin, hdescends.mono hmoved⟩
  kept row0 hrow0 := by
    obtain ⟨row, hrow, hdescends⟩ := h.kept row0 hrow0
    exact ⟨row, hrow, hdescends.mono hmoved⟩
  held := h.held

theorem load (h : EntitlementInv services start provider incoming base s sts moved) {found : Option KycProfileRecord}
    (hfound : ∀ row, found = some row → CopyOf s row) :
    EntitlementInv services start provider incoming base s (Function.update sts i found) moved := by
  refine ⟨h.users, h.entries, h.worked, h.kept, fun j row hj => ?_⟩
  rcases update_or sts i j found with ⟨-, he⟩ | ⟨-, he⟩
  · exact hfound row (he ▸ hj)
  · exact h.held j row (he ▸ hj)

/-- A profile that is new, or what has come of the stored one. -/
theorem save (h : EntitlementInv services start provider incoming base s sts moved) {data : KycProfileRecord}
    (hnewer : ∀ cur, s.kycProfiles.find? data.id = some cur → cur.version < data.version)
    (horigin : ∃ row0, Origin base incoming row0 ∧ Descends services start provider incoming moved row0 data)
    (hcomes : ∀ row0 cur, s.kycProfiles.find? data.id = some cur →
      Descends services start provider incoming moved row0 cur →
        Descends services start provider incoming moved row0 data) :
    EntitlementInv services start provider incoming base { s with kycProfiles := s.kycProfiles.put data } sts
      moved where
  users := h.users
  entries := h.entries
  worked row hrow := by
    rcases (Table.mem_put _ _ _).1 hrow with rfl | ⟨hold, -⟩
    · exact horigin
    · exact h.worked row hold
  kept row0 hrow0 := by
    obtain ⟨row, hrow, hdescends⟩ := h.kept row0 hrow0
    by_cases hid : data.id = row0.id
    · exact ⟨data, hid ▸ Table.find?_put_self _ _, hcomes row0 row (hid ▸ hrow) hdescends⟩
    · exact ⟨row, (Table.find?_put_ne _ hid).trans hrow, hdescends⟩
  held j row hj := (h.held j row hj).save hnewer

/-- The profiles have not changed. -/
theorem elsewhere (h : EntitlementInv services start provider incoming base s sts moved) {s' : Store}
    (husers : s'.users = s.users) (hentries : s'.sanctionsList = s.sanctionsList)
    (hprofiles : s'.kycProfiles = s.kycProfiles) :
    EntitlementInv services start provider incoming base s' (Function.update sts i (sts i)) moved := by
  rw [Function.update_eq_self]
  refine ⟨husers.trans h.users, hentries.trans h.entries, ?_, ?_, fun j row hj => ?_⟩
  · rw [hprofiles]
    exact h.worked
  · rw [hprofiles]
    exact h.kept
  · unfold CopyOf
    rw [hprofiles]
    exact h.held j row hj

end EntitlementInv

theorem exec_resolve {a : Ans} {s s' : Store} {type : VerificationType} {number : String}
    {response : FlutterwaveVerificationResponse} (h : exec a (.resolve type number) s = some (.ok response, s')) :
    a = .resolved response ∧ s' = s := by
  cases a with
  | resolved response' =>
    cases h
    exact ⟨rfl, rfl⟩
  | fail e => exact nomatch (exec_fail h).1
  | _ => cases h

/-- The stored row that is saved over is the one in hand. -/
theorem CopyOf.saved_over {s : Store} (h : CopyOf s row) {version : Nat} {data cur : KycProfileRecord}
    {op : KycOperation} (hop : row.apply op = .ok data) (hversion : data.version = version + 1)
    (hcur : s.kycProfiles.find? data.id = some cur) (hv : cur.version = version) : row = cur := by
  obtain ⟨hid, -, hlater⟩ := KycProfileRecord.apply_frame hop
  obtain ⟨cur', hcur', hle, heq⟩ := h
  obtain rfl : cur' = cur := Option.some.inj (hcur'.symm.trans (hid ▸ hcur))
  rcases hlater with hlater | hsame
  · exact heq (by omega)
  · rw [hsame] at hversion
    omega

/-- **Every permitted call keeps the history of every profile.** -/
theorem EntitlementInv.call {base s s' : Store} {sts : PId → Option KycProfileRecord} {moved : PId → Prop} {a : Ans}
    {op : Op} {r : Except Err op.Res} (hI : EntitlementInv services start provider incoming base s sts moved)
    (hok : (entitlementProtocol services start provider incoming).ok i (sts i) op)
    (ha : (scheduleOf (AnsweredBy provider)).allow s i a op)
    (hx : (scheduleOf (AnsweredBy provider)).exec i a op s = some (r, s')) :
    (entitlementProtocol services start provider incoming).yields i (sts i) op r ∧
      EntitlementInv services start provider incoming base s'
        (Function.update sts i ((entitlementProtocol services start provider incoming).next i (sts i) op r))
        fun j => j = i ∨ moved j := by
  have h : EntitlementInv services start provider incoming base s sts fun j => j = i ∨ moved j :=
    hI.mono fun _ => .inr
  rcases r with e | v
  · obtain rfl := exec_error hx
    have hnext : (entitlementProtocol services start provider incoming).next i (sts i) op (.error e) = sts i := by
      cases op with
      | kycProfile q => cases q <;> rfl
      | _ => rfl
    have hyields : (entitlementProtocol services start provider incoming).yields i (sts i) op (.error e) := by
      cases op with
      | kycProfile q => cases q <;> trivial
      | _ => trivial
    rw [hnext]
    exact ⟨hyields, h.elsewhere rfl rfl rfl⟩
  cases op with
  | kycProfile q =>
    cases q with
    | findUnique userId =>
      obtain ⟨rfl, rfl⟩ := exec_findProfile hx
      exact ⟨fun row hrow => by simpa using List.find?_some hrow,
        h.load fun row hrow => copyOf_stored (List.mem_of_find?_eq_some hrow)⟩
    | create data =>
      obtain ⟨hnone, rfl⟩ := exec_createProfile hx
      have hnewer : ∀ cur, s.kycProfiles.find? data.id = some cur → cur.version < data.version := by
        intro cur hcur
        rw [hnone] at hcur
        cases hcur
      have hcomes : ∀ row0 cur, s.kycProfiles.find? data.id = some cur →
          Descends services start provider incoming (fun j => j = i ∨ moved j) row0 cur →
            Descends services start provider incoming (fun j => j = i ∨ moved j) row0 data := by
        intro row0 cur hcur
        rw [hnone] at hcur
        cases hcur
      exact ⟨trivial, (h.save hnewer ⟨data, .inr ⟨i, hok⟩, .init _ data⟩ hcomes).elsewhere rfl rfl rfl⟩
    | updateMany version data =>
      obtain ⟨hversion, row, op, hst, hentitled, hop⟩ := hok
      refine ⟨trivial, ?_⟩
      rcases exec_updateProfile hx with ⟨rfl, rfl, -⟩ | ⟨rfl, rfl, cur, hcur, hv⟩
      · exact h.load fun row hrow => h.held i row hrow
      · obtain rfl := (h.held i row hst).saved_over hop hversion hcur hv
        have hnewer : ∀ cur, s.kycProfiles.find? data.id = some cur → cur.version < data.version := by
          intro cur hcur'
          obtain rfl : row = cur := Option.some.inj (hcur.symm.trans hcur')
          omega
        have hcomes : ∀ row0 cur, s.kycProfiles.find? data.id = some cur →
            Descends services start provider incoming (fun j => j = i ∨ moved j) row0 cur →
              Descends services start provider incoming (fun j => j = i ∨ moved j) row0 data := by
          intro row0 cur hcur' hdescends
          obtain rfl : row = cur := Option.some.inj (hcur.symm.trans hcur')
          exact hdescends.step (.inl rfl) hentitled hop
        obtain ⟨row0, horigin, hdescends⟩ := h.worked row (Table.mem_of_find? hcur)
        refine (h.save hnewer ⟨row0, horigin, hcomes row0 row hcur hdescends⟩ hcomes).load fun row' hrow' => ?_
        cases hrow'
        exact copyOf_stored ((Table.mem_put _ _ _).2 (.inl rfl))
  | createAuditLogEntry data =>
    obtain ⟨-, rfl⟩ := exec_createEntry hx
    exact ⟨trivial, h.elsewhere rfl rfl rfl⟩
  | findUser id =>
    have hfound := exec_findUser hx
    obtain rfl := exec_read rfl hx
    exact ⟨hfound.trans (by rw [h.users]), h.elsewhere rfl rfl rfl⟩
  | findAllIndividuals =>
    have hfound := exec_findAllIndividuals hx
    obtain rfl := exec_read rfl hx
    exact ⟨hfound.trans h.entries, h.elsewhere rfl rfl rfl⟩
  | resolve type number =>
    obtain ⟨rfl, rfl⟩ := exec_resolve hx
    exact ⟨ha, h.elsewhere rfl rfl rfl⟩
  | _ =>
    obtain rfl := exec_read rfl hx
    exact ⟨trivial, h.elsewhere rfl rfl rfl⟩

/-- From any reached state to any later one. -/
theorem EntitlementInv.reach {sts : PId → Option KycProfileRecord}
    {c c' : Config Op.Res Err Store Err (Option KycStatusResponseDto)}
    (h : EntitlementInv services start provider incoming c.store c.store sts fun _ => False)
    (hobeys : ∀ i, (entitlementProtocol services start provider incoming).Obeys i (fun _ _ => True) (c.pool i)
      (sts i))
    (hr : (scheduleOf (AnsweredBy provider)).Reach c c') :
    ∃ sts' moved, EntitlementInv services start provider incoming c.store c'.store sts' moved ∧
      (∀ i, (entitlementProtocol services start provider incoming).Obeys i (fun _ _ => True) (c'.pool i) (sts' i)) ∧
      ∀ i, moved i → c'.pool i ≠ c.pool i :=
  reach_moving (fun h hok ha hx => h.call hok ha hx) (fun _ h => ⟨h.users, h.entries, h.worked, h.kept, h.held⟩) h
    hobeys hr

theorem EntitlementInv.of_reach {c : Config Op.Res Err Store Err (Option KycStatusResponseDto)}
    (hr : (scheduleOf (AnsweredBy provider)).Reach ⟨start, fun i => (incoming i).program services⟩ c) :
    ∃ sts moved, EntitlementInv services start provider incoming start c.store sts moved ∧
      ∀ i, (entitlementProtocol services start provider incoming).Obeys i (fun _ _ => True) (c.pool i) (sts i) := by
  have hinit : EntitlementInv services start provider incoming start start (fun _ => none) fun _ => False :=
    .init rfl rfl fun _ _ h => nomatch h
  obtain ⟨sts, moved, hinv, hobeys, -⟩ :=
    EntitlementInv.reach hinit (fun _ => KycIncoming.program_entitled none) hr
  exact ⟨sts, moved, hinv, hobeys⟩

end

/-- **Every profile is what permitted operations have made of it.** Whatever requests and registrations are handled at
once, in any order and with any failures: the row of every profile comes from one that was there at the start, or that
registration has created for its user, by operations to each of which the request of its author was entitled - by whose
number it carries, by what the provider has said of it, by the list, or by a compliance role. -/
theorem profiles_written_by_authority (services : Services) (start : Store) (provider : Provider)
    (incoming : PId → KycIncoming) {c : Config Op.Res Err Store Err (Option KycStatusResponseDto)}
    (hr : (scheduleOf (AnsweredBy provider)).Reach ⟨start, fun i => (incoming i).program services⟩ c) :
    ∀ row ∈ c.store.kycProfiles.rows, ∃ row0 ops, Origin start incoming row0 ∧
      Worked services start provider incoming row0 ops row := by
  obtain ⟨sts, moved, hinv, -⟩ := EntitlementInv.of_reach hr
  intro row hrow
  obtain ⟨row0, horigin, ops, h, -⟩ := hinv.worked row hrow
  exact ⟨row0, ops, horigin, h⟩

/-- Ada submits her BVN, and an officer puts Bola's through. -/
def sampleVerifications (i : PId) : KycIncoming :=
  if i = 0 then .request (some ⟨"ada", "ada@kudi.africa", .CUSTOMER⟩) (.verifyBvn ⟨"22123456789"⟩)
  else .request (some ⟨"staff", "officer@kudi.africa", .COMPLIANCE_OFFICER⟩)
    (.manuallyVerifyBvn "bola" ⟨"22987654321", "Called the customer back"⟩)

/-- Every number is Ada Obi's. -/
def sampleProvider : Provider := fun _ _ response => response = sampleResponse

instance (type : VerificationType) (number : String) (response : FlutterwaveVerificationResponse) :
    Decidable (sampleProvider type number response) := inferInstanceAs (Decidable (_ = _))

theorem sampleVerifications_reach : ∃ c, (scheduleOf (AnsweredBy sampleProvider)).Reach
      ⟨sampleStore, fun i => (sampleVerifications i).program sampleServices⟩ c ∧
    c.store.kycProfiles.rows.map (fun row => (row.userId, row.bvnVerifiedAt, row.bvnHash)) =
      [("ada", some 0, some "#22123456789"), ("bola", some 0, some "#22987654321")] := by
  have hplay : ((scheduleOf (AnsweredBy sampleProvider)).play
      (System.calls 0 (sampleVerification "a") ++ System.calls 1 (sampleVerification "b"))
      ⟨sampleStore, fun i => (sampleVerifications i).program sampleServices⟩).any fun c =>
        c.store.kycProfiles.rows.map (fun row => (row.userId, row.bvnVerifiedAt, row.bvnHash)) =
          [("ada", some 0, some "#22123456789"), ("bola", some 0, some "#22987654321")] := by
    decide +kernel
  obtain ⟨c, hc, hseen⟩ := System.play_seen _ hplay
  exact ⟨c, System.reach_of_play _ hc, hseen⟩

theorem profiles_written_by_authority_sample : ∃ c : Config Op.Res Err Store Err (Option KycStatusResponseDto),
    c.store.kycProfiles.rows.map (fun row => (row.userId, row.bvnVerifiedAt, row.bvnHash)) =
      [("ada", some 0, some "#22123456789"), ("bola", some 0, some "#22987654321")] ∧
    ∀ row ∈ c.store.kycProfiles.rows, ∃ row0 ops, Origin sampleStore sampleVerifications row0 ∧
      Worked sampleServices sampleStore sampleProvider sampleVerifications row0 ops row := by
  obtain ⟨c, hr, hseen⟩ := sampleVerifications_reach
  exact ⟨c, hseen, profiles_written_by_authority sampleServices sampleStore sampleProvider sampleVerifications hr⟩

/-! ## What has been verified, and what is flagged -/

/-- Somebody may have the number verified for `userId`: the customer, whose registered name the provider's record of it
has; or compliance, where the provider has a record of it at all. -/
def Vouched (services : Services) (start : Store) (provider : Provider) (incoming : KycIncoming) (userId : String)
    (type : VerificationType) (number : String) : Prop :=
  ∃ user result, LookedUp services start provider type userId number user result ∧
    (Submits incoming userId type number ∧ result.matched = true ∨ Overrides incoming userId type number)

/-- The request has had a name verified that is on the list. -/
def ListsName (services : Services) (start : Store) (provider : Provider) (incoming : KycIncoming)
    (userId : String) : Prop :=
  ∃ type number user result, LookedUp services start provider type userId number user result ∧
    (Submits incoming userId type number ∧ result.matched = true ∨ Overrides incoming userId type number) ∧
    ∃ entry ∈ start.sanctionsList, Hits services (nameOf result user) entry

/-- Compliance clears the flag. -/
def ClearsFlag (incoming : KycIncoming) (userId : String) : Prop :=
  ∃ staff dto, staff.role ∈ complianceRoles ∧ incoming = .request (some staff) (.clearSanctionsFlag userId dto)

section
variable {services : Services} {start : Store} {provider : Provider} {incoming : PId → KycIncoming}
  {row0 row : KycProfileRecord} {ops : List (PId × KycOperation)} {userId : String} {op : KycOperation}
  {type : VerificationType} {request : KycIncoming}

theorem EntitledTo.vouched (h : EntitledTo services start provider request userId op) (hop : op.verifies = some type) :
    ∃ number, Vouched services start provider request userId type number ∧ Stores services type number op := by
  cases h with
  | verified hsubmits hlooked hmatched hstores =>
    obtain rfl := Option.some.inj (hstores.verifies.symm.trans hop)
    exact ⟨_, ⟨_, _, hlooked, .inl ⟨hsubmits, hmatched⟩⟩, hstores⟩
  | overridden hoverrides hlooked hstores =>
    obtain rfl := Option.some.inj (hstores.verifies.symm.trans hop)
    exact ⟨_, ⟨_, _, hlooked, .inr hoverrides⟩, hstores⟩
  | _ => cases hop

theorem EntitledTo.lists {now : Nat} {summary : String}
    (h : EntitledTo services start provider request userId (.flagForSanctionsReview now summary)) :
    ListsName services start provider request userId := by
  cases h with
  | verified _ _ _ hstores => cases hstores
  | overridden _ _ hstores => cases hstores
  | flagged hwho hlooked hfound hlisted =>
    obtain ⟨entry, hentry⟩ := List.exists_mem_of_ne_nil _ hlisted
    rw [hfound, List.mem_filter, decide_eq_true_iff] at hentry
    exact ⟨_, _, _, _, hlooked, hwho, entry, hentry⟩

theorem EntitledTo.clears {now : Nat} {staffUserId reason : String}
    (h : EntitledTo services start provider request userId (.clearSanctionsFlag now staffUserId reason)) :
    ClearsFlag request userId := by
  cases h with
  | verified _ _ _ hstores => cases hstores
  | overridden _ _ hstores => cases hstores
  | cleared hrole hincoming => exact ⟨_, _, hrole, hincoming⟩

/-- A verified number is what was there, or somebody has vouched for it. -/
theorem Worked.verified (h : Worked services start provider incoming row0 ops row) (type : VerificationType) :
    (row0.verifiedAt type ≠ none → row.SameNumber row0 type) ∧
      (row0.verifiedAt type = none → row.verifiedAt type ≠ none → ∃ e ∈ ops, ∃ number,
        Vouched services start provider (incoming e.1) row0.userId type number ∧ Shows services type number row) := by
  constructor
  · intro hthere
    refine KycProfileRecord.perform_invariant (M := fun row => row.SameNumber row0 type)
      (fun op _ row row' hop hrow => ?_) h.performed ⟨rfl, rfl, rfl⟩
    have hother : op.verifies ≠ some type := fun hverifies =>
      hthere (hrow.1.symm.trans (KycProfileRecord.apply_verifies hop hverifies))
    obtain ⟨hat, hhash, hmask⟩ := KycProfileRecord.apply_other hop hother
    exact ⟨hat.trans hrow.1, hhash.trans hrow.2.1, hmask.trans hrow.2.2⟩
  · intro hnone
    refine KycProfileRecord.perform_invariant (M := fun row => row.verifiedAt type ≠ none →
      ∃ e ∈ ops, ∃ number,
      Vouched services start provider (incoming e.1) row0.userId type number ∧ Shows services type number row)
      (fun op hmem row row' hop hrow hverified => ?_) h.performed (absurd hnone)
    obtain ⟨e, he, rfl⟩ := List.mem_map.1 hmem
    by_cases hverifies : e.2.verifies = some type
    · obtain ⟨number, hvouched, hstores⟩ := (h.entitled e he).vouched hverifies
      exact ⟨e, he, number, hvouched, hstores.shows hop⟩
    · obtain ⟨hat, hhash, hmask⟩ := KycProfileRecord.apply_other hop hverifies
      obtain ⟨e', he', number, hvouched, hshows⟩ := hrow (hat ▸ hverified)
      exact ⟨e', he', number, hvouched, hshows.same hhash hmask⟩

/-- An open flag is still open, or has been cleared. -/
theorem Worked.still_open (h : Worked services start provider incoming row0 ops row)
    (hopen : row0.isSanctionsFlagOpen = true) :
    row.isSanctionsFlagOpen = true ∨ ∃ e ∈ ops, ClearsFlag (incoming e.1) row0.userId := by
  refine KycProfileRecord.perform_invariant (M := fun row => row.isSanctionsFlagOpen = true ∨
    ∃ e ∈ ops, ClearsFlag (incoming e.1) row0.userId) (fun op hmem row row' hop hrow => ?_) h.performed (.inl hopen)
  obtain ⟨e, he, rfl⟩ := List.mem_map.1 hmem
  rcases hrow with hrow | hcleared
  · rcases KycProfileRecord.apply_open hop hrow with hopen | ⟨now, staff, reason, hclear⟩
    · exact .inl hopen
    · have hentitled := h.entitled e he
      rw [hclear] at hentitled
      exact .inr ⟨e, he, hentitled.clears⟩
  · exact .inr hcleared

/-- An open flag was open already, or a listed name has been verified. -/
theorem Worked.opened (h : Worked services start provider incoming row0 ops row)
    (hopen : row.isSanctionsFlagOpen = true) :
    row0.isSanctionsFlagOpen = true ∨
      ∃ e ∈ ops, ListsName services start provider (incoming e.1) row0.userId := by
  refine KycProfileRecord.perform_invariant (M := fun row => row.isSanctionsFlagOpen = true →
    row0.isSanctionsFlagOpen = true ∨ ∃ e ∈ ops, ListsName services start provider (incoming e.1) row0.userId)
    (fun op hmem row row' hop hrow hopen => ?_) h.performed .inl hopen
  obtain ⟨e, he, rfl⟩ := List.mem_map.1 hmem
  rcases KycProfileRecord.open_of_apply hop hopen with hopen | ⟨now, summary, hflag⟩
  · exact hrow hopen
  · have hentitled := h.entitled e he
    rw [hflag] at hentitled
    exact .inr ⟨e, he, hentitled.lists⟩

end

/-- **A number is verified, and a flag cleared, by authority alone.** From any reached state to any later one: a profile
has a verified number that it had before, or one that its own user has submitted and of which the provider has a record
with that user's registered name, or one that compliance has put through, and the hash and the mask are that number's.
No profile disappears, and what has once been verified stays as it is. An open flag stays open unless a compliance role
clears it meanwhile, and none opens but for a name on the list that somebody has verified meanwhile. -/
theorem only_authority_verifies_or_clears (services : Services) (start : Store) (provider : Provider)
    (incoming : PId → KycIncoming) {c c' : Config Op.Res Err Store Err (Option KycStatusResponseDto)}
    (hr : (scheduleOf (AnsweredBy provider)).Reach ⟨start, fun i => (incoming i).program services⟩ c)
    (hlater : (scheduleOf (AnsweredBy provider)).Reach c c') :
    (∀ row' ∈ c'.store.kycProfiles.rows, ∀ type, row'.verifiedAt type ≠ none →
      (∃ row ∈ c.store.kycProfiles.rows, row.id = row'.id ∧ row.verifiedAt type ≠ none ∧
        row'.SameNumber row type) ∨
      ∃ i number, c'.pool i ≠ c.pool i ∧ Vouched services start provider (incoming i) row'.userId type number ∧
        Shows services type number row') ∧
    (∀ row ∈ c.store.kycProfiles.rows, ∃ row', c'.store.kycProfiles.find? row.id = some row' ∧
      row'.userId = row.userId ∧ (∀ type, row.verifiedAt type ≠ none → row'.SameNumber row type) ∧
      (row.isSanctionsFlagOpen = true → row'.isSanctionsFlagOpen = true ∨
        ∃ i, c'.pool i ≠ c.pool i ∧ ClearsFlag (incoming i) row.userId)) ∧
    ∀ row' ∈ c'.store.kycProfiles.rows, row'.isSanctionsFlagOpen = true →
      (∃ row ∈ c.store.kycProfiles.rows, row.id = row'.id ∧ row.isSanctionsFlagOpen = true) ∨
        ∃ i, c'.pool i ≠ c.pool i ∧ ListsName services start provider (incoming i) row'.userId := by
  obtain ⟨sts, moved, hinv, hobeys⟩ := EntitlementInv.of_reach hr
  obtain ⟨sts', moved', hinv', -, hmoved⟩ :=
    EntitlementInv.reach (.init hinv.users hinv.entries hinv.held) hobeys hlater
  refine ⟨fun row' hrow' type hverified => ?_, fun row hrow => ?_, fun row' hrow' hopen => ?_⟩
  · obtain ⟨row, horigin, ops, h, hauthors⟩ := hinv'.worked row' hrow'
    obtain ⟨hid, huser⟩ := KycProfileRecord.perform_frame h.performed
    by_cases hnone : row.verifiedAt type = none
    · obtain ⟨e, he, number, hvouched, hshows⟩ := (h.verified type).2 hnone hverified
      exact .inr ⟨e.1, number, hmoved _ (hauthors e he), huser ▸ hvouched, hshows⟩
    · rcases horigin with hthere | ⟨i, id, userId, -, rfl⟩
      · exact .inl ⟨row, hthere, hid.symm, hnone, (h.verified type).1 hnone⟩
      · cases type <;> exact absurd rfl hnone
  · obtain ⟨row', hrow', ops, h, hauthors⟩ := hinv'.kept row hrow
    obtain ⟨-, huser⟩ := KycProfileRecord.perform_frame h.performed
    refine ⟨row', hrow', huser, fun type => (h.verified type).1, fun hopen => ?_⟩
    rcases h.still_open hopen with hstill | ⟨e, he, hclears⟩
    · exact .inl hstill
    · exact .inr ⟨e.1, hmoved _ (hauthors e he), hclears⟩
  · obtain ⟨row, horigin, ops, h, hauthors⟩ := hinv'.worked row' hrow'
    obtain ⟨hid, huser⟩ := KycProfileRecord.perform_frame h.performed
    rcases h.opened hopen with hthere | ⟨e, he, hlists⟩
    · rcases horigin with hrow | ⟨i, id, userId, -, rfl⟩
      · exact .inl ⟨row, hrow, hid.symm, hthere⟩
      · cases hthere
    · exact .inr ⟨e.1, hmoved _ (hauthors e he), huser ▸ hlists⟩

theorem only_authority_verifies_or_clears_sample : ∃ row : KycProfileRecord, row.userId = "ada" ∧
    row.bvnHash = some "#22123456789" ∧
    ∃ i number, Vouched sampleServices sampleStore sampleProvider (sampleVerifications i) "ada" .BVN number ∧
      Shows sampleServices .BVN number row := by
  obtain ⟨c, hr, hseen⟩ := sampleVerifications_reach
  obtain ⟨hverified, -, -⟩ := only_authority_verifies_or_clears sampleServices sampleStore sampleProvider
    sampleVerifications .refl hr
  have hmem : ("ada", some 0, some "#22123456789") ∈
      c.store.kycProfiles.rows.map fun row => (row.userId, row.bvnVerifiedAt, row.bvnHash) := by
    rw [hseen]
    decide
  obtain ⟨row, hrow, he⟩ := List.mem_map.1 hmem
  simp only [Prod.mk.injEq] at he
  obtain ⟨huser, hat, hhash⟩ := he
  have hnew : ∀ row0 ∈ sampleStore.kycProfiles.rows, row0.verifiedAt .BVN = none := by decide
  have hat' : row.verifiedAt .BVN ≠ none := by simp [KycProfileRecord.verifiedAt, hat]
  rcases hverified row hrow .BVN hat' with ⟨row0, hrow0, -, hthere, -⟩ | ⟨i, number, -, hvouched, hshows⟩
  · exact absurd (hnew row0 hrow0) hthere
  · exact ⟨row, huser, hhash, i, number, huser ▸ hvouched, hshows⟩

end Kudi.Compliance
