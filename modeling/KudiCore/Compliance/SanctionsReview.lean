import KudiCore.Compliance.Watchlist
import KudiCore.Compliance.Writes

/-!
# Screening a verified name

| here | there |
| --- | --- |
| `JustSaved`   | the profile in hand as the verification handlers hold it: saved, and its events pulled |
| `Reviewed`    | what a screening should leave, whatever it finds |
| `beforeScreening` | a manual override, as far as its call of `screenAndFlag` |
| `ScreensAs`   | the name that it hands on |

A flag that is open stays as it is, and is saved all the same: the save expects a version that nobody has written, and
the screening throws (`screenAndFlag_served`). The name that staff let through is the provider's only where it matches
the registered one.
-/

namespace Kudi.Compliance

open Interleave

def KycProfileRecord.isSanctionsFlagOpen (r : KycProfileRecord) : Bool :=
  r.sanctionsFlaggedAt.isSome && r.sanctionsClearedAt.isNone

/-- Somebody on the list has that name. -/
def Listed (services : Services) (fullName : String) (s : Store) : Prop :=
  ∃ entry ∈ s.sanctionsList, Hits services fullName entry

instance (services : Services) (fullName : String) (s : Store) : Decidable (Listed services fullName s) :=
  inferInstanceAs (Decidable (∃ entry ∈ _, _))

structure JustSaved (p : KycProfile) (s : Store) : Prop where
  stored : s.kycProfiles.find? p.id = some (KycProfileMapper.toPersistence p)
  version : 0 < p.version
  pulled : p.domainEvents = []

instance (p : KycProfile) (s : Store) : Decidable (JustSaved p s) :=
  decidable_of_iff (s.kycProfiles.find? p.id = some (KycProfileMapper.toPersistence p) ∧ 0 < p.version ∧
    p.domainEvents = [])
    ⟨fun ⟨h, h', h''⟩ => ⟨h, h', h''⟩, fun ⟨h, h', h''⟩ => ⟨h, h', h''⟩⟩

/-- It returns, with one entry that says whether the name is listed, and the flag open if it is or was. -/
structure Reviewed (services : Services) (p : KycProfile) (fullName : String) (s : Store) (x : Except Err KycProfile)
    (s' : Store) : Prop where
  returns : ∃ p', x = .ok p'
  entry : ∃ e, s'.kycAuditLog.rows = s.kycAuditLog.rows ++ [e] ∧ e.userId = p.userId ∧ e.kycProfileId = p.id ∧
    e.eventType = .SANCTIONS_SCREENING ∧ (e.outcome = some .FAILED ↔ Listed services fullName s)
  flag : ∃ r, s'.kycProfiles.find? p.id = some r ∧
    (r.isSanctionsFlagOpen = true ↔ Listed services fullName s ∨ p.isSanctionsFlagOpen = true)

section
variable {services : Services} {i : PId} {p : KycProfile} {fullName : String} {s s' : Store} {tr : List Call}

theorem JustSaved.after (h : JustSaved p s) {logged : List KycAuditLogEntry} (hs : Writes [] logged s s') :
    JustSaved p s' := ⟨hs.same_profiles ▸ h.stored, h.version, h.pulled⟩

/-- The handlers come to the screening with such a profile. -/
theorem verify_justSaved {type : VerificationType} {number : Identifier} {p p' : KycProfile}
    (h : Run anySchedule TimePasses i (verify services type p number) s tr (.ok p') s') : JustSaved (pulled p') s' := by
  rcases verify_run h with ⟨⟨e, he⟩, -⟩ | ⟨now, hash, masked, p'', he, hp'', -, ⟨ms, rfl⟩⟩
  · cases he
  · cases he
    exact ⟨Table.find?_put_self _ _, (recordVerified_ok hp'').2.2.1, rfl⟩

theorem screen_served {x : Except Err (List SanctionsListEntry)}
    (h : Run anySchedule TimePasses i (OfacSanctionsScreeningProvider.screen services fullName) s tr x s')
    (hok : ∀ call ∈ tr, Served call) :
    Writes [] [] s s' ∧ ∃ found, x = .ok found ∧ (found.isEmpty = true ↔ ¬ Listed services fullName s) := by
  refine ⟨writes_of_reads (OfacSanctionsScreeningProvider.screen_calls
    (T := fun op => op.writes = false) rfl fullName) h, ?_⟩
  cases x with
  | error e =>
    have hcalls : (OfacSanctionsScreeningProvider.screen services fullName).Calls fun op => op.ofProvider = false :=
      OfacSanctionsScreeningProvider.screen_calls (T := fun op => op.ofProvider = false) rfl fullName
    have hu : (OfacSanctionsScreeningProvider.screen services fullName).Unfailing := by
      show Prog.Unfailing (if _ then _ else _)
      split
      · exact .bind (.await _) fun _ => trivial
      · trivial
    obtain ⟨call, hcall, hrejected⟩ := h.rejected hu
    exact absurd (hok call hcall hrejected) (by rw [h.calls hcalls call hcall]; exact Bool.false_ne_true)
  | ok found =>
    refine ⟨found, rfl, ?_⟩
    rw [reports_iff.1 ⟨i, s, tr, s', rfl, h⟩, List.isEmpty_iff, List.filter_eq_nil_iff, Listed]
    simp only [decide_eq_true_iff, not_exists, not_and]

/-! ## One screening -/

theorem flagForSanctionsReview_closed (hopen : p.isSanctionsFlagOpen = false) (now : Nat) (summary : String) :
    (p.flagForSanctionsReview now summary).id = p.id ∧ (p.flagForSanctionsReview now summary).userId = p.userId ∧
      (p.flagForSanctionsReview now summary).version = p.version + 1 ∧
      (p.flagForSanctionsReview now summary).isSanctionsFlagOpen = true := by
  unfold KycProfile.flagForSanctionsReview
  rw [if_neg (by rw [hopen]; exact Bool.false_ne_true)]
  exact ⟨rfl, rfl, rfl, rfl⟩

theorem flagForSanctionsReview_open (hopen : p.isSanctionsFlagOpen = true) (now : Nat) (summary : String) :
    p.flagForSanctionsReview now summary = p := if_pos hopen

/-- **What a screening writes**: an entry; a flag and an entry; or, of a name whose flag is open, nothing. -/
theorem screenAndFlag_served {x : Except Err KycProfile} (hsaved : JustSaved p s)
    (h : Run anySchedule TimePasses i (SanctionsScreeningService.screenAndFlag services p fullName) s tr x s')
    (hok : ∀ call ∈ tr, Served call) :
    (¬ Listed services fullName s ∧ x = .ok p ∧
      ∃ id, Writes [] [.forSanctionsScreening id p.userId p.id .PASSED none none] s s') ∨
    (Listed services fullName s ∧ p.isSanctionsFlagOpen = false ∧ ∃ now summary id,
      x = .ok (pulled (p.flagForSanctionsReview now summary)) ∧
      Writes [KycProfileMapper.toPersistence (p.flagForSanctionsReview now summary)]
        [.forSanctionsScreening id p.userId p.id .FAILED (some s!"Candidate match(es): {summary}") none] s s') ∨
    (Listed services fullName s ∧ p.isSanctionsFlagOpen = true ∧
      x = .error (PrismaKycProfileRepository.modifiedConcurrently p.id) ∧ Writes [] [] s s') := by
  unfold SanctionsScreeningService.screenAndFlag at h
  rcases bind_served h hok with ⟨found, s1, tr1, tr2, h1, hok1, h2, hok2, -⟩ | ⟨e, -, h1⟩
  swap
  · obtain ⟨-, found, he, -⟩ := screen_served h1 hok
    cases he
  obtain ⟨hread, found', he, hlisted⟩ := screen_served h1 hok1
  cases he
  have hsaved1 := hsaved.after hread
  by_cases hempty : found.isEmpty = true
  · rw [if_pos hempty] at h2
    obtain ⟨s2, rest, ⟨id, hlog⟩, ⟨-, rfl, rfl⟩, -⟩ := then_served h2 hok2 saveEntry_served
    exact .inl ⟨hlisted.1 hempty, rfl, id, hread.trans hlog⟩
  · rw [if_neg hempty] at h2
    have hlisted : Listed services fullName s := not_not.1 fun hnot => hempty (hlisted.2 hnot)
    refine .inr ?_
    obtain ⟨s2, a, now, s3, rest, hs, hx, h3, hok3⟩ := await_served rfl h2 hok2
    obtain rfl := exec_read rfl hx
    have hread2 := hread.trans (.of_passes hs)
    have hsaved2 := hsaved.after hread2
    cases hopen : p.isSanctionsFlagOpen with
    | true =>
      -- The flag stays as it is, and so does the version.
      simp only [flagForSanctionsReview_open hopen] at h3
      refine .inr ⟨hlisted, rfl, ?_⟩
      rcases bind_served h3 hok3 with ⟨_, s4, tr3, tr4, h4, hok4, -⟩ | ⟨e, rfl, h4⟩
      · rcases save_served hsaved2.version hsaved2.stored h4 hok4 with ⟨hversion, -⟩ | ⟨-, he, -⟩
        · exact absurd hversion (Nat.succ_ne_self _)
        · cases he
      · rcases save_served hsaved2.version hsaved2.stored h4 hok3 with ⟨hversion, -⟩ | ⟨-, he, hwrites⟩
        · exact absurd hversion (Nat.succ_ne_self _)
        · cases he
          exact ⟨rfl, hread2.trans hwrites⟩
    | false =>
      obtain ⟨hid, huser, hversion, -⟩ :=
        flagForSanctionsReview_closed hopen now (SanctionsScreeningService.matchSummary found)
      have hstored := hsaved2.stored
      rw [← hid] at hstored
      refine .inl ⟨hlisted, rfl, now, SanctionsScreeningService.matchSummary found, ?_⟩
      obtain ⟨s4, rest4, hwrites, h4, hok4⟩ :=
        then_served h3 hok3 fun h hok => save_next hversion hstored h hok
      obtain ⟨s5, rest5, ⟨id, hlog⟩, h5, hok5⟩ := then_served h4 hok4 saveEntry_served
      obtain ⟨s6, rest6, hpub, ⟨-, rfl, rfl⟩, -⟩ := then_served h5 hok5 fun h _ => publishAll_served h
      have hall := ((hread2.trans hwrites).trans hlog).trans hpub
      simp only [pulled, hid, huser] at hall
      exact ⟨id, rfl, hall⟩

/-- **A screening leaves what it should, unless the name is listed and the flag already open.** -/
theorem reviewed_iff {x : Except Err KycProfile} (hsaved : JustSaved p s)
    (h : Run anySchedule TimePasses i (SanctionsScreeningService.screenAndFlag services p fullName) s tr x s')
    (hok : ∀ call ∈ tr, call.rejected = false) :
    Reviewed services p fullName s x s' ↔ ¬ (Listed services fullName s ∧ p.isSanctionsFlagOpen = true) := by
  have hserved : ∀ call ∈ tr, Served call := fun call hcall hrejected =>
    absurd hrejected (by rw [hok call hcall]; exact Bool.false_ne_true)
  constructor
  · rintro ⟨⟨p', hreturns⟩, -⟩ ⟨hlisted, hopen⟩
    rcases screenAndFlag_served hsaved h hserved with ⟨hnot, -⟩ | ⟨-, hclosed, -⟩ | ⟨-, -, hthrows, -⟩
    · exact hnot hlisted
    · exact Bool.false_ne_true (hclosed.symm.trans hopen)
    · cases hreturns.symm.trans hthrows
  · intro hcond
    rcases screenAndFlag_served hsaved h hserved with ⟨hnot, rfl, id, hwrites⟩ |
      ⟨hlisted, hclosed, now, summary, id, rfl, hwrites⟩ | ⟨hlisted, hopen, -⟩
    · refine ⟨⟨p, rfl⟩, ⟨_, hwrites.log, rfl, rfl, rfl, ?_⟩, _, (hsaved.after hwrites).stored, ?_⟩
      · refine ⟨fun he => ?_, fun hlisted => absurd hlisted hnot⟩
        cases he
      · exact ⟨.inr, fun hor => hor.resolve_left hnot⟩
    · obtain ⟨hid, -, -, hopen⟩ := flagForSanctionsReview_closed hclosed now summary
      have hstored : s'.kycProfiles.find? p.id =
          some (KycProfileMapper.toPersistence (p.flagForSanctionsReview now summary)) := by
        rw [hwrites.profiles, ← hid]
        exact Table.find?_put_self _ _
      exact ⟨⟨_, rfl⟩, ⟨_, hwrites.log, rfl, rfl, rfl, fun _ => hlisted, fun _ => rfl⟩, _, hstored,
        fun _ => .inl hlisted, fun _ => hopen⟩
    · exact absurd ⟨hlisted, hopen⟩ hcond

end

/-! ### A namesake on the list -/

/-- Ada, her BVN verified; `flaggedAt` is when her name was found. -/
def verifiedAda (flaggedAt : Option Nat) : KycProfile :=
  { id := "profile-a", userId := "ada", tier := .TIER_2, bvnVerifiedAt := some 0, bvnHash := some "#22123456789",
    bvnMasked := some "*******6789", ninVerifiedAt := none, ninHash := none, ninMasked := none,
    sanctionsFlaggedAt := flaggedAt, sanctionsClearedAt := none, version := 2, domainEvents := [] }

def namesakeStore (flaggedAt : Option Nat) : Store :=
  { sampleStore with
    kycProfiles := sampleStore.kycProfiles.put (KycProfileMapper.toPersistence (verifiedAda flaggedAt))
    sanctionsList := [⟨"sdn-3", "OBI, Ada", some "SDNT"⟩] }

/-- Her name is found, and flagged. -/
theorem reviewed_iff_sample : ∃ tr x s',
    Run anySchedule TimePasses 0 (SanctionsScreeningService.screenAndFlag sampleServices (verifiedAda none) "Ada Obi")
      (namesakeStore none) tr x s' ∧
    Reviewed sampleServices (verifiedAda none) "Ada Obi" (namesakeStore none) x s' := by
  have hplay : (playRun anySchedule 0 [.ok, .ok, .ok, .uuid "e-1", .ok, .ok]
      (SanctionsScreeningService.screenAndFlag sampleServices (verifiedAda none) "Ada Obi")
      (namesakeStore none)).any fun r => ∀ call ∈ r.1, call.rejected = false := by
    decide +kernel
  obtain ⟨tr, x, s', hrun, hok⟩ := playRun_seen
    (Q := fun (tr : List Call) _ (_ : Store) => ∀ call ∈ tr, call.rejected = false) hplay
  have h := run_of_play TimePasses.refl hrun
  exact ⟨tr, x, s', h, (reviewed_iff (by decide +kernel) h hok).2 (by decide +kernel)⟩

/-- Her name is found once more. -/
theorem second_match_throws : ∃ tr x s', JustSaved (verifiedAda (some 0)) (namesakeStore (some 0)) ∧
    Run anySchedule TimePasses 0
      (SanctionsScreeningService.screenAndFlag sampleServices (verifiedAda (some 0)) "Ada Obi")
      (namesakeStore (some 0)) tr x s' ∧ (∀ call ∈ tr, call.rejected = false) ∧
    ¬ Reviewed sampleServices (verifiedAda (some 0)) "Ada Obi" (namesakeStore (some 0)) x s' := by
  have hplay : (playRun anySchedule 0 [.ok, .ok, .ok]
      (SanctionsScreeningService.screenAndFlag sampleServices (verifiedAda (some 0)) "Ada Obi")
      (namesakeStore (some 0))).any fun r => (∀ call ∈ r.1, call.rejected = false) ∧
        r.2.1 = .error (PrismaKycProfileRepository.modifiedConcurrently "profile-a") := by
    decide +kernel
  obtain ⟨tr, x, s', hrun, hok, rfl⟩ := playRun_seen
    (Q := fun (tr : List Call) x (_ : Store) => (∀ call ∈ tr, call.rejected = false) ∧
      x = .error (PrismaKycProfileRepository.modifiedConcurrently "profile-a")) hplay
  refine ⟨tr, _, s', by decide +kernel, run_of_play TimePasses.refl hrun, hok, fun hreviewed => ?_⟩
  obtain ⟨p', he⟩ := hreviewed.returns
  cases he

/-! ## Whose name is screened -/

/-- `ManuallyVerifyBvnCommand` and `ManuallyVerifyNinCommand`. -/
structure ManualOverride where
  type : VerificationType
  staffUserId : String
  targetUserId : String
  number : String
  reason : String
deriving DecidableEq, Repr

namespace ManualOverride

variable (services : Services)

def program : ManualOverride → Handler KycStatusResponseDto
  | ⟨.BVN, staffUserId, targetUserId, bvn, reason⟩ =>
    ManuallyVerifyBvnHandler.execute services ⟨staffUserId, targetUserId, bvn, reason⟩
  | ⟨.NIN, staffUserId, targetUserId, nin, reason⟩ =>
    ManuallyVerifyNinHandler.execute services ⟨staffUserId, targetUserId, nin, reason⟩

/-- All that comes before `screenAndFlag`; what is returned is what `screenAndFlag` is called with. -/
def beforeScreening (o : ManualOverride) : Handler (KycProfile × String) := do
  let (user, profile, number, result) ← lookUp services o.type o.targetUserId o.number
  let profile ← verify services o.type profile number
  let events := profile.domainEvents
  let profile := pulled profile
  saveEntry fun id => .forVerificationAttempt id o.targetUserId profile.id o.type .PASSED none (some o.staffUserId)
    (some (overrideNotes o.reason result.verifiedFullName))
  KycAuditRecorderService.recordDomainEvents (events.filter fun event => event.upgrade?.isSome)
  publishAll events
  return (profile, nameOf result user)

def screening (handed : KycProfile × String) : Handler KycStatusResponseDto := do
  let profile ← SanctionsScreeningService.screenAndFlag services handed.1 handed.2
  return .fromDomain profile

theorem program_eq (o : ManualOverride) : o.program services = o.beforeScreening services >>= screening services := by
  obtain ⟨type, staffUserId, targetUserId, number, reason⟩ := o
  have hshared : manuallyVerify services type staffUserId targetUserId number reason =
      beforeScreening services ⟨type, staffUserId, targetUserId, number, reason⟩ >>= screening services := by
    simp only [manuallyVerify, concludeOverride, beforeScreening, Prog.bind_assoc]
    rfl
  cases type with
  | BVN => exact hshared
  | NIN => exact hshared

/-- A run of the handler in which `fullName` is screened. -/
def ScreensAs (o : ManualOverride) (i : PId) (s : Store) (tr : List Call) (x : Except Err KycStatusResponseDto)
    (s' : Store) (fullName : String) : Prop :=
  ∃ p s1 tr1 tr2, Run anySchedule TimePasses i (o.beforeScreening services) s tr1 (.ok (p, fullName)) s1 ∧
    Run anySchedule TimePasses i (screening services (p, fullName)) s1 tr2 x s' ∧ tr = tr1 ++ tr2

end ManualOverride

section
variable {services : Services} {o : ManualOverride} {i : PId} {s s' : Store} {tr : List Call}
  {x : Except Err KycStatusResponseDto}

/-- A run of the handler comes to the screening, or throws before it. -/
theorem ManualOverride.screens (h : Run anySchedule TimePasses i (o.program services) s tr x s') :
    (∃ fullName, o.ScreensAs services i s tr x s' fullName) ∨
      ∃ e, x = .error e ∧ Run anySchedule TimePasses i (o.beforeScreening services) s tr (.error e) s' := by
  rw [o.program_eq services] at h
  rcases h.bind with ⟨⟨p, fullName⟩, s1, tr1, tr2, h1, h2, rfl⟩ | ⟨e, rfl, h1⟩
  · exact .inl ⟨fullName, p, s1, tr1, tr2, h1, h2, rfl⟩
  · exact .inr ⟨e, rfl, h1⟩

/-- What is screened is the look-up's. -/
theorem ManualOverride.beforeScreening_run {handed : KycProfile × String}
    (h : Run anySchedule TimePasses i (o.beforeScreening services) s tr (.ok handed) s') :
    ∃ found s1 tr1 tr2,
      Run anySchedule TimePasses i (lookUp services o.type o.targetUserId o.number) s tr1 (.ok found) s1 ∧
      tr = tr1 ++ tr2 ∧ handed.2 = nameOf found.2.2.2 found.1 := by
  unfold beforeScreening at h
  rcases h.bind with ⟨⟨user, profile, number, result⟩, s1, tr1, tr2, hlook, h2, rfl⟩ | ⟨e, he, -⟩
  swap
  · cases he
  refine ⟨_, s1, tr1, tr2, hlook, rfl, ?_⟩
  rcases h2.bind with ⟨p, s2, tr3, tr4, -, h4, -⟩ | ⟨e, he, -⟩
  swap
  · cases he
  rcases h4.bind with ⟨_, s3, tr5, tr6, -, h6, -⟩ | ⟨e, he, -⟩
  swap
  · cases he
  rcases h6.bind with ⟨_, s4, tr7, tr8, -, h8, -⟩ | ⟨e, he, -⟩
  swap
  · cases he
  rcases h8.bind with ⟨_, s5, tr9, tr10, -, ⟨-, he, -⟩, -⟩ | ⟨e, he, -⟩
  · cases he
    rfl
  · cases he

/-- **The name screened is the provider's if and only if it matches the registered one**, or is that one to the
letter. -/
theorem screens_provider_name_iff {fullName : String} {row : Identity.UserRecord} {user : Identity.User}
    {response : FlutterwaveVerificationResponse} {data : FlutterwaveData}
    (h : o.ScreensAs services i s tr x s' fullName) (hrow : s.users.find? o.targetUserId = some row)
    (huser : Identity.UserMapper.toDomain services.identity row = .ok user)
    (hresponse : tr.findSome? response? = some response) (hdata : response.data = some data) :
    fullName = FlutterwaveVerificationMapper.fullName data ↔
      FlutterwaveVerificationMapper.namesMatch services data user.firstName user.lastName = true ∨
        s!"{user.firstName} {user.lastName}" = FlutterwaveVerificationMapper.fullName data := by
  obtain ⟨p, s1, tr1, tr2, hbefore, -, rfl⟩ := h
  obtain ⟨found, s2, tr3, tr4, hlook, rfl, hname⟩ := ManualOverride.beforeScreening_run hbefore
  obtain ⟨row', r, response', hrow', huser', -, -, hresponse', hjudge⟩ := lookUp_run hlook
  cases hrow.symm.trans hrow'
  cases huser.symm.trans huser'
  rw [List.findSome?_append, List.findSome?_append, hresponse'] at hresponse
  cases hresponse
  -- A record that is not a success would have thrown.
  have hjudged : found.2.2.2 =
      ⟨FlutterwaveVerificationMapper.namesMatch services data found.1.firstName found.1.lastName,
      if FlutterwaveVerificationMapper.namesMatch services data found.1.firstName found.1.lastName = true then
        some (FlutterwaveVerificationMapper.fullName data) else none⟩ := by
    unfold FlutterwaveIdentityVerificationProvider.judge at hjudge
    rw [hdata] at hjudge
    cases hsuccess : response.success with
    | true =>
      rw [hsuccess] at hjudge
      exact (Except.ok.inj hjudge).symm
    | false =>
      rw [hsuccess] at hjudge
      cases hjudge
  rw [show fullName = nameOf found.2.2.2 found.1 from hname, hjudged]
  unfold nameOf
  by_cases hmatch : FlutterwaveVerificationMapper.namesMatch services data found.1.firstName found.1.lastName = true
  · simp only [hmatch, if_true, Option.getD_some, true_or]
  · simp only [hmatch, if_false, Option.getD_none, false_or, Bool.false_eq_true]

end

/-- Staff put Ada's BVN through for `targetUserId`. -/
def overrideFor (targetUserId : String) : ManualOverride :=
  ⟨.BVN, "staff", targetUserId, "22123456789", "Called the customer back"⟩

/-- The answers up to the screening. -/
def answersBefore : List Ans :=
  [.ok, .ok, .resolved sampleResponse, .ok, .ok, .uuid "e-1", .ok, .uuid "e-2", .ok, .ok, .ok]

/-- The name that is handed on, and screened. -/
def Screened (services : Services) (fullName : String) (tr : List Call) (x : Except Err (KycProfile × String))
    (s : Store) : Prop :=
  tr.findSome? response? = some sampleResponse ∧ x.toOption.any fun handed => handed.2 = fullName ∧
    (playRun anySchedule 0 [.ok, .uuid "e-3", .ok] (ManualOverride.screening services handed) s).isSome

instance (services : Services) (fullName : String) (tr : List Call) (x : Except Err (KycProfile × String))
    (s : Store) :
    Decidable (Screened services fullName tr x s) := inferInstanceAs (Decidable (_ ∧ _))

theorem screensAs_of_played {services : Services} {o : ManualOverride} {fullName : String} {s : Store}
    (answers : List Ans) (h : (playRun anySchedule 0 answers (o.beforeScreening services) s).any fun r =>
      Screened services fullName r.1 r.2.1 r.2.2) :
    ∃ tr x s', o.ScreensAs services 0 s tr x s' fullName ∧ tr.findSome? response? = some sampleResponse := by
  obtain ⟨tr1, x1, s1, hplay, hresponse, hscreened⟩ := playRun_seen (Q := Screened services fullName) h
  cases x1 with
  | error e => exact absurd hscreened Bool.false_ne_true
  | ok handed =>
    rw [Except.toOption, Option.any_some, decide_eq_true_iff] at hscreened
    obtain ⟨p, name⟩ := handed
    obtain ⟨hname, hscreening⟩ := hscreened
    obtain rfl : name = fullName := hname
    obtain ⟨⟨tr2, x, s'⟩, hplay2⟩ := Option.isSome_iff_exists.1 hscreening
    have hbefore := run_of_play TimePasses.refl hplay
    have hafter := run_of_play TimePasses.refl hplay2
    refine ⟨tr1 ++ tr2, x, s', ⟨p, s1, tr1, tr2, hbefore, hafter, rfl⟩, ?_⟩
    rw [List.findSome?_append, hresponse]
    rfl

/-- Ada's is her own. -/
theorem screens_provider_name_iff_sample : ∃ tr x s' fullName,
    (overrideFor "ada").ScreensAs sampleServices 0 sampleStore tr x s' fullName ∧
      fullName = FlutterwaveVerificationMapper.fullName ⟨"Ada", none, "Obi"⟩ := by
  let row : Identity.UserRecord := { Identity.sampleUser with id := "ada" }
  let user : Identity.User :=
    { id := "ada", email := ⟨"ada@kudi.ng"⟩, phoneNumber := ⟨"+2348012345678"⟩,
      passwordHash := ⟨"#correct horse"⟩,
      firstName := "Ada", lastName := "Obi", role := .CUSTOMER, status := .ACTIVE, failedLoginAttempts := 0,
      lockedUntil := none, lastLoginAt := none, createdAt := 0, updatedAt := 0, domainEvents := [] }
  have hrow : sampleStore.users.find? "ada" = some row := by decide +kernel
  have huser : Identity.UserMapper.toDomain sampleServices.identity row = .ok user := by decide +kernel
  have hmatch : FlutterwaveVerificationMapper.namesMatch sampleServices
    ⟨"Ada", none, "Obi"⟩ user.firstName user.lastName =
      true := by decide +kernel
  obtain ⟨tr, x, s', h, hresponse⟩ : ∃ tr x s', (overrideFor "ada").ScreensAs sampleServices 0 sampleStore
    tr x s' "Ada Obi" ∧
      tr.findSome? response? = some sampleResponse :=
    screensAs_of_played answersBefore (by decide +kernel)
  exact ⟨tr, x, s', _, h, (screens_provider_name_iff h hrow huser hresponse rfl).2 (.inl hmatch)⟩

/-- It is not Bola's: Bola's own is screened. -/
theorem override_screens_registered_name : ∃ tr x s',
    (overrideFor "bola").ScreensAs sampleServices 0 sampleStore tr x s' "Bola Ade" ∧
      tr.findSome? response? = some sampleResponse ∧
      "Bola Ade" ≠ FlutterwaveVerificationMapper.fullName ⟨"Ada", none, "Obi"⟩ := by
  obtain ⟨tr, x, s', h, hresponse⟩ : ∃ tr x s', (overrideFor "bola").ScreensAs sampleServices 0
    sampleStore tr x s' "Bola Ade" ∧
      tr.findSome? response? = some sampleResponse :=
    screensAs_of_played answersBefore (by decide +kernel)
  exact ⟨tr, x, s', h, hresponse, by decide +kernel⟩

end Kudi.Compliance
