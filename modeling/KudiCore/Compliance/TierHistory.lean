import KudiCore.Compliance.SanctionsReview

/-!
# The history that the log tells

| here | there |
| --- | --- |
| `attempts`, `tierChanges` | a user's `VERIFICATION_ATTEMPT` and `TIER_CHANGE` rows, in their order |
| `Attempt`  | one command that has been executed |
| `History`  | the commands executed on a user, one at a time |

`KycTierUpgradedEvent` does not carry the tier it comes from; the recorder derives it. The derived tier is the profile's
own, since the aggregate moves one tier at a time (`recordVerified_events`), and so the rows chain.
-/

namespace Kudi.Compliance

open Interleave

/-! ## Rows -/

def attempts (userId : String) (rows : List KycAuditLogEntry) :
    List (Option VerificationType × Option KycAuditOutcome) :=
  (rows.filter fun e => e.userId = userId ∧ e.eventType = .VERIFICATION_ATTEMPT).map fun e =>
    (e.verificationType, e.outcome)

def tierChanges (userId : String) (rows : List KycAuditLogEntry) : List (Option KycTier × Option KycTier) :=
  (rows.filter fun e => e.userId = userId ∧ e.eventType = .TIER_CHANGE).map fun e => (e.previousTier, e.newTier)

/-- Each row starts where the one before has ended. -/
def Chained : (first : KycTier) → List (Option KycTier × Option KycTier) → (last : KycTier) → Prop
  | first, [], last => first = last
  | first, (previous, new) :: rows, last =>
    previous = some first ∧ ∃ next, new = some next ∧ Chained next rows last

theorem Chained.append {first middle last : KycTier} : ∀ {rows rows' : List (Option KycTier × Option KycTier)},
    Chained first rows middle → Chained middle rows' last → Chained first (rows ++ rows') last
  | [], _, h, h' => (show first = middle from h) ▸ h'
  | _ :: _, _, ⟨hprevious, next, hnew, h⟩, h' => ⟨hprevious, next, hnew, Chained.append h h'⟩

section
variable {userId : String} {rows rows' : List KycAuditLogEntry}

@[simp] theorem attempts_append : attempts userId (rows ++ rows') = attempts userId rows ++ attempts userId rows' := by
  simp [attempts]

@[simp] theorem tierChanges_append :
    tierChanges userId (rows ++ rows') = tierChanges userId rows ++ tierChanges userId rows' := by
  simp [tierChanges]

/-- Their ids do not matter. -/
theorem attempts_content : attempts userId (rows.map KycAuditLogEntry.content) = attempts userId rows := by
  simp only [attempts, List.filter_map, List.map_map]
  rfl

theorem tierChanges_content : tierChanges userId (rows.map KycAuditLogEntry.content) = tierChanges userId rows := by
  simp only [tierChanges, List.filter_map, List.map_map]
  rfl

/-- A screening is neither. -/
theorem attempts_screenings (h : ∀ e ∈ rows, e.eventType = .SANCTIONS_SCREENING) : attempts userId rows = [] := by
  simp only [attempts, List.map_eq_nil_iff, List.filter_eq_nil_iff]
  intro e he
  simp [h e he]

theorem tierChanges_screenings (h : ∀ e ∈ rows, e.eventType = .SANCTIONS_SCREENING) :
    tierChanges userId rows = [] := by
  simp only [tierChanges, List.map_eq_nil_iff, List.filter_eq_nil_iff]
  intro e he
  simp [h e he]

end

/-! ## Commands -/

inductive KycCommand where
  | verification (command : VerificationCommand)
  | clearSanctionsFlag (command : ClearSanctionsFlagCommand)
deriving DecidableEq

namespace KycCommand

def userId : KycCommand → String
  | .verification command => command.userId
  | .clearSanctionsFlag command => command.targetUserId

def program (services : Services) : KycCommand → Handler KycStatusResponseDto
  | .verification command => command.program services
  | .clearSanctionsFlag command => ClearSanctionsFlagHandler.execute command

end KycCommand

/-- A command, the calls it has made, and the store before and after. -/
structure Attempt where
  command : KycCommand
  before : Store
  calls : List Call
  after : Store

/-- A self-service attempt whose name check fails. -/
def VerificationCommand.FailsCheck (services : Services) (command : VerificationCommand) (s : Store)
    (tr : List Call) : Prop :=
  command.isSubmission = true ∧ NameDiffers services command.userId s tr

/-- An attempt that verifies what was not verified. -/
def VerificationCommand.Verifies (command : VerificationCommand) (s s' : Store) : Prop :=
  ∃ r r', s.profileOf command.userId = some r ∧ r.verifiedAt command.type = none ∧
    s'.profileOf command.userId = some r' ∧ (r'.verifiedAt command.type).isSome = true

open Classical in
/-- The rows that are due to it. -/
noncomputable def Attempt.rows (services : Services) (a : Attempt) :
    List (Option VerificationType × Option KycAuditOutcome) :=
  match a.command with
  | .clearSanctionsFlag _ => []
  | .verification command =>
    (if command.FailsCheck services a.before a.calls then [(some command.type, some .FAILED)] else []) ++
      if command.Verifies a.before a.after then [(some command.type, some .PASSED)] else []

/-- Commands executed on a user, one at a time, with no storage failure. What happens elsewhere happens in between. -/
inductive History (services : Services) (userId : String) (s : Store) : List Attempt → Store → Prop
  | start : History services userId s [] s
  | elsewhere {history s1 s2} : History services userId s history s1 → s2.profileOf userId = s1.profileOf userId →
      (s2.kycAuditLog.rows.filter fun e => e.userId = userId) = s1.kycAuditLog.rows.filter
        (fun e => e.userId = userId) →
      History services userId s history s2
  | execute {history s1 s2 tr x} (i : PId) (command : KycCommand) : History services userId s history s1 →
      command.userId = userId → Run anySchedule TimePasses i (command.program services) s1 tr x s2 →
      (∀ call ∈ tr, Served call) → History services userId s (history ++ [⟨command, s1, tr, s2⟩]) s2

/-- The user has just been registered: a profile as it is created, and no row in the log. -/
structure Registered (userId : String) (s : Store) : Prop where
  profile : ∃ id, s.profileOf userId = some (KycProfileMapper.toPersistence (KycProfile.createDefault id userId))
  unlogged : ∀ e ∈ s.kycAuditLog.rows, e.userId ≠ userId

/-! ## What one command moves -/

/-- But for its version and its flag. -/
structure SameStanding (r r' : KycProfileRecord) : Prop where
  id : r'.id = r.id
  userId : r'.userId = r.userId
  tier : r'.tier = r.tier
  verifiedAt : ∀ type, r'.verifiedAt type = r.verifiedAt type

theorem SameStanding.refl (r : KycProfileRecord) : SameStanding r r := ⟨rfl, rfl, rfl, fun _ => rfl⟩

/-- From profile `r` to `r'`, with the rows `attempted` and a chain of tier changes. -/
structure Moves (userId : String) (attempted : List (Option VerificationType × Option KycAuditOutcome)) (s s' : Store)
    (r r' : KycProfileRecord) : Prop where
  profile : s'.profileOf userId = some r'
  attempted : attempts userId s'.kycAuditLog.rows = attempts userId s.kycAuditLog.rows ++ attempted
  changes : ∃ changes, tierChanges userId s'.kycAuditLog.rows = tierChanges userId s.kycAuditLog.rows ++ changes ∧
    Chained r.tier changes r'.tier

section
variable {services : Services} {i : PId} {userId : String} {s s' : Store} {tr : List Call}
  {saved : List KycProfileRecord} {logged : List KycAuditLogEntry} {r r' : KycProfileRecord} {p p' : KycProfile}
  {type : VerificationType}

theorem profileOf_userId (hr : s.profileOf userId = some r) : r.userId = userId := by
  simpa using List.find?_some hr

/-- The last of rows that stand as `r'` does. -/
theorem SameStanding.last (h : ∀ data ∈ saved, SameStanding r' data) :
    SameStanding r' (saved.getLast?.getD r') := by
  cases hlast : saved.getLast? with
  | none => exact .refl r'
  | some data => exact h data (List.mem_of_getLast? hlast)

theorem Moves.of_writes (h : Writes saved logged s s') (hr : s.profileOf userId = some r)
    (hsaved : ∀ data ∈ saved, data.id = r.id ∧ data.userId = userId)
    (hchained : Chained r.tier (tierChanges userId logged) (saved.getLast?.getD r).tier) :
    Moves userId (attempts userId logged) s s' r (saved.getLast?.getD r) where
  profile := Writes.profileOf h.profiles hr hsaved
  attempted := by rw [h.log, attempts_append]
  changes := ⟨_, by rw [h.log, tierChanges_append], hchained⟩

/-- Nothing is attempted, and the profile stands as it did. -/
theorem Moves.of_screenings (h : Writes saved logged s s') (hr : s.profileOf userId = some r)
    (hsaved : ∀ data ∈ saved, SameStanding r data)
    (hlogged : ∀ e ∈ logged, e.eventType = .SANCTIONS_SCREENING) :
    ∃ r', Moves userId [] s s' r r' ∧ SameStanding r r' := by
  have hlast := SameStanding.last hsaved
  have hmoves := Moves.of_writes h hr (fun data hdata => ⟨(hsaved data hdata).id,
    (hsaved data hdata).userId.trans (profileOf_userId hr)⟩)
    (by rw [tierChanges_screenings hlogged]; exact hlast.tier.symm)
  rw [attempts_screenings hlogged] at hmoves
  exact ⟨_, hmoves, hlast⟩

/-! ### The aggregate -/

/-- **One tier at a time**: what an upgrade announces comes from the tier that the recorder derives. -/
theorem recordVerified_events {now : Nat} {hash masked : String} (h : recordVerified type p now hash masked = .ok p')
    (hp : p.domainEvents = []) :
    ∃ upgrades, p'.domainEvents = .verificationPassed p.id p.userId type :: upgrades ∧
      (upgrades = [] ∧ p'.tier = p.tier ∨
        upgrades = [.tierUpgraded ⟨p.id, p.userId, p'.tier⟩] ∧ previousTierOf p'.tier = p.tier) := by
  cases type with
  | BVN =>
    simp only [recordVerified, KycProfile.recordBvnVerified] at h
    split at h
    · cases h
    · cases h
      split
      · rename_i htier
        refine ⟨_, ?_, .inr ⟨rfl, htier.symm⟩⟩
        simp [KycProfile.upgrade, KycProfile.addDomainEvent, KycProfile.touch, hp]
      · exact ⟨[], by simp [KycProfile.addDomainEvent, KycProfile.touch, hp], .inl ⟨rfl, rfl⟩⟩
  | NIN =>
    simp only [recordVerified, KycProfile.recordNinVerified] at h
    split at h
    · cases h
    · cases h
      split
      · rename_i htier
        refine ⟨_, ?_, .inr ⟨rfl, htier.1.symm⟩⟩
        simp [KycProfile.upgrade, KycProfile.addDomainEvent, KycProfile.touch, hp]
      · exact ⟨[], by simp [KycProfile.addDomainEvent, KycProfile.touch, hp], .inl ⟨rfl, rfl⟩⟩

/-- What is not verified stays as it is. -/
theorem recordVerified_others {now : Nat} {hash masked : String} (h : recordVerified type p now hash masked = .ok p')
    {other : VerificationType} (hother : other ≠ type) :
    (KycProfileMapper.toPersistence p').verifiedAt other = (KycProfileMapper.toPersistence p).verifiedAt other := by
  cases type with
  | BVN =>
    simp only [recordVerified, KycProfile.recordBvnVerified] at h
    split at h
    · cases h
    · cases h
      cases other with
      | BVN => exact absurd rfl hother
      | NIN => split <;> rfl
  | NIN =>
    simp only [recordVerified, KycProfile.recordNinVerified] at h
    split at h
    · cases h
    · cases h
      cases other with
      | BVN => split <;> rfl
      | NIN => exact absurd rfl hother

theorem flagForSanctionsReview_standing (p : KycProfile) (now : Nat) (summary : String) :
    SameStanding (KycProfileMapper.toPersistence p)
      (KycProfileMapper.toPersistence (p.flagForSanctionsReview now summary)) := by
  unfold KycProfile.flagForSanctionsReview
  split
  · exact .refl _
  · exact ⟨rfl, rfl, rfl, fun type => by cases type <;> rfl⟩

/-! ### The log -/

/-- A screening leaves the profile where it stands, and logs no attempt. -/
theorem screenAndFlag_standing {x : Except Err KycProfile} {fullName : String} (hsaved : JustSaved p s)
    (h : Run anySchedule TimePasses i (SanctionsScreeningService.screenAndFlag services p fullName) s tr x s')
    (hok : ∀ call ∈ tr, Served call) :
    ∃ saved logged, Writes saved logged s s' ∧
      (∀ data ∈ saved, SameStanding (KycProfileMapper.toPersistence p) data) ∧
      ∀ e ∈ logged, e.eventType = .SANCTIONS_SCREENING := by
  rcases screenAndFlag_served hsaved h hok with ⟨-, -, id, hwrites⟩ | ⟨-, -, now, summary, id, -, hwrites⟩ |
    ⟨-, -, -, hwrites⟩
  · refine ⟨_, _, hwrites, fun data hdata => (nomatch hdata), fun e he => ?_⟩
    rw [List.mem_singleton.1 he]
    rfl
  · refine ⟨_, _, hwrites, fun data hdata => ?_, fun e he => ?_⟩
    · rw [List.mem_singleton.1 hdata]
      exact flagForSanctionsReview_standing p now summary
    · rw [List.mem_singleton.1 he]
      rfl
  · exact ⟨_, _, hwrites, fun data hdata => (nomatch hdata), fun e he => (nomatch he)⟩

/-- The rows of a verification that goes through: it has passed, and may have moved the profile a tier up. -/
structure Passes (userId : String) (type : VerificationType) (previous new : KycTier) (logged : List KycAuditLogEntry) :
    Prop where
  attempts : attempts userId logged = [(some type, some .PASSED)]
  changes : Chained previous (tierChanges userId logged) new

theorem Passes.then_screenings {previous new : KycTier} {screenings : List KycAuditLogEntry}
    (h : Passes userId type previous new logged) (hs : ∀ e ∈ screenings, e.eventType = .SANCTIONS_SCREENING) :
    Passes userId type previous new (logged ++ screenings) where
  attempts := by rw [attempts_append, h.attempts, attempts_screenings hs, List.append_nil]
  changes := by rw [tierChanges_append, tierChanges_screenings hs, List.append_nil]; exact h.changes

/-- The rows of an upgrade. -/
theorem upgrades_rows {upgrades : List KycEvent}
    (hup : upgrades = [] ∧ p'.tier = p.tier ∨
      upgrades = [.tierUpgraded ⟨p.id, p.userId, p'.tier⟩] ∧ previousTierOf p'.tier = p.tier) :
    attempts p.userId ((upgrades.filterMap entryOf).map fun entry => entry "") = [] ∧
      Chained p.tier (tierChanges p.userId ((upgrades.filterMap entryOf).map fun entry => entry "")) p'.tier := by
  rcases hup with ⟨rfl, htier⟩ | ⟨rfl, htier⟩
  · exact ⟨rfl, htier.symm⟩
  · refine ⟨by simp [entryOf, attempts, KycAuditLogEntry.forTierChange], ?_⟩
    simp [entryOf, tierChanges, KycAuditLogEntry.forTierChange, Chained, htier]

/-- The attempt's own row, whoever writes it, and those of the upgrade. -/
theorem Passes.of_content {upgrades : List KycEvent} {rows : List KycAuditLogEntry} {id aggregateId : String}
    {performedByUserId notes : Option String}
    (hup : upgrades = [] ∧ p'.tier = p.tier ∨
      upgrades = [.tierUpgraded ⟨p.id, p.userId, p'.tier⟩] ∧ previousTierOf p'.tier = p.tier)
    (hrows : rows.map KycAuditLogEntry.content =
      .forVerificationAttempt id p.userId aggregateId type .PASSED none performedByUserId notes ::
        (upgrades.filterMap entryOf).map fun entry => entry "") :
    Passes p.userId type p.tier p'.tier rows := by
  obtain ⟨hattempts, hchanges⟩ := upgrades_rows hup
  rw [← List.singleton_append] at hrows
  refine ⟨?_, ?_⟩
  · rw [← attempts_content, hrows, attempts_append, hattempts]
    simp [Compliance.attempts, KycAuditLogEntry.forVerificationAttempt]
  · rw [← tierChanges_content, hrows, tierChanges_append]
    simpa [tierChanges, KycAuditLogEntry.forVerificationAttempt] using hchanges

/-- What both kinds of attempt end with. -/
theorem announced_standing {x : Except Err KycStatusResponseDto} {s1 : Store} {events : List KycEvent}
    {rows : List KycAuditLogEntry} {previous : KycTier} {fullName : String} (hsaved : JustSaved (pulled p') s)
    (hrows : Writes [] rows s s1) (hpasses : Passes userId type previous p'.tier rows)
    (h : Run anySchedule TimePasses i (publishAll events >>= fun _ =>
      ManualOverride.screening services (pulled p', fullName)) s1 tr x s') (hok : ∀ call ∈ tr, Served call) :
    ∃ saved logged, Writes saved logged s s' ∧
      (∀ data ∈ saved, SameStanding (KycProfileMapper.toPersistence p') data) ∧
      Passes userId type previous p'.tier logged := by
  obtain ⟨s2, rest2, hpub, h2, hok2⟩ := then_served h hok fun h _ => publishAll_served h
  have hwrites := hrows.trans hpub
  simp only [List.append_nil] at hwrites
  have hscreen : ∀ {x3 : Except Err KycProfile} {tr3 s3}, Run anySchedule TimePasses i
      (SanctionsScreeningService.screenAndFlag services (pulled p') fullName) s2 tr3 x3 s3 →
      (∀ call ∈ tr3, Served call) → ∃ saved logged, Writes saved logged s s3 ∧
        (∀ data ∈ saved, SameStanding (KycProfileMapper.toPersistence p') data) ∧
        Passes userId type previous p'.tier logged := by
    intro x3 tr3 s3 h3 hok3
    obtain ⟨saved, logged, hw, hstanding, hlogged⟩ := screenAndFlag_standing (hsaved.after hwrites) h3 hok3
    exact ⟨_, _, hwrites.trans hw, hstanding, hpasses.then_screenings hlogged⟩
  unfold ManualOverride.screening at h2
  rcases bind_served h2 hok2 with ⟨p3, s3, tr3, tr4, h3, hok3, ⟨-, -, rfl⟩, -, -⟩ | ⟨e, -, h3⟩
  · exact hscreen h3 hok3
  · exact hscreen h3 hok2

/-- A submission's rows: the recorder's. -/
theorem conclude_standing {x : Except Err KycStatusResponseDto} {now : Nat} {hash masked fullName : String}
    (hrecord : recordVerified type p now hash masked = .ok p') (hp : p.domainEvents = [])
    (hsaved : JustSaved (pulled p') s)
    (h : Run anySchedule TimePasses i (conclude services p' fullName) s tr x s') (hok : ∀ call ∈ tr, Served call) :
    ∃ saved logged, Writes saved logged s s' ∧
      (∀ data ∈ saved, SameStanding (KycProfileMapper.toPersistence p') data) ∧
      Passes p.userId type p.tier p'.tier logged := by
  obtain ⟨upgrades, hevents, hup⟩ := recordVerified_events hrecord hp
  unfold conclude at h
  obtain ⟨s1, rest1, ⟨rows, hlog, hrows⟩, h1, hok1⟩ := then_served h hok recordDomainEvents_served
  rw [hevents] at hrows
  exact announced_standing hsaved hlog (.of_content hup hrows) h1 hok1

/-- An override's rows: the staff member's, and the recorder's for the tier. -/
theorem concludeOverride_standing {x : Except Err KycStatusResponseDto} {now : Nat}
    {hash masked staffUserId notes fullName : String}
    (hrecord : recordVerified type p now hash masked = .ok p') (hp : p.domainEvents = [])
    (hsaved : JustSaved (pulled p') s)
    (h : Run anySchedule TimePasses i (concludeOverride services type staffUserId p.userId notes p' fullName) s tr x s')
    (hok : ∀ call ∈ tr, Served call) :
    ∃ saved logged, Writes saved logged s s' ∧
      (∀ data ∈ saved, SameStanding (KycProfileMapper.toPersistence p') data) ∧
      Passes p.userId type p.tier p'.tier logged := by
  obtain ⟨upgrades, hevents, hup⟩ := recordVerified_events hrecord hp
  unfold concludeOverride at h
  obtain ⟨s1, rest1, ⟨id, hown⟩, h1, hok1⟩ := then_served h hok saveEntry_served
  obtain ⟨s2, rest2, ⟨rows, hlog, hrows⟩, h2, hok2⟩ := then_served h1 hok1 recordDomainEvents_served
  have hfilter : p'.domainEvents.filter (fun event => event.upgrade?.isSome) = upgrades := by
    rw [hevents]
    rcases hup with ⟨rfl, -⟩ | ⟨rfl, -⟩ <;> rfl
  rw [hfilter] at hrows
  have hcontent : (KycAuditLogEntry.forVerificationAttempt id p.userId p'.id type .PASSED none (some staffUserId)
      (some notes) :: rows).map KycAuditLogEntry.content =
      .forVerificationAttempt "" p.userId p'.id type .PASSED none (some staffUserId) (some notes) ::
        (upgrades.filterMap entryOf).map fun entry => entry "" := by
    rw [List.map_cons, hrows]
    rfl
  exact announced_standing hsaved (hown.trans hlog) (.of_content hup hcontent) h2 hok2

/-! ## One command -/

/-- What a command on a user leaves: no attempt, a failed one, or the one that verifies. -/
inductive Leaves (userId : String) (type : VerificationType) (s s' : Store) (r : KycProfileRecord) (fails : Prop) : Prop
  | unmoved (r' : KycProfileRecord) (hfails : ¬ fails) (hmoves : Moves userId [] s s' r r') (hsame : SameStanding r r')
  | failed (r' : KycProfileRecord) (hfails : fails) (hmoves : Moves userId [(some type, some .FAILED)] s s' r r')
      (hsame : SameStanding r r')
  | verified (r' : KycProfileRecord) (hfails : ¬ fails) (hmoves : Moves userId [(some type, some .PASSED)] s s' r r')
      (hnew : r.verifiedAt type = none) (hverified : (r'.verifiedAt type).isSome = true)
      (hothers : ∀ other, other ≠ type → r'.verifiedAt other = r.verifiedAt other)

/-- Nothing written. -/
theorem Leaves.of_passes {fails : Prop} (hr : s.profileOf userId = some r) (hs : TimePasses s s') (hfails : ¬ fails) :
    Leaves userId type s s' r fails := by
  obtain ⟨r', hmoves, hsame⟩ := Moves.of_screenings (.of_passes hs) hr (fun data hdata => (nomatch hdata))
    fun e he => (nomatch he)
  exact .unmoved r' hfails hmoves hsame

theorem Leaves.after {fails : Prop} {s1 : Store} (h : Leaves userId type s1 s' r fails) (hs : TimePasses s s1) :
    Leaves userId type s s' r fails := by
  obtain ⟨ms, rfl⟩ := hs
  cases h with
  | unmoved r' hfails hmoves hsame =>
    exact .unmoved r' hfails ⟨hmoves.profile, hmoves.attempted, hmoves.changes⟩ hsame
  | failed r' hfails hmoves hsame =>
    exact .failed r' hfails ⟨hmoves.profile, hmoves.attempted, hmoves.changes⟩ hsame
  | verified r' hfails hmoves hnew hverified hothers =>
    exact .verified r' hfails ⟨hmoves.profile, hmoves.attempted, hmoves.changes⟩ hnew hverified hothers

/-- A look-up that throws has not compared the names. -/
theorem lookUp_unnamed {rawNumber : String} {e : Err}
    (h : Run anySchedule TimePasses i (lookUp services type userId rawNumber) s tr (.error e) s') :
    ¬ NameDiffers services userId s tr := by
  rintro ⟨row, user, response, result, hrow, huser, hresponse, hjudge, -⟩
  have hunasked : ∀ {tr1 : List Call}, tr1.findSome? response? = none →
    tr1.findSome? response? ≠ some response := by
    intro tr1 hnone hsome
    rw [hnone] at hsome
    cases hsome
  have hfindById : (PrismaUserRepository.findById services userId).Calls fun op =>
    ∀ type number, op ≠ .resolve type number :=
    PrismaUserRepository.findById_calls (fun _ _ _ hop => nomatch hop) userId
  have hfindByUserId : (PrismaKycProfileRepository.findByUserId userId).Calls
      fun op => ∀ type number, op ≠ .resolve type number :=
        .bind (.await fun type number hop => by cases hop) fun _ => trivial
  unfold lookUp at h
  rcases h.bind with ⟨user', s1, tr1, tr2, h1, h2, rfl⟩ | ⟨e', -, h1⟩
  swap
  · exact hunasked (response?_of_reads hfindById h1) hresponse
  rw [List.findSome?_append, response?_of_reads hfindById h1, Option.none_or] at hresponse
  cases user' with
  | none => exact hunasked (by rw [h2.1]; rfl) hresponse
  | some user' =>
    obtain ⟨row', hrow', huser'⟩ := findById_run h1
    cases hrow.symm.trans hrow'
    cases huser.symm.trans huser'
    rcases h2.bind with ⟨profile, s2, tr3, tr4, h3, h4, rfl⟩ | ⟨e', -, h3⟩
    swap
    · exact hunasked (response?_of_reads hfindByUserId h3) hresponse
    rw [List.findSome?_append, response?_of_reads hfindByUserId h3, Option.none_or] at hresponse
    cases profile with
    | none => exact hunasked (by rw [h4.1]; rfl) hresponse
    | some profile =>
      rcases h4.ofExcept_bind with ⟨number, -, h5⟩ | ⟨e', -, rfl, -, -⟩
      swap
      · exact hunasked rfl hresponse
      rcases h5.bind with ⟨found, s3, tr5, tr6, -, ⟨-, he, -⟩, -⟩ | ⟨e', -, h6⟩
      · cases he
      -- The provider refuses, or its record is not one that can be judged.
      unfold FlutterwaveIdentityVerificationProvider.verify at h6
      obtain ⟨s4, a, answer, s5, rest, -, -, -, rfl,
        ⟨response', rfl, hend⟩ | ⟨e'', rfl, rfl, -, -⟩⟩ := h6.await_bind
      · obtain ⟨-, hjudged, -⟩ := hend.ofExcept
        cases hresponse
        cases hjudge.symm.trans hjudged.symm
      · exact hunasked rfl hresponse

/-- A failed check is counted, and logged. -/
theorem refuse_leaves {x : Except Err KycStatusResponseDto} {fails : Prop} (hr : s.profileOf userId = some r)
    (hfails : fails) (h : Run anySchedule TimePasses i (refuse type (KycProfileMapper.toDomain r)) s tr x s')
    (hok : ∀ call ∈ tr, Served call) : Leaves userId type s s' r fails := by
  obtain rfl := profileOf_userId hr
  unfold refuse at h
  obtain ⟨s1, rest1, hsave, h1, hok1⟩ := then_served h hok fun h hok => save_next rfl (Unscreened.stored hr) h hok
  obtain ⟨s2, rest2, ⟨rows, hlog, hrows⟩, h2, hok2⟩ := then_served h1 hok1 recordDomainEvents_served
  obtain ⟨s3, rest3, hpub, ⟨-, -, rfl⟩, -⟩ := then_served h2 hok2 fun h _ => publishAll_served h
  have hattempts : attempts r.userId rows = [(some type, some .FAILED)] := by
    rw [← attempts_content, hrows]
    simp [attempts, KycProfile.recordVerificationFailed, KycProfile.touch, KycProfile.addDomainEvent,
      KycProfileMapper.toDomain, entryOf, KycAuditLogEntry.forVerificationAttempt]
  have hchanges : tierChanges r.userId rows = [] := by
    rw [← tierChanges_content, hrows]
    simp [tierChanges, KycProfile.recordVerificationFailed, KycProfile.touch, KycProfile.addDomainEvent,
      KycProfileMapper.toDomain, entryOf, KycAuditLogEntry.forVerificationAttempt]
  have hwrites := (hsave.trans hlog).trans hpub
  simp only [List.append_nil, List.nil_append] at hwrites
  have hmoves := Moves.of_writes hwrites hr (fun data hdata => by rw [List.mem_singleton.1 hdata]; exact ⟨rfl, rfl⟩)
    (by rw [hchanges]; rfl)
  rw [hattempts] at hmoves
  exact .failed _ hfails hmoves ⟨rfl, rfl, rfl, fun type => by cases type <;> rfl⟩

/-- A number that is verified, if its profile can be saved, is verified once. -/
theorem verified_leaves {x : Except Err KycStatusResponseDto} {fails : Prop} {number : Identifier}
    {tail : KycProfile → Handler KycStatusResponseDto} (hr : s.profileOf userId = some r) (hfails : ¬ fails)
    (htail : ∀ {p' now hash masked s1 tr1}, recordVerified type
      (KycProfileMapper.toDomain r) now hash masked = .ok p' →
      JustSaved (pulled p') s1 → Run anySchedule TimePasses i (tail p') s1 tr1 x s' →
        (∀ call ∈ tr1, Served call) →
      ∃ saved logged, Writes saved logged s1 s' ∧
        (∀ data ∈ saved, SameStanding (KycProfileMapper.toPersistence p') data) ∧
        Passes userId type r.tier p'.tier logged)
    (h : Run anySchedule TimePasses i (verify services type (KycProfileMapper.toDomain r) number >>= tail) s tr x s')
    (hok : ∀ call ∈ tr, Served call) : Leaves userId type s s' r fails := by
  rcases bind_served h hok with ⟨p', s1, tr1, tr2, h1, -, h2, hok2, -⟩ | ⟨e, rfl, h1⟩
  · obtain ⟨⟨e, he⟩, -⟩ | ⟨now, hash, masked, p'', he, hrecord, -, hs⟩ := verify_run h1
    · cases he
    cases he
    obtain ⟨hnew, ⟨⟨hid, huser⟩, hverified⟩, -⟩ := recordVerified_ok hrecord
    obtain ⟨saved, logged, hw, hstanding, hpasses⟩ := htail hrecord (verify_justSaved h1) h2 hok2
    have hlast := SameStanding.last hstanding
    have hids : ∀ data ∈ KycProfileMapper.toPersistence p' :: saved, data.id = r.id ∧ data.userId = userId := by
      intro data hdata
      rcases List.mem_cons.1 hdata with rfl | hdata
      · exact ⟨hid, huser.trans (profileOf_userId hr)⟩
      · exact ⟨(hstanding data hdata).id.trans hid, (hstanding data hdata).userId.trans
          (huser.trans (profileOf_userId hr))⟩
    have hmoves := Moves.of_writes ((Writes.of_put hs).trans hw) hr hids (by
      rw [List.singleton_append, List.getLast?_cons, Option.getD_some, hlast.tier]
      exact hpasses.changes)
    rw [List.nil_append, hpasses.attempts, List.singleton_append, List.getLast?_cons, Option.getD_some] at hmoves
    refine .verified _ hfails hmoves hnew ?_ fun other hother => ?_
    · rw [hlast.verifiedAt]
      exact hverified
    · rw [hlast.verifiedAt]
      exact recordVerified_others hrecord hother
  · obtain ⟨-, hs, -⟩ | ⟨now, hash, masked, p'', he, -⟩ := verify_run h1
    · exact .of_passes hr hs hfails
    · cases he

variable {rawNumber : String} {x : Except Err KycStatusResponseDto}

theorem submit_leaves (hr : s.profileOf userId = some r)
    (h : Run anySchedule TimePasses i (submit services type userId rawNumber) s tr x s')
    (hok : ∀ call ∈ tr, Served call) :
    Leaves userId type s s' r (NameDiffers services userId s tr) := by
  unfold submit at h
  rcases bind_served h hok with
    ⟨⟨user, p, number, result⟩, s1, tr1, tr2, h1, -, h2, hok2, rfl⟩ | ⟨e, rfl, h1⟩
  swap
  · exact .of_passes hr (passes_of_calls lookUp_reads h1) (lookUp_unnamed h1)
  obtain ⟨row, r', response, -, -, hr', hp, -, -⟩ := lookUp_run h1
  cases hr.symm.trans hr'
  obtain rfl : p = KycProfileMapper.toDomain r := hp
  have hs := passes_of_calls lookUp_reads h1
  have hname : NameDiffers services userId s (tr1 ++ tr2) ↔ result.matched = false := nameDiffers_iff h1
  have hr1 := (profileOf_passes hs userId).trans hr
  refine Leaves.after ?_ hs
  cases hmatched : result.matched with
  | false =>
    simp only [hmatched, Bool.not_false, if_true] at h2
    exact refuse_leaves hr1 (hname.2 hmatched) h2 hok2
  | true =>
    simp only [hmatched, Bool.not_true, Bool.false_eq_true, if_false] at h2
    obtain rfl := profileOf_userId hr
    refine verified_leaves hr1 ?_ (fun hrecord hsaved h hok => conclude_standing hrecord rfl hsaved h hok) h2 hok2
    rw [hname, hmatched]
    exact Bool.true_eq_false.mp

theorem manuallyVerify_leaves {staffUserId reason : String} (hr : s.profileOf userId = some r)
    (h : Run anySchedule TimePasses i (manuallyVerify services type staffUserId userId rawNumber reason) s tr x s')
    (hok : ∀ call ∈ tr, Served call) : Leaves userId type s s' r False := by
  unfold manuallyVerify at h
  rcases bind_served h hok with
    ⟨⟨user, p, number, result⟩, s1, tr1, tr2, h1, -, h2, hok2, rfl⟩ | ⟨e, rfl, h1⟩
  swap
  · exact .of_passes hr (passes_of_calls lookUp_reads h1) not_false
  obtain ⟨row, r', response, -, -, hr', hp, -, -⟩ := lookUp_run h1
  cases hr.symm.trans hr'
  obtain rfl : p = KycProfileMapper.toDomain r := hp
  have hs := passes_of_calls lookUp_reads h1
  have hr1 := (profileOf_passes hs userId).trans hr
  obtain rfl := profileOf_userId hr
  exact (verified_leaves hr1 not_false
    (fun hrecord hsaved h hok => concludeOverride_standing hrecord rfl hsaved h hok) h2 hok2).after hs

theorem clearSanctionsFlag_leaves {command : ClearSanctionsFlagCommand} (hr : s.profileOf command.targetUserId = some r)
    (h : Run anySchedule TimePasses i (ClearSanctionsFlagHandler.execute command) s tr x s')
    (hok : ∀ call ∈ tr, Served call) :
    ∃ r', Moves command.targetUserId [] s s' r r' ∧ SameStanding r r' := by
  have hnothing : ∀ {s1}, Writes [] [] s s1 → ∃ r', Moves command.targetUserId [] s s1 r r' ∧
    SameStanding r r' :=
    fun hw => Moves.of_screenings hw hr (fun data hdata => (nomatch hdata)) fun e he => (nomatch he)
  have hreads : (PrismaKycProfileRepository.findByUserId command.targetUserId).Calls fun op => op.writes = false :=
    .bind (.await rfl) fun _ => trivial
  unfold ClearSanctionsFlagHandler.execute at h
  rcases bind_served h hok with ⟨profile, s1, tr1, tr2, h1, -, h2, hok2, -⟩ | ⟨e, -, h1⟩
  swap
  · exact hnothing (writes_of_reads hreads h1)
  have hread := writes_of_reads hreads h1
  cases profile with
  | none =>
    obtain ⟨-, -, rfl⟩ := h2
    exact hnothing hread
  | some profile =>
    obtain ⟨r', hr', rfl⟩ := findByUserId_run h1
    cases hr.symm.trans hr'
    obtain ⟨s2, a, now, s3, rest, hs, hx, h3, hok3⟩ := await_served rfl h2 hok2
    obtain rfl := exec_read rfl hx
    have hread2 := hread.trans (.of_passes hs)
    rcases h3.ofExcept_bind with ⟨p', hp', h4⟩ | ⟨e, -, -, -, rfl⟩
    swap
    · exact hnothing hread2
    have hcleared : SameStanding r (KycProfileMapper.toPersistence p') ∧ p'.version = r.version + 1 := by
      unfold KycProfile.clearSanctionsFlag at hp'
      split at hp'
      · cases hp'
      · cases hp'
        exact ⟨⟨rfl, rfl, rfl, fun type => by cases type <;> rfl⟩, rfl⟩
    have hstored : s3.kycProfiles.find? p'.id = some r := by
      have hid : p'.id = r.id := hcleared.1.id
      rw [hread2.same_profiles, hid]
      exact Unscreened.stored hr
    obtain ⟨s4, rest4, hsave, h5, hok5⟩ := then_served h4 hok3 fun h hok => save_next hcleared.2 hstored h hok
    obtain ⟨s5, rest5, ⟨id, hlog⟩, h6, hok6⟩ := then_served h5 hok5 saveEntry_served
    obtain ⟨s6, rest6, hpub, ⟨-, -, rfl⟩, -⟩ := then_served h6 hok6 fun h _ => publishAll_served h
    refine Moves.of_screenings (((hread2.trans hsave).trans hlog).trans hpub) hr (fun data hdata => ?_) fun e he => ?_
    · rw [List.mem_singleton.1 hdata]
      exact hcleared.1
    · rw [List.mem_singleton.1 he]
      rfl

theorem verification_leaves {command : VerificationCommand} (hr : s.profileOf command.userId = some r)
    (h : Run anySchedule TimePasses i (command.program services) s tr x s') (hok : ∀ call ∈ tr, Served call) :
    Leaves command.userId command.type s s' r (command.FailsCheck services s tr) := by
  have hsubmission : command.isSubmission = true →
      Leaves command.userId command.type s s' r (NameDiffers services command.userId s tr) →
      Leaves command.userId command.type s s' r (command.FailsCheck services s tr) := by
    intro hsub hleaves
    have hfails : command.FailsCheck services s tr = NameDiffers services command.userId s tr :=
      propext ⟨fun h => h.2, fun h => ⟨hsub, h⟩⟩
    rwa [hfails]
  have hoverride : command.isSubmission = false → Leaves command.userId command.type s s' r False →
      Leaves command.userId command.type s s' r (command.FailsCheck services s tr) := by
    intro hsub hleaves
    have hfails : command.FailsCheck services s tr = False :=
      propext ⟨fun h => Bool.false_ne_true (hsub.symm.trans h.1), fun h => h.elim⟩
    rwa [hfails]
  cases command with
  | submitBvn command => exact hsubmission rfl (submit_leaves hr h hok)
  | submitNin command => exact hsubmission rfl (submit_leaves hr h hok)
  | manuallyVerifyBvn command => exact hoverride rfl (manuallyVerify_leaves hr h hok)
  | manuallyVerifyNin command => exact hoverride rfl (manuallyVerify_leaves hr h hok)

end

/-! ## All of them -/

/-- The log of a user so far. -/
structure Trail (services : Services) (userId : String) (history : List Attempt) (s : Store) : Prop where
  tier : ∃ r, s.profileOf userId = some r ∧ Chained .TIER_1 (tierChanges userId s.kycAuditLog.rows) r.tier ∧
    ∀ type, (attempts userId s.kycAuditLog.rows).count (some type, some .PASSED) =
      if (r.verifiedAt type).isSome = true then 1 else 0
  attempts : attempts userId s.kycAuditLog.rows = history.flatMap (Attempt.rows services)

namespace Trail

variable {services : Services} {i : PId} {userId : String} {history : List Attempt} {s s' : Store} {tr : List Call}
  {x : Except Err KycStatusResponseDto}

theorem registered (h : Registered userId s) : Trail services userId [] s := by
  have hnone : ∀ q : KycAuditLogEntry → Prop, [DecidablePred q] →
      s.kycAuditLog.rows.filter (fun e => e.userId = userId ∧ q e) = [] := by
    intro q _
    refine List.filter_eq_nil_iff.2 fun e he => ?_
    simpa using fun huser => absurd huser (h.unlogged e he)
  have hattempts : Compliance.attempts userId s.kycAuditLog.rows = [] := by
    rw [Compliance.attempts, hnone]
    rfl
  obtain ⟨id, hprofile⟩ := h.profile
  refine ⟨⟨_, hprofile, ?_, fun type => ?_⟩, hattempts⟩
  · rw [tierChanges, hnone]
    rfl
  · rw [hattempts]
    cases type <;> rfl

theorem elsewhere (h : Trail services userId history s) (hprofile : s'.profileOf userId = s.profileOf userId)
    (hrows : (s'.kycAuditLog.rows.filter fun e => e.userId = userId) = s.kycAuditLog.rows.filter
      fun e => e.userId = userId) :
    Trail services userId history s' := by
  have hfilter : ∀ q : KycAuditLogEntry → Prop, [DecidablePred q] →
      s'.kycAuditLog.rows.filter (fun e => e.userId = userId ∧ q e) =
        s.kycAuditLog.rows.filter fun e => e.userId = userId ∧ q e := by
    intro q _
    have hboth : ∀ rows : List KycAuditLogEntry, rows.filter (fun e => e.userId = userId ∧ q e) =
        (rows.filter fun e => e.userId = userId).filter fun e => q e := by
      intro rows
      rw [List.filter_filter]
      exact List.filter_congr fun e _ => by simp [and_comm]
    rw [hboth, hboth, hrows]
  have hattempts : Compliance.attempts userId s'.kycAuditLog.rows = Compliance.attempts userId s.kycAuditLog.rows := by
    rw [Compliance.attempts, hfilter]
    rfl
  have hchanges : tierChanges userId s'.kycAuditLog.rows = tierChanges userId s.kycAuditLog.rows := by
    rw [tierChanges, hfilter]
    rfl
  refine ⟨?_, hattempts.trans h.attempts⟩
  rw [hprofile, hattempts, hchanges]
  exact h.tier

/-- One more command. -/
theorem execute (h : Trail services userId history s) {command : KycCommand} (huser : command.userId = userId)
    (hrun : Run anySchedule TimePasses i (command.program services) s tr x s') (hok : ∀ call ∈ tr, Served call) :
    Trail services userId (history ++ [⟨command, s, tr, s'⟩]) s' := by
  subst huser
  obtain ⟨⟨r, hr, hchained, hcount⟩, hattempts⟩ := h
  have hmoved : ∀ {attempted r'}, Moves command.userId attempted s s' r r' →
      (∀ type, attempted.count (some type, some .PASSED) + (if (r.verifiedAt type).isSome = true then 1 else 0) =
        if (r'.verifiedAt type).isSome = true then 1 else 0) →
      attempted = Attempt.rows services ⟨command, s, tr, s'⟩ →
      Trail services command.userId (history ++ [⟨command, s, tr, s'⟩]) s' := by
    intro attempted r' hmoves hnew hrows
    obtain ⟨changes, hchanges, hchained'⟩ := hmoves.changes
    refine ⟨⟨r', hmoves.profile, ?_, fun type => ?_⟩, ?_⟩
    · rw [hchanges]
      exact hchained.append hchained'
    · rw [hmoves.attempted, List.count_append, hcount, Nat.add_comm]
      exact hnew type
    · rw [hmoves.attempted, hattempts, List.flatMap_append, hrows, List.flatMap_singleton]
  have hsame : ∀ {r'}, SameStanding r r' → ∀ type,
      (if (r.verifiedAt type).isSome = true then 1 else 0) = if (r'.verifiedAt type).isSome = true then 1 else 0 := by
    intro r' hsame type
    rw [hsame.verifiedAt]
  cases command with
  | clearSanctionsFlag command =>
    obtain ⟨r', hmoves, hstanding⟩ := clearSanctionsFlag_leaves hr hrun hok
    exact hmoved hmoves (fun type => (Nat.zero_add _).trans (hsame hstanding type)) rfl
  | verification command =>
    -- What is due is what is logged: the profile before and after says whether the attempt verifies.
    have hverifies : ∀ {r'}, s'.profileOf command.userId = some r' →
        (command.Verifies s s' ↔ r.verifiedAt command.type = none ∧
          (r'.verifiedAt command.type).isSome = true) := by
      intro r' hr'
      constructor
      · rintro ⟨r1, r2, hr1, hnew, hr2, hverified⟩
        cases hr.symm.trans hr1
        cases hr'.symm.trans hr2
        exact ⟨hnew, hverified⟩
      · exact fun h => ⟨r, r', hr, h.1, hr', h.2⟩
    have hnot : ∀ {r'}, s'.profileOf command.userId = some r' → SameStanding r r' → ¬ command.Verifies s s' := by
      intro r' hr' hstanding hverified
      obtain ⟨hnew, hverified⟩ := (hverifies hr').1 hverified
      rw [hstanding.verifiedAt, hnew] at hverified
      cases hverified
    cases verification_leaves hr hrun hok with
    | unmoved r' hfails hmoves hstanding =>
      refine hmoved hmoves (fun type => (Nat.zero_add _).trans (hsame hstanding type)) ?_
      simp only [Attempt.rows, if_neg hfails, if_neg (hnot hmoves.profile hstanding), List.append_nil]
    | failed r' hfails hmoves hstanding =>
      refine hmoved hmoves (fun type => ?_) ?_
      · rw [List.count_singleton, if_neg (by simp), Nat.zero_add]
        exact hsame hstanding type
      · simp only [Attempt.rows, if_pos hfails, if_neg (hnot hmoves.profile hstanding), List.append_nil]
    | verified r' hfails hmoves hnew hverified hothers =>
      refine hmoved hmoves (fun type => ?_) ?_
      · by_cases htype : type = command.type
        · subst htype
          rw [hnew, List.count_singleton_self]
          simp [hverified]
        · rw [hothers type htype, List.count_singleton, if_neg (by simpa using fun h => htype h.symm), Nat.zero_add]
      · simp only [Attempt.rows, if_neg hfails, if_pos ((hverifies hmoves.profile).2 ⟨hnew, hverified⟩),
          List.nil_append]

theorem of_history (hstart : Registered userId s) (h : History services userId s history s') :
    Trail services userId history s' := by
  induction h with
  | start => exact registered hstart
  | elsewhere _ hprofile hrows ih => exact ih.elsewhere hprofile hrows
  | execute i command _ huser hrun hok ih => exact ih.execute huser hrun hok

end Trail

/-- **The log tells what has happened to the profile**: its tier changes lead from TIER_1 to the stored tier, and its
attempts are the failed checks and the verifications, no more and no fewer. -/
theorem log_tells_history {services : Services} {userId : String} {s s' : Store} {history : List Attempt}
    (hstart : Registered userId s) (h : History services userId s history s') :
    (∃ r, s'.profileOf userId = some r ∧ Chained .TIER_1 (tierChanges userId s'.kycAuditLog.rows) r.tier) ∧
      attempts userId s'.kycAuditLog.rows = history.flatMap (Attempt.rows services) ∧
      ∀ type, (attempts userId s'.kycAuditLog.rows).count (some type, some .PASSED) ≤ 1 := by
  obtain ⟨⟨r, hr, hchained, hcount⟩, hattempts⟩ := Trail.of_history hstart h
  refine ⟨⟨r, hr, hchained⟩, hattempts, fun type => ?_⟩
  rw [hcount]
  split
  · exact le_refl 1
  · exact Nat.zero_le 1

theorem History.of_play {services : Services} (command : KycCommand) (answers : List Ans) {s : Store}
    (h : (playRun anySchedule 0 answers (command.program services) s).any fun r => ∀ call ∈ r.1, Served call) :
    ∃ attempt s', History services command.userId s [attempt] s' := by
  obtain ⟨tr, x, s', hplay, hok⟩ :=
    playRun_seen (Q := fun (tr : List Call) _ (_ : Store) => ∀ call ∈ tr, Served call) h
  exact ⟨_, s', .execute 0 command .start rfl (run_of_play TimePasses.refl hplay) hok⟩

/-- Ada's BVN goes through. -/
theorem log_tells_history_sample : ∃ attempt s', History sampleServices "ada" sampleStore [attempt] s' ∧
    (∃ r, s'.profileOf "ada" = some r ∧ Chained .TIER_1 (tierChanges "ada" s'.kycAuditLog.rows) r.tier) ∧
    attempts "ada" s'.kycAuditLog.rows = [attempt].flatMap (Attempt.rows sampleServices) ∧
    ∀ type, (attempts "ada" s'.kycAuditLog.rows).count (some type, some .PASSED) ≤ 1 := by
  have hregistered : Registered "ada" sampleStore := ⟨⟨"profile-a", by decide +kernel⟩, by decide +kernel⟩
  obtain ⟨attempt, s', h⟩ : ∃ attempt s', History sampleServices "ada" sampleStore [attempt] s' :=
    History.of_play (.verification sampleSubmission) (sampleVerification "e") (by decide +kernel)
  exact ⟨attempt, s', h, log_tells_history hregistered h⟩

end Kudi.Compliance
