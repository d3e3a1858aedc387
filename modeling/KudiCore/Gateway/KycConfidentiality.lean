import KudiCore.Compliance.TierHistory
import KudiCore.Gateway.KycAuthority

/-!
# What a customer is told

| here | there |
| --- | --- |
| `CustomerView` | what a customer's own requests go by: the user, and the profile without its flag |
| `CustomerView.answer` | what they come to where nobody screens anything |
| `Betrayed` | the name that has been verified is on the list, and the flag open already |
| `Tidings` | what comes from outside: the provider's answer, and the time |

The flag "can never leak" to the customer, says `flagged-sanctions-profile-response.dto.ts`.

`CustomerView` is the abstract machine; `own_request_answered` is that the handlers refine it, but where `Betrayed`.
-/

namespace Kudi.Compliance

open Interleave
open Identity (AccessTokenPayload)
open FlutterwaveIdentityVerificationProvider (judge)

/-! ## The view -/

/-- Without its flag, and without the version, that counts flags too. -/
def KycProfileRecord.visible (r : KycProfileRecord) : KycProfileRecord :=
  { r with sanctionsFlaggedAt := none, sanctionsClearedAt := none, version := 0 }

structure CustomerView where
  user : Option Identity.UserRecord
  profile : Option KycProfileRecord

def Store.viewOf (s : Store) (userId : String) : CustomerView :=
  ⟨s.users.find? userId, (s.profileOf userId).map KycProfileRecord.visible⟩

/-- What a customer asks for themselves. -/
inductive OwnRequest where
  | getMyStatus
  | verify (type : VerificationType) (rawNumber : String)
deriving DecidableEq

def OwnRequest.route : OwnRequest → KycRoute
  | .getMyStatus => .getMyStatus
  | .verify .BVN rawNumber => .verifyBvn ⟨rawNumber⟩
  | .verify .NIN rawNumber => .verifyNin ⟨rawNumber⟩

structure Tidings where
  answered : Except Err FlutterwaveVerificationResponse
  now : Nat

/-! ## Verifying, without the store -/

section
variable (services : Services) (user : Option Identity.UserRecord) (row : Option KycProfileRecord) (userId : String)
  (type : VerificationType) (rawNumber : String) (heard : Tidings)

/-- What `lookUp` finds. -/
def foundOf : Except Err (Identity.User × KycProfile × Identifier × IdentityVerificationResult) :=
  match user with
  | none => .error (kycProfileNotFound userId)
  | some record => do
    let user ← Identity.UserMapper.toDomain services.identity record
    match row with
    | none => .error (kycProfileNotFound userId)
    | some row => do
      let number ← createIdentifier type rawNumber
      let response ← heard.answered
      let result ← judge services user.firstName user.lastName response
      return (user, KycProfileMapper.toDomain row, number, result)

/-- The profile that a submission saves, and the name that it hands on to the screening. -/
def verifiedOf : Except Err (KycProfile × String) := do
  let (user, profile, number, result) ← foundOf services user row userId type rawNumber heard
  if !result.matched then .error identityMismatch
  else do
    let hash ← HmacIdentifierHasher.hash services number.value
    let profile ← recordVerified type profile heard.now hash number.toMasked
    return (profile, nameOf result user)

end

/-- The answer, and the view after it. -/
def CustomerView.answer (services : Services) (view : CustomerView) (userId : String) (heard : Tidings) :
    OwnRequest → Except Err KycStatusResponseDto × CustomerView
  | .getMyStatus => match view.profile with
    | none => (.error (kycProfileNotFound userId), view)
    | some row => (.ok (.fromDomain (KycProfileMapper.toDomain row)), view)
  | .verify type rawNumber => match verifiedOf services view.user view.profile userId type rawNumber heard with
    | .error e => (.error e, view)
    | .ok (p, _) => (.ok (.fromDomain p), { view with profile := some (KycProfileMapper.toPersistence p).visible })

/-- The name that has been verified is on the list, and the flag open already. -/
def Betrayed (services : Services) (s : Store) (userId : String) (heard : Tidings) : OwnRequest → Prop
  | .getMyStatus => False
  | .verify type rawNumber => ∃ row p name, s.profileOf userId = some row ∧ row.isSanctionsFlagOpen = true ∧
      verifiedOf services (s.users.find? userId) (some row) userId type rawNumber heard = .ok (p, name) ∧
      Listed services name s

/-! ## The flag does not come into it -/

/-- What of a profile is not the flag. -/
def visibly (p : KycProfile) : KycProfile :=
  { p with sanctionsFlaggedAt := none, sanctionsClearedAt := none, version := 0 }

theorem visibly_fromDomain (p : KycProfile) : KycStatusResponseDto.fromDomain (visibly p) = .fromDomain p := rfl

theorem visible_toPersistence (p : KycProfile) :
    (KycProfileMapper.toPersistence p).visible = KycProfileMapper.toPersistence (visibly p) := rfl

theorem recordVerified_visibly (type : VerificationType) (p : KycProfile) (now : Nat) (hash masked : String) :
    (recordVerified type (visibly p) now hash masked).map visibly =
      (recordVerified type p now hash masked).map visibly := by
  cases type with
  | BVN =>
    by_cases hb : p.bvnVerifiedAt.isSome = true
    · simp [recordVerified, KycProfile.recordBvnVerified, visibly, hb]
    · by_cases ht : p.tier = .TIER_1 <;>
        simp [recordVerified, KycProfile.recordBvnVerified, visibly, hb, ht, KycProfile.touch,
          KycProfile.addDomainEvent, KycProfile.upgrade, Except.map]
  | NIN =>
    by_cases hn : p.ninVerifiedAt.isSome = true
    · simp [recordVerified, KycProfile.recordNinVerified, visibly, hn]
    · by_cases ht : p.tier = .TIER_2 ∧ p.bvnVerifiedAt.isSome = true <;>
        simp [recordVerified, KycProfile.recordNinVerified, visibly, hn, ht, KycProfile.touch,
          KycProfile.addDomainEvent, KycProfile.upgrade, Except.map]

/-- A submission of a profile without its flag comes to what it comes to. -/
theorem verifiedOf_visible (services : Services) (user : Option Identity.UserRecord) (row : KycProfileRecord)
    (userId : String) (type : VerificationType) (rawNumber : String) (heard : Tidings) :
    (verifiedOf services user (some row.visible) userId type rawNumber heard).map (Prod.map visibly id) =
      (verifiedOf services user (some row) userId type rawNumber heard).map (Prod.map visibly id) := by
  have hrow : KycProfileMapper.toDomain row.visible = visibly (KycProfileMapper.toDomain row) := rfl
  have hstore : ∀ {now : Nat} {hash masked name : String},
      ((recordVerified type (visibly (KycProfileMapper.toDomain row)) now hash masked).map fun p => (p, name)).map
          (Prod.map visibly id) =
        ((recordVerified type (KycProfileMapper.toDomain row) now hash masked).map fun p => (p, name)).map
          (Prod.map visibly id) := by
    intro now hash masked name
    have hsame := recordVerified_visibly type (KycProfileMapper.toDomain row) now hash masked
    cases hv : recordVerified type (visibly (KycProfileMapper.toDomain row)) now hash masked <;>
      cases hr : recordVerified type (KycProfileMapper.toDomain row) now hash masked <;>
        simp_all [Except.map]
  unfold verifiedOf foundOf
  cases user with
  | none => rfl
  | some record =>
    cases huser : Identity.UserMapper.toDomain services.identity record with
    | error e => simp [huser, bind, Except.bind]
    | ok user =>
      cases createIdentifier type rawNumber with
      | error e => simp [huser, bind, Except.bind]
      | ok number =>
        cases heard.answered with
        | error e => simp [huser, bind, Except.bind]
        | ok response =>
          cases hjudge : judge services user.firstName user.lastName response with
          | error e => simp [huser, hjudge, bind, Except.bind]
          | ok result =>
            cases hmatched : result.matched with
            | false => simp [huser, hjudge, hmatched, bind, Except.bind, pure, Except.pure]
            | true =>
              cases hhash : HmacIdentifierHasher.hash services number.value with
              | error e =>
                simp [huser, hjudge, hmatched, hhash, bind, Except.bind, pure, Except.pure]
              | ok hash =>
                simp only [huser, hjudge, hmatched, hhash, bind, Except.bind, pure, Except.pure,
                  Bool.not_true, Bool.false_eq_true, if_false, hrow]
                exact hstore

/-! ## What the handlers do -/

/-- How the provider was heard to answer. -/
def answered? (call : Call) : Option (Except Err FlutterwaveVerificationResponse) :=
  match call with
  | ⟨.resolve .., r, _, _⟩ => some r
  | _ => none

def clock? (call : Call) : Option Nat :=
  match call with
  | ⟨.dateNow, .ok now, _, _⟩ => some now
  | _ => none

/-- The provider's answer, and the first time that is read. -/
structure Tidings.In (heard : Tidings) (tr : List Call) : Prop where
  answered : ∀ call ∈ tr, ∀ r, answered? call = some r → r = heard.answered
  now : ∀ now, tr.findSome? clock? = some now → now = heard.now

section
variable {services : Services} {i : PId} {s s' : Store} {tr : List Call} {userId rawNumber : String}
  {type : VerificationType} {heard : Tidings}

theorem Tidings.In.left {tr' : List Call} (h : heard.In (tr ++ tr')) : heard.In tr where
  answered call hcall := h.answered call (List.mem_append_left _ hcall)
  now now hnow := h.now now (by rw [List.findSome?_append, hnow]; rfl)

theorem Tidings.In.right {tr' : List Call} (h : heard.In (tr ++ tr')) (hquiet : tr.findSome? clock? = none) :
    heard.In tr' where
  answered call hcall := h.answered call (List.mem_append_right _ hcall)
  now now hnow := h.now now (by rw [List.findSome?_append, hquiet, hnow]; rfl)

theorem clock?_of_calls {ε α : Type} {p : Prog Op.Res Err ε α} {x : Except ε α}
    (hp : p.Calls fun op => op ≠ .dateNow) (h : Run anySchedule TimePasses i p s tr x s') :
    tr.findSome? clock? = none := by
  refine List.findSome?_eq_none_iff.2 fun call hcall => ?_
  have hop := h.calls hp call hcall
  unfold clock?
  split
  · exact absurd rfl hop
  · rfl

theorem findById_served {x : Except Err (Option Identity.User)}
    (h : Run anySchedule TimePasses i (PrismaUserRepository.findById services userId) s tr x s')
    (hok : ∀ call ∈ tr, Served call) :
    (s.users.find? userId = none ∧ x = .ok none) ∨ ∃ record, s.users.find? userId = some record ∧
      x = (Identity.UserMapper.toDomain services.identity record).map some := by
  unfold PrismaUserRepository.findById at h
  obtain ⟨s1, a, found, s2, rest, ⟨ms, rfl⟩, hx, h, -⟩ := await_served rfl h hok
  have hread := exec_findUser hx
  cases found with
  | none => exact .inl ⟨hread.symm, h.2.1⟩
  | some record =>
    refine .inr ⟨record, hread.symm, ?_⟩
    rcases h.ofExcept_bind with ⟨user, huser, -, rfl, -⟩ | ⟨e, huser, -, rfl, -⟩
    · simp only [huser, Except.map]
    · simp only [huser, Except.map]

theorem findByUserId_served {x : Except Err (Option KycProfile)}
    (h : Run anySchedule TimePasses i (PrismaKycProfileRepository.findByUserId userId) s tr x s')
    (hok : ∀ call ∈ tr, Served call) : x = .ok ((s.profileOf userId).map KycProfileMapper.toDomain) := by
  unfold PrismaKycProfileRepository.findByUserId at h
  obtain ⟨s1, a, found, s2, rest, ⟨ms, rfl⟩, hx, ⟨-, rfl, -⟩, -⟩ := await_served rfl h hok
  obtain ⟨rfl, -⟩ := exec_findProfile hx
  rfl

theorem lookUp_heard {x : Except Err (Identity.User × KycProfile × Identifier × IdentityVerificationResult)}
    (h : Run anySchedule TimePasses i (lookUp services type userId rawNumber) s tr x s')
    (hok : ∀ call ∈ tr, Served call) (hheard : heard.In tr) :
    x = foundOf services (s.users.find? userId) (s.profileOf userId) userId type rawNumber heard := by
  unfold lookUp at h
  rcases bind_served h hok with ⟨user, s1, tr1, tr2, h1, hok1, h2, hok2, rfl⟩ | ⟨e, rfl, h1⟩
  swap
  · rcases findById_served h1 hok with ⟨-, he⟩ | ⟨record, hrecord, he⟩
    · cases he
    · cases huser : Identity.UserMapper.toDomain services.identity record <;>
        simp_all [foundOf, Except.map, bind, Except.bind]
  have hs1 : TimePasses s s1 :=
    passes_of_calls (PrismaUserRepository.findById_calls (T := fun op => op.writes = false) (fun _ => rfl) userId) h1
  rcases findById_served h1 hok1 with ⟨hrecord, he⟩ | ⟨record, hrecord, he⟩
  · cases he
    simp only [foundOf, hrecord]
    exact h2.2.1
  cases huser : Identity.UserMapper.toDomain services.identity record with
  | error e => simp [huser, Except.map] at he
  | ok user' =>
    obtain rfl : user = some user' := by simpa [huser, Except.map] using he
    rcases bind_served h2 hok2 with ⟨profile, s2, tr3, tr4, h3, hok3, h4, -, rfl⟩ | ⟨e, rfl, h3⟩
    swap
    · cases findByUserId_served h3 hok2
    have hprofile := findByUserId_served h3 hok3
    rw [profileOf_passes hs1] at hprofile
    cases hrow : s.profileOf userId with
    | none =>
      obtain rfl : profile = none := by simpa [hrow] using hprofile
      simp only [foundOf, hrecord, huser, bind, Except.bind]
      exact h4.2.1
    | some row =>
      obtain rfl : profile = some (KycProfileMapper.toDomain row) := by simpa [hrow] using hprofile
      rcases h4.ofExcept_bind with ⟨number, hnumber, h5⟩ | ⟨e, hnumber, -, rfl, -⟩
      swap
      · simp [foundOf, hrecord, huser, hnumber, bind, Except.bind]
      have hanswered : ∀ call ∈ tr4, ∀ r, answered? call = some r → r = heard.answered := fun call hcall =>
        hheard.answered call (List.mem_append_right _ (List.mem_append_right _ hcall))
      unfold FlutterwaveIdentityVerificationProvider.verify at h5
      have hjudged : ∀ {x5 : Except Err IdentityVerificationResult} {tr5 s5}, Run anySchedule TimePasses i
          (Prog.await (Op.resolve type number.value) >>= fun response => Prog.ofExcept
            (judge services user'.firstName user'.lastName response)) s2 tr5 x5 s5 →
          (∀ call ∈ tr5, ∀ r, answered? call = some r → r = heard.answered) →
          x5 = heard.answered >>= judge services user'.firstName user'.lastName := by
        intro x5 tr5 s5 h5 hanswered
        obtain ⟨s6, a, r, s7, rest, -, -, -, rfl, hend⟩ := h5.await_bind
        obtain rfl := hanswered _ List.mem_cons_self r rfl
        rcases hend with ⟨response, hresponse, hend⟩ | ⟨e, hresponse, -, rfl, -⟩
        · rw [hresponse]
          exact hend.ofExcept.2.1
        · rw [hresponse]
          rfl
      have hfound : foundOf services (some record) (some row) userId type rawNumber heard =
          (heard.answered >>= judge services user'.firstName user'.lastName).map
            fun result => (user', KycProfileMapper.toDomain row, number, result) := by
        simp only [foundOf, huser, hnumber, bind, Except.bind]
        cases heard.answered with
        | error e => rfl
        | ok response =>
          cases hjudge : judge services user'.firstName user'.lastName response with
          | error e => simp only [hjudge, Except.map]
          | ok result => simp only [hjudge, Except.map, pure, Except.pure]
      rw [hrecord, hfound]
      rcases h5.bind with ⟨result, s6, tr5, tr6, h6, ⟨rfl, rfl, -⟩, rfl⟩ | ⟨e, rfl, h6⟩
      · rw [List.append_nil] at hanswered
        rw [← hjudged h6 hanswered]
        rfl
      · rw [← hjudged h6 hanswered]
        rfl

theorem foundOf_ok {user : Option Identity.UserRecord} {row : Option KycProfileRecord}
    {found : Identity.User × KycProfile × Identifier × IdentityVerificationResult}
    (h : foundOf services user row userId type rawNumber heard = .ok found) :
    ∃ r, row = some r ∧ found.2.1 = KycProfileMapper.toDomain r := by
  cases user with
  | none => cases h
  | some record =>
    cases huser : Identity.UserMapper.toDomain services.identity record with
    | error e => simp [foundOf, huser, bind, Except.bind] at h
    | ok user =>
      cases row with
      | none => simp [foundOf, huser, bind, Except.bind] at h
      | some r =>
        refine ⟨r, rfl, ?_⟩
        cases hnumber : createIdentifier type rawNumber with
        | error e => simp [foundOf, huser, hnumber, bind, Except.bind] at h
        | ok number =>
          cases hanswered : heard.answered with
          | error e => simp [foundOf, huser, hnumber, hanswered, bind, Except.bind] at h
          | ok response =>
            cases hjudge : judge services user.firstName user.lastName response with
            | error e => simp [foundOf, huser, hnumber, hanswered, hjudge, bind, Except.bind] at h
            | ok result =>
              simp only [foundOf, huser, hnumber, hanswered, hjudge, bind, Except.bind, pure, Except.pure,
                Except.ok.injEq] at h
              rw [← h]

theorem viewOf_passes (h : TimePasses s s') (userId : String) : s'.viewOf userId = s.viewOf userId := by
  obtain ⟨ms, rfl⟩ := h
  rfl

/-- The view is of the profile saved last. -/
theorem viewOf_of_writes {saved : List KycProfileRecord} {logged : List KycAuditLogEntry} {r : KycProfileRecord}
    (h : Writes saved logged s s') (hr : s.profileOf userId = some r)
    (hsaved : ∀ data ∈ saved, data.id = r.id ∧ data.userId = userId) :
    s'.viewOf userId = ⟨s.users.find? userId, some (saved.getLast?.getD r).visible⟩ := by
  have hlast : s'.profileOf userId = some (saved.getLast?.getD r) := Writes.profileOf h.profiles hr hsaved
  rw [Store.viewOf, hlast, h.users]
  rfl

theorem recordVerified_operation {p p' : KycProfile} {now : Nat} {hash masked : String}
    (h : recordVerified type p now hash masked = .ok p') :
    p'.id = p.id ∧ p'.userId = p.userId ∧ p'.version = p.version + 1 ∧
      p'.isSanctionsFlagOpen = p.isSanctionsFlagOpen := by
  cases type with
  | BVN =>
    simp only [recordVerified, KycProfile.recordBvnVerified] at h
    split at h
    · cases h
    · cases h
      exact ⟨by split <;> rfl, by split <;> rfl, by split <;> rfl, by split <;> rfl⟩
  | NIN =>
    simp only [recordVerified, KycProfile.recordNinVerified] at h
    split at h
    · cases h
    · cases h
      exact ⟨by split <;> rfl, by split <;> rfl, by split <;> rfl, by split <;> rfl⟩

/-- The number is refused, or the profile is saved with it. -/
theorem verify_heard {row : KycProfileRecord} {number : Identifier} {x : Except Err KycProfile}
    (hr : s.profileOf userId = some row)
    (h : Run anySchedule TimePasses i (verify services type (KycProfileMapper.toDomain row) number) s tr x s')
    (hok : ∀ call ∈ tr, Served call) (hheard : heard.In tr) :
    (x = do
      let hash ← HmacIdentifierHasher.hash services number.value
      recordVerified type (KycProfileMapper.toDomain row) heard.now hash number.toMasked) ∧
    ((∃ e, x = .error e) ∧ TimePasses s s' ∨
      ∃ p', x = .ok p' ∧ Writes [KycProfileMapper.toPersistence p'] [] s s') := by
  unfold verify at h
  rcases h.ofExcept_bind with ⟨hash, hhash, h⟩ | ⟨e, hhash, -, rfl, rfl⟩
  swap
  · rw [hhash]
    exact ⟨rfl, .inl ⟨⟨e, rfl⟩, .refl _⟩⟩
  obtain ⟨s1, a, r, s2, rest, hpass, -, hx, rfl, hend⟩ := h.await_bind
  obtain ⟨now, rfl⟩ := (hok _ List.mem_cons_self).ok rfl
  obtain rfl := exec_read rfl hx
  obtain rfl : now = heard.now := hheard.now now rfl
  rcases hend with ⟨_, he, hend⟩ | ⟨_, he, -⟩
  swap
  · cases he
  cases he
  rw [hhash]
  rcases hend.ofExcept_bind with ⟨p', hp', hend⟩ | ⟨e, hp', -, rfl, rfl⟩
  swap
  · exact ⟨hp'.symm, .inl ⟨⟨e, rfl⟩, hpass⟩⟩
  obtain ⟨hid, -, hversion, -⟩ := recordVerified_operation hp'
  have hstored : s2.kycProfiles.find? p'.id = some row := by
    have hr2 := Unscreened.stored ((profileOf_passes hpass userId).trans hr)
    rwa [hid]
  obtain ⟨s3, rest3, hwrites, ⟨-, rfl, rfl⟩, -⟩ := then_served hend
    (fun call hcall => hok call (List.mem_cons_of_mem _ hcall)) fun h hok => save_next hversion hstored h hok
  exact ⟨hp'.symm, .inr ⟨p', rfl, hwrites.after_passes hpass⟩⟩

/-- A refusal shows nothing but that. -/
theorem refuse_heard {row : KycProfileRecord} {x : Except Err KycStatusResponseDto} (hr : s.profileOf userId = some row)
    (h : Run anySchedule TimePasses i (refuse type (KycProfileMapper.toDomain row)) s tr x s')
    (hok : ∀ call ∈ tr, Served call) : x = .error identityMismatch ∧ s'.viewOf userId = s.viewOf userId := by
  have huser := profileOf_userId hr
  unfold refuse at h
  obtain ⟨s1, rest1, hsave, h1, hok1⟩ := then_served h hok fun h hok => save_next rfl (Unscreened.stored hr) h hok
  obtain ⟨s2, rest2, ⟨rows, hlog, -⟩, h2, hok2⟩ := then_served h1 hok1 recordDomainEvents_served
  obtain ⟨s3, rest3, hpub, ⟨-, rfl, rfl⟩, -⟩ := then_served h2 hok2 fun h _ => publishAll_served h
  refine ⟨rfl, (viewOf_of_writes ((hsave.trans hlog).trans hpub) hr fun data hdata => ?_).trans ?_⟩
  · obtain rfl := List.mem_singleton.1 hdata
    exact ⟨rfl, huser⟩
  · rw [Store.viewOf, hr]
    rfl

theorem flagForSanctionsReview_visibly (p : KycProfile) (now : Nat) (summary : String) :
    (KycProfileMapper.toPersistence (p.flagForSanctionsReview now summary)).visible =
      (KycProfileMapper.toPersistence p).visible ∧
    KycStatusResponseDto.fromDomain (p.flagForSanctionsReview now summary) = .fromDomain p := by
  unfold KycProfile.flagForSanctionsReview
  split <;> exact ⟨rfl, rfl⟩

/-- What follows a verification shows the profile that has been saved, or that a flag was open. -/
theorem conclude_heard {row : KycProfileRecord} {p : KycProfile} {fullName : String}
    {x : Except Err KycStatusResponseDto} {s1 : Store} (hr : s.profileOf userId = some row)
    (hid : p.id = row.id) (huser : p.userId = userId) (hversion : 0 < p.version)
    (hsaved : Writes [KycProfileMapper.toPersistence p] [] s s1)
    (h : Run anySchedule TimePasses i (conclude services p fullName) s1 tr x s') (hok : ∀ call ∈ tr, Served call) :
    s'.viewOf userId = ⟨s.users.find? userId, some (KycProfileMapper.toPersistence p).visible⟩ ∧
      (p.isSanctionsFlagOpen = true ∧ Listed services fullName s →
        x = .error (PrismaKycProfileRepository.modifiedConcurrently row.id)) ∧
      (¬ (p.isSanctionsFlagOpen = true ∧ Listed services fullName s) → x = .ok (.fromDomain p)) := by
  unfold conclude at h
  obtain ⟨s2, rest2, ⟨rows, hlog, -⟩, h2, hok2⟩ := then_served h hok recordDomainEvents_served
  obtain ⟨s3, rest3, hpub, h3, hok3⟩ := then_served h2 hok2 fun h _ => publishAll_served h
  have hwrites := (hsaved.trans hlog).trans hpub
  have hjust : JustSaved (pulled p) s3 := by
    refine ⟨?_, hversion, rfl⟩
    rw [hwrites.profiles]
    exact Table.find?_put_self _ _
  have hlisted : Listed services fullName s3 ↔ Listed services fullName s := by
    unfold Listed
    rw [hwrites.sanctionsList]
  have hview : ∀ {saved logged s4}, Writes saved logged s3 s4 →
      (∀ data ∈ saved, data.id = p.id ∧ data.userId = p.userId ∧
        data.visible = (KycProfileMapper.toPersistence p).visible) →
      s4.viewOf userId = ⟨s.users.find? userId, some (KycProfileMapper.toPersistence p).visible⟩ := by
    intro saved logged s4 hmore hsame
    have hall := hwrites.trans hmore
    simp only [List.append_nil] at hall
    refine (viewOf_of_writes hall hr fun data hdata => ?_).trans ?_
    · rcases List.mem_append.1 hdata with hdata | hdata
      · obtain rfl := List.mem_singleton.1 hdata
        exact ⟨hid, huser⟩
      · exact ⟨(hsame data hdata).1.trans hid, (hsame data hdata).2.1.trans huser⟩
    · rw [List.singleton_append, List.getLast?_cons, Option.getD_some]
      cases hlast : saved.getLast? with
      | none => rfl
      | some data =>
        rw [Option.getD_some, (hsame data (List.mem_of_getLast? hlast)).2.2]
  have hend : ∀ {x3 : Except Err KycProfile} {tr3 s4}, Run anySchedule TimePasses i
      (SanctionsScreeningService.screenAndFlag services (pulled p) fullName) s3 tr3 x3 s4 →
      (∀ call ∈ tr3, Served call) →
      s4.viewOf userId = ⟨s.users.find? userId, some (KycProfileMapper.toPersistence p).visible⟩ ∧
        (p.isSanctionsFlagOpen = true ∧ Listed services fullName s →
          x3 = .error (PrismaKycProfileRepository.modifiedConcurrently row.id)) ∧
        (¬ (p.isSanctionsFlagOpen = true ∧ Listed services fullName s) →
          ∃ p3, x3 = .ok p3 ∧ KycStatusResponseDto.fromDomain p3 = .fromDomain p) := by
    intro x3 tr3 s4 h4 hok4
    rcases screenAndFlag_served hjust h4 hok4 with ⟨hnot, rfl, id, hmore⟩ | ⟨-, hclosed, now, summary, id,
      rfl, hmore⟩ |
      ⟨hyes, hopen, rfl, hmore⟩
    · exact ⟨hview hmore fun data hdata => (nomatch hdata), fun hboth => absurd (hlisted.2 hboth.2) hnot,
        fun _ => ⟨_, rfl, rfl⟩⟩
    · refine ⟨hview hmore fun data hdata => ?_, fun hboth => ?_, fun _ => ⟨_, rfl, ?_⟩⟩
      · obtain rfl := List.mem_singleton.1 hdata
        obtain ⟨hid', huser', -⟩ := flagForSanctionsReview_closed hclosed now summary
        exact ⟨hid', huser', (flagForSanctionsReview_visibly (pulled p) now summary).1⟩
      · exact absurd (hclosed.symm.trans hboth.1) Bool.false_ne_true
      · exact (flagForSanctionsReview_visibly (pulled p) now summary).2
    · refine ⟨hview hmore fun data hdata => (nomatch hdata), fun _ => ?_,
        fun hnot => absurd ⟨hopen, hlisted.1 hyes⟩ hnot⟩
      rw [← hid]
      rfl
  rcases bind_served h3 hok3 with ⟨p3, s4, tr3, tr4, h4, hok4, ⟨-, rfl, rfl⟩, -, -⟩ | ⟨e, rfl, h4⟩
  · obtain ⟨hv, hbetrayed, hshown⟩ := hend h4 hok4
    refine ⟨hv, fun hboth => ?_, fun hnot => ?_⟩
    · cases hbetrayed hboth
    · obtain ⟨p4, he, hsame⟩ := hshown hnot
      cases he
      rw [hsame]
  · obtain ⟨hv, hbetrayed, hshown⟩ := hend h4 hok3
    refine ⟨hv, fun hboth => by rw [Except.error.inj (hbetrayed hboth)], fun hnot => ?_⟩
    obtain ⟨p4, he, -⟩ := hshown hnot
    cases he

/-- A submission comes to what `verifiedOf` says, or tells of the flag. -/
theorem submit_heard {x : Except Err KycStatusResponseDto}
    (h : Run anySchedule TimePasses i (submit services type userId rawNumber) s tr x s')
    (hok : ∀ call ∈ tr, Served call) (hheard : heard.In tr) :
    (∃ e, verifiedOf services (s.users.find? userId) (s.profileOf userId) userId type rawNumber heard = .error e ∧
      x = .error e ∧ s'.viewOf userId = s.viewOf userId) ∨
    ∃ row p name, s.profileOf userId = some row ∧
      verifiedOf services (s.users.find? userId) (some row) userId type rawNumber heard = .ok (p, name) ∧
      s'.viewOf userId = ⟨s.users.find? userId, some (KycProfileMapper.toPersistence p).visible⟩ ∧
      (row.isSanctionsFlagOpen = true ∧ Listed services name s →
        x = .error (PrismaKycProfileRepository.modifiedConcurrently row.id)) ∧
      (¬ (row.isSanctionsFlagOpen = true ∧ Listed services name s) → x = .ok (.fromDomain p)) := by
  unfold submit at h
  rcases bind_served h hok with ⟨⟨user, p, number, result⟩, s1, tr1, tr2, h1, hok1, h2, hok2,
    rfl⟩ | ⟨e, rfl, h1⟩
  swap
  · refine .inl ⟨e, ?_, rfl, viewOf_passes (passes_of_calls lookUp_reads h1) userId⟩
    rw [verifiedOf, ← lookUp_heard h1 hok hheard]
    rfl
  have hfound := lookUp_heard h1 hok1 hheard.left
  have hs1 := passes_of_calls lookUp_reads h1
  obtain ⟨row, hrow, hp⟩ := foundOf_ok hfound.symm
  obtain rfl : p = KycProfileMapper.toDomain row := hp
  have hr1 := (profileOf_passes hs1 userId).trans hrow
  have hlookUp : (lookUp services type userId rawNumber).Calls fun op => op ≠ .dateNow := by
    refine .bind (PrismaUserRepository.findById_calls (fun _ => nofun) userId) fun user => ?_
    cases user with
    | none => trivial
    | some user =>
      refine .bind (.bind (.await nofun) fun _ => trivial) fun profile => ?_
      cases profile with
      | none => trivial
      | some profile =>
        refine .bind (.ofExcept _) fun number => ?_
        exact .bind (FlutterwaveIdentityVerificationProvider.verify_calls (fun _ _ => nofun) type number user)
          fun _ => trivial
  have hheard2 := hheard.right (clock?_of_calls hlookUp h1)
  have hverified : verifiedOf services (s.users.find? userId) (s.profileOf userId) userId type rawNumber heard =
      if !result.matched then .error identityMismatch
      else do
        let hash ← HmacIdentifierHasher.hash services number.value
        let profile ← recordVerified type (KycProfileMapper.toDomain row) heard.now hash number.toMasked
        return (profile, nameOf result user) := by
    rw [verifiedOf, ← hfound]
    rfl
  cases hmatched : result.matched with
  | false =>
    simp only [hmatched, Bool.not_false, if_true] at h2 hverified
    obtain ⟨rfl, hview⟩ := refuse_heard hr1 h2 hok2
    exact .inl ⟨_, hverified, rfl, hview.trans (viewOf_passes hs1 userId)⟩
  | true =>
    simp only [hmatched, Bool.not_true, Bool.false_eq_true, if_false] at h2 hverified
    rcases bind_served h2 hok2 with ⟨p', s2, tr3, tr4, h3, hok3, h4, hok4, rfl⟩ | ⟨e, rfl, h3⟩
    · obtain ⟨hspec, ⟨⟨e, he⟩, -⟩ | ⟨_, he, hwrites⟩⟩ := verify_heard hr1 h3 hok3 hheard2.left
      · cases he
      cases he
      obtain ⟨hash, hhash, hrecord⟩ : ∃ hash, HmacIdentifierHasher.hash services number.value = .ok hash ∧
          recordVerified type (KycProfileMapper.toDomain row) heard.now hash number.toMasked = .ok p' := by
        cases hhash : HmacIdentifierHasher.hash services number.value with
        | error e =>
          rw [hhash] at hspec
          cases hspec
        | ok hash =>
          rw [hhash] at hspec
          exact ⟨hash, rfl, hspec.symm⟩
      obtain ⟨hid, huser, hversion, hflag⟩ := recordVerified_operation hrecord
      have hpositive : 0 < p'.version := by
        rw [hversion]
        exact Nat.succ_pos _
      obtain ⟨hview, hbetrayed, hshown⟩ :=
        conclude_heard hr1 hid (huser.trans (profileOf_userId hrow)) hpositive hwrites h4 hok4
      have hlisted : Listed services (nameOf result user) s1 ↔ Listed services (nameOf result user) s := by
        obtain ⟨ms, rfl⟩ := hs1
        exact Iff.rfl
      have husers : s1.users.find? userId = s.users.find? userId := by
        obtain ⟨ms, rfl⟩ := hs1
        rfl
      rw [hflag, hlisted] at hbetrayed hshown
      refine .inr ⟨row, p', nameOf result user, hrow, ?_, husers ▸ hview, hbetrayed, hshown⟩
      rw [← hrow, hverified]
      simp only [hhash, hrecord, bind, Except.bind, pure, Except.pure]
    · obtain ⟨hspec, ⟨-, hs2⟩ | ⟨_, he, -⟩⟩ := verify_heard hr1 h3 hok2 hheard2
      swap
      · cases he
      refine .inl ⟨e, ?_, rfl, viewOf_passes (hs1.trans hs2) userId⟩
      rw [hverified]
      cases hhash : HmacIdentifierHasher.hash services number.value with
      | error e' =>
        rw [hhash] at hspec
        cases hspec
        rfl
      | ok hash =>
        rw [hhash] at hspec
        have hrecord : recordVerified type (KycProfileMapper.toDomain row) heard.now hash number.toMasked = .error e :=
          hspec.symm
        simp only [hrecord, bind, Except.bind]

end

/-- The guards let a customer's own requests through. -/
theorem handled_of_program {services : Services} {user : AccessTokenPayload} {i : PId} {request : OwnRequest}
    {s s' : Store} {tr : List Call} {x : Except Err (Option KycStatusResponseDto)}
    (h : Run anySchedule TimePasses i ((KycIncoming.request (some user) request.route).program services) s tr x s') :
    ∃ x', x = x'.map some ∧ Run anySchedule TimePasses i (request.route.handle services user) s tr x' s' := by
  have hroles : RolesGuard.canActivate request.route.roles user = .ok () := by
    cases request with
    | getMyStatus => rfl
    | verify type rawNumber => cases type <;> rfl
  unfold KycIncoming.program at h
  rcases h.ofExcept_bind with ⟨user', huser, h⟩ | ⟨e, he, -⟩
  swap
  · cases he
  cases huser
  rcases h.ofExcept_bind with ⟨_, -, h⟩ | ⟨e, he, -⟩
  swap
  · rw [hroles] at he
    cases he
  rcases h.bind with ⟨status, s1, tr1, tr2, h1, ⟨rfl, rfl, rfl⟩, rfl⟩ | ⟨e, rfl, h1⟩
  · exact ⟨.ok status, rfl, by rwa [List.append_nil]⟩
  · exact ⟨.error e, rfl, h1⟩

theorem getMyStatus_served {i : PId} {userId : String} {s s' : Store} {tr : List Call}
    {x : Except Err KycStatusResponseDto}
    (h : Run anySchedule TimePasses i (GetMyKycStatusHandler.execute userId) s tr x s')
    (hok : ∀ call ∈ tr, Served call) : TimePasses s s' ∧ x = match s.profileOf userId with
      | none => .error (kycProfileNotFound userId)
      | some row => .ok (.fromDomain (KycProfileMapper.toDomain row)) := by
  have hreads : (GetMyKycStatusHandler.execute userId).Calls fun op => op.writes = false := by
    refine .bind (.bind (.await rfl) fun _ => trivial) fun profile => ?_
    cases profile <;> trivial
  refine ⟨passes_of_calls hreads h, ?_⟩
  unfold GetMyKycStatusHandler.execute at h
  rcases bind_served h hok with ⟨profile, s1, tr1, tr2, h1, hok1, h2, -, -⟩ | ⟨e, rfl, h1⟩
  swap
  · cases findByUserId_served h1 hok
  have hprofile := findByUserId_served h1 hok1
  cases hrow : s.profileOf userId with
  | none =>
    obtain rfl : profile = none := by simpa [hrow] using hprofile
    exact h2.2.1
  | some row =>
    obtain rfl : profile = some (KycProfileMapper.toDomain row) := by simpa [hrow] using hprofile
    exact h2.2.1

theorem verifiedOf_view_error {services : Services} {s : Store} {userId rawNumber : String} {type : VerificationType}
    {heard : Tidings} {e : Err}
    (h : verifiedOf services (s.users.find? userId) (s.profileOf userId) userId type rawNumber heard = .error e) :
    verifiedOf services (s.viewOf userId).user (s.viewOf userId).profile userId type rawNumber heard = .error e := by
  unfold Store.viewOf
  cases hrow : s.profileOf userId with
  | none =>
    rw [hrow] at h
    exact h
  | some row =>
    rw [hrow] at h
    have hsame := verifiedOf_visible services (s.users.find? userId) row userId type rawNumber heard
    rw [h] at hsame
    rw [Option.map_some]
    cases hview : verifiedOf services (s.users.find? userId) (some row.visible) userId type rawNumber heard with
    | error e' =>
      rw [hview] at hsame
      cases hsame
      rfl
    | ok found =>
      rw [hview] at hsame
      cases hsame

theorem verifiedOf_view_ok {services : Services} {s : Store} {userId rawNumber : String} {type : VerificationType}
    {heard : Tidings} {row : KycProfileRecord} {p : KycProfile} {name : String} (hrow : s.profileOf userId = some row)
    (h : verifiedOf services (s.users.find? userId) (some row) userId type rawNumber heard = .ok (p, name)) :
    ∃ p', verifiedOf services (s.viewOf userId).user (s.viewOf userId).profile userId type rawNumber heard =
      .ok (p', name) ∧ visibly p' = visibly p := by
  have hsame := verifiedOf_visible services (s.users.find? userId) row userId type rawNumber heard
  rw [h] at hsame
  unfold Store.viewOf
  rw [hrow, Option.map_some]
  cases hview : verifiedOf services (s.users.find? userId) (some row.visible) userId type rawNumber heard with
  | error e =>
    rw [hview] at hsame
    cases hsame
  | ok found =>
    rw [hview] at hsame
    have hpair : (visibly found.1, found.2) = (visibly p, name) := Except.ok.inj hsame
    obtain ⟨p', name'⟩ := found
    obtain ⟨hp, rfl⟩ := Prod.mk.inj hpair
    exact ⟨p', rfl, hp⟩

/-- **A customer's request shows the view, or that the flag is open.** Where the storage serves every call, what a
customer is answered and what they can be answered later are what comes of the view alone - not of a flag, of the list,
or of what has been logged -, unless the name that has just been verified is on the list and the flag was open already:
then the answer is that the profile has been modified. -/
theorem own_request_answered {services : Services} {user : AccessTokenPayload} {i : PId} {request : OwnRequest}
    {heard : Tidings} {s s' : Store} {tr : List Call} {x : Except Err (Option KycStatusResponseDto)}
    (h : Run anySchedule TimePasses i ((KycIncoming.request (some user) request.route).program services) s tr x s')
    (hok : ∀ call ∈ tr, Served call) (hheard : heard.In tr) :
    s'.viewOf user.sub = ((s.viewOf user.sub).answer services user.sub heard request).2 ∧
      (Betrayed services s user.sub heard request →
        ∃ id, x = .error (PrismaKycProfileRepository.modifiedConcurrently id)) ∧
      (¬ Betrayed services s user.sub heard request →
        x = ((s.viewOf user.sub).answer services user.sub heard request).1.map some) := by
  obtain ⟨x, rfl, hrun⟩ := handled_of_program h
  cases request with
  | getMyStatus =>
    have hrun : Run anySchedule TimePasses i (GetMyKycStatusHandler.execute user.sub) s tr x s' := hrun
    obtain ⟨hs, hx⟩ := getMyStatus_served hrun hok
    refine ⟨?_, False.elim, fun _ => ?_⟩
    · rw [viewOf_passes hs]
      unfold CustomerView.answer Store.viewOf
      cases s.profileOf user.sub <;> rfl
    · rw [hx]
      unfold CustomerView.answer Store.viewOf
      cases s.profileOf user.sub <;> rfl
  | verify type rawNumber =>
    have hrun : Run anySchedule TimePasses i (submit services type user.sub rawNumber) s tr x s' := by
      cases type <;> exact hrun
    rcases submit_heard hrun hok hheard with ⟨e, hverified, rfl, hview⟩ |
      ⟨row, p, name, hrow, hverified, hview, hbetrayed, hshown⟩
    · have hanswer : (s.viewOf user.sub).answer services user.sub heard (.verify type rawNumber) =
          (.error e, s.viewOf user.sub) := by
        simp only [CustomerView.answer, verifiedOf_view_error hverified]
      rw [hanswer]
      refine ⟨hview, ?_, fun _ => rfl⟩
      rintro ⟨row, p, name, hrow, -, hok', -⟩
      rw [hrow, hok'] at hverified
      cases hverified
    · obtain ⟨p', hverified', hsame⟩ := verifiedOf_view_ok hrow hverified
      have hanswer : (s.viewOf user.sub).answer services user.sub heard (.verify type rawNumber) =
          (.ok (.fromDomain p), ⟨s.users.find? user.sub, some (KycProfileMapper.toPersistence p).visible⟩) := by
        simp only [CustomerView.answer, hverified']
        rw [visible_toPersistence, visible_toPersistence, hsame, ← visibly_fromDomain p', hsame, visibly_fromDomain]
        rfl
      rw [hanswer]
      refine ⟨hview, ?_, fun hnot => ?_⟩
      · rintro ⟨row', p'', name', hrow', hopen, hok', hlisted⟩
        obtain rfl := Option.some.inj (hrow.symm.trans hrow')
        rw [hverified] at hok'
        cases hok'
        rw [hbetrayed ⟨hopen, hlisted⟩]
        exact ⟨_, rfl⟩
      · rw [hshown fun hboth => hnot ⟨row, p, name, hrow, hboth.1, hverified, hboth.2⟩]

/-- When compliance clears the flag, the customer's view stays as it is. -/
theorem clearSanctionsFlag_view {command : ClearSanctionsFlagCommand} {i : PId} {s s' : Store} {tr : List Call}
    {x : Except Err KycStatusResponseDto}
    (h : Run anySchedule TimePasses i (ClearSanctionsFlagHandler.execute command) s tr x s')
    (hok : ∀ call ∈ tr, Served call) : s'.viewOf command.targetUserId = s.viewOf command.targetUserId := by
  have hreads : (PrismaKycProfileRepository.findByUserId command.targetUserId).Calls fun op => op.writes = false :=
    .bind (.await rfl) fun _ => trivial
  unfold ClearSanctionsFlagHandler.execute at h
  rcases bind_served h hok with ⟨profile, s1, tr1, tr2, h1, hok1, h2, hok2, -⟩ | ⟨e, -, h1⟩
  swap
  · exact viewOf_passes (passes_of_calls hreads h1) _
  have hs1 := passes_of_calls hreads h1
  have hprofile := findByUserId_served h1 hok1
  rw [← viewOf_passes hs1]
  cases hrow : s.profileOf command.targetUserId with
  | none =>
    obtain rfl : profile = none := by simpa [hrow] using hprofile
    rw [h2.2.2]
  | some row =>
    obtain rfl : profile = some (KycProfileMapper.toDomain row) := by simpa [hrow] using hprofile
    have hr1 := (profileOf_passes hs1 command.targetUserId).trans hrow
    have huser := profileOf_userId hrow
    obtain ⟨s2, a, now, s3, rest, hs2, hx, h3, hok3⟩ := await_served rfl h2 hok2
    obtain rfl := exec_read rfl hx
    rw [← viewOf_passes hs2]
    have hr2 := (profileOf_passes hs2 command.targetUserId).trans hr1
    rcases h3.ofExcept_bind with ⟨p, hp, h4⟩ | ⟨e, -, -, -, rfl⟩
    swap
    · rfl
    obtain ⟨hid, huser', hversion, hvisible⟩ : p.id = row.id ∧ p.userId = row.userId ∧
      p.version = row.version + 1 ∧
        (KycProfileMapper.toPersistence p).visible = row.visible := by
      unfold KycProfile.clearSanctionsFlag at hp
      split at hp <;> cases hp
      exact ⟨rfl, rfl, rfl, rfl⟩
    have hstored : s3.kycProfiles.find? p.id = some row := hid ▸ Unscreened.stored hr2
    obtain ⟨s4, rest4, hsave, h5, hok5⟩ := then_served h4 hok3 fun h hok => save_next hversion hstored h hok
    obtain ⟨s5, rest5, ⟨id, hlog⟩, h6, hok6⟩ := then_served h5 hok5 saveEntry_served
    obtain ⟨s6, rest6, hpub, ⟨-, -, rfl⟩, -⟩ := then_served h6 hok6 fun h _ => publishAll_served h
    refine (viewOf_of_writes ((hsave.trans hlog).trans hpub) hr2 fun data hdata => ?_).trans ?_
    · obtain rfl := List.mem_singleton.1 hdata
      exact ⟨hid, huser'.trans huser⟩
    · rw [Store.viewOf, hr2]
      exact congrArg (fun row => CustomerView.mk _ (some row)) hvisible

/-! ## One request after another -/

/-- A request, what was heard while it was handled, and what it was answered. -/
structure Exchange where
  request : OwnRequest
  heard : Tidings
  answer : Except Err (Option KycStatusResponseDto)

/-- The requests of a customer, none of which has told of a flag; between two of them may come anything that leaves
their view as it is: lists that are replaced, flags that are cleared, other customers. -/
inductive Exchanges (services : Services) (user : AccessTokenPayload) (s : Store) : List Exchange → Store →
    Prop where
  | start : Exchanges services user s [] s
  | request {past : List Exchange} {s1 s2 : Store} {i : PId} {tr : List Call} {exchange : Exchange}
      (h : Exchanges services user s past s1)
      (hrun : Run anySchedule TimePasses i ((KycIncoming.request (some user) exchange.request.route).program services)
        s1 tr exchange.answer s2)
      (hok : ∀ call ∈ tr, Served call) (hheard : exchange.heard.In tr)
      (hkept : ¬ Betrayed services s1 user.sub exchange.heard exchange.request) :
      Exchanges services user s (past ++ [exchange]) s2
  | elsewhere {past : List Exchange} {s1 s2 : Store} (h : Exchanges services user s past s1)
      (hview : s2.viewOf user.sub = s1.viewOf user.sub) : Exchanges services user s past s2

def Exchange.asked (e : Exchange) : OwnRequest × Tidings := (e.request, e.heard)

/-- The abstract machine, request after request: the view at the end, and the answers. -/
def CustomerView.run (services : Services) (userId : String) (view : CustomerView)
    (asked : List (OwnRequest × Tidings)) : CustomerView × List (Except Err (Option KycStatusResponseDto)) :=
  asked.foldl (fun done a =>
    let (answer, view) := done.1.answer services userId a.2 a.1
    (view, done.2 ++ [answer.map some])) (view, [])

/-- The requests are answered as the abstract machine answers them. -/
theorem Exchanges.refines {services : Services} {user : AccessTokenPayload} {s s' : Store} {past : List Exchange}
    (h : Exchanges services user s past s') :
    (s'.viewOf user.sub, past.map Exchange.answer) =
      (s.viewOf user.sub).run services user.sub (past.map Exchange.asked) := by
  induction h with
  | start => rfl
  | request h hrun hok hheard hkept ih =>
    obtain ⟨hview, -, hanswer⟩ := own_request_answered hrun hok hheard
    rw [List.map_append, List.map_append, CustomerView.run, List.foldl_append]
    rw [CustomerView.run] at ih
    rw [← ih, hview]
    simp only [List.map_cons, List.map_nil, List.foldl_cons, List.foldl_nil, Exchange.asked, hanswer hkept]
  | elsewhere h hview ih => rw [hview, ih]

/-- **A customer cannot tell.** Two histories of the same requests, with the same news from outside, from states in
which the customer is the same, are answered alike, however they differ in flags, lists, logs and versions: unless one
of them screens a name that is on the list while the flag is open. -/
theorem review_stays_hidden {services : Services} {user : AccessTokenPayload} {s0 s s0' s' : Store}
    {past past' : List Exchange} (hsame : s0.viewOf user.sub = s0'.viewOf user.sub)
    (h : Exchanges services user s0 past s) (h' : Exchanges services user s0' past' s')
    (hasked : past.map Exchange.asked = past'.map Exchange.asked) :
    past.map Exchange.answer = past'.map Exchange.answer ∧ s.viewOf user.sub = s'.viewOf user.sub := by
  have hall := h.refines
  rw [hsame, hasked, ← h'.refines] at hall
  exact ⟨(Prod.mk.inj hall).2, (Prod.mk.inj hall).1⟩

/-! ### Ada, and her namesake -/

theorem Tidings.In.of_heard {tr : List Call} {answered : Except Err FlutterwaveVerificationResponse} {now : Nat}
    (hanswered : tr.filterMap answered? = [answered]) (hnow : tr.findSome? clock? = some now) :
    (⟨answered, now⟩ : Tidings).In tr where
  answered call hcall r hr := by
    have hmem : r ∈ tr.filterMap answered? := List.mem_filterMap.2 ⟨call, hcall, hr⟩
    rw [hanswered] at hmem
    exact List.mem_singleton.1 hmem
  now now' hnow' := Option.some.inj (hnow'.symm.trans hnow)

/-- Her NIN, once her BVN has been verified. -/
def sampleNin : OwnRequest := .verify .NIN "11223344556"

def sampleTidings : Tidings := ⟨.ok sampleResponse, 0⟩

def sampleCustomer : AccessTokenPayload := ⟨"ada", "ada@kudi.africa", .CUSTOMER⟩

theorem sampleNin_exchange {s : Store} (answers : List Ans)
    (hplay : (playRun anySchedule 0 answers
      ((KycIncoming.request (some sampleCustomer) sampleNin.route).program sampleServices) s).any fun r =>
        (∀ call ∈ r.1, Served call) ∧ r.1.filterMap answered? = [.ok sampleResponse] ∧
          r.1.findSome? clock? = some 0) :
    ∃ tr x s', Run anySchedule TimePasses 0
        ((KycIncoming.request (some sampleCustomer) sampleNin.route).program sampleServices) s tr x s' ∧
      (∀ call ∈ tr, Served call) ∧ sampleTidings.In tr := by
  obtain ⟨tr, x, s', hrun, hok, hanswered, hnow⟩ := playRun_seen
    (Q := fun (tr : List Call) _ (_ : Store) => (∀ call ∈ tr, Served call) ∧
      tr.filterMap answered? = [.ok sampleResponse] ∧ tr.findSome? clock? = some 0) hplay
  exact ⟨tr, x, s', run_of_play TimePasses.refl hrun, hok, .of_heard hanswered hnow⟩

/-- Her namesake has been found already: she is told that her profile has been modified. -/
theorem own_request_answered_sample : ∃ tr x s',
    Run anySchedule TimePasses 0 ((KycIncoming.request (some sampleCustomer) sampleNin.route).program sampleServices)
      (namesakeStore (some 0)) tr x s' ∧
    Betrayed sampleServices (namesakeStore (some 0)) "ada" sampleTidings sampleNin ∧
    ∃ id, x = .error (PrismaKycProfileRepository.modifiedConcurrently id) := by
  obtain ⟨tr, x, s', h, hok, hheard⟩ := sampleNin_exchange (s := namesakeStore (some 0))
    [.ok, .ok, .resolved sampleResponse, .ok, .ok, .uuid "e-1", .ok, .uuid "e-2", .ok, .ok, .ok, .ok, .ok, .ok]
    (by decide +kernel)
  have hname : (verifiedOf sampleServices ((namesakeStore (some 0)).users.find? "ada")
      (some (KycProfileMapper.toPersistence (verifiedAda (some 0)))) "ada" .NIN "11223344556"
      sampleTidings).map Prod.snd = .ok "Ada Obi" := by
    decide +kernel
  have hbetrayed : Betrayed sampleServices (namesakeStore (some 0)) "ada" sampleTidings sampleNin := by
    cases hverified : verifiedOf sampleServices ((namesakeStore (some 0)).users.find? "ada")
        (some (KycProfileMapper.toPersistence (verifiedAda (some 0)))) "ada" .NIN "11223344556" sampleTidings with
    | error e =>
      rw [hverified] at hname
      cases hname
    | ok found =>
      rw [hverified] at hname
      obtain ⟨p, name⟩ := found
      obtain rfl : name = "Ada Obi" := Except.ok.inj hname
      exact ⟨KycProfileMapper.toPersistence (verifiedAda (some 0)), p, "Ada Obi", by decide +kernel,
        by decide +kernel, hverified, by decide +kernel⟩
  exact ⟨tr, x, s', h, hbetrayed, (own_request_answered h hok hheard).2.1 hbetrayed⟩

/-- Ada has never been flagged, and the list is empty. -/
def unlistedStore : Store := { namesakeStore none with sanctionsList := [] }

/-- Her flag has been cleared, and her name is on the list. -/
def clearedStore : Store :=
  { namesakeStore none with
    kycProfiles := (namesakeStore none).kycProfiles.put
      (KycProfileMapper.toPersistence { verifiedAda (some 0) with sanctionsClearedAt := some 0, version := 4 }) }

/-- Neither answer tells which it was. -/
theorem review_stays_hidden_sample : ∃ answer answer' s s',
    Exchanges sampleServices sampleCustomer unlistedStore [⟨sampleNin, sampleTidings, answer⟩] s ∧
    Exchanges sampleServices sampleCustomer clearedStore [⟨sampleNin, sampleTidings, answer'⟩] s' ∧
    answer = answer' := by
  obtain ⟨tr, answer, s, h, hok, hheard⟩ := sampleNin_exchange (s := unlistedStore)
    [.ok, .ok, .resolved sampleResponse, .ok, .ok, .uuid "e-1", .ok, .uuid "e-2", .ok, .ok, .ok, .ok, .uuid "e-3", .ok]
    (by decide +kernel)
  obtain ⟨tr', answer', s', h', hok', hheard'⟩ := sampleNin_exchange (s := clearedStore)
    [.ok, .ok, .resolved sampleResponse, .ok, .ok, .uuid "e-1", .ok, .uuid "e-2", .ok, .ok, .ok, .ok, .ok, .ok,
      .uuid "e-3", .ok, .ok]
    (by decide +kernel)
  have hkept : ¬ Betrayed sampleServices unlistedStore "ada" sampleTidings sampleNin := by
    rintro ⟨row, p, name, -, -, -, entry, hentry, -⟩
    cases hentry
  have hkept' : ¬ Betrayed sampleServices clearedStore "ada" sampleTidings sampleNin := by
    rintro ⟨row, p, name, hrow, hopen, -, -⟩
    have hclosed : (clearedStore.profileOf "ada").map KycProfileRecord.isSanctionsFlagOpen = some false := by
      decide +kernel
    rw [hrow, Option.map_some, hopen] at hclosed
    cases hclosed
  have hsame : unlistedStore.viewOf sampleCustomer.sub = clearedStore.viewOf sampleCustomer.sub := by
    have hprofile : (unlistedStore.profileOf "ada").map KycProfileRecord.visible =
        (clearedStore.profileOf "ada").map KycProfileRecord.visible := by
      decide +kernel
    exact congrArg (CustomerView.mk _) hprofile
  have hall : Exchanges sampleServices sampleCustomer unlistedStore [⟨sampleNin, sampleTidings, answer⟩] s :=
    .request .start h hok hheard hkept
  have hall' : Exchanges sampleServices sampleCustomer clearedStore [⟨sampleNin, sampleTidings, answer'⟩] s' :=
    .request .start h' hok' hheard' hkept'
  obtain ⟨hanswers, -⟩ := review_stays_hidden hsame hall hall' rfl
  exact ⟨answer, answer', s, s', hall, hall', (List.cons.inj hanswers).1⟩

end Kudi.Compliance
