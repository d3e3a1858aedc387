import KudiCore.Compliance.SanctionsReview
import KudiCore.Gateway.KycRoutes

/-!
# Who may do what to a profile

`Submits` and `Overrides` say whose number a request puts forward, `LookedUp` what the provider has said of it, and
`EntitledTo` what may come of both for the profile of a user. A program that saves a profile has loaded it: it holds a
copy of the row, and writes on condition of the copy's version.

The users and the sanctions list are those of the start: nothing here writes them.
-/

namespace Kudi.Compliance

open Interleave
open Identity (AccessTokenPayload)

/-- What the provider may answer about a number. -/
abbrev Provider := VerificationType → String → FlutterwaveVerificationResponse → Prop

/-! ## The policy -/

/-- A customer puts forward their own number. -/
inductive Submits : KycIncoming → (userId : String) → VerificationType → String → Prop where
  | bvn (user : AccessTokenPayload) (dto : SubmitBvnVerificationDto) :
      Submits (.request (some user) (.verifyBvn dto)) user.sub .BVN dto.bvn
  | nin (user : AccessTokenPayload) (dto : SubmitNinVerificationDto) :
      Submits (.request (some user) (.verifyNin dto)) user.sub .NIN dto.nin

/-- Compliance puts forward a customer's. -/
inductive Overrides : KycIncoming → (userId : String) → VerificationType → String → Prop where
  | bvn {staff : AccessTokenPayload} (hrole : staff.role ∈ complianceRoles) (userId : String)
      (dto : ManualBvnOverrideDto) :
      Overrides (.request (some staff) (.manuallyVerifyBvn userId dto)) userId .BVN dto.bvn
  | nin {staff : AccessTokenPayload} (hrole : staff.role ∈ complianceRoles) (userId : String)
      (dto : ManualNinOverrideDto) :
      Overrides (.request (some staff) (.manuallyVerifyNin userId dto)) userId .NIN dto.nin

section
variable (services : Services) (start : Store) (provider : Provider)

/-- The provider has a record of the number; `result` is what comes of it, held against the name of the registered
`user`. -/
structure LookedUp (type : VerificationType) (userId number : String) (user : Identity.User)
    (result : IdentityVerificationResult) : Prop where
  registered : ∃ record, start.users.find? userId = some record ∧
    Identity.UserMapper.toDomain services.identity record = .ok user
  answered : ∃ response, provider type number response ∧
    FlutterwaveIdentityVerificationProvider.judge services user.firstName user.lastName response = .ok result

/-- Of a number, its keyed hash and its mask are stored. -/
inductive Stores : VerificationType → String → KycOperation → Prop where
  | bvn {number hash : String} {bvn : Identifier} (hvalid : Bvn.create number = .ok bvn)
      (hhash : HmacIdentifierHasher.hash services number = .ok hash) (now : Nat) :
      Stores .BVN number (.recordBvnVerified now hash bvn.toMasked)
  | nin {number hash : String} {nin : Identifier} (hvalid : Nin.create number = .ok nin)
      (hhash : HmacIdentifierHasher.hash services number = .ok hash) (now : Nat) :
      Stores .NIN number (.recordNinVerified now hash nin.toMasked)

theorem Stores.not_flags {services : Services} {type : VerificationType} {number : String} {op : KycOperation}
    (h : Stores services type number op) : ∀ now summary, op ≠ .flagForSanctionsReview now summary := by
  cases h <;> exact nofun

theorem Stores.verifies {services : Services} {type : VerificationType} {number : String} {op : KycOperation}
    (h : Stores services type number op) : op.verifies = some type := by
  cases h <;> rfl

/-- What may come of `incoming` for the profile of `userId`. -/
inductive EntitledTo (incoming : KycIncoming) (userId : String) : KycOperation → Prop where
  /-- The provider's record has the customer's registered name. -/
  | verified {type : VerificationType} {number : String} {user : Identity.User} {result : IdentityVerificationResult}
      {op : KycOperation} (hsubmits : Submits incoming userId type number)
      (hlooked : LookedUp services start provider type userId number user result) (hmatched : result.matched = true)
      (hstores : Stores services type number op) : EntitledTo incoming userId op
  | refused {type : VerificationType} {number : String} {user : Identity.User} {result : IdentityVerificationResult}
      (hsubmits : Submits incoming userId type number)
      (hlooked : LookedUp services start provider type userId number user result) (hother : result.matched = false) :
      EntitledTo incoming userId (.recordVerificationFailed type "Provider-returned name did not match")
  /-- Whether the names match does not matter. -/
  | overridden {type : VerificationType} {number : String} {user : Identity.User} {result : IdentityVerificationResult}
      {op : KycOperation} (hoverrides : Overrides incoming userId type number)
      (hlooked : LookedUp services start provider type userId number user result)
      (hstores : Stores services type number op) : EntitledTo incoming userId op
  /-- The name that has been verified is on the list. -/
  | flagged {type : VerificationType} {number : String} {user : Identity.User} {result : IdentityVerificationResult}
      {found : List SanctionsListEntry}
      (hwho : Submits incoming userId type number ∧ result.matched = true ∨ Overrides incoming userId type number)
      (hlooked : LookedUp services start provider type userId number user result)
      (hfound : found = start.sanctionsList.filter fun entry => Hits services (nameOf result user) entry)
      (hlisted : found ≠ []) (now : Nat) :
      EntitledTo incoming userId (.flagForSanctionsReview now (SanctionsScreeningService.matchSummary found))
  | cleared {staff : AccessTokenPayload} {dto : ClearSanctionsFlagDto} (hrole : staff.role ∈ complianceRoles)
      (hincoming : incoming = .request (some staff) (.clearSanctionsFlag userId dto)) (now : Nat) :
      EntitledTo incoming userId (.clearSanctionsFlag now staff.sub dto.reason)

end

/-! ## Operations on rows -/

namespace KycProfileRecord

/-- What the operation makes of a row. -/
def apply (row : KycProfileRecord) (op : KycOperation) : Except Err KycProfileRecord := do
  let p ← op.apply (KycProfileMapper.toDomain row)
  return KycProfileMapper.toPersistence p

theorem apply_ok {row row' : KycProfileRecord} {op : KycOperation} (h : row.apply op = .ok row') :
    ∃ p, op.apply (KycProfileMapper.toDomain row) = .ok p ∧ row' = KycProfileMapper.toPersistence p := by
  unfold apply at h
  cases hp : op.apply (KycProfileMapper.toDomain row) with
  | error e =>
    rw [hp] at h
    cases h
  | ok p =>
    rw [hp] at h
    cases h
    exact ⟨p, rfl, rfl⟩

/-- A profile that has nothing to announce is what its row says. -/
theorem apply_of_pulled {p p' : KycProfile} {op : KycOperation} (hpulled : p.domainEvents = [])
    (h : op.apply p = .ok p') :
    (KycProfileMapper.toPersistence p).apply op = .ok (KycProfileMapper.toPersistence p') := by
  have hp : KycProfileMapper.toDomain (KycProfileMapper.toPersistence p) = p := by
    rw [KycProfileMapper.toDomain, KycProfileMapper.toPersistence, ← hpulled]
  unfold apply
  rw [hp, h]
  rfl

/-- Whose profile it is stays; and it has another version, unless it has been flagged before. -/
theorem operation_frame {op : KycOperation} {p p' : KycProfile} (h : op.apply p = .ok p') :
    p'.id = p.id ∧ p'.userId = p.userId ∧
      (p'.version = p.version + 1 ∨ p' = p ∧ ∃ now summary, op = .flagForSanctionsReview now summary) := by
  cases op with
  | recordBvnVerified now hash masked =>
    simp only [KycOperation.apply, KycProfile.recordBvnVerified] at h
    split at h
    · cases h
    · cases h
      exact ⟨by split <;> rfl, by split <;> rfl, .inl (by split <;> rfl)⟩
  | recordNinVerified now hash masked =>
    simp only [KycOperation.apply, KycProfile.recordNinVerified] at h
    split at h
    · cases h
    · cases h
      exact ⟨by split <;> rfl, by split <;> rfl, .inl (by split <;> rfl)⟩
  | recordVerificationFailed type reason =>
    cases h
    exact ⟨rfl, rfl, .inl rfl⟩
  | flagForSanctionsReview now summary =>
    simp only [KycOperation.apply, KycProfile.flagForSanctionsReview, Except.ok.injEq] at h
    split at h <;> subst h
    · exact ⟨rfl, rfl, .inr ⟨rfl, now, summary, rfl⟩⟩
    · exact ⟨rfl, rfl, .inl rfl⟩
  | clearSanctionsFlag now staff reason =>
    simp only [KycOperation.apply, KycProfile.clearSanctionsFlag] at h
    split at h
    · cases h
    · cases h
      exact ⟨rfl, rfl, .inl rfl⟩

theorem apply_frame {row row' : KycProfileRecord} {op : KycOperation} (h : row.apply op = .ok row') :
    row'.id = row.id ∧ row'.userId = row.userId ∧ (row'.version = row.version + 1 ∨ row' = row) := by
  obtain ⟨p, hp, rfl⟩ := apply_ok h
  obtain ⟨hid, huser, hversion⟩ := operation_frame hp
  refine ⟨hid, huser, hversion.imp (fun h => h) fun hsame => ?_⟩
  rw [hsame.1]
  rfl

/-- No operation takes a saved profile back to version 0, and only a flag that is open leaves it there. -/
theorem operation_version {op : KycOperation} {p p' : KycProfile} (h : op.apply p = .ok p')
    (hop : 0 < p.version ∨ ∀ now summary, op ≠ .flagForSanctionsReview now summary) : 0 < p'.version := by
  obtain ⟨-, -, hversion | ⟨hsame, now, summary, hflag⟩⟩ := operation_frame h
  · rw [hversion]
    exact Nat.succ_pos _
  · rw [hsame]
    exact hop.resolve_right fun hother => hother now summary hflag

/-- `ops`, one after the other. -/
def perform (row : KycProfileRecord) (ops : List KycOperation) : Except Err KycProfileRecord := ops.foldlM apply row

theorem perform_cons_ok {row row' : KycProfileRecord} {op : KycOperation} {ops : List KycOperation}
    (h : row.perform (op :: ops) = .ok row') : ∃ row1, row.apply op = .ok row1 ∧ row1.perform ops = .ok row' := by
  unfold perform at h
  rw [List.foldlM_cons] at h
  cases hop : row.apply op with
  | error e =>
    rw [hop] at h
    cases h
  | ok row1 =>
    rw [hop] at h
    exact ⟨row1, rfl, h⟩

theorem perform_snoc {row row1 row' : KycProfileRecord} {op : KycOperation} {ops : List KycOperation}
    (h : row.perform ops = .ok row1) (hop : row1.apply op = .ok row') : row.perform (ops ++ [op]) = .ok row' := by
  unfold perform at h ⊢
  rw [List.foldlM_append, h]
  show row1.apply op >>= pure = _
  rw [hop]
  rfl

theorem perform_frame {ops : List KycOperation} : ∀ {row row' : KycProfileRecord}, row.perform ops = .ok row' →
    row'.id = row.id ∧ row'.userId = row.userId := by
  induction ops with
  | nil =>
    rintro row row' ⟨⟩
    exact ⟨rfl, rfl⟩
  | cons op ops ih =>
    intro row row' h
    obtain ⟨row1, hop, h⟩ := perform_cons_ok h
    obtain ⟨hid1, huser1, -⟩ := apply_frame hop
    obtain ⟨hid, huser⟩ := ih h
    exact ⟨hid.trans hid1, huser.trans huser1⟩

/-- What every operation of the list keeps. -/
theorem perform_invariant {M : KycProfileRecord → Prop} {ops : List KycOperation}
    (hstep : ∀ op ∈ ops, ∀ row row', row.apply op = .ok row' → M row → M row') :
    ∀ {row row' : KycProfileRecord}, row.perform ops = .ok row' → M row → M row' := by
  induction ops with
  | nil =>
    rintro row row' ⟨⟩ h0
    exact h0
  | cons op ops ih =>
    intro row row' h h0
    obtain ⟨row1, hop, h⟩ := perform_cons_ok h
    exact ih (fun op' hop' => hstep op' (List.mem_cons_of_mem _ hop')) h (hstep op List.mem_cons_self row row1 hop h0)

/-! ### Verifications -/

def maskedOf (r : KycProfileRecord) : VerificationType → Option String
  | .BVN => r.bvnMasked
  | .NIN => r.ninMasked

/-- What is kept of the number has not changed: when it was verified, its hash and its mask. -/
def SameNumber (r' r : KycProfileRecord) (type : VerificationType) : Prop :=
  r'.verifiedAt type = r.verifiedAt type ∧ r'.hashOf type = r.hashOf type ∧ r'.maskedOf type = r.maskedOf type

/-- The operation writes the columns of a verification: it is the first of its type. -/
theorem apply_records (type : VerificationType) {row row' : KycProfileRecord} {now : Nat} {hash masked : String}
    {op : KycOperation} (h : row.apply op = .ok row')
    (hop : op = match type with
      | .BVN => .recordBvnVerified now hash masked
      | .NIN => .recordNinVerified now hash masked) :
    row.verifiedAt type = none ∧ row'.hashOf type = some hash ∧ row'.maskedOf type = some masked := by
  obtain ⟨p, hp, rfl⟩ := apply_ok h
  cases type with
  | BVN =>
    subst hop
    simp only [KycOperation.apply, KycProfile.recordBvnVerified] at hp
    split at hp
    · cases hp
    · rename_i hnew
      cases hp
      exact ⟨Option.not_isSome_iff_eq_none.1 hnew, by split <;> rfl, by split <;> rfl⟩
  | NIN =>
    subst hop
    simp only [KycOperation.apply, KycProfile.recordNinVerified] at hp
    split at hp
    · cases hp
    · rename_i hnew
      cases hp
      exact ⟨Option.not_isSome_iff_eq_none.1 hnew, by split <;> rfl, by split <;> rfl⟩

/-- What does not verify the number leaves its columns. -/
theorem apply_other {row row' : KycProfileRecord} {type : VerificationType} {op : KycOperation}
    (h : row.apply op = .ok row') (hop : op.verifies ≠ some type) :
    row'.verifiedAt type = row.verifiedAt type ∧ row'.hashOf type = row.hashOf type ∧
      row'.maskedOf type = row.maskedOf type := by
  obtain ⟨p, hp, rfl⟩ := apply_ok h
  cases op with
  | recordBvnVerified now hash masked =>
    simp only [KycOperation.apply, KycProfile.recordBvnVerified] at hp
    split at hp
    · cases hp
    · cases hp
      cases type with
      | BVN => exact absurd rfl hop
      | NIN => exact ⟨by split <;> rfl, by split <;> rfl, by split <;> rfl⟩
  | recordNinVerified now hash masked =>
    simp only [KycOperation.apply, KycProfile.recordNinVerified] at hp
    split at hp
    · cases hp
    · cases hp
      cases type with
      | BVN => exact ⟨by split <;> rfl, by split <;> rfl, by split <;> rfl⟩
      | NIN => exact absurd rfl hop
  | recordVerificationFailed _ reason =>
    cases hp
    cases type <;> exact ⟨rfl, rfl, rfl⟩
  | flagForSanctionsReview now summary =>
    simp only [KycOperation.apply, KycProfile.flagForSanctionsReview, Except.ok.injEq] at hp
    split at hp <;> subst hp <;> cases type <;> exact ⟨rfl, rfl, rfl⟩
  | clearSanctionsFlag now staff reason =>
    simp only [KycOperation.apply, KycProfile.clearSanctionsFlag] at hp
    split at hp
    · cases hp
    · cases hp
      cases type <;> exact ⟨rfl, rfl, rfl⟩

/-- A number is verified once. -/
theorem apply_verifies {row row' : KycProfileRecord} {type : VerificationType} {op : KycOperation}
    (h : row.apply op = .ok row') (hop : op.verifies = some type) : row.verifiedAt type = none := by
  cases op with
  | recordBvnVerified now hash masked =>
    obtain rfl := Option.some.inj hop
    exact (apply_records .BVN h rfl).1
  | recordNinVerified now hash masked =>
    obtain rfl := Option.some.inj hop
    exact (apply_records .NIN h rfl).1
  | _ => cases hop

/-! ### The flag -/

/-- An open flag stays open until it is cleared. -/
theorem apply_open {row row' : KycProfileRecord} {op : KycOperation} (h : row.apply op = .ok row')
    (hopen : row.isSanctionsFlagOpen = true) :
    row'.isSanctionsFlagOpen = true ∨ ∃ now staff reason, op = .clearSanctionsFlag now staff reason := by
  obtain ⟨p, hp, rfl⟩ := apply_ok h
  cases op with
  | recordBvnVerified now hash masked =>
    simp only [KycOperation.apply, KycProfile.recordBvnVerified] at hp
    split at hp
    · cases hp
    · cases hp
      exact .inl (by split <;> exact hopen)
  | recordNinVerified now hash masked =>
    simp only [KycOperation.apply, KycProfile.recordNinVerified] at hp
    split at hp
    · cases hp
    · cases hp
      exact .inl (by split <;> exact hopen)
  | recordVerificationFailed type reason =>
    cases hp
    exact .inl hopen
  | flagForSanctionsReview now summary =>
    simp only [KycOperation.apply, KycProfile.flagForSanctionsReview, Except.ok.injEq] at hp
    split at hp <;> subst hp
    · exact .inl hopen
    · exact .inl rfl
  | clearSanctionsFlag now staff reason => exact .inr ⟨now, staff, reason, rfl⟩

/-- ... and is opened by being flagged. -/
theorem open_of_apply {row row' : KycProfileRecord} {op : KycOperation} (h : row.apply op = .ok row')
    (hopen : row'.isSanctionsFlagOpen = true) :
    row.isSanctionsFlagOpen = true ∨ ∃ now summary, op = .flagForSanctionsReview now summary := by
  obtain ⟨p, hp, rfl⟩ := apply_ok h
  cases op with
  | recordBvnVerified now hash masked =>
    simp only [KycOperation.apply, KycProfile.recordBvnVerified] at hp
    split at hp
    · cases hp
    · cases hp
      split at hopen <;> exact .inl hopen
  | recordNinVerified now hash masked =>
    simp only [KycOperation.apply, KycProfile.recordNinVerified] at hp
    split at hp
    · cases hp
    · cases hp
      split at hopen <;> exact .inl hopen
  | recordVerificationFailed type reason =>
    cases hp
    exact .inl hopen
  | flagForSanctionsReview now summary => exact .inr ⟨now, summary, rfl⟩
  | clearSanctionsFlag now staff reason =>
    simp only [KycOperation.apply, KycProfile.clearSanctionsFlag] at hp
    split at hp
    · cases hp
    · cases hp
      exact absurd hopen (by simp [isSanctionsFlagOpen, KycProfileMapper.toPersistence, KycProfile.touch,
        KycProfile.addDomainEvent])

end KycProfileRecord

/-- The hash and the mask of the number are in the row. -/
def Shows (services : Services) (type : VerificationType) (number : String) (row : KycProfileRecord) : Prop :=
  ∃ hash identifier, createIdentifier type number = .ok identifier ∧
    HmacIdentifierHasher.hash services number = .ok hash ∧ row.hashOf type = some hash ∧
      row.maskedOf type = some identifier.toMasked

theorem Shows.same {services : Services} {type : VerificationType} {number : String} {row row' : KycProfileRecord}
    (h : Shows services type number row) (hhash : row'.hashOf type = row.hashOf type)
    (hmask : row'.maskedOf type = row.maskedOf type) : Shows services type number row' := by
  obtain ⟨hash, identifier, hvalid, hkeyed, hstored, hmasked⟩ := h
  exact ⟨hash, identifier, hvalid, hkeyed, hhash.trans hstored, hmask.trans hmasked⟩

theorem Stores.shows {services : Services} {type : VerificationType} {number : String} {op : KycOperation}
    (h : Stores services type number op) {row row' : KycProfileRecord} (hop : row.apply op = .ok row') :
    Shows services type number row' := by
  cases h with
  | bvn hvalid hhash now =>
    obtain ⟨-, hstored, hmasked⟩ := KycProfileRecord.apply_records .BVN hop rfl
    exact ⟨_, _, hvalid, hhash, hstored, hmasked⟩
  | nin hvalid hhash now =>
    obtain ⟨-, hstored, hmasked⟩ := KycProfileRecord.apply_records .NIN hop rfl
    exact ⟨_, _, hvalid, hhash, hstored, hmasked⟩

end Kudi.Compliance
