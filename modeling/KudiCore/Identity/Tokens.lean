import KudiCore.Identity.Handlers

/-!
# What a handler does with tokens

A handler loads at most one token. It may save that token as replaced, under an id it has drawn, and issue a token: the
successor of the one it has replaced, or the first of a family whose name it has drawn. It revokes no family but that of
the token it has loaded.

| here | there |
| --- | --- |
| `Rotating`      | how far one program has come |
| `tokenProtocol` | the calls that are left to it |
| `TokensInv`     | drawn names are nobody else's, and the token a program has loaded is still there |
-/

namespace Kudi.Identity

open Interleave Protocol

/-! ## The protocol -/

/-- `drawn` are the ids that the program has drawn and not issued a token under. -/
structure Rotating where
  found : Option RefreshToken
  drawn : List String
  replacement : Option String
  issued : Bool

namespace Rotating

def init : Rotating := ⟨none, [], none, false⟩

/-- `data` is the loaded token, replaced. -/
structure Replaces (st : Rotating) (t data : RefreshToken) : Prop where
  found : st.found = some t
  live : t.revokedAt = none
  first : st.replacement = none
  unissued : st.issued = false
  saved : ∃ now newId, newId ≠ "" ∧ newId ∈ st.drawn ∧ data = t.revoke now newId

/-- `data` is new: it succeeds the token that has been replaced, or it starts a family. -/
structure Issues (st : Rotating) (data : RefreshToken) : Prop where
  id : data.id ∈ st.drawn
  live : data.revokedAt = none
  unreplaced : data.replacedByTokenId = none
  unissued : st.issued = false
  family : (∃ t, st.found = some t ∧ t.revokedAt = none ∧ data.family = t.family ∧ data.userId = t.userId ∧
      st.replacement = some data.id) ∨
    (st.found = none ∧ st.replacement = none ∧ data.family ∈ st.drawn)

end Rotating

def tokenProtocol : Protocol Op.Res Err where
  State := Rotating
  ok _ st op := match op with
    | .refreshToken (.findUnique _) => st = .init
    | .refreshToken (.upsert data) => (∃ t, st.Replaces t data) ∨ st.Issues data
    | .refreshToken (.updateMany (.ofFamily family) _) => ∃ t, st.found = some t ∧ t.family = family
    | .randomUUID => st.issued = false
    | _ => True
  yields _ _ op r := match op, r with
    | .refreshToken (.findUnique tokenHash), .ok (some t) => t.tokenHash = tokenHash
    | .user (.findById id), .ok (some r) => r.id = id
    | .randomUUID, .ok u => u ≠ ""
    | _, _ => True
  next _ st op r := match op, r with
    | .refreshToken (.findUnique _), .ok found => { st with found := found }
    | .refreshToken (.upsert data), .ok _ =>
      match data.replacedByTokenId with
      | some newId => { st with replacement := some newId }
      | none => { st with drawn := [], issued := true }
    | .randomUUID, .ok u => { st with drawn := u :: st.drawn }
    | _, _ => st

/-- What a program that has ended well promises about the token presented to it. -/
def Promises (services : Services) (request : SessionRequest) (st : Rotating)
    (x : Except Err (Option AuthResponseDto)) :
    Prop :=
  ∀ command dto, request = .refresh command → x = .ok dto →
    st.replacement.isSome = true ∧ ∃ t, st.found = some t ∧
      t.tokenHash = services.hashRefreshToken command.refreshToken

/-! ## The programs obey -/

/-- Calls that have nothing to do with tokens. -/
def Op.isQuiet : Op → Bool
  | .refreshToken (.updateMany (.ofUserId _) _) => true
  | .refreshToken _ | .randomUUID => false
  | _ => true

theorem quiet_of_isQuiet {i : PId} {op : Op} (h : op.isQuiet = true) : tokenProtocol.Quiet i op := by
  intro st
  cases op with
  | refreshToken q =>
    cases q with
    | updateMany filter revokedAt =>
      cases filter with
      | ofFamily family => cases h
      | ofUserId userId => exact ⟨trivial, fun _ => rfl⟩
    | _ => cases h
  | randomUUID => cases h
  | _ => exact ⟨trivial, fun _ => rfl⟩

section
variable {services : Services} {i : PId} {T : Op → Prop}

theorem PrismaUserRepository.findById_calls (h : ∀ id, T (.user (.findById id))) (id : String) :
    (PrismaUserRepository.findById services id).Calls T := by
  refine .bind (.await (h id)) fun record => ?_
  cases record with
  | none => trivial
  | some record => exact .bind (.ofExcept _) fun _ => trivial

theorem PrismaUserRepository.findByEmail_calls (h : ∀ email, T (.user (.findByEmail email))) (email : Email) :
    (PrismaUserRepository.findByEmail services email).Calls T := by
  refine .bind (.await (h email.value)) fun record => ?_
  cases record with
  | none => trivial
  | some record => exact .bind (.ofExcept _) fun _ => trivial

theorem User.assertCanAttemptLogin_calls (h : T .dateNow) (u : User) : u.assertCanAttemptLogin.Calls T := by
  unfold User.assertCanAttemptLogin
  split
  · refine .bind ?_ fun _ => .bind (.await h) fun _ => trivial
    unfold User.assertLockExpired
    split
    · trivial
    · refine .bind (.await h) fun now => ?_
      split <;> trivial
  · split <;> trivial

theorem User.assertCanAttemptLogin_id (u : User) : u.assertCanAttemptLogin.Returns fun u' => u'.id = u.id := by
  unfold User.assertCanAttemptLogin
  split
  · exact .bind (Prog.returns_true _) fun _ _ => .bind (Prog.returns_true _) fun _ _ => rfl
  · split
    · trivial
    · rfl

theorem User.recordFailedLogin_calls (h : T .dateNow) (u : User) (ipAddress : Option String) :
    (u.recordFailedLogin ipAddress).Calls T := by
  refine .bind (.await h) fun now => ?_
  show Prog.Calls T (if _ ≥ _ then _ else _)
  split
  · exact .bind (.await h) fun _ => trivial
  · trivial

theorem publishAll_calls (h : ∀ e, T (.publish e)) : ∀ events, (publishAll events).Calls T
  | [] => trivial
  | event :: events => .bind (.await (h event)) fun _ => publishAll_calls h events

theorem quietCalls {ε α : Type} {p : Prog Op.Res Err ε α} (h : p.Calls fun op => op.isQuiet = true) :
    p.Calls (tokenProtocol.Quiet i) := h.mono fun _ => quiet_of_isQuiet

end

section
variable {services : Services} {i : PId}

/-- A token in the making. -/
theorem RefreshToken.issue_obeys {st : Rotating} (hst : st.issued = false) {userId tokenHash : String}
    {family ipAddress userAgent : Option String} :
    tokenProtocol.Obeys i (fun st' x => ∀ t, x = .ok t →
        t.id ≠ "" ∧ t.id ∈ st'.drawn ∧ t.userId = userId ∧ t.revokedAt = none ∧
          t.replacedByTokenId = none ∧
        (∃ drawn, st' = { st with drawn := drawn }) ∧ (family = none → t.family ∈ st'.drawn) ∧
        ∀ f, family = some f → t.family = f)
      (RefreshToken.issue userId tokenHash family ipAddress userAgent) st := by
  unfold RefreshToken.issue
  refine .await_bind trivial (fun now _ => ?_) fun e _ t ht => nomatch ht
  refine .await_bind hst (fun id hid => ?_) fun e _ t ht => nomatch ht
  cases family with
  | some family =>
    refine .await_bind trivial (fun createdAt _ => ?_) fun e _ t ht => nomatch ht
    rintro t ⟨⟩
    exact ⟨hid, List.mem_cons_self, rfl, rfl, rfl, ⟨_, rfl⟩, nofun, fun f hf => Option.some.inj hf⟩
  | none =>
    refine .await_bind hst (fun family _ => ?_) fun e _ t ht => nomatch ht
    refine .await_bind trivial (fun createdAt _ => ?_) fun e _ t ht => nomatch ht
    rintro t ⟨⟩
    exact ⟨hid, List.mem_cons_of_mem _ List.mem_cons_self, rfl, rfl, rfl, ⟨_, rfl⟩,
      fun _ => List.mem_cons_self, nofun⟩

/-- The user that a token belongs to. -/
theorem PrismaUserRepository.findById_obeys {st : Rotating} (id : String) :
    tokenProtocol.Obeys i (fun st' x => st' = st ∧ ∀ user, x = .ok (some user) → user.id = id)
      (PrismaUserRepository.findById services id) st := by
  refine .await_bind trivial (fun record hrecord => ?_) fun e _ => ⟨rfl, nofun⟩
  cases record with
  | none => exact ⟨rfl, nofun⟩
  | some record =>
    refine .ofExcept_bind (fun user huser => ?_) fun _ _ => ⟨rfl, nofun⟩
    refine ⟨rfl, ?_⟩
    rintro _ ⟨⟩
    exact (UserMapper.toDomain_id huser).trans hrecord

theorem RefreshAccessTokenHandler.execute_obeys (command : RefreshAccessTokenCommand) :
    tokenProtocol.Obeys i (fun st x => ∀ dto, x = .ok dto → st.replacement.isSome = true ∧
        ∃ t, st.found = some t ∧ t.tokenHash = services.hashRefreshToken command.refreshToken)
      (RefreshAccessTokenHandler.execute services command) .init := by
  unfold RefreshAccessTokenHandler.execute PrismaRefreshTokenRepository.findByTokenHash
  rw [Prog.bind_assoc]
  refine .await_bind rfl (fun found hfound => ?_) fun e _ dto hdto => nomatch hdto
  cases found with
  | none => exact fun dto hdto => nomatch hdto
  | some t =>
    show tokenProtocol.Obeys i _ (if t.isRevoked = true then _ else _) ⟨some t, [], none, false⟩
    split
    · -- Reuse: the family of the loaded token goes.
      refine Obeys.bind (P := tokenProtocol) (R := fun _ _ => True) ?_ (fun _ _ _ dto hdto => nomatch hdto)
        fun _ _ _ dto hdto => nomatch hdto
      refine .await_bind trivial (fun now _ => ?_) fun _ _ => trivial
      exact .await_bind ⟨t, rfl, rfl⟩ (fun _ _ => trivial) fun _ _ => trivial
    rename_i hlive
    have hlive : t.revokedAt = none := by simpa [RefreshToken.isRevoked] using hlive
    refine .await_bind trivial (fun now _ => ?_) fun e _ dto hdto => nomatch hdto
    split
    · exact fun dto hdto => nomatch hdto
    refine (PrismaUserRepository.findById_obeys t.userId).bind (fun st user huser => ?_)
      fun st e _ dto hdto => nomatch hdto
    obtain ⟨rfl, howner⟩ := huser
    cases user with
    | none => exact fun dto hdto => nomatch hdto
    | some user =>
      refine Obeys.quiet_returns_bind
        (quietCalls (User.assertCanAttemptLogin_calls (T := fun op => op.isQuiet = true) rfl user))
        user.assertCanAttemptLogin_id (fun user' huser' => ?_) fun e dto hdto => nomatch hdto
      have howner : user'.id = t.userId := huser'.trans (howner user rfl)
      unfold RefreshAccessTokenHandler.rotate
      refine .await_bind trivial (fun raw _ => ?_) fun e _ dto hdto => nomatch hdto
      refine (RefreshToken.issue_obeys rfl).bind (fun st new hnew => ?_) fun st e _ dto hdto => nomatch hdto
      obtain ⟨hid, hdrawn, hnuser, hnlive, hnrep, ⟨drawn, rfl⟩, -, hfamily⟩ := hnew new rfl
      refine .await_bind trivial (fun now _ => ?_) fun e _ dto hdto => nomatch hdto
      have hreplaced : (t.revoke now new.id).replacedByTokenId = some new.id := if_neg hid
      refine .await_bind (.inl ⟨t, rfl, hlive, rfl, rfl, now, new.id, hid, hdrawn, rfl⟩) (fun _ _ => ?_)
        fun e _ dto hdto => nomatch hdto
      simp only [tokenProtocol, RefreshTokenMapper.toPersistence, hreplaced]
      refine .await_bind (.inr ⟨hdrawn, hnlive, hnrep, rfl,
        .inl ⟨t, rfl, hlive, hfamily _ rfl, hnuser.trans howner, rfl⟩⟩)
        (fun _ _ => ?_)
        fun e _ dto hdto => nomatch hdto
      simp only [RefreshTokenMapper.toPersistence, hnrep]
      refine .await_bind trivial (fun signed _ => ?_) fun e _ dto hdto => nomatch hdto
      exact fun dto _ => ⟨rfl, t, rfl, hfound⟩

theorem LoginHandler.execute_obeys (command : LoginCommand) :
    tokenProtocol.Obeys i (fun _ _ => True) (LoginHandler.execute services command) .init := by
  unfold LoginHandler.execute
  refine .ofExcept_bind (fun email _ => ?_) fun _ _ => trivial
  refine Obeys.quiet_bind (quietCalls (PrismaUserRepository.findByEmail_calls (fun _ => rfl) email)) (fun user => ?_)
    fun _ => trivial
  cases user with
  | none => exact .await_bind trivial (fun _ _ => trivial) fun _ _ => trivial
  | some user =>
    refine Obeys.quiet_bind
      (quietCalls (User.assertCanAttemptLogin_calls (T := fun op => op.isQuiet = true) rfl user)) (fun user => ?_)
      fun _ => trivial
    refine .await_bind trivial (fun passwordMatches _ => ?_) fun _ _ => trivial
    show tokenProtocol.Obeys i _ (if passwordMatches = true then _ else _) _
    split
    · unfold LoginHandler.accept
      refine .await_bind trivial (fun loginAt _ => ?_) fun _ _ => trivial
      refine .await_bind trivial (fun now _ => ?_) fun _ _ => trivial
      refine .await_bind trivial (fun _ _ => ?_) fun _ _ => trivial
      refine .await_bind trivial (fun signed _ => ?_) fun _ _ => trivial
      refine .await_bind trivial (fun raw _ => ?_) fun _ _ => trivial
      refine (RefreshToken.issue_obeys rfl).bind (fun st new hnew => ?_) fun _ _ _ => trivial
      obtain ⟨-, hdrawn, -, hnlive, hnrep, ⟨drawn, rfl⟩, hfamily, -⟩ := hnew new rfl
      refine .await_bind (.inr ⟨hdrawn, hnlive, hnrep, rfl, .inr ⟨rfl, rfl, hfamily rfl⟩⟩) (fun _ _ => ?_)
        fun _ _ => trivial
      exact Obeys.quiet_bind (quietCalls (publishAll_calls (fun _ => rfl) _)) (fun _ => trivial) fun _ => trivial
    · unfold LoginHandler.refuse
      refine Obeys.quiet_bind
        (quietCalls (User.recordFailedLogin_calls (T := fun op => op.isQuiet = true) rfl user
        command.ipAddress)) (fun user => ?_)
        fun _ => trivial
      refine .await_bind trivial (fun _ _ => ?_) fun _ _ => trivial
      exact Obeys.quiet_bind (quietCalls (publishAll_calls (fun _ => rfl) _)) (fun _ => trivial) fun _ => trivial

theorem LogoutHandler.execute_obeys (command : LogoutCommand) :
    tokenProtocol.Obeys i (fun _ _ => True) (LogoutHandler.execute services command) .init := by
  unfold LogoutHandler.execute PrismaRefreshTokenRepository.findByTokenHash
  rw [Prog.bind_assoc]
  refine .await_bind rfl (fun found _ => ?_) fun _ _ => trivial
  cases found with
  | none => trivial
  | some t =>
    show tokenProtocol.Obeys i _ (if t.isRevoked = true then _ else _) ⟨some t, [], none, false⟩
    split
    · trivial
    · refine .await_bind trivial (fun now _ => ?_) fun _ _ => trivial
      exact .await_bind ⟨t, rfl, rfl⟩ (fun _ _ => trivial) fun _ _ => trivial

theorem ChangePasswordHandler.execute_obeys (command : ChangePasswordCommand) :
    tokenProtocol.Obeys i (fun _ _ => True) (ChangePasswordHandler.execute services command) .init := by
  refine (Obeys.quiet (R := fun _ => True) (quietCalls ?_) (Prog.returns_true _) _).mono fun _ _ _ => trivial
  refine .bind (PrismaUserRepository.findById_calls (fun _ => rfl) _) fun user => ?_
  cases user with
  | none => trivial
  | some user =>
    refine .bind (.await rfl) fun currentMatches => ?_
    show Prog.Calls _ (if (!currentMatches) = true then _ else _)
    split
    · trivial
    refine .bind (.ofExcept _) fun newPlainPassword => .bind (.await rfl) fun newHash =>
      .bind (.ofExcept _) fun hashed =>
      .bind (.await rfl) fun now => .bind (.await rfl) fun _ => .bind ?_ fun _ => publishAll_calls (fun _ => rfl) _
    exact .bind (.await rfl) fun _ => .bind (.await rfl) fun _ => trivial

/-- **Every handler keeps to the protocol**, and a session is refreshed only by replacing the token presented. -/
theorem SessionRequest.obeys (request : SessionRequest) :
    tokenProtocol.Obeys i (Promises services request) (request.program services) .init := by
  cases request with
  | refresh command =>
    refine (RefreshAccessTokenHandler.execute_obeys command).bind (fun st dto h => ?_) fun st e _ => nofun
    rintro command' dto' ⟨⟩ ⟨⟩
    exact h dto rfl
  | login command => exact (LoginHandler.execute_obeys command).bind (fun _ _ _ => nofun) fun _ _ _ => nofun
  | logout command => exact (LogoutHandler.execute_obeys command).bind (fun _ _ _ => nofun) fun _ _ _ => nofun
  | changePassword command =>
    exact (ChangePasswordHandler.execute_obeys command).bind (fun _ _ _ => nofun) fun _ _ _ => nofun

end

/-! ## What one call does to the tokens -/

/-- Program `i`, in state `st`, takes store `s` to another. `A` is what is known of the rows it saves. -/
inductive Moves (A : RefreshToken → Prop) (i : PId) (s : Store) (st : Rotating) : Store → Rotating → Prop
  | stays {s' : Store} (h : s.SameTokens s') : Moves A i s st s' st
  | loads (hst : st = .init) (found : Option RefreshToken) (hmem : ∀ t, found = some t →
    t ∈ s.refreshTokens.rows) :
    Moves A i s st { s with journal := s.journal ++ presented i found } { st with found := found }
  | draws (hst : st.issued = false) (u : String) (hu : u ∉ s.drawn) :
    Moves A i s st { s with drawn := u :: s.drawn } { st with drawn := u :: st.drawn }
  | replaces {t data : RefreshToken} (h : st.Replaces t data) (hA : A data)
    (hunique : ∀ r ∈ s.refreshTokens.rows, r.tokenHash = data.tokenHash → r.id = data.id) :
    Moves A i s st { s with refreshTokens := s.refreshTokens.put data }
      { st with replacement := data.replacedByTokenId }
  | issues {data : RefreshToken} (h : st.Issues data) (hA : A data)
    (hunique : ∀ r ∈ s.refreshTokens.rows, r.tokenHash = data.tokenHash → r.id = data.id) :
    Moves A i s st { s with refreshTokens := s.refreshTokens.put data } { st with drawn := [], issued := true }
  | revokes (filter : TokenFilter) (revokedAt : Nat)
    (h : ∀ family, filter = .ofFamily family → ∃ t, st.found = some t ∧ t.family = family) :
    Moves A i s st (s.revokeMany filter revokedAt) st

section
variable {services : Services} {i : PId} {a : Ans} {s s' : Store} {st : Rotating} {A : RefreshToken → Prop}

theorem Rotating.Replaces.replacedByTokenId {t data : RefreshToken} (h : st.Replaces t data) :
    ∃ newId ∈ st.drawn, data.replacedByTokenId = some newId := by
  obtain ⟨now, newId, hne, hmem, rfl⟩ := h.saved
  exact ⟨newId, hmem, if_neg hne⟩

/-- **Everything a permitted call can do**, where random strings are new. -/
theorem moves_of_exec {op : Op} {r : Except Err op.Res} (hok : tokenProtocol.ok i st op) (hfresh : Fresh s a)
    (hA : ∀ data, op = .refreshToken (.upsert data) → A data) (hx : exec services i a op s = some (r, s')) :
    tokenProtocol.yields i st op r ∧ Moves A i s st s' (tokenProtocol.next i st op r) := by
  rcases r with e | x
  · obtain rfl := exec_error hx
    refine ⟨?_, ?_⟩
    · cases op with
      | refreshToken q => cases q <;> trivial
      | user q => cases q <;> trivial
      | _ => trivial
    · have hnext : tokenProtocol.next i st op (.error e) = st := by
        cases op with
        | refreshToken q => cases q <;> rfl
        | _ => rfl
      rw [hnext]
      exact .stays (.refl _)
  cases op with
  | refreshToken q =>
    cases q with
    | findUnique tokenHash =>
      obtain ⟨rfl, rfl⟩ := exec_token_find hx
      refine ⟨?_, .loads hok _ fun t ht => List.mem_of_find?_eq_some ht⟩
      cases hfind : s.refreshTokens.rows.find? fun t => t.tokenHash = tokenHash with
      | none => trivial
      | some t =>
        have hhash : t.tokenHash = tokenHash := by simpa using List.find?_some hfind
        exact hhash
    | upsert data =>
      obtain ⟨hunique, rfl⟩ := exec_token_upsert hx
      refine ⟨trivial, ?_⟩
      rcases hok with ⟨t, h⟩ | h
      · obtain ⟨newId, -, hnew⟩ := h.replacedByTokenId
        have hmoves := Moves.replaces (i := i) h (hA data rfl) hunique
        simp only [tokenProtocol, hnew] at hmoves ⊢
        exact hmoves
      · have hmoves := Moves.issues (i := i) h (hA data rfl) hunique
        simp only [tokenProtocol, h.unreplaced] at hmoves ⊢
        exact hmoves
    | updateMany filter revokedAt =>
      obtain rfl := exec_token_updateMany hx
      refine ⟨trivial, .revokes filter revokedAt ?_⟩
      rintro family rfl
      exact hok
  | user q =>
    refine ⟨?_, .stays (exec_sameTokens rfl hx)⟩
    cases q with
    | findById id =>
      cases x with
      | none => trivial
      | some r => exact Table.key_of_find? (exec_user_findById hx).1.symm
    | _ => trivial
  | randomUUID =>
    obtain ⟨rfl, rfl⟩ := exec_randomUUID hx
    exact ⟨hfresh.1, .draws hok x hfresh.2⟩
  | _ => exact ⟨trivial, .stays (exec_sameTokens rfl hx)⟩

end

/-! ## Names -/

/-- The ids and families of the stored tokens have been drawn, and a family is one user's. -/
structure Named (s : Store) : Prop where
  drawn : ∀ t ∈ s.refreshTokens.rows, t.id ∈ s.drawn ∧ t.family ∈ s.drawn
  owner : ∀ t ∈ s.refreshTokens.rows, ∀ t' ∈ s.refreshTokens.rows, t.family = t'.family → t.userId = t'.userId

structure TokensInv (s : Store) (sts : PId → Rotating) : Prop where
  named : Named s
  own : ∀ i, ∀ u ∈ (sts i).drawn, u ∈ s.drawn ∧ ∀ t ∈ s.refreshTokens.rows, t.id ≠ u ∧ t.family ≠ u
  apart : ∀ i j u, u ∈ (sts i).drawn → u ∈ (sts j).drawn → i = j
  found : ∀ i t, (sts i).found = some t →
    ∃ cur, s.refreshTokens.find? t.id = some cur ∧ cur.family = t.family ∧ cur.tokenHash = t.tokenHash ∧
      cur.userId = t.userId

theorem TokensInv.init {s : Store} (h : Named s) : TokensInv s fun _ => .init :=
  ⟨h, fun _ _ hu => absurd hu List.not_mem_nil, fun _ _ _ hu => absurd hu List.not_mem_nil,
    fun _ _ ht => nomatch ht⟩

namespace TokensInv

variable {A : RefreshToken → Prop} {i : PId} {s s' : Store} {sts : PId → Rotating} {st' : Rotating}

/-- The loaded token, saved as replaced, takes the place of the stored one. -/
theorem replaced (h : TokensInv s sts) {t data : RefreshToken} (hr : (sts i).Replaces t data) :
    ∃ cur ∈ s.refreshTokens.rows, s.refreshTokens.find? data.id = some cur ∧ cur.id = data.id ∧
      cur.family = data.family ∧ cur.tokenHash = data.tokenHash ∧ cur.userId = data.userId := by
  obtain ⟨cur, hcur, hsame⟩ := h.found i t hr.found
  obtain ⟨now, newId, -, -, rfl⟩ := hr.saved
  exact ⟨cur, Table.mem_of_find? hcur, hcur, Table.key_of_find? hcur, hsame⟩

/-- An issued token has no row yet. -/
theorem issued (h : TokensInv s sts) {data : RefreshToken} (hi : (sts i).Issues data) :
    ∀ r ∈ s.refreshTokens.rows, r.id ≠ data.id := fun r hr => ((h.own i _ hi.id).2 r hr).1

/-- A row of the changed table is as the old one, as far as `g` goes. -/
theorem mem_revokeMany {filter : TokenFilter} {revokedAt : Nat} {t : RefreshToken}
    (ht : t ∈ (s.revokeMany filter revokedAt).refreshTokens.rows) :
    ∃ r ∈ s.refreshTokens.rows, t = filter.revokes revokedAt r := by
  obtain ⟨r, hr, he⟩ := List.mem_map.1 ht
  exact ⟨r, hr, he.symm⟩

end TokensInv

theorem TokenFilter.revokes_same (filter : TokenFilter) (revokedAt : Nat) (t : RefreshToken) :
    (filter.revokes revokedAt t).family = t.family ∧ (filter.revokes revokedAt t).tokenHash = t.tokenHash ∧
      (filter.revokes revokedAt t).replacedByTokenId = t.replacedByTokenId ∧
      (filter.revokes revokedAt t).userId = t.userId := by
  unfold TokenFilter.revokes
  split <;> exact ⟨rfl, rfl, rfl, rfl⟩

/-- **Every move keeps the names apart.** -/
theorem TokensInv.step {A : RefreshToken → Prop} {i : PId} {s s' : Store} {sts : PId → Rotating} {st' : Rotating}
    (h : TokensInv s sts) (hm : Moves A i s (sts i) s' st') : TokensInv s' (Function.update sts i st') := by
  cases hm with
  | stays hs =>
    rw [Function.update_eq_self]
    refine ⟨⟨fun t ht => ?_, ?_⟩, fun j u hu => ?_, h.apart, fun j t ht => ?_⟩
    · rw [hs.refreshTokens] at ht
      exact ⟨hs.drawn (h.named.drawn t ht).1, hs.drawn (h.named.drawn t ht).2⟩
    · rw [hs.refreshTokens]
      exact h.named.owner
    · rw [hs.refreshTokens]
      exact ⟨hs.drawn (h.own j u hu).1, (h.own j u hu).2⟩
    · rw [hs.refreshTokens]
      exact h.found j t ht
  | loads hst found hmem =>
    have hdrawn : ∀ j, (Function.update sts i { sts i with found := found } j).drawn = (sts j).drawn := by
      intro j
      rcases update_or sts i j { sts i with found := found } with ⟨rfl, he⟩ | ⟨-, he⟩ <;> rw [he]
    refine ⟨⟨h.named.drawn, h.named.owner⟩, fun j u hu => h.own j u (hdrawn j ▸ hu),
      fun j k u hj hk => h.apart j k u (hdrawn j ▸ hj) (hdrawn k ▸ hk), fun j t ht => ?_⟩
    rcases update_or sts i j { sts i with found := found } with ⟨-, he⟩ | ⟨-, he⟩
    · rw [he] at ht
      exact ⟨t, Table.find?_of_mem (hmem t ht), rfl, rfl, rfl⟩
    · rw [he] at ht
      exact h.found j t ht
  | draws hst u hu =>
    have hdrawn : ∀ {j v}, v ∈ (Function.update sts i { sts i with drawn := u :: (sts i).drawn } j).drawn →
        (j = i ∧ v = u) ∨ v ∈ (sts j).drawn := by
      intro j v hv
      rcases update_or sts i j { sts i with drawn := u :: (sts i).drawn } with ⟨rfl, he⟩ | ⟨-, he⟩
      · rw [he] at hv
        rcases List.mem_cons.1 hv with rfl | hv
        · exact .inl ⟨rfl, rfl⟩
        · exact .inr hv
      · exact .inr (he ▸ hv)
    refine ⟨⟨fun t ht => ?_, h.named.owner⟩, fun j v hv => ?_, fun j k v hj hk => ?_, fun j t ht => ?_⟩
    · exact ⟨List.mem_cons_of_mem _ (h.named.drawn t ht).1, List.mem_cons_of_mem _ (h.named.drawn t ht).2⟩
    · rcases hdrawn hv with ⟨-, rfl⟩ | hv
      · refine ⟨List.mem_cons_self, fun t ht => ⟨?_, ?_⟩⟩
        · rintro rfl
          exact hu (h.named.drawn t ht).1
        · rintro rfl
          exact hu (h.named.drawn t ht).2
      · exact ⟨List.mem_cons_of_mem _ (h.own j v hv).1, (h.own j v hv).2⟩
    · rcases hdrawn hj with ⟨hji, rfl⟩ | hj'
      · rcases hdrawn hk with ⟨hki, -⟩ | hk'
        · exact hji.trans hki.symm
        · exact absurd (h.own k _ hk').1 hu
      · rcases hdrawn hk with ⟨-, rfl⟩ | hk'
        · exact absurd (h.own j _ hj').1 hu
        · exact h.apart j k v hj' hk'
    · rcases update_or sts i j { sts i with drawn := u :: (sts i).drawn } with ⟨rfl, he⟩ | ⟨-, he⟩ <;>
        rw [he] at ht <;>
        exact h.found j t ht
  | @replaces t data hr hA hunique =>
    obtain ⟨cur, hmem, hcur, hid, hfamily, hhash, huser⟩ := h.replaced hr
    have hsame : ∀ j, (Function.update sts i { sts i with replacement := data.replacedByTokenId } j).drawn =
        (sts j).drawn ∧ (Function.update sts i { sts i with replacement := data.replacedByTokenId } j).found =
        (sts j).found := by
      intro j
      rcases update_or sts i j { sts i with replacement := data.replacedByTokenId } with ⟨rfl, he⟩ | ⟨-, he⟩
      · rw [he]
        exact ⟨rfl, rfl⟩
      · rw [he]
        exact ⟨rfl, rfl⟩
    -- Every row is as some row was, as far as names and owners go.
    have hold : ∀ {r}, r ∈ (s.refreshTokens.put data).rows →
        ∃ r0 ∈ s.refreshTokens.rows, r0.id = r.id ∧ r0.family = r.family ∧ r0.userId = r.userId := by
      intro r hr
      rcases (Table.mem_put _ _ _).1 hr with rfl | ⟨hr, -⟩
      · exact ⟨cur, hmem, hid, hfamily, huser⟩
      · exact ⟨r, hr, rfl, rfl, rfl⟩
    refine ⟨⟨fun r hr => ?_, fun r hr r' hr' hf => ?_⟩, fun j u hu => ?_, fun j k u hj hk => ?_,
      fun j r hr => ?_⟩
    · obtain ⟨r0, hr0, hid0, hf0, -⟩ := hold hr
      exact hid0 ▸ hf0 ▸ h.named.drawn r0 hr0
    · obtain ⟨r0, hr0, -, hf0, hu0⟩ := hold hr
      obtain ⟨r1, hr1, -, hf1, hu1⟩ := hold hr'
      exact hu0.symm.trans ((h.named.owner r0 hr0 r1 hr1 (hf0.trans (hf.trans hf1.symm))).trans hu1)
    · rw [(hsame j).1] at hu
      refine ⟨(h.own j u hu).1, fun r hr => ?_⟩
      obtain ⟨r0, hr0, hid0, hf0, -⟩ := hold hr
      exact hid0 ▸ hf0 ▸ (h.own j u hu).2 r0 hr0
    · exact h.apart j k u ((hsame j).1 ▸ hj) ((hsame k).1 ▸ hk)
    · rw [(hsame j).2] at hr
      obtain ⟨cur', hcur', hf', hh', hu'⟩ := h.found j r hr
      rw [Table.find?_put]
      split
      · rename_i he
        rw [← he, hcur, Option.some.injEq] at hcur'
        subst hcur'
        exact ⟨data, rfl, hfamily.symm.trans hf', hhash.symm.trans hh', huser.symm.trans hu'⟩
      · exact ⟨cur', hcur', hf', hh', hu'⟩
  | @issues data hi hA hunique =>
    have hnew := h.issued hi
    -- Its family is the user's, or a new one.
    have hfamily : data.family ∈ s.drawn ∧
        ∀ r ∈ s.refreshTokens.rows, r.family = data.family → r.userId = data.userId := by
      rcases hi.family with ⟨t, ht, -, hf, hu, -⟩ | ⟨-, -, hf⟩
      · obtain ⟨cur, hcur, hf', -, hu'⟩ := h.found i t ht
        have hmem := Table.mem_of_find? hcur
        refine ⟨hf ▸ hf' ▸ (h.named.drawn cur hmem).2, fun r hr hrf => ?_⟩
        rw [h.named.owner r hr cur hmem (hrf.trans (hf.trans hf'.symm)), hu', hu]
      · exact ⟨(h.own i _ hf).1, fun r hr hrf => absurd hrf ((h.own i _ hf).2 r hr).2⟩
    have hother : ∀ {j u}, u ∈ (Function.update sts i { sts i with drawn := [], issued := true } j).drawn →
        j ≠ i ∧ u ∈ (sts j).drawn := by
      intro j u hu
      rcases update_or sts i j { sts i with drawn := [], issued := true } with ⟨rfl, he⟩ | ⟨hj, he⟩
      · rw [he] at hu
        exact absurd hu List.not_mem_nil
      · exact ⟨hj, he ▸ hu⟩
    refine ⟨⟨fun r hr => ?_, fun r hr r' hr' hf => ?_⟩, fun j u hu => ?_, fun j k u hj hk => ?_,
      fun j r hr => ?_⟩
    · rcases (Table.mem_put _ _ _).1 hr with rfl | ⟨hr, -⟩
      · exact ⟨(h.own i _ hi.id).1, hfamily.1⟩
      · exact h.named.drawn r hr
    · rcases (Table.mem_put _ _ _).1 hr with rfl | ⟨hold, -⟩ <;>
        rcases (Table.mem_put _ _ _).1 hr' with rfl | ⟨hold', -⟩
      · rfl
      · exact (hfamily.2 r' hold' hf.symm).symm
      · exact hfamily.2 r hold hf
      · exact h.named.owner r hold r' hold' hf
    · obtain ⟨hj, hu⟩ := hother hu
      refine ⟨(h.own j u hu).1, fun r hr => ?_⟩
      rcases (Table.mem_put _ _ _).1 hr with rfl | ⟨hr, -⟩
      · refine ⟨?_, ?_⟩
        · rintro rfl
          exact hj (h.apart j i _ hu hi.id)
        · rintro rfl
          rcases hi.family with ⟨t, ht, -, hf, -⟩ | ⟨-, -, hf⟩
          · obtain ⟨cur, hcur, hf', -⟩ := h.found i t ht
            exact ((h.own j _ hu).2 cur (Table.mem_of_find? hcur)).2 (hf'.trans hf.symm)
          · exact hj (h.apart j i _ hu hf)
      · exact (h.own j u hu).2 r hr
    · exact h.apart j k u (hother hj).2 (hother hk).2
    · have hr' : (sts j).found = some r := by
        rcases update_or sts i j { sts i with drawn := [], issued := true } with ⟨rfl, he⟩ | ⟨-, he⟩ <;>
          rwa [he] at hr
      obtain ⟨cur, hcur, hsame⟩ := h.found j r hr'
      refine ⟨cur, ?_, hsame⟩
      rw [Table.find?_put_ne]
      · exact hcur
      · exact fun he => hnew cur (Table.mem_of_find? hcur) ((Table.key_of_find? hcur).trans he.symm)
  | revokes filter revokedAt hcovers =>
    rw [Function.update_eq_self]
    have hsame := filter.revokes_same revokedAt
    refine ⟨⟨fun t ht => ?_, fun t ht t' ht' hf => ?_⟩,
      fun j u hu => ⟨(h.own j u hu).1, fun t ht => ?_⟩, h.apart,
      fun j t ht => ?_⟩
    · obtain ⟨r, hr, rfl⟩ := mem_revokeMany ht
      rw [filter.revokes_id, (hsame r).1]
      exact h.named.drawn r hr
    · obtain ⟨r, hr, rfl⟩ := mem_revokeMany ht
      obtain ⟨r', hr', rfl⟩ := mem_revokeMany ht'
      rw [(hsame r).1, (hsame r').1] at hf
      rw [(hsame r).2.2.2, (hsame r').2.2.2]
      exact h.named.owner r hr r' hr' hf
    · obtain ⟨r, hr, rfl⟩ := mem_revokeMany ht
      rw [filter.revokes_id, (hsame r).1]
      exact (h.own j u hu).2 r hr
    · obtain ⟨cur, hcur, hf, hh, hu⟩ := h.found j t ht
      refine ⟨filter.revokes revokedAt cur, ?_, ?_, ?_, ?_⟩
      · rw [Store.revokeMany, Table.find?_mapRows, hcur]
        rfl
      · rw [(hsame cur).1, hf]
      · rw [(hsame cur).2.1, hh]
      · rw [(hsame cur).2.2.2, hu]

theorem eq_sampleToken {t : RefreshToken} (ht : t ∈ sampleStore.refreshTokens.rows) : t = sampleToken :=
  List.mem_singleton.1 ht

theorem sampleStore_named : Named sampleStore where
  drawn t ht := by
    rw [eq_sampleToken ht]
    exact ⟨by decide, by decide⟩
  owner t ht t' ht' _ := by rw [eq_sampleToken ht, eq_sampleToken ht']

end Kudi.Identity
