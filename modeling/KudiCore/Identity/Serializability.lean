import KudiCore.Interleave.Serial
import KudiCore.Identity.Sessions

/-!
# Logins and password changes, one at a time

| here | there |
| --- | --- |
| `CredentialRequest` | what loads a user, compares a password and saves the user: a login, a change of password |
| `Draws` | what each of them meets with: rejected calls, and the salted hash of its new password |
| `Unmoved` | what `PrismaUserRepository.save` does not ask: whether the row is still the one that was loaded |
| `Elsewhen` | an execution that is told as if it had run alone still reads the clock as it did |

The whole row is saved, whatever has been saved since it was loaded.
-/

namespace Kudi.Identity

open Interleave Protocol

inductive CredentialRequest where
  | login (command : LoginCommand)
  | changePassword (command : ChangePasswordCommand)

def CredentialRequest.program (services : Services) : CredentialRequest → Handler (Option AuthResponseDto)
  | .login command => do
    let session ← LoginHandler.execute services command
    return some session
  | .changePassword command => do
    ChangePasswordHandler.execute services command
    return none

/-! ## The schedules -/

structure Draws where
  rejected : PId → Bool
  hash : PId → String

/-- What party `i` is given. -/
def Draws.Gives (draws : Draws) (i : PId) : Ans → Prop
  | .fail _ => draws.rejected i = true
  | .hash h => h = draws.hash i
  | _ => True

instance (draws : Draws) (i : PId) (a : Ans) : Decidable (draws.Gives i a) := by
  unfold Draws.Gives
  split <;> infer_instance

def Op.savedUser? : Op → Option UserRecord
  | .user (.upsert data) => some data
  | _ => none

/-- A row that is saved replaces the one that the execution has loaded. -/
def Unmoved (s : Store) (i : PId) (op : Op) : Prop :=
  ∀ data ∈ op.savedUser?, ∃ loaded ∈ s.reads, loaded.1 = i ∧ loaded.2.id = data.id ∧
    s.users.find? data.id = some loaded.2

instance (s : Store) (i : PId) (op : Op) : Decidable (Unmoved s i op) := by
  unfold Unmoved
  infer_instance

/-- Any schedule that gives each execution what is in store for it. -/
def drawnSchedule (services : Services) (draws : Draws) : System Op.Res Err Store Ans Nat :=
  scheduleOf services fun _ i a _ => draws.Gives i a

/-- ... and saves no row over another than the one it was made from. -/
def unmovedSchedule (services : Services) (draws : Draws) : System Op.Res Err Store Ans Nat :=
  scheduleOf services fun s i a op => draws.Gives i a ∧ Unmoved s i op

instance (services : Services) (draws : Draws) (s : Store) (i : PId) (a : Ans) (op : Op) :
    Decidable ((drawnSchedule services draws).allow s i a op) := inferInstanceAs (Decidable (draws.Gives i a))

instance (services : Services) (draws : Draws) (s : Store) (i : PId) (a : Ans) (op : Op) :
    Decidable ((unmovedSchedule services draws).allow s i a op) :=
  inferInstanceAs (Decidable (draws.Gives i a ∧ Unmoved s i op))

/-- It is another time. -/
def Elsewhen (s s' : Store) : Prop := ∃ t, s' = { s with clock := t }

/-! ## What an execution does -/

/-- The row has not been loaded yet; it is in hand; it has been saved. -/
inductive Stage where
  | idle | loaded | saved
deriving DecidableEq

def Op.ofUsers : Op → Bool
  | .user _ => true
  | _ => false

def Op.findsUser : Op → Bool
  | .user (.findById _) | .user (.findByEmail _) => true
  | _ => false

/-- What is done with a user in hand. -/
def Op.ponders : Op → Bool
  | .compare .. | .hash _ | .dateNow => true
  | _ => false

def credentialProtocol : Protocol Op.Res Err where
  State := Stage
  ok _ st op := match st with
    | .idle => op.findsUser = true
    | .loaded => op.ponders = true ∨ op.savedUser?.isSome = true
    | .saved => op.ofUsers = false
  yields _ _ _ _ := True
  next _ st op r := match st, op, r with
    | .idle, _, _ => .loaded
    | .loaded, .user (.upsert _), .ok _ => .saved
    | st, _, _ => st

section
variable {i : PId} {ε α β : Type}

theorem ponders_obeys {p : Prog Op.Res Err ε α} (hp : p.Calls fun op => op.ponders = true) :
    credentialProtocol.Obeys i (fun st _ => st = Stage.loaded) p .loaded := by
  refine Obeys.of_calls (P := credentialProtocol) (K := fun st => st = Stage.loaded) (fun st op hst hop => ?_) hp rfl
  subst hst
  refine ⟨.inl hop, fun r _ => ?_⟩
  cases op with
  | user q => cases hop
  | _ => rfl

theorem ponder_bind {p : Prog Op.Res Err ε α} {f : α → Prog Op.Res Err ε β}
    (hp : p.Calls fun op => op.ponders = true)
    (hf : ∀ a, credentialProtocol.Obeys i (fun _ _ => True) (f a) .loaded) :
    credentialProtocol.Obeys i (fun _ _ => True) (p >>= f) .loaded :=
  (ponders_obeys hp).bind (fun _ a hst => hst ▸ hf a) fun _ _ _ => trivial

theorem saved_obeys {p : Prog Op.Res Err ε α} (hp : p.Calls fun op => op.ofUsers = false) :
    credentialProtocol.Obeys i (fun _ _ => True) p .saved := by
  refine (Obeys.of_calls (P := credentialProtocol) (K := fun st => st = Stage.saved)
    (fun st op hst hop => ?_) hp rfl).mono
    fun _ _ _ => trivial
  subst hst
  exact ⟨hop, fun _ _ => rfl⟩

/-- Once it is saved, the user is left alone. -/
theorem Obeys.calls_of_saved {p : Prog Op.Res Err ε α} (h : credentialProtocol.Obeys i (fun _ _ => True) p .saved) :
    p.Calls fun op => op.ofUsers = false := by
  induction p with
  | pure a => trivial
  | throw e => trivial
  | stuck => trivial
  | call op k ih => exact ⟨h.1, fun r => ih r (h.2 r trivial)⟩

/-- Nothing that saves a user comes back to it. -/
theorem save_bind {user : User} {f : Unit → Handler β} (hf : (f ()).Calls fun op => op.ofUsers = false) :
    credentialProtocol.Obeys i (fun _ _ => True) (PrismaUserRepository.save user >>= f) .loaded :=
  .await_bind (.inr rfl) (fun _ _ => saved_obeys hf) fun _ _ => trivial

end

section
variable {services : Services} {i : PId}

theorem load_obeys (record : Option UserRecord) :
    credentialProtocol.Obeys i (fun st _ => st = Stage.loaded) (PrismaUserRepository.load services record) .loaded := by
  cases record with
  | none => rfl
  | some record => exact .ofExcept_bind (fun _ _ => rfl) fun _ _ => rfl

theorem findByEmail_obeys (email : Email) : credentialProtocol.Obeys i (fun st _ => st = Stage.loaded)
    (PrismaUserRepository.findByEmail services email) .idle :=
  .await_bind rfl (fun record _ => load_obeys record) fun _ _ => rfl

theorem findById_obeys (id : String) : credentialProtocol.Obeys i (fun st _ => st = Stage.loaded)
    (PrismaUserRepository.findById services id) .idle :=
  .await_bind rfl (fun record _ => load_obeys record) fun _ _ => rfl

theorem RefreshToken.issue_unsaved (userId tokenHash : String) (family ipAddress userAgent : Option String) :
    (RefreshToken.issue userId tokenHash family ipAddress userAgent).Calls fun op => op.ofUsers = false := by
  refine .bind (.await rfl) fun now => .bind (.await rfl) fun id => ?_
  cases family with
  | none => exact .bind (.await rfl) fun _ => .bind (.await rfl) fun _ => trivial
  | some family => exact .bind trivial fun _ => .bind (.await rfl) fun _ => trivial

theorem LoginHandler.refuse_credential (command : LoginCommand) (user : User) :
    credentialProtocol.Obeys i (fun _ _ => True) (LoginHandler.refuse command user) .loaded := by
  refine ponder_bind (User.recordFailedLogin_calls (T := fun op => op.ponders = true) rfl user _) fun user => ?_
  exact save_bind (.bind (publishAll_calls (fun _ => rfl) _) fun _ => trivial)

theorem LoginHandler.accept_credential (command : LoginCommand) (user : User) :
    credentialProtocol.Obeys i (fun _ _ => True) (LoginHandler.accept services command user) .loaded := by
  refine ponder_bind (.await rfl) fun loginAt => ponder_bind (.await rfl) fun now => save_bind ?_
  refine .bind (.await rfl) fun signed => .bind (.await rfl) fun raw => ?_
  refine .bind (RefreshToken.issue_unsaved _ _ _ _ _) fun token => .bind (.await rfl) fun _ => ?_
  exact .bind (publishAll_calls (fun _ => rfl) _) fun _ => trivial

theorem LoginHandler.execute_credential (command : LoginCommand) :
    credentialProtocol.Obeys i (fun _ _ => True) (LoginHandler.execute services command) .idle := by
  refine .ofExcept_bind (fun email _ => ?_) fun _ _ => trivial
  refine (findByEmail_obeys email).bind (fun st found hst => ?_) fun _ _ _ => trivial
  subst hst
  cases found with
  | none => exact ponder_bind (.await rfl) fun _ => trivial
  | some user =>
    refine ponder_bind (User.assertCanAttemptLogin_calls (T := fun op => op.ponders = true) rfl user) fun user => ?_
    refine ponder_bind (.await rfl) fun passwordMatches => ?_
    cases passwordMatches with
    | true => exact LoginHandler.accept_credential command user
    | false => exact LoginHandler.refuse_credential command user

theorem ChangePasswordHandler.execute_credential (command : ChangePasswordCommand) :
    credentialProtocol.Obeys i (fun _ _ => True) (ChangePasswordHandler.execute services command) .idle := by
  refine (findById_obeys command.userId).bind (fun st found hst => ?_) fun _ _ _ => trivial
  subst hst
  cases found with
  | none => trivial
  | some user =>
    refine ponder_bind (.await rfl) fun currentMatches => ?_
    cases currentMatches with
    | false => trivial
    | true =>
      refine .ofExcept_bind (fun newPlainPassword _ => ?_) fun _ _ => trivial
      refine ponder_bind (.await rfl) fun newHash => ?_
      refine .ofExcept_bind (fun hashedPassword _ => ?_) fun _ _ => trivial
      refine ponder_bind (.await rfl) fun now => save_bind ?_
      exact .bind (.bind (.await rfl) fun _ => .bind (.await rfl) fun _ => trivial) fun _ =>
        publishAll_calls (fun _ => rfl) _

/-- **A login or a change of password loads one user, and saves at most that.** -/
theorem CredentialRequest.obeys (request : CredentialRequest) :
    credentialProtocol.Obeys i (fun _ _ => True) (request.program services) .idle := by
  cases request with
  | login command => exact (LoginHandler.execute_credential command).bind (fun _ _ _ => trivial) fun _ _ _ => trivial
  | changePassword command =>
    exact (ChangePasswordHandler.execute_credential command).bind (fun _ _ _ => trivial) fun _ _ _ => trivial

/-! ### They come to an end -/

theorem load_halts (record : Option UserRecord) : (PrismaUserRepository.load services record).Halts := by
  cases record with
  | none => trivial
  | some record => exact .bind (.ofExcept _) fun _ => trivial

theorem publishAll_halts : ∀ events, (publishAll events).Halts
  | [] => trivial
  | event :: events => .bind (.await (Op.publish event)) fun _ => publishAll_halts events

theorem User.assertCanAttemptLogin_halts (u : User) : u.assertCanAttemptLogin.Halts := by
  unfold User.assertCanAttemptLogin
  split
  · refine .bind ?_ fun _ => .bind (.await _) fun _ => trivial
    unfold User.assertLockExpired
    split
    · trivial
    · refine .bind (.await _) fun now => ?_
      split <;> trivial
  · split <;> trivial

theorem User.recordFailedLogin_halts (u : User)
    (ipAddress : Option String) : (u.recordFailedLogin ipAddress).Halts := by
  refine .bind (.await _) fun now => ?_
  show Prog.Halts (if _ ≥ _ then _ else _)
  split
  · exact .bind (.await _) fun _ => trivial
  · trivial

theorem RefreshToken.issue_halts (userId tokenHash : String) (family ipAddress userAgent : Option String) :
    (RefreshToken.issue userId tokenHash family ipAddress userAgent).Halts := by
  refine .bind (.await _) fun now => .bind (.await _) fun id => ?_
  cases family with
  | none => exact .bind (.await _) fun _ => .bind (.await _) fun _ => trivial
  | some family => exact .bind trivial fun _ => .bind (.await _) fun _ => trivial

theorem LoginHandler.execute_halts (command : LoginCommand) : (LoginHandler.execute services command).Halts := by
  refine .bind (.ofExcept _) fun email => .bind (.bind (.await _) fun record => load_halts record) fun found => ?_
  cases found with
  | none => exact .bind (.await _) fun _ => trivial
  | some user =>
    refine .bind (User.assertCanAttemptLogin_halts user) fun user => .bind (.await _) fun passwordMatches => ?_
    cases passwordMatches with
    | true =>
      refine .bind (.await _) fun loginAt => .bind (.await _) fun now => .bind (.await _) fun _ => ?_
      refine .bind (.await _) fun signed => .bind (.await _) fun raw => ?_
      refine .bind (RefreshToken.issue_halts _ _ _ _ _) fun token => .bind (.await _) fun _ => ?_
      exact .bind (publishAll_halts _) fun _ => trivial
    | false =>
      refine .bind (User.recordFailedLogin_halts user _) fun user => .bind (.await _) fun _ => ?_
      exact .bind (publishAll_halts _) fun _ => trivial

theorem ChangePasswordHandler.execute_halts (command : ChangePasswordCommand) :
    (ChangePasswordHandler.execute services command).Halts := by
  refine .bind (.bind (.await _) fun record => load_halts record) fun found => ?_
  cases found with
  | none => trivial
  | some user =>
    refine .bind (.await _) fun currentMatches => ?_
    cases currentMatches with
    | false => trivial
    | true =>
      refine .bind (.ofExcept _) fun newPlainPassword => .bind (.await _) fun newHash => ?_
      refine .bind (.ofExcept _) fun hashedPassword => .bind (.await _) fun now => .bind (.await _) fun _ => ?_
      exact .bind (.bind (.await _) fun _ => .bind (.await _) fun _ => trivial) fun _ => publishAll_halts _

theorem CredentialRequest.halts (request : CredentialRequest) : (request.program services).Halts := by
  cases request with
  | login command => exact .bind (LoginHandler.execute_halts command) fun _ => trivial
  | changePassword command => exact .bind (ChangePasswordHandler.execute_halts command) fun _ => trivial

end

/-! ## What its calls depend on -/

section
variable {services : Services} {i : PId} {a : Ans} {s s' : Store}

/-- Neither a comparison nor the clock looks at a table. -/
theorem exec_ponders {op : Op} {r : Except Err op.Res} (hop : op.ponders = true)
    (h : exec services i a op s = some (r, s')) :
    s' = s ∧ ∀ t : Store, exec services i a op { t with clock := s.clock } = some
      (r, { t with clock := s.clock }) := by
  cases a with
  | fail e =>
    obtain ⟨rfl, rfl⟩ := exec_fail h
    have hfallible : op.fallible = true := by
      by_contra hno
      simp [exec, hno] at h
    exact ⟨rfl, fun t => if_pos hfallible⟩
  | ok =>
    cases op with
    | compare plainText hash =>
      cases h
      exact ⟨rfl, fun _ => rfl⟩
    | dateNow =>
      cases h
      exact ⟨rfl, fun _ => rfl⟩
    | hash plainText => cases h
    | _ => cases hop
  | hash u =>
    cases op with
    | hash plainText =>
      cases h
      exact ⟨rfl, fun _ => rfl⟩
    | _ => cases h
  | uuid u =>
    cases op with
    | randomUUID => cases hop
    | _ => cases h
  | token u =>
    cases op with
    | generateOpaqueRefreshToken => cases hop
    | _ => cases h
  | signed u =>
    cases op with
    | signAccessToken p => cases hop
    | _ => cases h

/-- A call on the table of users depends on nothing else. -/
theorem exec_user_congr {q : UserCall} {r : Except Err q.Res} (h : exec services i a (.user q) s = some (r, s'))
    {t : Store} (ht : t.users = s.users) : ∃ t', exec services i a (.user q) t = some (r, t') ∧
      t'.users = s'.users := by
  cases a with
  | fail e =>
    obtain ⟨rfl, rfl⟩ := exec_fail h
    exact ⟨t, rfl, ht⟩
  | ok =>
    obtain ⟨rfl, rfl⟩ : (execUser i q s).1 = r ∧ (execUser i q s).2 = s' := Prod.mk.inj (Option.some.inj h)
    refine ⟨_, congrArg some (Prod.ext ?_ rfl), ?_⟩
    · cases q <;> simp only [execUser, ht]
      split <;> rfl
    · cases q <;> simp only [execUser, ht, Store.read]
      split
      · exact ht
      · rfl
  | _ => cases h

theorem exec_notUsers {op : Op} {r : Except Err op.Res} (hop : op.ofUsers = false)
    (h : exec services i a op s = some (r, s')) : s'.users = s.users ∧ s'.reads = s.reads := by
  cases a with
  | fail e => exact (exec_fail h).2 ▸ ⟨rfl, rfl⟩
  | ok =>
    cases op with
    | user q => cases hop
    | refreshToken q =>
      cases q with
      | findUnique tokenHash => cases h; exact ⟨rfl, rfl⟩
      | updateMany filter revokedAt => cases h; exact ⟨rfl, rfl⟩
      | upsert data =>
        simp only [exec, execRefreshToken, Option.some.injEq] at h
        split at h <;> cases h <;> exact ⟨rfl, rfl⟩
    | compare plainText hash => cases h; exact ⟨rfl, rfl⟩
    | dateNow => cases h; exact ⟨rfl, rfl⟩
    | publish event => cases h; exact ⟨rfl, rfl⟩
    | _ => cases h
  | _ =>
    cases op <;> cases h
    exact ⟨rfl, rfl⟩

/-- What is loaded is stored, and remembered. -/
theorem exec_findsUser {op : Op} {r : Except Err op.Res} (hop : op.findsUser = true)
    (h : exec services i a op s = some (r, s')) :
    s'.users = s.users ∧ ∃ new, s'.reads = s.reads ++ new ∧
      ∀ loaded ∈ new, loaded.1 = i ∧ s.users.find? loaded.2.id = some loaded.2 := by
  have hnone : s.reads = s.reads ++ [] := (List.append_nil _).symm
  cases op with
  | user q =>
    rcases r with e | found
    · obtain rfl := exec_error h
      exact ⟨rfl, [], hnone, fun _ hl => nomatch hl⟩
    · have h := exec_user h
      cases q with
      | upsert data => cases hop
      | findById id =>
        cases h
        refine ⟨rfl, _, rfl, fun loaded hl => ?_⟩
        obtain ⟨row, hrow, rfl⟩ := Option.map_eq_some_iff.1 (Option.mem_toList.1 hl)
        exact ⟨rfl, (Table.key_of_find? hrow).symm ▸ hrow⟩
      | findByEmail email =>
        cases h
        refine ⟨rfl, _, rfl, fun loaded hl => ?_⟩
        obtain ⟨row, hrow, rfl⟩ := Option.map_eq_some_iff.1 (Option.mem_toList.1 hl)
        exact ⟨rfl, Table.find?_of_mem (List.mem_of_find?_eq_some hrow)⟩
  | _ => cases hop

/-- A row that is saved is put, or refused. -/
theorem exec_savesUser {data : UserRecord} {r : Except Err Unit}
    (h : exec services i a (.user (.upsert data)) s = some (r, s')) :
    s'.reads = s.reads ∧ ((∃ e, r = .error e ∧ s' = s) ∨ r = .ok () ∧ s'.users = s.users.put data) := by
  rcases r with e | _
  · obtain rfl := exec_error h
    exact ⟨rfl, .inl ⟨e, rfl, rfl⟩⟩
  · have h := exec_user h
    simp only [execUser] at h
    split at h <;> cases h
    exact ⟨rfl, .inr ⟨rfl, rfl⟩⟩

end

/-! ## The order in which they can be told -/

/-- With at most the row of `id` saved. -/
def Variation (id : String) (t t' : Table UserRecord.id) : Prop := t' = t ∨ ∃ row, row.id = id ∧ t' = t.put row

section
variable {id : String} {t t' : Table UserRecord.id} {row : UserRecord}

/-- The row of `id` says it all. -/
theorem Variation.eq_put (h : Variation id t t') (hrow : t'.find? id = some row) : t' = t.put row := by
  have hid : row.id = id := Table.key_of_find? hrow
  rcases h with rfl | ⟨row', hid', rfl⟩
  · exact (Table.put_self (hid ▸ hrow)).symm
  · rw [← hid', Table.find?_put_self, Option.some.injEq] at hrow
    rw [hrow]

theorem Variation.put (h : Variation id t t') (hid : row.id = id) : Variation id t (t'.put row) := by
  rcases h with rfl | ⟨row', hid', rfl⟩
  · exact .inr ⟨row, hid, rfl⟩
  · exact .inr ⟨row, hid, Table.put_put t (hid'.trans hid.symm)⟩

end

section
variable (services : Services) (draws : Draws) (requests : PId → CredentialRequest) (id : String)
  (start : Table UserRecord.id)

/-- Where party `i` can be told: what it has done so far it can do alone, from the table `t`. -/
def Placed (reads : List (PId × UserRecord)) (i : PId) (st : Stage) (p : Handler (Option AuthResponseDto))
    (t t' : Table UserRecord.id) : Prop :=
  Variation id start t' ∧ match st with
  | .idle => False
  | .loaded => t = t' ∧ (∀ loaded ∈ reads, loaded.1 = i → t.find? loaded.2.id = some loaded.2) ∧
    ∀ s : Store, s.users = t → ∃ s',
      Gets (drawnSchedule services draws) Elsewhen i ((requests i).program services) s p s' ∧ s'.users = t
  | .saved => ∀ s : Store, s.users = t → ∃ q s',
      Gets (drawnSchedule services draws) Elsewhen i ((requests i).program services) s q s' ∧ s'.users = t' ∧
        q.Calls fun op => op.ofUsers = false

structure Told (c : Config Op.Res Err Store Err (Option AuthResponseDto)) (sts : PId → Stage)
    (order : List PId) : Prop where
  obeys : ∀ i, credentialProtocol.Obeys i (fun _ _ => True) (c.pool i) (sts i)
  chain : Chain (fun i => Placed services draws requests id start c.store.reads i (sts i) (c.pool i)) start order
    c.store.users
  nodup : order.Nodup
  mem : ∀ i, i ∈ order ↔ sts i ≠ .idle
  idle : ∀ i, sts i = .idle → c.pool i = (requests i).program services ∧
    ∀ loaded ∈ c.store.reads, loaded.1 ≠ i
  begun : ∀ i, sts i ≠ .idle → Relation.TransGen Prog.Continues (c.pool i) ((requests i).program services)
  now : Variation id start c.store.users

end

section
variable {services : Services} {draws : Draws} {requests : PId → CredentialRequest} {id : String}
  {start : Table UserRecord.id} {c : Config Op.Res Err Store Err (Option AuthResponseDto)} {sts : PId → Stage}
  {order : List PId} {i : PId} {op : Op} {k : Except Err op.Res → Handler (Option AuthResponseDto)} {a : Ans}
  {r : Except Err op.Res} {s' : Store} {st' : Stage}

/-- The others are where they were. -/
theorem Placed.of_ne {j : PId} {q : Handler (Option AuthResponseDto)} {t t' : Table UserRecord.id} (hj : j ≠ i)
    {reads reads' : List (PId × UserRecord)} (hreads : ∀ loaded ∈ reads', loaded.1 = i ∨ loaded ∈ reads)
    (h : Placed services draws requests id start reads j (sts j) (c.pool j) t t') :
    Placed services draws requests id start reads' j (Function.update sts i st' j)
      (Function.update c.pool i q j) t t' := by
  rw [Function.update_of_ne hj, Function.update_of_ne hj]
  obtain ⟨hvar, h⟩ := h
  refine ⟨hvar, ?_⟩
  cases hst : sts j with
  | idle =>
    rw [hst] at h
    exact h
  | loaded =>
    rw [hst] at h
    obtain ⟨rfl, hloaded, hgets⟩ := h
    refine ⟨rfl, fun loaded hl hi => hloaded loaded ?_ hi, hgets⟩
    exact (hreads loaded hl).resolve_left fun hli => hj (hi.symm.trans hli)
  | saved =>
    rw [hst] at h
    exact h

/-- One party has moved. -/
theorem Told.moved (h : Told services draws requests id start c sts order) (hp : c.pool i = .call op k)
    (hst : st' ≠ .idle) (hobeys : credentialProtocol.Obeys i (fun _ _ => True) (k r) st')
    (hreads : ∀ loaded ∈ s'.reads, loaded.1 = i ∨ loaded ∈ c.store.reads) {order' : List PId}
    (hnodup : order'.Nodup)
    (hmem : ∀ j, j ∈ order' ↔ j ∈ order ∨ j = i)
    (hchain : Chain (fun j => Placed services draws requests id start s'.reads j (Function.update sts i st' j)
      (Function.update c.pool i (k r) j)) start order' s'.users) (hnow : Variation id start s'.users) :
    Told services draws requests id start ⟨s', Function.update c.pool i (k r)⟩
      (Function.update sts i st') order' where
  obeys j := by
    by_cases hj : j = i
    · subst hj
      show credentialProtocol.Obeys j _ (Function.update c.pool j (k r) j) _
      rw [Function.update_self, Function.update_self]
      exact hobeys
    · show credentialProtocol.Obeys j _ (Function.update c.pool i (k r) j) _
      rw [Function.update_of_ne hj, Function.update_of_ne hj]
      exact h.obeys j
  chain := hchain
  nodup := hnodup
  mem j := by
    rw [hmem j, h.mem j]
    by_cases hj : j = i
    · subst hj
      rw [Function.update_self]
      exact ⟨fun _ => hst, fun _ => .inr rfl⟩
    · rw [Function.update_of_ne hj]
      exact ⟨fun hor => hor.resolve_right hj, .inl⟩
  idle j hidle := by
    have hj : j ≠ i := by
      rintro rfl
      rw [Function.update_self] at hidle
      exact hst hidle
    rw [Function.update_of_ne hj] at hidle
    obtain ⟨hpool, hnone⟩ := h.idle j hidle
    refine ⟨(Function.update_of_ne hj _ _).trans hpool, fun loaded hl hli => ?_⟩
    rcases hreads loaded hl with hi | hl
    · exact hj (hli.symm.trans hi)
    · exact hnone loaded hl hli
  begun j hbegun := by
    by_cases hj : j = i
    · subst hj
      have hone : Prog.Continues (k r) (c.pool j) := ⟨op, k, r, hp, rfl⟩
      show Relation.TransGen _ (Function.update c.pool j (k r) j) _
      rw [Function.update_self]
      by_cases hidle : sts j = .idle
      · exact (h.idle j hidle).1 ▸ .single hone
      · exact .head hone (h.begun j hidle)
    · rw [Function.update_of_ne hj] at hbegun
      show Relation.TransGen _ (Function.update c.pool i (k r) j) _
      rw [Function.update_of_ne hj]
      exact h.begun j hbegun
  now := hnow

theorem Elsewhen.refl (s : Store) : Elsewhen s s := ⟨s.clock, rfl⟩

/-- A row is loaded: the party is told last. -/
theorem Told.load (h : Told services draws requests id start c sts order) (hp : c.pool i = .call op k)
    (hidle : sts i = .idle) (ha : draws.Gives i a) (hx : exec services i a op c.store = some (r, s')) :
    Told services draws requests id start ⟨s', Function.update c.pool i (k r)⟩ (Function.update sts i .loaded)
      (order ++ [i]) := by
  obtain ⟨hprogram, hnone⟩ := h.idle i hidle
  have hi := h.obeys i
  rw [hp, hidle] at hi
  have hop : op.findsUser = true := hi.1
  obtain ⟨husers, new, hreads, hnew⟩ := exec_findsUser hop hx
  have hmem : i ∉ order := fun hm => (h.mem i).1 hm hidle
  have hreads' : ∀ loaded ∈ s'.reads, loaded.1 = i ∨ loaded ∈ c.store.reads := by
    intro loaded hl
    rw [hreads] at hl
    rcases List.mem_append.1 hl with hl | hl
    · exact .inr hl
    · exact .inl (hnew loaded hl).1
  have hobeys : credentialProtocol.Obeys i (fun _ _ => True) (k r) Stage.loaded := hi.2 r trivial
  refine h.moved hp (by decide) hobeys hreads' ?_ (fun j => by simp) ?_ (husers ▸ h.now)
  · refine List.nodup_append.2 ⟨h.nodup, List.pairwise_singleton _ i, fun j hj j' hj' hjj => hmem ?_⟩
    rw [← List.mem_singleton.1 hj', ← hjj]
    exact hj
  rw [husers]
  refine Chain.concat ?_ (h.chain.mono fun j hj t t' hplaced => ?_)
  · rw [Function.update_self, Function.update_self]
    refine ⟨h.now, rfl, fun loaded hl hli => ?_, fun s hs => ?_⟩
    · rw [hreads] at hl
      rcases List.mem_append.1 hl with hl | hl
      · exact absurd hli (hnone loaded hl)
      · exact (hnew loaded hl).2
    · cases op with
      | user q =>
        obtain ⟨s1, hx1, hs1⟩ := exec_user_congr hx hs
        have hstart : Gets (drawnSchedule services draws) Elsewhen i ((requests i).program services) s
            (.call (.user q) k) s := hp ▸ hprogram ▸ .refl
        exact ⟨s1, .call hstart (Elsewhen.refl s) ha hx1, hs1.trans husers⟩
      | _ => cases hop
  · refine hplaced.of_ne (fun hji => hmem ?_) hreads'
    rw [← hji]
    exact hj

/-- What a party can do from where it is told, it goes on to do there. -/
theorem Placed.go_on {t t' : Table UserRecord.id} {reads : List (PId × UserRecord)}
    (h : Placed services draws requests id start reads i .loaded (.call op k) t t') (ha : draws.Gives i a)
    (hx : ∀ s : Store, s.users = t → ∃ s1 s2, Elsewhen s s1 ∧ exec services i a op s1 = some (r, s2) ∧
      s2.users = t) :
    Placed services draws requests id start reads i .loaded (k r) t t' := by
  obtain ⟨hvar, hsame, hloaded, hgets⟩ := h
  refine ⟨hvar, hsame, hloaded, fun s hs => ?_⟩
  obtain ⟨s1, hgets, hs1⟩ := hgets s hs
  obtain ⟨s2, s3, henv, hx, hs3⟩ := hx s1 hs1
  exact ⟨s3, .call hgets henv ha hx, hs3⟩

/-- The party that holds a row has made no difference yet. -/
theorem Told.stay (h : Told services draws requests id start c sts order) (hp : c.pool i = .call op k)
    (hst : sts i = .loaded) (ha : draws.Gives i a)
    (hobeys : credentialProtocol.Obeys i (fun _ _ => True) (k r) .loaded) (hreads : s'.reads = c.store.reads)
    (husers : s'.users = c.store.users)
    (hx : ∀ t, (∀ loaded ∈ c.store.reads, loaded.1 = i → t.find? loaded.2.id = some loaded.2) →
      Variation id start t → ∀ s : Store, s.users = t →
      ∃ s1 s2, Elsewhen s s1 ∧ exec services i a op s1 = some (r, s2) ∧ s2.users = t) :
    Told services draws requests id start ⟨s', Function.update c.pool i (k r)⟩
      (Function.update sts i .loaded) order := by
  have hreads' : ∀ loaded ∈ s'.reads, loaded.1 = i ∨ loaded ∈ c.store.reads :=
    fun loaded hl => .inr (hreads ▸ hl)
  have hmem : i ∈ order := (h.mem i).2 (by rw [hst]; decide)
  refine h.moved hp (by decide) hobeys hreads' h.nodup (fun j => ⟨.inl, ?_⟩) ?_ (husers ▸ h.now)
  · rintro (hj | rfl)
    · exact hj
    · exact hmem
  rw [husers]
  refine h.chain.mono fun j hj t t' hplaced => ?_
  by_cases hji : j = i
  · subst hji
    rw [Function.update_self, Function.update_self, hreads]
    rw [hst, hp] at hplaced
    refine hplaced.go_on ha (hx t hplaced.2.2.1 ?_)
    exact hplaced.2.1 ▸ hplaced.1
  · exact hplaced.of_ne hji hreads'

/-- **A row is saved, over the one that was loaded**: the party is told last, once more. -/
theorem Told.save {data : UserRecord} {k : Except Err Unit → Handler (Option AuthResponseDto)}
    (h : Told services draws requests id start c sts order) (hp : c.pool i = .call (.user (.upsert data)) k)
    (hst : sts i = .loaded) (ha : draws.Gives i a) (hdata : data.id = id)
    (hobeys : credentialProtocol.Obeys i (fun _ _ => True) (k (.ok ())) .saved)
    (hx : exec services i a (.user (.upsert data)) c.store = some (.ok (), s')) (hreads : s'.reads = c.store.reads)
    (husers : s'.users = c.store.users.put data)
    (hsame : ∀ t, (∀ loaded ∈ c.store.reads, loaded.1 = i → t.find? loaded.2.id = some loaded.2) →
      Variation id start t → t = c.store.users) :
    Told services draws requests id start ⟨s', Function.update c.pool i (k (.ok ()))⟩ (Function.update sts i .saved)
      (order.erase i ++ [i]) := by
  have hreads' : ∀ loaded ∈ s'.reads, loaded.1 = i ∨ loaded ∈ c.store.reads :=
    fun loaded hl => .inr (hreads ▸ hl)
  have hmem : i ∈ order := (h.mem i).2 (by rw [hst]; decide)
  have hnow : Variation id start s'.users := husers ▸ h.now.put hdata
  refine h.moved hp (by decide) hobeys hreads' ?_ (fun j => ?_) ?_ hnow
  · refine List.nodup_append.2 ⟨h.nodup.erase i, List.pairwise_singleton _ i, fun j hj j' hj' => ?_⟩
    rw [List.mem_singleton.1 hj']
    exact ((h.nodup.mem_erase_iff).1 hj).1
  · rw [List.mem_append, List.mem_singleton, h.nodup.mem_erase_iff]
    by_cases hji : j = i
    · simp [hji]
    · simp [hji]
  obtain ⟨t, t', hplaced⟩ := h.chain.of_mem hmem
  have hhere : ∀ {t t'}, Placed services draws requests id start c.store.reads i (sts i) (c.pool i) t t' →
    t = t' := by
    intro t t' hplaced
    rw [hst] at hplaced
    exact hplaced.2.1
  refine Chain.concat ?_ ((h.chain.erase fun t t' => hhere).mono fun j hj t t' hplaced => ?_)
  · rw [hst, hp] at hplaced
    obtain ⟨hvar, rfl, hloaded, hgets⟩ := hplaced
    obtain rfl := hsame t hloaded hvar
    rw [Function.update_self, Function.update_self]
    refine ⟨hnow, fun s hs => ?_⟩
    obtain ⟨s1, hgets, hs1⟩ := hgets s hs
    obtain ⟨s2, hx2, hs2⟩ := exec_user_congr hx hs1
    exact ⟨_, s2, .call hgets (Elsewhen.refl s1) ha hx2, hs2, Obeys.calls_of_saved hobeys⟩
  · exact hplaced.of_ne ((h.nodup.mem_erase_iff).1 hj).1 hreads'

/-- What a party does once it has saved changes no user. -/
theorem Told.finish (h : Told services draws requests id start c sts order) (hp : c.pool i = .call op k)
    (hst : sts i = .saved) (hx : exec services i a op c.store = some (r, s')) :
    Told services draws requests id start ⟨s', Function.update c.pool i (k r)⟩
      (Function.update sts i .saved) order := by
  have hi := h.obeys i
  rw [hp, hst] at hi
  obtain ⟨husers, hreads⟩ := exec_notUsers hi.1 hx
  have hreads' : ∀ loaded ∈ s'.reads, loaded.1 = i ∨ loaded ∈ c.store.reads :=
    fun loaded hl => .inr (hreads ▸ hl)
  have hmem : i ∈ order := (h.mem i).2 (by rw [hst]; decide)
  have hobeys : credentialProtocol.Obeys i (fun _ _ => True) (k r) Stage.saved := hi.2 r trivial
  refine h.moved hp (by decide) hobeys hreads' h.nodup (fun j => ⟨.inl, ?_⟩) ?_ (husers ▸ h.now)
  · rintro (hj | rfl)
    · exact hj
    · exact hmem
  rw [husers]
  refine h.chain.mono fun j hj t t' hplaced => ?_
  by_cases hji : j = i
  · subst hji
    rw [Function.update_self, Function.update_self]
    rw [hst] at hplaced
    exact hplaced
  · exact hplaced.of_ne hji hreads'

/-- **A step of the interleaving is a step of the tale.** -/
theorem Told.step {c' : Config Op.Res Err Store Err (Option AuthResponseDto)}
    (h : Told services draws requests id start c sts order) (hs : (unmovedSchedule services draws).Step c c')
    (hid : ∀ loaded ∈ c'.store.reads, loaded.2.id = id) :
    ∃ sts' order', Told services draws requests id start c' sts' order' := by
  cases hs with
  | act ms => exact ⟨sts, order, h.obeys, h.chain, h.nodup, h.mem, h.idle, h.begun, h.now⟩
  | @call i op k a r s' hp ha hx =>
    change exec services i a op c.store = some (r, s') at hx
    obtain ⟨hgives, hunmoved⟩ : draws.Gives i a ∧ Unmoved c.store i op := ha
    cases hst : sts i with
    | idle => exact ⟨_, _, h.load hp hst hgives hx⟩
    | saved => exact ⟨_, _, h.finish hp hst hx⟩
    | loaded =>
      have hi := h.obeys i
      rw [hp, hst] at hi
      rcases hi.1 with hop | hop
      · obtain ⟨rfl, hlocal⟩ := exec_ponders hop hx
        have hobeys : credentialProtocol.Obeys i (fun _ _ => True) (k r) Stage.loaded := by
          have hnext := hi.2 r trivial
          cases op with
          | user q => cases hop
          | _ => exact hnext
        refine ⟨_, _, h.stay hp hst hgives hobeys rfl rfl fun t _ _ s hs => ?_⟩
        exact ⟨{ s with clock := c.store.clock }, _, ⟨_, rfl⟩, hlocal s, hs⟩
      · obtain ⟨data, rfl⟩ : ∃ data, op = .user (.upsert data) := by
          cases op with
          | user q =>
            cases q with
            | upsert data => exact ⟨data, rfl⟩
            | _ => cases hop
          | _ => cases hop
        obtain ⟨hreads, hend⟩ := exec_savesUser hx
        obtain ⟨loaded, hloaded, hli, hdata, hstored⟩ := hunmoved data rfl
        have hlid : loaded.2.id = id := hid loaded (by rw [hreads]; exact hloaded)
        have hsame : ∀ t, (∀ loaded ∈ c.store.reads, loaded.1 = i → t.find? loaded.2.id = some loaded.2) →
            Variation id start t → t = c.store.users := by
          intro t ht hvar
          have hrow : t.find? id = some loaded.2 := hlid ▸ ht loaded hloaded hli
          have hnow : c.store.users.find? id = some loaded.2 := hlid ▸ hdata ▸ hstored
          rw [hvar.eq_put hrow, h.now.eq_put hnow]
        rcases hend with ⟨e, rfl, rfl⟩ | ⟨rfl, husers⟩
        · have hobeys : credentialProtocol.Obeys i (fun _ _ => True) (k (.error e)) Stage.loaded := hi.2 _ trivial
          refine ⟨_, _, h.stay hp hst hgives hobeys rfl rfl fun t ht hvar s hs => ?_⟩
          obtain ⟨s1, hx1, hs1⟩ := exec_user_congr hx (hs.trans (hsame t ht hvar))
          exact ⟨s, s1, Elsewhen.refl s, hx1, hs1.trans (hsame t ht hvar).symm⟩
        · have hobeys : credentialProtocol.Obeys i (fun _ _ => True) (k (.ok ())) Stage.saved := hi.2 _ trivial
          exact ⟨_, _, h.save hp hst hgives (hdata.symm.trans hlid) hobeys hx hreads husers hsame⟩

/-- What has been loaded is not forgotten. -/
theorem reads_step {c' : Config Op.Res Err Store Err (Option AuthResponseDto)}
    (hs : (unmovedSchedule services draws).Step c c') : c.store.reads ⊆ c'.store.reads := by
  cases hs with
  | act ms => exact fun _ hl => hl
  | @call i op k a r s' hp ha hx =>
    change exec services i a op c.store = some (r, s') at hx
    show c.store.reads ⊆ s'.reads
    cases op with
    | user q =>
      cases q with
      | upsert data => rw [(exec_savesUser hx).1]; exact List.Subset.refl _
      | _ =>
        obtain ⟨-, new, hreads, -⟩ := exec_findsUser rfl hx
        rw [hreads]
        exact List.subset_append_left _ _
    | _ => rw [(exec_notUsers rfl hx).2]; exact List.Subset.refl _

theorem told_of_reach {s : Store} (hs : s.reads = [])
    (hr : (unmovedSchedule services draws).Reach ⟨s, fun i => (requests i).program services⟩ c)
    (hid : ∀ loaded ∈ c.store.reads, loaded.2.id = id) :
    ∃ sts order, Told services draws requests id s.users c sts order := by
  induction hr with
  | refl =>
    have hnone : ∀ loaded ∈ s.reads, ∀ i, loaded.1 ≠ i := by
      intro loaded hl
      rw [hs] at hl
      exact absurd hl List.not_mem_nil
    exact ⟨fun _ => .idle, [], fun i => (requests i).obeys, rfl, List.nodup_nil,
      fun i => ⟨fun hm => absurd hm List.not_mem_nil, fun hne => absurd rfl hne⟩,
      fun i _ => ⟨rfl, fun loaded hl => hnone loaded hl i⟩, fun i hne => absurd rfl hne, .inl rfl⟩
  | tail _ hstep ih =>
    obtain ⟨sts, order, h⟩ := ih fun loaded hl => hid loaded (reads_step hstep hl)
    exact h.step hstep hid

/-! ## To the end -/

/-- Some answer is always in store. -/
theorem answered (s : Store) (op : Op) : ∃ s1 a r s2, Elsewhen s s1 ∧
    (drawnSchedule services draws).allow s1 i a op ∧
    (drawnSchedule services draws).exec i a op s1 = some (r, s2) := by
  have hall : ∃ a r s2, draws.Gives i a ∧ exec services i a op s = some (r, s2) := by
    cases op with
    | hash plainText => exact ⟨.hash (draws.hash i), _, _, rfl, rfl⟩
    | signAccessToken payload => exact ⟨.signed ⟨"", 0⟩, _, _, trivial, rfl⟩
    | generateOpaqueRefreshToken => exact ⟨.token "", _, _, trivial, rfl⟩
    | randomUUID => exact ⟨.uuid "", _, _, trivial, rfl⟩
    | _ => exact ⟨.ok, _, _, trivial, rfl⟩
  obtain ⟨a, r, s2, ha, hx⟩ := hall
  exact ⟨s, a, r, s2, Elsewhen.refl s, ha, hx⟩

/-- A link whose party is done is a run of it. -/
theorem Placed.run {reads : List (PId × UserRecord)} {t t' : Table UserRecord.id} {s : Store}
    {p : Handler (Option AuthResponseDto)} (h : Placed services draws requests id start reads i st' p t t')
    (hp : ∃ x, p.outcome? = some x) (hs : s.users = t) :
    ∃ tr x s', Run (drawnSchedule services draws) Elsewhen i ((requests i).program services) s tr x s' ∧
      s'.users = t' := by
  obtain ⟨-, h⟩ := h
  cases st' with
  | idle => exact h.elim
  | loaded =>
    obtain ⟨rfl, -, hgets⟩ := h
    obtain ⟨s1, hgets, hs1⟩ := hgets s hs
    obtain ⟨x, hx⟩ := hp
    have hrun : Run (drawnSchedule services draws) Elsewhen i p s1 [] x s1 := by
      cases p with
      | pure y =>
        cases hx
        exact ⟨rfl, rfl, rfl⟩
      | throw e =>
        cases hx
        exact ⟨rfl, rfl, rfl⟩
      | _ => cases hx
    obtain ⟨tr, hr⟩ := hgets.run hrun
    exact ⟨tr, x, s1, hr, hs1⟩
  | saved =>
    obtain ⟨q, s1, hgets, hs1, hcalls⟩ := h s hs
    obtain ⟨tr, x, s2, hq⟩ := exists_run answered (hgets.halts (requests i).halts) s1
    obtain ⟨tr', hr⟩ := hgets.run hq
    have htrans : ∀ {s s' s'' : Store}, s'.users = s.users → s''.users = s'.users → s''.users = s.users :=
      fun h1 h2 => h2.trans h1
    have hsame : s2.users = s1.users := by
      refine hq.keeps (R := fun s s' : Store => s'.users = s.users) hcalls (fun _ => rfl) htrans ?_
        fun hop hx => (exec_notUsers hop hx).1
      rintro s s' ⟨t, rfl⟩
      rfl
    exact ⟨tr', x, s2, hr, hsame.trans hs1⟩

end

/-- **Logins and password changes of one user can be told one after another**: if no row is saved over another than the
one it was made from, the users end as if the executions had run one at a time, in some order. -/
theorem users_serializable (services : Services) (draws : Draws) (requests : PId → CredentialRequest) (id : String)
    {start : Store} (hstart : start.reads = []) {c : Config Op.Res Err Store Err (Option AuthResponseDto)}
    (hr : (unmovedSchedule services draws).Reach ⟨start, fun i => (requests i).program services⟩ c)
    (hid : ∀ loaded ∈ c.store.reads, loaded.2.id = id)
    (hended : ∀ i, (∃ x, c.Ended i x) ∨ c.pool i = (requests i).program services) :
    ∃ order s', order.Nodup ∧ (∀ i, i ∈ order ↔ c.pool i ≠ (requests i).program services) ∧
      OneAtATime (drawnSchedule services draws) Elsewhen (fun i => (requests i).program services) order start s' ∧
      s'.users = c.store.users := by
  obtain ⟨sts, order, h⟩ := told_of_reach hstart hr hid
  have hbegun : ∀ i, i ∈ order ↔ c.pool i ≠ (requests i).program services := by
    intro i
    rw [h.mem i]
    refine ⟨fun hst hpool => ?_, fun hpool hst => hpool (h.idle i hst).1⟩
    exact Prog.not_continues_self _ (hpool ▸ h.begun i hst)
  obtain ⟨s', hserial, hs'⟩ := h.chain.oneAtATime Store.users rfl fun j hj t t' s hplaced hs =>
    hplaced.run ((hended j).resolve_right ((hbegun j).1 hj)) hs
  exact ⟨order, s', h.nodup, hbegun, hserial, hs'⟩

/-! ## Two failed attempts -/

/-- Nothing is rejected. -/
def sampleDraws : Draws := ⟨fun _ => false, fun _ => "#battery staple"⟩

/-- Somebody who guesses. -/
def sampleGuess : LoginCommand := ⟨"ada@kudi.ng", "battery staple", none, none⟩

def sampleGuesses : PId → CredentialRequest := fun _ => .login sampleGuess

/-- Where two of them have ended. -/
def GuessedTwice (c : Config Op.Res Err Store Err (Option AuthResponseDto)) : Prop :=
  c.Ended 0 (.error invalidCredentials) ∧ c.Ended 1 (.error invalidCredentials) ∧
    ∀ loaded ∈ c.store.reads, loaded.2.id = "user"

instance (c : Config Op.Res Err Store Err (Option AuthResponseDto)) : Decidable (GuessedTwice c) := by
  unfold GuessedTwice
  infer_instance

def attemptsOf (s : Store) : Option Nat := (s.users.find? "user").map (·.failedLoginAttempts)

/-- One after the other. -/
def sampleApart : List (System.Move Ans Nat) :=
  System.calls 0 [Ans.ok, .ok, .ok, .ok, .ok] ++ System.calls 1 [Ans.ok, .ok, .ok, .ok, .ok]

/-- Both load the user before either saves it. -/
def sampleTogether : List (System.Move Ans Nat) :=
  System.calls 0 [Ans.ok] ++ System.calls 1 [Ans.ok] ++ System.calls 0 [Ans.ok, .ok, .ok, .ok] ++
    System.calls 1 [Ans.ok, .ok, .ok, .ok]

/-- Nobody else has begun. -/
theorem GuessedTwice.ended {sys : System Op.Res Err Store Ans Nat} [∀ s i a op, Decidable (sys.allow s i a op)]
    {c : Config Op.Res Err Store Err (Option AuthResponseDto)} (h : GuessedTwice c) {ms : List (System.Move Ans Nat)}
    (hms : ∀ i, i ≠ 0 → i ≠ 1 → ms.any (System.Move.isCallOf i) = false)
    (hc : sys.play ms ⟨sampleStore, fun i => (sampleGuesses i).program sampleServices⟩ = some c) (i : PId) :
    (∃ x, c.Ended i x) ∨ c.pool i = (sampleGuesses i).program sampleServices := by
  by_cases h0 : i = 0
  · exact .inl ⟨_, h0 ▸ h.1⟩
  · by_cases h1 : i = 1
    · exact .inl ⟨_, h1 ▸ h.2.1⟩
    · exact .inr (sys.pool_of_play (hms i h0 h1) hc)

theorem users_serializable_sample : ∃ c, (unmovedSchedule sampleServices sampleDraws).Reach
      ⟨sampleStore, fun i => (sampleGuesses i).program sampleServices⟩ c ∧ attemptsOf c.store = some 2 ∧
    ∃ order s', order.Nodup ∧ (∀ i, i ∈ order ↔ c.pool i ≠ (sampleGuesses i).program sampleServices) ∧
      OneAtATime (drawnSchedule sampleServices sampleDraws) Elsewhen
        (fun i => (sampleGuesses i).program sampleServices) order sampleStore s' ∧ s'.users = c.store.users := by
  have hplay : ((unmovedSchedule sampleServices sampleDraws).play sampleApart
      ⟨sampleStore, fun i => (sampleGuesses i).program sampleServices⟩).any fun c =>
        GuessedTwice c ∧ attemptsOf c.store = some 2 := by
    decide +kernel
  obtain ⟨c, hc, hguessed, hattempts⟩ := System.play_seen _ hplay
  have hr := System.reach_of_play _ hc
  have hms : ∀ i, i ≠ 0 → i ≠ 1 → sampleApart.any (System.Move.isCallOf i) = false := by
    intro i h0 h1
    simp [sampleApart, System.calls, System.Move.isCallOf, Ne.symm h0, Ne.symm h1]
  exact ⟨c, hr, hattempts, users_serializable sampleServices sampleDraws sampleGuesses "user" rfl hr hguessed.2.2
    (hguessed.ended hms hc)⟩

/-- Ada, after `n` failed attempts. -/
def guessedRow (n t : Nat) : UserRecord := { sampleUser with failedLoginAttempts := n, updatedAt := t }

def guessedUser (n t : Nat) : User :=
  { id := "user", email := ⟨"ada@kudi.ng"⟩, phoneNumber := ⟨"+2348012345678"⟩,
    passwordHash := ⟨"#correct horse"⟩,
    firstName := "Ada", lastName := "Obi", role := .CUSTOMER, status := .ACTIVE, failedLoginAttempts := n,
    lockedUntil := none, lastLoginAt := none, createdAt := 0, updatedAt := t, domainEvents := [] }

def Guessed (n t : Nat) (s : Store) : Prop := s.users = Table.empty.put (guessedRow n t)

section
variable {i : PId} {n t : Nat}

theorem Guessed.elsewhen {s s' : Store} (h : Elsewhen s s') (hs : Guessed n t s) : Guessed n t s' := by
  obtain ⟨t', rfl⟩ := h
  exact hs

theorem guessed_await {op : Op} {Q : op.Res → Prop} (hop : op.ofUsers = false) (hupserts : op.upserts = false)
    (hQ : ∀ {a s v s'}, exec sampleServices i a op s = some (.ok v, s') → Q v) :
    Triple (drawnSchedule sampleServices sampleDraws) Elsewhen i (Guessed n t) (Prog.await op)
      (fun v s => Q v ∧ Guessed n t s) fun _ _ => False := by
  refine Triple.await Guessed.elsewhen (fun hs _ hx => ⟨hQ hx, (exec_notUsers hop hx).1.trans hs⟩)
    fun {s a e s'} _ ha hx => ?_
  have hcalm : a.isFail = false := by
    cases a with
    | fail e => cases ha
    | _ => rfl
  exact not_refused hcalm hupserts hx

theorem guessedUser_eq : UserMapper.toDomain sampleServices (guessedRow n t) = .ok (guessedUser n t) := by
  have hemail : Email.create sampleServices "ada@kudi.ng" = .ok ⟨"ada@kudi.ng"⟩ := by decide
  have hphone : PhoneNumber.create "+2348012345678" = .ok ⟨"+2348012345678"⟩ := by decide
  have hhash : HashedPassword.fromHash "#correct horse" = .ok ⟨"#correct horse"⟩ := by decide
  simp only [UserMapper.toDomain, guessedRow, sampleUser, hemail, hphone, hhash]
  rfl

theorem guessed_load : Triple (drawnSchedule sampleServices sampleDraws) Elsewhen i (Guessed n t)
    (PrismaUserRepository.findByEmail sampleServices ⟨"ada@kudi.ng"⟩)
    (fun found s => found = some (guessedUser n t) ∧ Guessed n t s) fun _ _ => False := by
  refine Triple.bind (M := fun found s => found = some (guessedRow n t) ∧ Guessed n t s) ?_ fun found => .of_and ?_
  · refine Triple.await Guessed.elsewhen (fun hs _ hx => ?_) fun {s a e s'} _ ha hx => ?_
    · cases exec_user hx
      exact ⟨by rw [hs]; rfl, hs⟩
    · cases a with
      | fail e => cases ha
      | _ => cases hx
  · rintro rfl
    refine .ofExcept_bind (fun user huser => ?_) fun e _ he _ => nomatch guessedUser_eq.symm.trans he
    cases guessedUser_eq.symm.trans huser
    exact .pure fun s hs => ⟨rfl, hs⟩

theorem guessed_save {now : Nat} : Triple (drawnSchedule sampleServices sampleDraws) Elsewhen i (Guessed n t)
    (PrismaUserRepository.save ((guessedUser n t).countFailedLogin now sampleGuess.ipAddress))
      (fun _ s => Guessed (n + 1) now s)
    fun _ _ => False := by
  refine Triple.await Guessed.elsewhen (fun hs _ hx => ?_) fun {s a e s'} hs ha hx => ?_
  · obtain ⟨-, ⟨e, he, -⟩ | ⟨-, husers⟩⟩ := exec_savesUser hx
    · cases he
    · rw [hs] at husers
      exact husers.trans (Table.put_put _ rfl)
  · cases a with
    | fail e => cases ha
    | ok =>
      have husers : s.users = Table.empty.put (guessedRow n t) := hs
      change some (execUser i _ s) = _ at hx
      simp only [execUser, husers] at hx
      cases hx
    | _ => cases hx

/-- **A guess is counted.** -/
theorem guess_counted (hn : n < 4) : Triple (drawnSchedule sampleServices sampleDraws) Elsewhen i (Guessed n t)
    (LoginHandler.execute sampleServices sampleGuess) (fun _ _ => False) fun _ s => ∃ t, Guessed (n + 1) t s := by
  have hemail : Email.create sampleServices sampleGuess.email = .ok ⟨"ada@kudi.ng"⟩ := by decide
  refine .ofExcept_bind (fun email he => ?_) fun e s he _ => nomatch hemail.symm.trans he
  cases hemail.symm.trans he
  refine Triple.bind (guessed_load.mono (fun _ h => h) (fun _ _ h => h) fun _ _ h => h.elim) fun found => .of_and ?_
  rintro rfl
  -- The user is active, and the guess is wrong.
  refine Triple.bind (M := fun u s => u = guessedUser n t ∧ Guessed n t s) (.pure fun s hs => ⟨rfl, hs⟩) fun u =>
    .of_and ?_
  rintro rfl
  refine Triple.bind ((guessed_await (Q := fun matched => matched = false) rfl rfl fun {a _ _ _} hx => ?_).mono
    (fun _ h => h)
    (fun _ _ h => h) fun _ _ h => h.elim) fun matched => .of_and ?_
  · cases a with
    | fail e => exact nomatch (exec_fail hx).1
    | ok =>
      cases hx
      rfl
    | _ => cases hx
  rintro rfl
  refine Triple.bind
    (M := fun u s => (∃ now, u = (guessedUser n t).countFailedLogin now sampleGuess.ipAddress) ∧ Guessed n t s) ?_
    fun u => .of_and ?_
  · refine Triple.bind ((guessed_await (Q := fun _ => True) rfl rfl fun _ => trivial).mono (fun _ h => h)
      (fun _ _ h => h) fun _ _ h => h.elim) fun now => .of_and fun _ => ?_
    have hfew : ¬ ((guessedUser n t).countFailedLogin now sampleGuess.ipAddress).failedLoginAttempts ≥
      MAX_FAILED_LOGIN_ATTEMPTS := by
      show ¬ n + 1 ≥ 5
      omega
    show Triple _ _ _ _ (if _ then _ else _) _ _
    rw [if_neg hfew]
    exact .pure fun s hs => ⟨⟨now, rfl⟩, hs⟩
  rintro ⟨now, rfl⟩
  refine Triple.bind (M := fun _ s => ∃ t, Guessed (n + 1) t s)
    (guessed_save.mono (fun _ h => h) (fun _ _ h => ⟨now, h⟩)
    fun _ _ h => h.elim) fun _ => ?_
  refine Triple.bind (M := fun _ s => ∃ t, Guessed (n + 1) t s) ?_ fun _ => .throw fun _ h => h
  refine Upholds.of_calls (publishAll_calls (T := fun op => op.ofUsers = false) (fun _ => rfl) _) ?_ ?_
  · rintro s s' h ⟨t, hs⟩
    exact ⟨t, hs.elsewhen h⟩
  · rintro s op a r s' ⟨t, hs⟩ hop - hx
    exact ⟨t, (exec_notUsers hop hx).1.trans hs⟩

end

/-- One guess after another. -/
theorem guesses_counted {order : List PId} {s s' : Store}
    (h : OneAtATime (drawnSchedule sampleServices sampleDraws) Elsewhen
      (fun i => (sampleGuesses i).program sampleServices)
      order s s') : ∀ {n}, n + order.length ≤ 4 → (∃ t, Guessed n t s) →
        ∃ t, Guessed (n + order.length) t s' := by
  induction h with
  | nil s => exact fun _ hs => hs
  | @cons i order s s1 s2 tr x hrun _ ih =>
    rintro n hn ⟨t, hs⟩
    rw [List.length_cons] at hn
    have hlogin : Triple (drawnSchedule sampleServices sampleDraws) Elsewhen i (Guessed n t)
        ((sampleGuesses i).program sampleServices) (fun _ _ => False) fun _ s => ∃ t, Guessed (n + 1) t s :=
      Triple.bind (guess_counted (by omega)) fun _ => ⟨fun h => h.elim, fun h => h.elim⟩
    rcases hlogin.run hrun hs with ⟨_, -, hfalse⟩ | ⟨e, -, h1⟩
    · exact hfalse.elim
    · obtain ⟨t', hend⟩ := ih (n := n + 1) (by omega) h1
      exact ⟨t', by rw [List.length_cons, ← Nat.add_assoc, Nat.add_right_comm]; exact hend⟩

/-- Two guesses, and one of them is counted. -/
theorem failed_attempt_lost : ∃ c, (drawnSchedule sampleServices sampleDraws).Reach
      ⟨sampleStore, fun i => (sampleGuesses i).program sampleServices⟩ c ∧
    (∀ loaded ∈ c.store.reads, loaded.2.id = "user") ∧
    (∀ i, (∃ x, c.Ended i x) ∨ c.pool i = (sampleGuesses i).program sampleServices) ∧
    ¬ ∃ order s', order.Nodup ∧ (∀ i, i ∈ order ↔ c.pool i ≠ (sampleGuesses i).program sampleServices) ∧
      OneAtATime (drawnSchedule sampleServices sampleDraws) Elsewhen
        (fun i => (sampleGuesses i).program sampleServices) order sampleStore s' ∧ s'.users = c.store.users := by
  have hplay : ((drawnSchedule sampleServices sampleDraws).play sampleTogether
      ⟨sampleStore, fun i => (sampleGuesses i).program sampleServices⟩).any fun c =>
        GuessedTwice c ∧ attemptsOf c.store = some 1 := by
    decide +kernel
  obtain ⟨c, hc, hguessed, hattempts⟩ := System.play_seen _ hplay
  have hms : ∀ i, i ≠ 0 → i ≠ 1 → sampleTogether.any (System.Move.isCallOf i) = false := by
    intro i h0 h1
    simp [sampleTogether, System.calls, System.Move.isCallOf, Ne.symm h0, Ne.symm h1]
  refine ⟨c, System.reach_of_play _ hc, hguessed.2.2, hguessed.ended hms hc, ?_⟩
  rintro ⟨order, s', hnodup, hmem, hserial, husers⟩
  have hopen : ((CredentialRequest.login sampleGuess).program sampleServices).outcome? = none := by
    have hnone : ((CredentialRequest.login sampleGuess).program sampleServices).outcome?.isNone = true := by
      decide +kernel
    exact Option.isNone_iff_eq_none.1 hnone
  have hbegun : ∀ {i e}, c.Ended i (.error e) → c.pool i ≠ (sampleGuesses i).program sampleServices := by
    intro i e hend hpool
    unfold Config.Ended at hend
    rw [hpool] at hend
    cases hopen.symm.trans hend
  have hperm : order.Perm [0, 1] := by
    refine (List.perm_ext_iff_of_nodup hnodup (by decide)).2 fun i => (hmem i).trans ?_
    by_cases h0 : i = 0
    · exact ⟨fun _ => by simp [h0], fun _ => h0 ▸ hbegun hguessed.1⟩
    · by_cases h1 : i = 1
      · exact ⟨fun _ => by simp [h1], fun _ => h1 ▸ hbegun hguessed.2.1⟩
      · exact ⟨fun hne => absurd (System.pool_of_play _ (hms i h0 h1) hc) hne,
          fun hi => absurd hi (by simp [h0, h1])⟩
  have hlength : order.length = 2 := hperm.length_eq
  obtain ⟨t, hend⟩ := guesses_counted hserial (n := 0) (by omega) ⟨0, rfl⟩
  have hboth : attemptsOf s' = some (0 + order.length) := by
    unfold attemptsOf
    rw [show s'.users = _ from hend]
    rfl
  unfold attemptsOf at hboth hattempts
  rw [husers, hattempts, hlength] at hboth
  exact absurd hboth (by decide)

end Kudi.Identity
