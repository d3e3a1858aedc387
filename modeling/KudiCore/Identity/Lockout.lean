import KudiCore.Identity.Sessions

/-!
# Locking out

| here | there |
| --- | --- |
| `Lock` | what the lockout reads and writes of a user: status, counter, and the end of the lock |
| `opened`, `failed`, `succeeded` | `assertCanAttemptLogin`, `recordFailedLogin`, `recordSuccessfulLogin` |
| `Guarded` | the comparisons made so far, and when the next can be |
| `Logins` | executions of `LoginHandler`, one at a time, with time passing |

A login moves the lock as the automaton does (`login_cases`). The counter is reset by the attempt that passes a lock,
not by the lock's end, so what carries the bound is the earliest time of the next comparison: five failures in a row
have a lock among them.
-/

namespace Kudi.Identity

open Interleave

/-! ## The lock -/

structure Lock where
  status : UserStatus
  failedLoginAttempts : Nat
  lockedUntil : Option Nat
deriving DecidableEq, Repr

namespace Lock

/-- An attempt gets as far as the comparison. -/
def Admits (l : Lock) (now : Nat) : Prop :=
  (l.status = .LOCKED ∧ ∀ lockedUntil ∈ l.lockedUntil, lockedUntil ≤ now) ∨ l.status = .ACTIVE ∨
    l.status = .PENDING_VERIFICATION

/-- The lock that it has passed is gone. -/
def opened (l : Lock) : Lock := if l.status = .LOCKED then ⟨.ACTIVE, 0, none⟩ else l

def failed (l : Lock) (lockedUntil : Nat) : Lock :=
  if l.failedLoginAttempts + 1 ≥ MAX_FAILED_LOGIN_ATTEMPTS then ⟨.LOCKED, l.failedLoginAttempts + 1,
    some lockedUntil⟩
  else { l with failedLoginAttempts := l.failedLoginAttempts + 1 }

def succeeded (l : Lock) : Lock := ⟨if l.status = .LOCKED then .ACTIVE else l.status, 0, none⟩

/-- Locked until some time, or with attempts left. -/
structure Sound (l : Lock) : Prop where
  locked : l.status = .LOCKED ↔ l.lockedUntil.isSome = true
  attempts : l.status ≠ .LOCKED → l.failedLoginAttempts < MAX_FAILED_LOGIN_ATTEMPTS

variable {l : Lock}

theorem opened_ne_locked : l.opened.status ≠ .LOCKED := by
  unfold opened
  split
  · exact fun h => by cases h
  · assumption

theorem Sound.opened (h : l.Sound) : l.opened.Sound ∧ l.opened.lockedUntil = none := by
  unfold Lock.opened
  split
  · exact ⟨⟨iff_of_false (fun h => by cases h) Bool.false_ne_true, fun _ => Nat.zero_lt_succ 4⟩, rfl⟩
  · rename_i hopen
    refine ⟨h, ?_⟩
    have hnone := mt h.locked.2 hopen
    simpa using hnone

theorem Sound.failed (h : l.Sound) (lockedUntil : Nat) : (l.opened.failed lockedUntil).Sound := by
  obtain ⟨hsound, -⟩ := h.opened
  unfold Lock.failed
  split
  · exact ⟨iff_of_true rfl rfl, fun hne => absurd rfl hne⟩
  · rename_i hfew
    exact ⟨hsound.locked, fun _ => not_le.1 hfew⟩

/-- A lock that is passed is over. -/
theorem Sound.over (h : l.Sound) {now lockedUntil : Nat} (hadmits : l.Admits now)
    (hmem : lockedUntil ∈ l.lockedUntil) :
    lockedUntil ≤ now := by
  have hstatus : l.status = .LOCKED := h.locked.2 (by rw [hmem]; rfl)
  rcases hadmits with ⟨-, hover⟩ | hactive | hpending
  · exact hover lockedUntil hmem
  · rw [hstatus] at hactive
    cases hactive
  · rw [hstatus] at hpending
    cases hpending

theorem Sound.unlocked (h : l.Sound) (hnone : l.lockedUntil = none) : l.status ≠ .LOCKED := by
  intro hstatus
  have hsome := h.locked.1 hstatus
  rw [hnone] at hsome
  cases hsome

theorem succeeded_sound : l.opened.succeeded.Sound := by
  have hopen := opened_ne_locked (l := l)
  refine ⟨⟨fun h => ?_, fun h => by cases h⟩, fun _ => Nat.zero_lt_succ 4⟩
  simp only [succeeded, if_neg hopen] at h
  exact absurd h hopen

end Lock

/-! ## Comparisons -/

/-- A password has been compared; whether it matches, and whether the attempt has been saved. -/
structure Comparison where
  time : Nat
  matched : Bool
  saved : Bool
deriving DecidableEq, Repr

/-- A wrong password, and counted. -/
def Comparison.Counted (c : Comparison) : Prop := c.matched = false ∧ c.saved = true

instance (c : Comparison) : Decidable c.Counted := inferInstanceAs (Decidable (_ ∧ _))

/-- After any five in a row, all wrong and counted, the next one waits as long as a lock lasts since the first of them.
Whether that one is right, and whether it is saved, does not matter. -/
def Spaced (cs : List Comparison) : Prop :=
  ∀ first next : Comparison, ∀ before between after, cs = before ++ first :: between ++ next :: after →
    between.length = 4 → (∀ c ∈ first :: between, c.Counted) → first.time + LOCKOUT_DURATION_MS ≤ next.time

/-- No comparison before `time`. -/
def Lock.Bars (l : Lock) (now time : Nat) : Prop := time ≤ now ∨
    ∃ lockedUntil ∈ l.lockedUntil, time ≤ lockedUntil

/-- What the lock knows of the comparisons so far. -/
structure Guarded (l : Lock) (now : Nat) (cs : List Comparison) : Prop where
  sound : l.Sound
  past : ∀ c ∈ cs, c.time ≤ now
  pending : ∀ first rest, first :: rest <:+ cs → (∀ c ∈ first :: rest, c.Counted) →
    l.Bars now (first.time + LOCKOUT_DURATION_MS) ∨ l.lockedUntil = none ∧ rest.length + 1 ≤ l.failedLoginAttempts
  spaced : Spaced cs

namespace Guarded

variable {l l' : Lock} {now now' : Nat} {cs : List Comparison}

theorem start (h : l.Sound) : Guarded l now [] where
  sound := h
  past c hc := nomatch hc
  pending first rest hsuffix := absurd (List.suffix_nil.1 hsuffix) (List.cons_ne_nil _ _)
  spaced first next before between after hcs := by simp at hcs

theorem wait (h : Guarded l now cs) (hle : now ≤ now') : Guarded l now' cs where
  sound := h.sound
  past c hc := (h.past c hc).trans hle
  pending first rest hsuffix hcounted := by
    rcases h.pending first rest hsuffix hcounted with (hpast | hlocked) | hfew
    · exact .inl (.inl (hpast.trans hle))
    · exact .inl (.inr hlocked)
    · exact .inr hfew
  spaced := h.spaced

/-- A comparison may be added if it is not too early. -/
theorem spaced_snoc (h : Guarded l now cs) {c : Comparison} (hadmits : l.Admits c.time) (hle : now ≤ c.time) :
    Spaced (cs ++ [c]) := by
  intro first next before between after hcs hlength hcounted
  rcases List.eq_nil_or_concat after with rfl | ⟨after, x, rfl⟩
  · -- The new one is the last: the five before it have locked the user, or the lock is over.
    obtain ⟨rfl, hlast⟩ := List.append_inj' hcs rfl
    obtain rfl : c = next := List.singleton_inj.1 hlast
    rcases h.pending first between (List.suffix_append before _) hcounted with
      (hpast | ⟨lockedUntil, hmem, hlocked⟩) | ⟨hnone, hmany⟩
    · exact hpast.trans hle
    · exact hlocked.trans (h.sound.over hadmits hmem)
    · have hfew := h.sound.attempts (h.sound.unlocked hnone)
      unfold MAX_FAILED_LOGIN_ATTEMPTS at hfew
      omega
  · have hcs' : cs ++ [c] = before ++ first :: between ++ next :: after ++ [x] := by
      rw [hcs]
      simp
    obtain ⟨hinit, -⟩ := List.append_inj' hcs' rfl
    exact h.spaced first next before between after hinit hlength hcounted

/-- A comparison that breaks the row: the password matches, or the attempt is lost. -/
theorem broken (h : Guarded l now cs) {c : Comparison} (hc : ¬ c.Counted) (hsound : l'.Sound)
    (hadmits : l.Admits c.time)
    (hle : now ≤ c.time) (hle' : c.time ≤ now') : Guarded l' now' (cs ++ [c]) where
  sound := hsound
  past c' hc' := by
    rcases List.mem_append.1 hc' with hc' | hc'
    · exact (h.past c' hc').trans (hle.trans hle')
    · rw [List.mem_singleton.1 hc']
      exact hle'
  pending first rest hsuffix hcounted := by
    have hlast : c ∈ first :: rest := by
      rcases List.eq_nil_or_concat (first :: rest) with hnil | ⟨init, x, hinit⟩
      · exact absurd hnil (List.cons_ne_nil _ _)
      · obtain ⟨before, hbefore⟩ := hsuffix
        rw [hinit, List.concat_eq_append, ← List.append_assoc] at hbefore
        obtain ⟨-, hx⟩ := List.append_inj' hbefore rfl
        rw [hinit, ← List.singleton_inj.1 hx]
        simp
    exact absurd (hcounted c hlast) hc
  spaced := h.spaced_snoc hadmits hle

/-- One more wrong password: the counter goes up, or the user is locked. -/
theorem failed (h : Guarded l now cs) {time lockedUntil : Nat} (hadmits : l.Admits time) (hle : now ≤ time)
    (hle' : time ≤ now') (huntil : time + LOCKOUT_DURATION_MS ≤ lockedUntil) :
    Guarded (l.opened.failed lockedUntil) now' (cs ++ [⟨time, false, true⟩]) where
  sound := h.sound.failed lockedUntil
  past c' hc' := by
    rcases List.mem_append.1 hc' with hc' | hc'
    · exact (h.past c' hc').trans (hle.trans hle')
    · rw [List.mem_singleton.1 hc']
      exact hle'
  pending first rest hsuffix hcounted := by
    -- What the attempt finds of the row before it: it is long ago, or counted.
    have hcount : first.time + LOCKOUT_DURATION_MS ≤ time ∨
        first.time ≤ time ∧ rest.length ≤ l.opened.failedLoginAttempts := by
      rcases List.suffix_concat_iff.1 hsuffix with hnil | ⟨row, hrow, hsuffix⟩
      · exact absurd hnil (List.cons_ne_nil _ _)
      · cases row with
        | nil =>
          obtain ⟨rfl, rfl⟩ := List.cons.inj hrow
          exact .inr ⟨le_refl _, Nat.zero_le _⟩
        | cons first' row =>
          rw [List.cons_append] at hrow
          obtain ⟨rfl, hrest⟩ := List.cons.inj hrow
          have hcounted' : ∀ c ∈ first :: row, c.Counted := by
            intro c hc
            refine hcounted c ?_
            rw [hrest, ← List.cons_append]
            exact List.mem_append_left _ hc
          have hpast : first.time ≤ now := h.past first (hsuffix.subset List.mem_cons_self)
          rcases h.pending first row hsuffix hcounted' with (hlong | ⟨until', hmem, hlong⟩) | ⟨hnone, hmany⟩
          · exact .inl (hlong.trans hle)
          · exact .inl (hlong.trans (h.sound.over hadmits hmem))
          · refine .inr ⟨hpast.trans hle, ?_⟩
            rw [Lock.opened, if_neg (h.sound.unlocked hnone), hrest, List.length_append]
            exact hmany
    obtain ⟨-, hnone⟩ := h.sound.opened
    unfold Lock.failed
    split
    · refine .inl (.inr ⟨lockedUntil, rfl, ?_⟩)
      rcases hcount with hlong | ⟨hsoon, -⟩ <;> omega
    · rcases hcount with hlong | ⟨-, hfew⟩
      · exact .inl (.inl (hlong.trans hle'))
      · exact .inr ⟨hnone, Nat.succ_le_succ hfew⟩
  spaced := h.spaced_snoc hadmits hle

end Guarded

/-! ## A login -/

abbrev Call := Event Op.Res Err Store

def anySchedule (services : Services) : System Op.Res Err Store Ans Nat := scheduleOf services fun _ _ _ _ => True

instance (services : Services) (s : Store) (i : PId) (a : Ans) (op : Op) :
    Decidable ((anySchedule services).allow s i a op) := instDecidableTrue

def UserRecord.lockState (r : UserRecord) : Lock := ⟨r.status, r.failedLoginAttempts, r.lockedUntil⟩

def User.lockState (u : User) : Lock := ⟨u.status, u.failedLoginAttempts, u.lockedUntil⟩

def Op.compares : Op → Bool
  | .compare .. => true
  | _ => false

def Op.savesUser : Op → Bool
  | .user (.upsert _) => true
  | _ => false

def Op.loadsUser : Op → Bool
  | .user (.findByEmail _) => true
  | _ => false

/-- It neither loads the user, nor compares, nor saves. -/
def Op.isAside (op : Op) : Bool := !op.compares && !op.savesUser && !op.loadsUser

/-- The row that is loaded. -/
def loaded? (call : Call) : Option UserRecord :=
  match call with
  | ⟨.user (.findByEmail _), .ok found, _, _⟩ => found
  | _ => none

def compared? (saved : Bool) (call : Call) : Option Comparison :=
  match call with
  | ⟨.compare .., .ok matched, before, _⟩ => some ⟨before.clock, matched, saved⟩
  | _ => none

/-- No save of the user is refused. -/
def isSaved (tr : List Call) : Bool := tr.all fun call => !(call.op.savesUser && call.rejected)

/-- The comparisons that a login makes on the user. -/
def comparisonsOf (userId : String) (tr : List Call) : List Comparison :=
  if (tr.findSome? loaded?).any fun r => r.id = userId then tr.filterMap (compared? (isSaved tr)) else []

section
variable {services : Services} {i : PId} {s s' s'' : Store} {tr tr' : List Call}

theorem exec_user_upsert {a : Ans} {data : UserRecord} {x : Unit}
    (h : exec services i a (.user (.upsert data)) s = some (.ok x, s')) :
    s' = { s with users := s.users.put data } := by
  have h := exec_user h
  simp only [execUser] at h
  split at h
  · cases h
  · exact (congrArg Prod.snd h).symm

theorem exec_user_findByEmail {a : Ans} {email : String} {found : Option UserRecord}
    (h : exec services i a (.user (.findByEmail email)) s = some (.ok found, s')) :
    found = s.users.rows.find? (fun r => r.email = email) ∧ s' = s.read i found := by
  cases exec_user h
  exact ⟨rfl, rfl⟩

/-- Only a save changes a user, and no call turns the clock. -/
theorem exec_users {a : Ans} {op : Op} {r : Except Err op.Res} (hop : op.savesUser = false)
    (h : exec services i a op s = some (r, s')) : s'.users = s.users ∧ s'.clock = s.clock := by
  cases a with
  | fail e => exact (exec_fail h).2 ▸ ⟨rfl, rfl⟩
  | ok =>
    cases op with
    | refreshToken q =>
      cases q with
      | upsert data =>
        simp only [exec, execRefreshToken, Option.some.injEq] at h
        split at h <;> cases h <;> exact ⟨rfl, rfl⟩
      | _ =>
        cases h
        exact ⟨rfl, rfl⟩
    | user q =>
      cases q with
      | upsert data => cases hop
      | _ =>
        cases h
        exact ⟨rfl, rfl⟩
    | compare p h' =>
      cases h
      exact ⟨rfl, rfl⟩
    | dateNow =>
      cases h
      exact ⟨rfl, rfl⟩
    | publish e =>
      cases h
      exact ⟨rfl, rfl⟩
    | _ => cases h
  | _ =>
    cases op <;> cases h
    exact ⟨rfl, rfl⟩

theorem users_passes (h : TimePasses s s') : s'.users = s.users ∧ s.clock ≤ s'.clock := by
  obtain ⟨ms, rfl⟩ := h
  exact ⟨rfl, Nat.le_add_right _ _⟩

theorem uncompared (h : ∀ call ∈ tr, call.op.compares = false) (saved : Bool) :
    tr.filterMap (compared? saved) = [] := by
  refine List.filterMap_eq_nil_iff.2 fun call hcall => ?_
  have hop := h call hcall
  unfold compared?
  split
  · cases hop
  · rfl

/-- What happens aside from the lock. -/
structure Aside (s : Store) (tr : List Call) (s' : Store) : Prop where
  users : s'.users = s.users
  clock : s.clock ≤ s'.clock
  calls : ∀ call ∈ tr, call.op.isAside = true

namespace Aside

theorem of_calls {ε α : Type} {p : Prog Op.Res Err ε α} {x : Except ε α}
    (hp : p.Calls fun op => op.isAside = true)
    (h : Run (anySchedule services) TimePasses i p s tr x s') : Aside s tr s' := by
  have hsaves : ∀ op : Op, op.isAside = true → op.savesUser = false := by
    intro op hop
    simp only [Op.isAside, Bool.and_eq_true, Bool.not_eq_true'] at hop
    exact hop.1.2
  have hkept : s'.users = s.users ∧ s.clock ≤ s'.clock :=
    Run.keeps (R := fun s s' : Store => s'.users = s.users ∧ s.clock ≤ s'.clock) h hp
      (fun s => ⟨rfl, le_refl _⟩)
      (fun h h' => ⟨h'.1.trans h.1, h.2.trans h'.2⟩) users_passes fun hop hx => by
        obtain ⟨husers, hclock⟩ := exec_users (hsaves _ hop) hx
        exact ⟨husers, hclock.ge⟩
  exact ⟨hkept.1, hkept.2, h.calls hp⟩

theorem isSaved (h : Aside s tr s') : isSaved tr = true := by
  refine List.all_eq_true.2 fun call hcall => ?_
  have hop := h.calls call hcall
  simp only [Op.isAside, Bool.and_eq_true, Bool.not_eq_true'] at hop
  rw [hop.1.2]
  rfl

theorem not_compares (h : Aside s tr s') : ∀ call ∈ tr, call.op.compares = false := by
  intro call hcall
  have hop := h.calls call hcall
  simp only [Op.isAside, Bool.and_eq_true, Bool.not_eq_true'] at hop
  exact hop.1.1

end Aside

/-- A look at the clock. -/
theorem clock_bind {α : Type} {f : Nat → Handler α} {x : Except Err α}
    (h : Run (anySchedule services) TimePasses i (Prog.await Op.dateNow >>= f) s tr x s') :
    ∃ s1 rest, TimePasses s s1 ∧ tr = ⟨.dateNow, .ok s1.clock, s1, s1⟩ :: rest ∧
      Run (anySchedule services) TimePasses i (f s1.clock) s1 rest x s' := by
  obtain ⟨s1, a, r, s2, rest, hs, -, hx, rfl, ⟨now, rfl, hrest⟩ | ⟨e, rfl, -⟩⟩ := h.await_bind
  · obtain ⟨rfl, rfl⟩ := exec_dateNow hx
    exact ⟨_, rest, hs, rfl, hrest⟩
  · cases a <;> cases hx

/-- An attempt that is not turned away: what it holds is the user, unlocked. -/
theorem assertCanAttemptLogin_run {u u' : User}
    (h : Run (anySchedule services) TimePasses i u.assertCanAttemptLogin s tr (.ok u') s') :
    u.lockState.Admits s'.clock ∧ u'.lockState = u.lockState.opened ∧ u'.id = u.id := by
  unfold User.assertCanAttemptLogin at h
  split at h
  · rename_i hlocked
    rcases h.bind with ⟨_, s1, tr1, tr2, h1, h2, -⟩ | ⟨e, he, -⟩
    swap
    · cases he
    obtain ⟨s2, rest, hs, -, -, he, rfl⟩ := clock_bind h2
    cases he
    refine ⟨.inl ⟨hlocked, fun lockedUntil hmem => ?_⟩, ?_, rfl⟩
    · have hmem : u.lockedUntil = some lockedUntil := hmem
      unfold User.assertLockExpired at h1
      rw [hmem] at h1
      obtain ⟨s3, rest3, -, -, h3⟩ := clock_bind h1
      split at h3
      · cases h3.2.1
      · rename_i hover
        obtain ⟨-, -, rfl⟩ := h3
        exact (not_lt.1 hover).trans (users_passes hs).2
    · simp only [Lock.opened, User.lockState, hlocked, if_true, User.unlock]
  · rename_i hopen
    split at h
    · cases h.2.1
    · rename_i hstatus
      obtain ⟨-, he, rfl⟩ := h
      cases he
      refine ⟨.inr ?_, ?_, rfl⟩
      · rw [not_and_or, not_not, not_not] at hstatus
        exact hstatus
      · exact (if_neg hopen).symm

/-- What is left of an attempt after its comparison: the user is saved, with a row that meets `saves`, or is not. -/
structure Ends (saves : UserRecord → Prop) (s : Store) (tr : List Call) (s' : Store) : Prop where
  clock : s.clock ≤ s'.clock
  calls : ∀ call ∈ tr, call.op.compares = false
  users : isSaved tr = false ∧ s'.users = s.users ∨ isSaved tr = true ∧ ∃ r', saves r' ∧
    s'.users = s.users.put r'

theorem Ends.of_save {α : Type} {saves : UserRecord → Prop} {u : User} {f : Unit → Handler α} {x : Except Err α}
    (hbefore : Aside s tr s') (hu : saves (UserMapper.toPersistence u)) (hf : (f ()).Calls fun op => op.isAside = true)
    (h : Run (anySchedule services) TimePasses i (PrismaUserRepository.save u >>= f) s' tr' x s'') :
    Ends saves s (tr ++ tr') s'' := by
  obtain ⟨s1, a, r, s2, rest, hs, -, hx, rfl, hend⟩ := h.await_bind
  obtain ⟨husers, hclock⟩ := users_passes hs
  rcases hend with ⟨_, rfl, hrest⟩ | ⟨e, rfl, rfl, -, rfl⟩
  · have hupsert := exec_user_upsert hx
    have hafter := Aside.of_calls hf hrest
    have hclock2 : s1.clock ≤ s''.clock := by
      rw [hupsert] at hafter
      exact hafter.clock
    have hsaved : isSaved (tr ++ ⟨.user (.upsert (UserMapper.toPersistence u)), .ok (), s1, s2⟩ :: rest) =
      true := by
      rw [isSaved, List.all_append, ← isSaved, hbefore.isSaved, List.all_cons, ← isSaved, hafter.isSaved]
      rfl
    refine ⟨hbefore.clock.trans (hclock.trans hclock2), fun call hcall => ?_, .inr ⟨hsaved, _, hu, ?_⟩⟩
    · rcases List.mem_append.1 hcall with hcall | hcall
      · exact hbefore.not_compares call hcall
      · rcases List.mem_cons.1 hcall with rfl | hcall
        · rfl
        · exact hafter.not_compares call hcall
    · rw [hafter.users, hupsert]
      show s1.users.put _ = _
      rw [husers, hbefore.users]
  · obtain rfl := exec_error hx
    refine ⟨hbefore.clock.trans hclock, fun call hcall => ?_, .inl ⟨?_, husers.trans hbefore.users⟩⟩
    · rcases List.mem_append.1 hcall with hcall | hcall
      · exact hbefore.not_compares call hcall
      · rw [List.mem_singleton.1 hcall]
        rfl
    · rw [isSaved, List.all_append, ← isSaved, hbefore.isSaved]
      rfl

/-- A wrong password is counted, and may lock the user. -/
theorem refuse_ends {command : LoginCommand} {u : User} {x : Except Err AuthResponseDto}
    (h : Run (anySchedule services) TimePasses i (LoginHandler.refuse command u) s tr x s') :
    Ends (fun r' => r'.id = u.id ∧ ∃ lockedUntil, s.clock + LOCKOUT_DURATION_MS ≤ lockedUntil ∧
      r'.lockState = u.lockState.failed lockedUntil) s tr s' := by
  have hpublish : ∀ user : User, (do publishAll user.domainEvents; throw invalidCredentials :
    Handler AuthResponseDto).Calls
      fun op => op.isAside = true := fun user => .bind (publishAll_calls (fun _ => rfl) _) fun _ => trivial
  unfold LoginHandler.refuse at h
  rcases h.bind with ⟨user, s1, tr1, tr2, h1, h2, rfl⟩ | ⟨e, rfl, h1⟩
  · have haside := Aside.of_calls (User.recordFailedLogin_calls (T := fun op => op.isAside = true) rfl u _) h1
    refine Ends.of_save haside ?_ (hpublish user) h2
    unfold User.recordFailedLogin at h1
    obtain ⟨s2, rest, hs, -, h3⟩ := clock_bind h1
    obtain ⟨-, hclock⟩ := users_passes hs
    change Run _ _ _ (if _ ≥ _ then _ else _) _ _ _ _ at h3
    split at h3
    · rename_i hmany
      obtain ⟨s3, rest3, hs3, -, -, he, rfl⟩ := clock_bind h3
      cases he
      refine ⟨rfl, s1.clock + LOCKOUT_DURATION_MS, Nat.add_le_add_right (hclock.trans (users_passes hs3).2) _, ?_⟩
      exact (if_pos hmany).symm
    · rename_i hfew
      obtain ⟨-, he, rfl⟩ := h3
      cases he
      exact ⟨rfl, _, le_refl _, (if_neg hfew).symm⟩
  · unfold User.recordFailedLogin at h1
    obtain ⟨s2, rest, -, -, h3⟩ := clock_bind h1
    change Run _ _ _ (if _ ≥ _ then _ else _) _ _ _ _ at h3
    split at h3
    · obtain ⟨s3, rest3, -, -, -, he, -⟩ := clock_bind h3
      cases he
    · cases h3.2.1

theorem RefreshToken.issue_aside (userId tokenHash : String) (ipAddress userAgent : Option String) :
    (RefreshToken.issue userId tokenHash none ipAddress userAgent).Calls fun op => op.isAside = true := by
  unfold RefreshToken.issue
  exact .bind (.await rfl) fun _ => .bind (.await rfl) fun _ => .bind (.await rfl) fun _ =>
    .bind (.await rfl) fun _ => trivial

/-- The right one clears the lock, whatever becomes of the session. -/
theorem accept_ends {command : LoginCommand} {u : User} {x : Except Err AuthResponseDto}
    (h : Run (anySchedule services) TimePasses i (LoginHandler.accept services command u) s tr x s') :
    Ends (fun r' => r'.id = u.id ∧ r'.lockState = u.lockState.succeeded) s tr s' := by
  unfold LoginHandler.accept at h
  obtain ⟨s1, rest1, hs1, rfl, h1⟩ := clock_bind h
  obtain ⟨s2, rest2, hs2, rfl, h2⟩ := clock_bind h1
  have haside : Aside s [⟨.dateNow, .ok s1.clock, s1, s1⟩, ⟨.dateNow, .ok s2.clock, s2, s2⟩] s2 := by
    obtain ⟨husers1, hclock1⟩ := users_passes hs1
    obtain ⟨husers2, hclock2⟩ := users_passes hs2
    refine ⟨husers2.trans husers1, hclock1.trans hclock2, fun call hcall => ?_⟩
    simp only [List.mem_cons, List.not_mem_nil, or_false] at hcall
    rcases hcall with rfl | rfl <;> rfl
  refine Ends.of_save (u := u.recordSuccessfulLogin s1.clock s2.clock command.ipAddress command.userAgent) haside
    ⟨rfl, rfl⟩ ?_ h2
  refine .bind (.await rfl) fun _ => .bind (.await rfl) fun _ => .bind (RefreshToken.issue_aside _ _ _ _) fun _ => ?_
  exact .bind (.await rfl) fun _ => .bind (publishAll_calls (fun _ => rfl) _) fun _ => trivial

theorem toDomain_lockState {r : UserRecord} {u : User} (h : UserMapper.toDomain services r = .ok u) :
    u.lockState = r.lockState := by
  obtain ⟨email, phone, hash, rfl⟩ := UserMapper.toDomain_ok h
  rfl

/-- The user of an email, as its row says. -/
theorem findByEmail_run {email : Email} {x : Except Err (Option User)}
    (h : Run (anySchedule services) TimePasses i (PrismaUserRepository.findByEmail services email) s tr x s') :
    s'.users = s.users ∧ s.clock ≤ s'.clock ∧ ∃ call, tr = [call] ∧ call.op.compares = false ∧
      call.op.savesUser = false ∧
      (loaded? call = none ∧ (∀ u, x ≠ .ok (some u)) ∨
        ∃ r, loaded? call = some r ∧ s.users.find? r.id = some r ∧
          ((∃ e, x = .error e) ∨ ∃ u, x = .ok (some u) ∧ u.lockState = r.lockState ∧ u.id = r.id)) := by
  unfold PrismaUserRepository.findByEmail at h
  obtain ⟨s1, a, answer, s2, rest, hs, -, hx, rfl, ⟨found, rfl, hend⟩ | ⟨e, rfl, rfl, rfl, rfl⟩⟩ :=
    h.await_bind
  · obtain ⟨husers, hclock⟩ := users_passes hs
    obtain ⟨hfound, hread⟩ := exec_user_findByEmail hx
    have hkept : s2.users = s.users ∧ s.clock ≤ s2.clock := by
      rw [hread]
      exact ⟨husers, hclock⟩
    cases found with
    | none =>
      obtain ⟨rfl, rfl, rfl⟩ := hend
      exact ⟨hkept.1, hkept.2, _, rfl, rfl, rfl, .inl ⟨rfl, fun u he => by cases he⟩⟩
    | some r =>
      have hstored : s.users.find? r.id = some r := by
        rw [← husers]
        exact Table.find?_of_mem (List.mem_of_find?_eq_some hfound.symm)
      rcases hend.ofExcept_bind with ⟨u, hu, rfl, rfl, rfl⟩ | ⟨e, -, rfl, rfl, rfl⟩
      · exact ⟨hkept.1, hkept.2, _, rfl, rfl, rfl,
          .inr ⟨r, rfl, hstored, .inr ⟨u, rfl, toDomain_lockState hu, UserMapper.toDomain_id hu⟩⟩⟩
      · exact ⟨hkept.1, hkept.2, _, rfl, rfl, rfl, .inr ⟨r, rfl, hstored, .inl ⟨e, rfl⟩⟩⟩
  · obtain rfl := exec_error hx
    obtain ⟨husers, hclock⟩ := users_passes hs
    exact ⟨husers, hclock, _, rfl, rfl, rfl, .inl ⟨rfl, fun u he => by cases he⟩⟩

/-- Its one comparison is made at `time`. -/
structure Compares (r : UserRecord) (s : Store) (tr : List Call) (s' : Store) (time : Nat) : Prop where
  made : ∃ call ∈ tr, call.op.compares = true
  once : ∀ call ∈ tr, call.op.compares = true → call.before.clock = time ∧ call.before.users = s.users
  started : s.clock ≤ time
  ended : time ≤ s'.clock
  admits : r.lockState.Admits time

/-- A login of the user with row `r`: turned away, or a comparison that is lost, counted, or rewarded. -/
inductive Tried (r : UserRecord) (s : Store) (tr : List Call) (s' : Store) : Prop
  | turnedAway (hcalls : ∀ call ∈ tr, call.op.compares = false) (husers : s'.users = s.users)
  | lost (time : Nat) (h : Compares r s tr s' time)
      (hcomparisons : comparisonsOf r.id tr = [] ∨ ∃ matched, comparisonsOf r.id tr = [⟨time, matched, false⟩])
      (husers : s'.users = s.users)
  | failed (time lockedUntil : Nat) (r' : UserRecord) (h : Compares r s tr s' time)
      (hcomparisons : comparisonsOf r.id tr = [⟨time, false, true⟩])
      (huntil : time + LOCKOUT_DURATION_MS ≤ lockedUntil) (hid : r'.id = r.id)
      (hlock : r'.lockState = r.lockState.opened.failed lockedUntil) (husers : s'.users = s.users.put r')
  | succeeded (time : Nat) (r' : UserRecord) (h : Compares r s tr s' time)
      (hcomparisons : comparisonsOf r.id tr = [⟨time, true, true⟩]) (hid : r'.id = r.id)
      (hlock : r'.lockState = r.lockState.opened.succeeded) (husers : s'.users = s.users.put r')

/-- **A login moves the lock as the automaton does.** -/
theorem login_cases {command : LoginCommand} {x : Except Err AuthResponseDto}
    (h : Run (anySchedule services) TimePasses i (LoginHandler.execute services command) s tr x s') :
    s.clock ≤ s'.clock ∧ (tr.findSome? loaded? = none ∧ s'.users = s.users ∨
      ∃ r, tr.findSome? loaded? = some r ∧ s.users.find? r.id = some r ∧ Tried r s tr s') := by
  unfold LoginHandler.execute at h
  rcases h.ofExcept_bind with ⟨email, -, h⟩ | ⟨e, -, rfl, rfl, rfl⟩
  swap
  · exact ⟨le_refl _, .inl ⟨rfl, rfl⟩⟩
  rcases h.bind with ⟨user, s1, tr1, tr2, h1, h2, rfl⟩ | ⟨e, rfl, h1⟩
  swap
  · obtain ⟨husers, hclock, call, rfl, hcompares, -, ⟨hnone, -⟩ | ⟨r, hr, hstored, -⟩⟩ :=
      findByEmail_run h1
    · exact ⟨hclock, .inl ⟨by rw [List.findSome?_singleton, hnone], husers⟩⟩
    · refine ⟨hclock, .inr ⟨r, by rw [List.findSome?_singleton, hr], hstored, .turnedAway ?_ husers⟩⟩
      exact fun call' hcall' => by rw [List.mem_singleton.1 hcall', hcompares]
  obtain ⟨husers, hclock, call, rfl, hcompares, hsaves, hload⟩ := findByEmail_run h1
  cases user with
  | none =>
    -- Nobody's: the comparison is a dummy.
    have hnone : loaded? call = none := by
      rcases hload with ⟨hnone, -⟩ | ⟨r, -, -, ⟨e, he⟩ | ⟨u, he, -⟩⟩
      · exact hnone
      · cases he
      · cases he
    obtain ⟨s2, a, answer, s3, rest, hs, -, hx, rfl, hend⟩ := h2.await_bind
    obtain ⟨husers2, hclock2⟩ := users_passes hs
    obtain ⟨husers3, hclock3⟩ := exec_users rfl hx
    have hrest : rest = [] ∧ s' = s3 := by
      rcases hend with ⟨_, -, rfl, -, rfl⟩ | ⟨_, -, rfl, -, rfl⟩ <;> exact ⟨rfl, rfl⟩
    obtain ⟨rfl, rfl⟩ := hrest
    refine ⟨hclock.trans (hclock2.trans hclock3.ge), .inl ⟨?_, husers3.trans (husers2.trans husers)⟩⟩
    rw [List.singleton_append, List.findSome?_cons_of_isNone (by rw [hnone]; rfl), List.findSome?_singleton]
    rfl
  | some user =>
    obtain ⟨r, hr, hstored, hlock, hid⟩ : ∃ r, loaded? call = some r ∧ s.users.find? r.id = some r ∧
        user.lockState = r.lockState ∧ user.id = r.id := by
      rcases hload with ⟨-, hne⟩ | ⟨r, hr, hstored, ⟨e, he⟩ | ⟨u, he, hlock, hid⟩⟩
      · exact absurd rfl (hne user)
      · cases he
      · cases he
        exact ⟨r, hr, hstored, hlock, hid⟩
    have hloaded : ∀ rest : List Call, ([call] ++ rest).findSome? loaded? = some r := by
      intro rest
      rw [List.findSome?_append, List.findSome?_singleton, hr]
      rfl
    have hassert := User.assertCanAttemptLogin_calls (T := fun op => op.isAside = true) rfl user
    rcases h2.bind with ⟨user', s2, tr3, tr4, h3, h4, rfl⟩ | ⟨e, rfl, h3⟩
    swap
    · have haside := Aside.of_calls hassert h3
      refine ⟨hclock.trans haside.clock, .inr ⟨r, hloaded _, hstored, .turnedAway (fun call' hcall' => ?_)
        (haside.users.trans husers)⟩⟩
      rcases List.mem_append.1 hcall' with hcall' | hcall'
      · rw [List.mem_singleton.1 hcall', hcompares]
      · exact haside.not_compares call' hcall'
    have haside := Aside.of_calls hassert h3
    obtain ⟨hadmits, hopened, hid'⟩ := assertCanAttemptLogin_run h3
    rw [hlock] at hadmits hopened
    obtain ⟨s3, a, answer, s4, rest, hs, -, hx, rfl, hend⟩ := h4.await_bind
    obtain ⟨husers3, hclock3⟩ := users_passes hs
    obtain ⟨husers4, hclock4⟩ := exec_users rfl hx
    have hbefore : s3.users = s.users := husers3.trans (haside.users.trans husers)
    have hstarted : s.clock ≤ s3.clock := hclock.trans (haside.clock.trans hclock3)
    have hadmits3 : r.lockState.Admits s3.clock := by
      rcases hadmits with ⟨hlocked, hover⟩ | hopen
      · exact .inl ⟨hlocked, fun lockedUntil hmem => (hover lockedUntil hmem).trans hclock3⟩
      · exact .inr hopen
    have hcomparesAt : ∀ {rest : List Call} {s' : Store} {answer}, s3.clock ≤ s'.clock →
        (∀ call ∈ rest, call.op.compares = false) → Compares r s ([call] ++ (tr3 ++ ⟨.compare command.password
          user'.passwordHash.value, answer, s3, s4⟩ :: rest)) s' s3.clock := by
      intro rest s' answer hended hrest
      refine ⟨⟨⟨_, answer, s3, s4⟩, by simp, rfl⟩, fun call' hcall' hop => ?_, hstarted, hended, hadmits3⟩
      rcases List.mem_append.1 hcall' with hcall' | hcall'
      · rw [List.mem_singleton.1 hcall', hcompares] at hop
        cases hop
      rcases List.mem_append.1 hcall' with hcall' | hcall'
      · rw [haside.not_compares call' hcall'] at hop
        cases hop
      rcases List.mem_cons.1 hcall' with rfl | hcall'
      · exact ⟨rfl, hbefore⟩
      · rw [hrest call' hcall'] at hop
        cases hop
    have hsavedOf : ∀ {rest : List Call} {answer}, isSaved ([call] ++ (tr3 ++ ⟨.compare command.password
        user'.passwordHash.value, answer, s3, s4⟩ :: rest)) = isSaved rest := by
      intro rest answer
      have hfirst : isSaved [call] = true := by simp [isSaved, hsaves]
      have hthird := haside.isSaved
      unfold isSaved at hfirst hthird ⊢
      rw [List.all_append, List.all_append, hfirst, hthird, List.all_cons]
      rfl
    have hcomparisons : ∀ {rest : List Call} (answer), (∀ call ∈ rest, call.op.compares = false) →
        comparisonsOf r.id
          ([call] ++ (tr3 ++ ⟨.compare command.password user'.passwordHash.value, answer, s3, s4⟩ :: rest)) =
          (compared? (isSaved rest) ⟨.compare command.password user'.passwordHash.value, answer, s3,
            s4⟩).toList := by
      intro rest answer hrest
      unfold comparisonsOf
      rw [hloaded, hsavedOf, Option.any_some, if_pos (decide_eq_true rfl), List.filterMap_append, List.filterMap_append,
        uncompared (fun call' hcall' => by rw [List.mem_singleton.1 hcall', hcompares]), uncompared haside.not_compares,
        List.filterMap_cons, uncompared hrest]
      cases compared? (isSaved rest) ⟨.compare command.password user'.passwordHash.value, answer, s3, s4⟩ <;> rfl
    rcases hend with ⟨matched, rfl, hend⟩ | ⟨e, rfl, rfl, rfl, rfl⟩
    swap
    · refine ⟨hstarted.trans hclock4.ge, .inr ⟨r, hloaded _, hstored, .lost s3.clock
        (hcomparesAt hclock4.ge fun call hcall => (nomatch hcall))
          (.inl (hcomparisons _ fun call hcall => (nomatch hcall)))
        (husers4.trans hbefore)⟩⟩
    cases matched with
    | true =>
      simp only [if_true] at hend
      have hends := accept_ends hend
      have hended := hclock4.ge.trans hends.clock
      refine ⟨hstarted.trans hended, .inr ⟨r, hloaded _, hstored, ?_⟩⟩
      have hcs := hcomparisons (.ok true) hends.calls
      rcases hends.users with ⟨hlost, hsame⟩ | ⟨hkept, r', ⟨hr', hlock'⟩, hput⟩
      · rw [hlost] at hcs
        exact .lost s3.clock (hcomparesAt hended hends.calls) (.inr ⟨true, hcs⟩)
          (hsame.trans (husers4.trans hbefore))
      · rw [hkept] at hcs
        rw [husers4, hbefore] at hput
        exact .succeeded s3.clock r' (hcomparesAt hended hends.calls) hcs (hr'.trans (hid'.trans hid))
          (hlock'.trans (congrArg Lock.succeeded hopened)) hput
    | false =>
      simp only [Bool.false_eq_true, if_false] at hend
      have hends := refuse_ends hend
      have hended := hclock4.ge.trans hends.clock
      refine ⟨hstarted.trans hended, .inr ⟨r, hloaded _, hstored, ?_⟩⟩
      have hcs := hcomparisons (.ok false) hends.calls
      rcases hends.users with ⟨hlost, hsame⟩ | ⟨hkept, r', ⟨hr', lockedUntil, huntil, hlock'⟩, hput⟩
      · rw [hlost] at hcs
        exact .lost s3.clock (hcomparesAt hended hends.calls) (.inr ⟨false, hcs⟩)
          (hsame.trans (husers4.trans hbefore))
      · rw [hkept] at hcs
        rw [husers4, hbefore] at hput
        rw [hclock4] at huntil
        exact .failed s3.clock lockedUntil r' (hcomparesAt hended hends.calls) hcs huntil (hr'.trans (hid'.trans hid))
          (hlock'.trans (congrArg (Lock.failed · lockedUntil) hopened)) hput

end

/-! ## One login after another -/

/-- Logins, of any user, that do not overlap; each is the calls that it makes. -/
inductive Logins (services : Services) (s : Store) : List (List Call) → Store → Prop
  | start : Logins services s [] s
  | wait {history s1 s2} : Logins services s history s1 → TimePasses s1 s2 → Logins services s history s2
  | login {history s1 s2 tr x} (i : PId) (command : LoginCommand) : Logins services s history s1 →
      Run (anySchedule services) TimePasses i (LoginHandler.execute services command) s1 tr x s2 →
      Logins services s (history ++ [tr]) s2

/-- A login of the user. -/
def IsOf (userId : String) (tr : List Call) : Prop := ∃ r, tr.findSome? loaded? = some r ∧ r.id = userId

/-- ... that has got past a lock. -/
def PassesLock (userId : String) (tr : List Call) : Prop :=
  ∃ r, tr.findSome? loaded? = some r ∧ r.id = userId ∧ r.status = .LOCKED ∧
    ∃ call ∈ tr, call.op.compares = true

section
variable {services : Services} {i : PId} {userId : String} {s s' : Store} {tr : List Call} {history : List (List Call)}
  {r r0 : UserRecord} {command : LoginCommand} {x : Except Err AuthResponseDto}

theorem comparisonsOf_other (h : ¬ IsOf userId tr) : comparisonsOf userId tr = [] := by
  unfold comparisonsOf
  cases hr : tr.findSome? loaded? with
  | none => rfl
  | some r => exact if_neg fun hid => h ⟨r, hr, of_decide_eq_true hid⟩

/-- One login, as the user sees it: somebody else's, or his own. -/
theorem login_of_user (hr : s.users.find? userId = some r)
    (h : Run (anySchedule services) TimePasses i (LoginHandler.execute services command) s tr x s') :
    s.clock ≤ s'.clock ∧ (¬ IsOf userId tr ∧ s'.users.find? userId = some r ∨
      (tr.findSome? loaded? = some r ∧ r.id = userId) ∧ Tried r s tr s') := by
  obtain ⟨hclock, ⟨hnone, husers⟩ | ⟨r1, hr1, hstored, htried⟩⟩ := login_cases h
  · refine ⟨hclock, .inl ⟨fun ⟨r1, hr1, _⟩ => ?_, husers ▸ hr⟩⟩
    rw [hnone] at hr1
    cases hr1
  · refine ⟨hclock, ?_⟩
    by_cases hid : r1.id = userId
    · subst hid
      cases hr.symm.trans hstored
      exact .inr ⟨⟨hr1, rfl⟩, htried⟩
    · refine .inl ⟨fun ⟨r2, hr2, hid2⟩ => ?_, ?_⟩
      · cases hr1.symm.trans hr2
        exact hid hid2
      · have hput : ∀ {r' : UserRecord}, r'.id = r1.id → s'.users = s.users.put r' →
          s'.users.find? userId = some r := by
          intro r' hid' husers
          rw [husers, Table.find?_put_ne _ (hid' ▸ hid)]
          exact hr
        cases htried with
        | turnedAway hcalls husers => exact husers ▸ hr
        | lost time h hcomparisons husers => exact husers ▸ hr
        | failed time lockedUntil r' h hcomparisons huntil hid' hlock husers => exact hput hid' husers
        | succeeded time r' h hcomparisons hid' hlock husers => exact hput hid' husers

/-- Of the user's own row, what a login makes. -/
theorem find?_own {r' : UserRecord} (hid : r.id = userId) (hid' : r'.id = r.id) (husers : s'.users = s.users.put r') :
    s'.users.find? userId = some r' := by
  rw [husers, ← hid, ← hid']
  exact Table.find?_put_self _ _

/-- The user's lock, and the comparisons so far. -/
def Watched (userId : String) (cs : List Comparison) (s : Store) : Prop :=
  ∃ r, s.users.find? userId = some r ∧ Guarded r.lockState s.clock cs

theorem Watched.login {cs : List Comparison} (hw : Watched userId cs s)
    (h : Run (anySchedule services) TimePasses i (LoginHandler.execute services command) s tr x s') :
    Watched userId (cs ++ comparisonsOf userId tr) s' := by
  obtain ⟨r, hr, hguarded⟩ := hw
  obtain ⟨hclock, ⟨hother, hr'⟩ | ⟨⟨-, hid⟩, htried⟩⟩ := login_of_user hr h
  · rw [comparisonsOf_other hother, List.append_nil]
    exact ⟨r, hr', hguarded.wait hclock⟩
  · subst hid
    cases htried with
    | turnedAway hcalls husers =>
      have hnone : comparisonsOf r.id tr = [] := by
        unfold comparisonsOf
        split
        · exact uncompared hcalls _
        · rfl
      rw [hnone, List.append_nil]
      exact ⟨r, husers ▸ hr, hguarded.wait hclock⟩
    | lost time hat hcomparisons husers =>
      rcases hcomparisons with hnone | ⟨matched, hone⟩
      · rw [hnone, List.append_nil]
        exact ⟨r, husers ▸ hr, hguarded.wait hclock⟩
      · rw [hone]
        exact ⟨r, husers ▸ hr, hguarded.broken (fun hcounted => Bool.false_ne_true hcounted.2)
          hguarded.sound hat.admits
          hat.started hat.ended⟩
    | failed time lockedUntil r' hat hcomparisons huntil hid hlock husers =>
      rw [hcomparisons]
      refine ⟨r', find?_own rfl hid husers, ?_⟩
      rw [hlock]
      exact hguarded.failed hat.admits hat.started hat.ended huntil
    | succeeded time r' hat hcomparisons hid hlock husers =>
      rw [hcomparisons]
      refine ⟨r', find?_own rfl hid husers, ?_⟩
      rw [hlock]
      exact hguarded.broken (fun hcounted => Bool.false_ne_true hcounted.1.symm) Lock.succeeded_sound hat.admits
        hat.started hat.ended

theorem Watched.logins (hr : s.users.find? userId = some r) (hsound : r.lockState.Sound)
    (h : Logins services s history s') : Watched userId (history.flatMap (comparisonsOf userId)) s' := by
  induction h with
  | start => exact ⟨r, hr, .start hsound⟩
  | wait _ hs ih =>
    obtain ⟨r', hr', hguarded⟩ := ih
    obtain ⟨husers, hclock⟩ := users_passes hs
    exact ⟨r', husers ▸ hr', hguarded.wait hclock⟩
  | login i command _ hrun ih =>
    rw [List.flatMap_append, List.flatMap_singleton]
    exact ih.login hrun

/-- A comparison finds no lock, or one that is over. -/
theorem unlocked_at_comparison {cs : List Comparison} (hw : Watched userId cs s)
    (h : Run (anySchedule services) TimePasses i (LoginHandler.execute services command) s tr x s')
    (hof : IsOf userId tr) :
    ∀ call ∈ tr, call.op.compares = true → ∀ r, call.before.users.find? userId = some r →
      ∀ lockedUntil ∈ r.lockedUntil, lockedUntil ≤ call.before.clock := by
  obtain ⟨r, hr, hguarded⟩ := hw
  obtain ⟨-, ⟨hother, -⟩ | ⟨⟨-, hid⟩, htried⟩⟩ := login_of_user hr h
  · exact absurd hof hother
  · have hover : ∀ {time}, Compares r s tr s' time → ∀ call ∈ tr, call.op.compares = true →
        ∀ r, call.before.users.find? userId = some r →
          ∀ lockedUntil ∈ r.lockedUntil, lockedUntil ≤ call.before.clock := by
      intro time hat call hcall hop r1 hr1 lockedUntil hmem
      obtain ⟨rfl, hbefore⟩ := hat.once call hcall hop
      rw [hbefore] at hr1
      cases hr.symm.trans hr1
      exact hguarded.sound.over hat.admits hmem
    cases htried with
    | turnedAway hcalls husers =>
      exact fun call hcall hop => absurd hop (by rw [hcalls call hcall]; exact Bool.false_ne_true)
    | lost time hat hcomparisons husers => exact hover hat
    | failed time lockedUntil r' hat hcomparisons huntil hid' hlock husers => exact hover hat
    | succeeded time r' hat hcomparisons hid' hlock husers => exact hover hat

end

/-- **Guesses are spaced out by the lock.** No password is compared while the user is locked; and after five wrong ones
in a row, each of them counted, the next comes a lock's duration after the first, counted or not. -/
theorem guesses_are_spaced {services : Services} {userId : String} {s s' : Store} {r : UserRecord}
    {history : List (List Call)} (hr : s.users.find? userId = some r) (hsound : r.lockState.Sound)
    (h : Logins services s history s') :
    (∀ tr ∈ history, IsOf userId tr → ∀ call ∈ tr, call.op.compares = true →
      ∀ r, call.before.users.find? userId = some r →
        ∀ lockedUntil ∈ r.lockedUntil, lockedUntil ≤ call.before.clock) ∧
      Spaced (history.flatMap (comparisonsOf userId)) := by
  refine ⟨?_, ?_⟩
  · induction h with
    | start => exact fun tr htr => nomatch htr
    | wait _ _ ih => exact ih
    | login i command hbefore hrun ih =>
      intro tr' htr'
      rcases List.mem_append.1 htr' with htr' | htr'
      · exact ih tr' htr'
      · rw [List.mem_singleton.1 htr']
        exact unlocked_at_comparison (Watched.logins hr hsound hbefore) hrun
  · obtain ⟨r', -, hguarded⟩ := Watched.logins hr hsound h
    exact hguarded.spaced

/-! ### A day at the door -/

/-- Waiting, or a login with these answers. -/
inductive Move where
  | wait (ms : Nat)
  | login (command : LoginCommand) (answers : List Ans)

def playLogins (services : Services) : List Move → Store → Option (List (List Call) × Store)
  | [], s => some ([], s)
  | .wait ms :: moves, s => playLogins services moves (tick ms s)
  | .login command answers :: moves, s =>
    (playRun (anySchedule services) 0 answers (LoginHandler.execute services command) s).bind fun r =>
      (playLogins services moves r.2.2).map fun rest => (r.1 :: rest.1, rest.2)

theorem Logins.of_play {services : Services} {s0 : Store} : ∀ {moves : List Move} {history rest : List (List Call)}
    {s s' : Store}, Logins services s0 history s → playLogins services moves s = some (rest, s') →
    Logins services s0 (history ++ rest) s'
  | [], history, rest, s, s', hlogins, h => by
    obtain ⟨rfl, rfl⟩ := Prod.mk.inj (Option.some.inj h)
    rw [List.append_nil]
    exact hlogins
  | .wait ms :: moves, history, rest, s, s', hlogins, h => Logins.of_play (hlogins.wait ⟨ms, rfl⟩) h
  | .login command answers :: moves, history, rest, s, s', hlogins, h => by
    obtain ⟨⟨tr, x, s1⟩, hplay, h⟩ := Option.bind_eq_some_iff.1 h
    obtain ⟨⟨rest', s2⟩, hrest, h⟩ := Option.map_eq_some_iff.1 h
    obtain ⟨rfl, rfl⟩ := Prod.mk.inj h
    have hrun : Run (anySchedule services) TimePasses 0 (LoginHandler.execute services command) s tr x s1 :=
      run_of_play (fun s => ⟨0, rfl⟩) hplay
    have hall := Logins.of_play (hlogins.login 0 command hrun) hrest
    rw [List.append_assoc] at hall
    exact hall

/-- What is seen at the end. -/
theorem Logins.seen (services : Services) (s : Store) (moves : List Move) {Q : List (List Call) → Store → Prop}
    [∀ history s', Decidable (Q history s')] (h : (playLogins services moves s).any fun r => Q r.1 r.2) :
    ∃ history s', Logins services s history s' ∧ Q history s' := by
  rw [Option.any_eq_true_iff_get] at h
  obtain ⟨hplay, hQ⟩ := h
  exact ⟨_, _, Logins.of_play .start (Option.some_get hplay).symm, of_decide_eq_true hQ⟩

/-- A wrong password; the last answers are to the save, and to what comes after it. -/
def guess (answers : List Ans) : Move := .login ⟨"ada@kudi.ng", "letmein", none, none⟩ ([.ok, .ok, .ok] ++ answers)

/-- Four wrong passwords and a fifth that locks; a quarter of an hour; and a sixth. -/
def sixGuesses : List Move :=
  List.replicate 4 (guess [.ok, .ok]) ++
    [guess [.ok, .ok, .ok, .ok], .wait LOCKOUT_DURATION_MS, guess [.ok, .ok, .ok, .ok]]

theorem guesses_are_spaced_sample : ∃ history s', Logins sampleServices sampleStore history s' ∧
    history.flatMap (comparisonsOf "user") = List.replicate 5 ⟨0, false, true⟩ ++
    [⟨LOCKOUT_DURATION_MS, false, true⟩] ∧
    Spaced (history.flatMap (comparisonsOf "user")) := by
  obtain ⟨history, s', h, hcs⟩ := Logins.seen sampleServices sampleStore sixGuesses
    (Q := fun history _ => history.flatMap (comparisonsOf "user") =
      List.replicate 5 ⟨0, false, true⟩ ++ [⟨LOCKOUT_DURATION_MS, false, true⟩]) (by decide +kernel)
  have hstored : sampleStore.users.find? "user" = some sampleUser := by decide +kernel
  have hsound : sampleUser.lockState.Sound := ⟨by decide, fun _ => by decide⟩
  exact ⟨history, s', h, hcs, (guesses_are_spaced hstored hsound h).2⟩

/-- Where no attempt can be saved, none is counted. -/
theorem unsaved_guesses_are_free : ∃ history s', Logins sampleServices sampleStore history s' ∧
    history.flatMap (comparisonsOf "user") = List.replicate 6 ⟨0, false, false⟩ ∧
    ¬ ∀ first last between, history.flatMap (comparisonsOf "user") = first :: between ++ [last] →
      between.length = 4 → first.time + LOCKOUT_DURATION_MS ≤ last.time := by
  obtain ⟨history, s', h, hcs⟩ := Logins.seen sampleServices sampleStore
    (List.replicate 6 (guess [.fail (.prismaKnown "P1017" "Server has closed the connection")]))
    (Q := fun history _ => history.flatMap (comparisonsOf "user") = List.replicate 6 ⟨0, false, false⟩)
      (by decide +kernel)
  refine ⟨history, s', h, hcs, fun hall => ?_⟩
  have hspan := hall ⟨0, false, false⟩ ⟨0, false, false⟩ (List.replicate 4 ⟨0, false, false⟩) hcs rfl
  exact absurd hspan (by decide)

/-! ## What the lock does to the status -/

section
variable {services : Services} {i : PId} {userId : String} {s s' : Store} {tr : List Call} {history : List (List Call)}
  {r r' : UserRecord} {command : LoginCommand} {x : Except Err AuthResponseDto}

/-- Between a user's first row and a later one: who is not let in stays out, and who becomes active has passed a lock.
-/
structure Cycles (userId : String) (r : UserRecord) (history : List (List Call)) (r' : UserRecord) : Prop where
  barred : r.status = .SUSPENDED ∨ r.status = .DEACTIVATED → r' = r
  activated : r.status ≠ .ACTIVE → r'.status = .ACTIVE → ∃ tr ∈ history, PassesLock userId tr

theorem Lock.failed_active {l : Lock} {lockedUntil : Nat} (h : (l.opened.failed lockedUntil).status = .ACTIVE) :
    l.status = .LOCKED ∨ l.status = .ACTIVE := by
  by_cases hlocked : l.status = .LOCKED
  · exact .inl hlocked
  · unfold Lock.failed at h
    split at h
    · cases h
    · rw [Lock.opened, if_neg hlocked] at h
      exact .inr h

theorem Lock.succeeded_active {l : Lock} (h : l.opened.succeeded.status = .ACTIVE) :
    l.status = .LOCKED ∨ l.status = .ACTIVE := by
  by_cases hlocked : l.status = .LOCKED
  · exact .inl hlocked
  · simp only [Lock.opened, Lock.succeeded, if_neg hlocked] at h
    exact .inr h

theorem Cycles.login {r0 : UserRecord} (hc : Cycles userId r0 history r) (hr : s.users.find? userId = some r)
    (h : Run (anySchedule services) TimePasses i (LoginHandler.execute services command) s tr x s') :
    ∃ r', s'.users.find? userId = some r' ∧ Cycles userId r0 (history ++ [tr]) r' := by
  have hsame : Cycles userId r0 (history ++ [tr]) r := by
    refine ⟨hc.barred, fun hne hactive => ?_⟩
    obtain ⟨tr', htr', hpasses⟩ := hc.activated hne hactive
    exact ⟨tr', List.mem_append_left _ htr', hpasses⟩
  obtain ⟨-, ⟨-, hr'⟩ | ⟨⟨hloaded, hid⟩, htried⟩⟩ := login_of_user hr h
  · exact ⟨r, hr', hsame⟩
  · -- What becomes active by a comparison was active, or locked; and what is compared has been let in.
    have hmoved : ∀ {time : Nat} {r' : UserRecord}, Compares r s tr s' time → r'.id = r.id →
      s'.users = s.users.put r' →
        (r'.status = .ACTIVE → r.status = .LOCKED ∨ r.status = .ACTIVE) →
        ∃ r', s'.users.find? userId = some r' ∧ Cycles userId r0 (history ++ [tr]) r' := by
      intro time r' hat hid' husers hactive
      refine ⟨r', find?_own hid hid' husers, fun hbarred => ?_, fun hne hr' => ?_⟩
      · obtain rfl := hc.barred hbarred
        have hadmits : r.status = .LOCKED ∨ r.status = .ACTIVE ∨ r.status = .PENDING_VERIFICATION :=
          hat.admits.imp_left fun h => h.1
        rcases hbarred with hbarred | hbarred <;> rw [hbarred] at hadmits <;> simp at hadmits
      · rcases hactive hr' with hlocked | hr
        · exact ⟨tr, List.mem_append_right _ List.mem_cons_self, r, hloaded, hid, hlocked, hat.made⟩
        · exact hsame.activated hne hr
    cases htried with
    | turnedAway hcalls husers => exact ⟨r, husers ▸ hr, hsame⟩
    | lost time hat hcomparisons husers => exact ⟨r, husers ▸ hr, hsame⟩
    | failed time lockedUntil r' hat hcomparisons huntil hid' hlock husers =>
      refine hmoved hat hid' husers fun hactive => ?_
      have hfailed : (r.lockState.opened.failed lockedUntil).status = .ACTIVE := hlock ▸ hactive
      exact Lock.failed_active hfailed
    | succeeded time r' hat hcomparisons hid' hlock husers =>
      refine hmoved hat hid' husers fun hactive => Lock.succeeded_active (l := r.lockState) ?_
      rw [← hlock]
      exact hactive

theorem Cycles.logins (hr : s.users.find? userId = some r) (h : Logins services s history s') :
    ∃ r', s'.users.find? userId = some r' ∧ Cycles userId r history r' := by
  induction h with
  | start => exact ⟨r, hr, fun _ => rfl, fun hne hactive => absurd hactive hne⟩
  | wait _ hs ih =>
    obtain ⟨r', hr', hc⟩ := ih
    exact ⟨r', (users_passes hs).1 ▸ hr', hc⟩
  | login i command _ hrun ih =>
    obtain ⟨r', hr', hc⟩ := ih
    exact hc.login hr' hrun

/-- An attempt that passes the lock, and is saved, leaves the user active. -/
theorem active_after_lock (hr : s.users.find? userId = some r)
    (h : Run (anySchedule services) TimePasses i (LoginHandler.execute services command) s tr x s')
    (hpasses : PassesLock userId tr) (hsaved : ∃ c ∈ comparisonsOf userId tr, c.saved = true) :
    ∃ r', s'.users.find? userId = some r' ∧ r'.status = .ACTIVE ∧ r'.lockedUntil = none := by
  obtain ⟨r1, hr1, hid1, hlocked, call, hcall, hop⟩ := hpasses
  obtain ⟨c, hc, hsaved⟩ := hsaved
  obtain ⟨-, ⟨hother, -⟩ | ⟨⟨hloaded, hid⟩, htried⟩⟩ := login_of_user hr h
  · exact absurd ⟨r1, hr1, hid1⟩ hother
  · cases hr1.symm.trans hloaded
    have hopened : r.lockState.opened = ⟨.ACTIVE, 0, none⟩ := if_pos hlocked
    subst hid
    cases htried with
    | turnedAway hcalls husers =>
      rw [hcalls call hcall] at hop
      cases hop
    | lost time hat hcomparisons husers =>
      rcases hcomparisons with hnone | ⟨matched, hone⟩
      · rw [hnone] at hc
        cases hc
      · rw [hone, List.mem_singleton] at hc
        rw [hc] at hsaved
        cases hsaved
    | failed time lockedUntil r' hat hcomparisons huntil hid' hlock husers =>
      rw [hopened] at hlock
      exact ⟨r', find?_own rfl hid' husers, congrArg Lock.status hlock, congrArg Lock.lockedUntil hlock⟩
    | succeeded time r' hat hcomparisons hid' hlock husers =>
      rw [hopened] at hlock
      exact ⟨r', find?_own rfl hid' husers, congrArg Lock.status hlock, congrArg Lock.lockedUntil hlock⟩

end

/-- **A lock that is passed leaves the user active**, whatever he was before; and of those who are not active, only who
passes a lock becomes active, and nobody who is suspended or deactivated. -/
theorem lock_ends_active {services : Services} {userId : String} {s s' : Store} {r : UserRecord}
    {history : List (List Call)} (hr : s.users.find? userId = some r) (h : Logins services s history s') :
    ∃ r', s'.users.find? userId = some r' ∧
      (r.status = .SUSPENDED ∨ r.status = .DEACTIVATED → r' = r) ∧
      (r.status ≠ .ACTIVE → r'.status = .ACTIVE → ∃ tr ∈ history, PassesLock userId tr) ∧
      ∀ {i command tr x s''}, Run (anySchedule services) TimePasses i
        (LoginHandler.execute services command) s' tr x s'' →
        PassesLock userId tr → (∃ c ∈ comparisonsOf userId tr, c.saved = true) →
        ∃ r'', s''.users.find? userId = some r'' ∧ r''.status = .ACTIVE ∧ r''.lockedUntil = none := by
  obtain ⟨r', hr', hc⟩ := Cycles.logins hr h
  exact ⟨r', hr', hc.barred, hc.activated, fun hrun hpasses hsaved => active_after_lock hr' hrun hpasses hsaved⟩

/-- Ada has not verified her email. -/
def pendingStore : Store :=
  { sampleStore with users := Table.empty.put { sampleUser with status := .PENDING_VERIFICATION } }

theorem lock_ends_active_sample : ∃ history s' r', Logins sampleServices pendingStore history s' ∧
    s'.users.find? "user" = some r' ∧ r'.status = .ACTIVE ∧ ∃ tr ∈ history, PassesLock "user" tr := by
  obtain ⟨history, s', h, hactive⟩ := Logins.seen sampleServices pendingStore sixGuesses
    (Q := fun _ s' => (s'.users.find? "user").map (·.status) = some .ACTIVE) (by decide +kernel)
  have hstored : pendingStore.users.find? "user" = some { sampleUser with status := .PENDING_VERIFICATION } := by
    decide +kernel
  obtain ⟨r', hr', -, hcycle, -⟩ := lock_ends_active hstored h
  rw [hr', Option.map_some, Option.some.injEq] at hactive
  exact ⟨history, s', r', h, hr', hactive, hcycle (by decide) hactive⟩

/-- She is let in all the same, once she has been locked out. -/
theorem lockout_activates : ∃ history s', Logins sampleServices pendingStore history s' ∧
    (pendingStore.users.find? "user").map (·.status) = some .PENDING_VERIFICATION ∧
    (∀ c ∈ history.flatMap (comparisonsOf "user"), c.matched = false) ∧
    (s'.users.find? "user").map (·.status) = some .ACTIVE := by
  obtain ⟨history, s', h, hguesses, hactive⟩ := Logins.seen sampleServices pendingStore sixGuesses
    (Q := fun history s' => (∀ c ∈ history.flatMap (comparisonsOf "user"), c.matched = false) ∧
      (s'.users.find? "user").map (·.status) = some .ACTIVE) (by decide +kernel)
  exact ⟨history, s', h, by decide +kernel, hguesses, hactive⟩

end Kudi.Identity
