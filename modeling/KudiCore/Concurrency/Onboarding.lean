import KudiCore.Concurrency.KycGate

/-!
# Accounts opened before and after the verification of their owner

| here | there |
| --- | --- |
| `OnboardingRequest` | `OpenAccountHandler` and `KycTierUpgradedHandler` |
| `Onboarding` | the `World` of accounts and profiles, with openings and listings in the order in which they happened |

An upgrade is announced once, and its handler activates the accounts that there are when it lists them. An account that
is opened later starts as PENDING_VERIFICATION like any other, and nothing looks at it again until its owner is upgraded
once more: after TIER_3 never.
-/

namespace Kudi

open Interleave Protocol

/-! ## The programs -/

inductive OnboardingRequest where
  | openAccount (bankCode : String) (randomInt : Fin 10 → Fin 1000000) (command : OpenAccountCommand)
  | tierUpgraded (event : KycTierUpgradedEvent)

namespace OnboardingRequest

def program : OnboardingRequest → Handler Unit
  | .openAccount bankCode randomInt command => forget (OpenAccountHandler.execute bankCode randomInt command)
  | .tierUpgraded event => KycTierUpgradedHandler.handle event

def upgraded? : OnboardingRequest → Option KycTierUpgradedEvent
  | .tierUpgraded event => some event
  | _ => none

end OnboardingRequest

/-! ## The world, with its order of events -/

inductive OnboardingStep where
  | opened (accountId userId : String)
  | listed (userId : String)
deriving DecidableEq

/-- `journal` is a history variable. -/
structure Onboarding where
  world : World
  journal : List OnboardingStep

/-- Account `id` was there when an upgrade's handler listed the accounts of `userId`. -/
def OpenedFirst (journal : List OnboardingStep) (id userId : String) : Prop :=
  List.Sublist [.opened id userId, .listed userId] journal

instance (journal : List OnboardingStep) (id userId : String) : Decidable (OpenedFirst journal id userId) :=
  inferInstanceAs (Decidable (List.Sublist _ _))

/-- What the call adds to the journal. -/
def journaled (op : Op) (r : Except Err op.Res) : List OnboardingStep :=
  match op, r with
  | .account .prisma (.create data), .ok _ => [.opened data.id data.userId]
  | .account .prisma (.findMany userId), .ok _ => [.listed userId]
  | _, _ => []

namespace Onboarding

def db (o : Onboarding) : Db := o.world.store.db

def exec (i : PId) (a : Ans) (op : Op) (o : Onboarding) : Option (Except Err op.Res × Onboarding) :=
  (o.world.exec i a op).map fun r => (r.1, ⟨r.2, o.journal ++ journaled op r.1⟩)

def happen (o : Onboarding) (x : Happening) : Onboarding := { o with world := o.world.happen x }

/-- Registrations may have happened, nothing else. -/
structure Fresh (o : Onboarding) : Prop where
  accounts : o.db.accounts.rows = []
  journal : o.journal = []

end Onboarding

/-- Any order of calls, none rejected by the outside world; an upgrade is handled once it has been published. -/
def onboardingSchedule (requests : PId → OnboardingRequest) : System Op.Res Err Onboarding Ans Happening :=
  ⟨fun i a op o => o.exec i a op, fun x o => o.happen x,
    fun o i a _ => a.isFail = false ∧ ∀ event ∈ (requests i).upgraded?, event ∈ o.world.published⟩

instance (requests : PId → OnboardingRequest) (o : Onboarding) (i : PId) (a : Ans) (op : Op) :
    Decidable ((onboardingSchedule requests).allow o i a op) :=
  inferInstanceAs (Decidable (a.isFail = false ∧ ∀ event ∈ (requests i).upgraded?, event ∈ o.world.published))

/-- Nothing is running, and every upgrade that has been published has been handled. -/
structure Quiescent (requests : PId → OnboardingRequest) (c : Config Op.Res Err Onboarding Err Unit) : Prop where
  idle : ∀ i, (∃ x, c.Ended i x) ∨ c.pool i = (requests i).program
  handled : ∀ event ∈ c.store.world.published, ∃ i, requests i = .tierUpgraded event ∧ ∃ x, c.Ended i x

/-! ## The protocol -/

/-- The row is the row of an account. -/
def Loadable (r : AccountRecord) : Prop := ∃ a, AccountMapper.toDomain r = .ok a

/-- A program's listing, the rows it has loaded, and the accounts that it has seen to be ACTIVE. -/
structure Activating where
  listed : List AccountRecord
  loaded : List AccountRecord
  active : List String

def Activating.init : Activating := ⟨[], [], []⟩

/-- `data` is what `activate` makes of the loaded row of a listed account. -/
structure Activating.Makes (st : Activating) (version : Nat) (data : AccountRecord) : Prop where
  source : ∃ r ∈ st.loaded, r.id = data.id ∧ r.userId = data.userId ∧ r.version = version
  listed : ∃ l ∈ st.listed, l.id = data.id
  status : data.status = .ACTIVE
  version : data.version = version + 1
  loadable : Loadable data

def onboardingProtocol : Protocol Op.Res Err where
  State := Activating
  ok _ st op := match op with
    | .account .prisma (.create data) => data.status = .PENDING_VERIFICATION ∧ data.version = 0 ∧ Loadable data
    | .account .prisma (.updateMany version data _) => st.Makes version data
    | .account .tx _ => False
    | .transaction _ => False
    | _ => True
  yields _ st op r := match op, r with
    | .account .prisma (.findMany _), .ok rows => ∀ r ∈ rows, Loadable r
    | .account .prisma (.findMany _), .error _ => False
    | .account .prisma (.findUnique id), .ok none => ∀ r ∈ st.listed, r.id ≠ id
    | .account .prisma (.findUnique id), .ok (some row) => row.id = id ∧ Loadable row
    | .account .prisma (.findUnique _), .error _ => False
    | .account .prisma (.updateMany ..), .error _ => False
    | _, _ => True
  next _ st op r := match op, r with
    | .account .prisma (.findMany _), .ok rows => { st with listed := rows ++ st.listed }
    | .account .prisma (.findUnique _), .ok (some row) => { st with loaded := row :: st.loaded }
    | .account .prisma (.updateMany _ data _), .ok _ => { st with active := data.id :: st.active }
    | _, _ => st

/-- Every listed account that was pending has been activated. -/
def Activating.Done (st : Activating) : Prop := ∀ r ∈ st.listed, r.status = .PENDING_VERIFICATION →
    r.id ∈ st.active

/-! ## The programs obey -/

section
variable {i : PId} {st : Activating}

theorem loadable_toPersistence {a : Account} (h : a.balance.currency = a.currency) :
    Loadable (AccountMapper.toPersistence a) := ⟨_, AccountMapper.toDomain_toPersistence h⟩

/-- One activation, whether its save goes through or not: somebody has made the account ACTIVE. -/
theorem activateAccount_obeys {id : String} (hlisted : ∃ l ∈ st.listed, l.id = id) :
    onboardingProtocol.Obeys i (fun st' _ => st'.listed = st.listed ∧ st.active ⊆ st'.active ∧ id ∈ st'.active)
      (ActivateAccountHandler.execute ⟨id⟩) st := by
  have published : ∀ {st' : Activating} {events : List DomainEvent} {α : Type} {f : Unit → Handler α},
      (∀ u, (f u).Calls fun op => ∃ e, op = .publish e) →
      st'.listed = st.listed ∧ st.active ⊆ st'.active ∧ id ∈ st'.active →
      onboardingProtocol.Obeys i (fun st' _ => st'.listed = st.listed ∧ st.active ⊆ st'.active ∧
        id ∈ st'.active)
        (publishAll events >>= f) st' := fun hf h => by
    refine Obeys.of_calls (P := onboardingProtocol) (T := fun op => ∃ e, op = .publish e) (fun st' op hK hop => ?_)
      (.bind (publishAll_calls (fun e => ⟨e, rfl⟩) _) hf) h
    obtain ⟨e, rfl⟩ := hop
    exact ⟨trivial, fun _ _ => hK⟩
  unfold ActivateAccountHandler.execute mutateAccount PrismaAccountRepository.findById
  rw [Prog.bind_assoc]
  refine .await_bind trivial (fun found hy => ?_) fun e hy => hy.elim
  cases found with
  | none =>
    obtain ⟨l, hl, hid⟩ := hlisted
    exact absurd hid (hy l hl)
  | some row =>
    obtain ⟨hrow, a, hload⟩ := hy
    obtain ⟨rfl, hcurrency, -⟩ := AccountMapper.toDomain_ok hload
    have hid : a.id = id := hrow
    show onboardingProtocol.Obeys i _ ((Prog.ofExcept (AccountMapper.toDomain _) >>= fun _ => _) >>= _) _
    rw [hload]
    show onboardingProtocol.Obeys i _ (PrismaAccountRepository.save a.activate >>= _)
      { st with loaded := AccountMapper.toPersistence a :: st.loaded }
    refine Obeys.bind (P := onboardingProtocol)
      (R := fun st' _ => st'.listed = st.listed ∧ st.active ⊆ st'.active ∧ id ∈ st'.active) ?_
      (fun st' _ h => published (fun _ => trivial) h) fun _ _ h => h
    have hv : a.activate.version ≠ 0 := Nat.succ_ne_zero _
    simp only [PrismaAccountRepository.save, if_neg hv]
    obtain ⟨l, hl, hlid⟩ := hlisted
    refine .await_bind ⟨⟨_, List.mem_cons_self, rfl, rfl, rfl⟩, ⟨l, hl, hlid.trans hid.symm⟩, rfl, rfl,
      loadable_toPersistence hcurrency⟩ (fun n _ => ?_) fun e hy => hy.elim
    have hmem : id ∈ (AccountMapper.toPersistence a.activate).id :: st.active := hid ▸ List.mem_cons_self
    by_cases hn : n = 0
    · subst hn
      exact ⟨rfl, List.subset_cons_self _ _, hmem⟩
    · simp only [if_neg hn]
      exact ⟨rfl, List.subset_cons_self _ _, hmem⟩

theorem activateAll_obeys : ∀ (accounts : List Account) (st : Activating),
    (∀ a ∈ accounts, ∃ l ∈ st.listed, l.id = a.id) →
    onboardingProtocol.Obeys i
      (fun st' _ => st'.listed = st.listed ∧ st.active ⊆ st'.active ∧ ∀ a ∈ accounts, a.id ∈ st'.active)
      (KycTierUpgradedHandler.activateAll accounts) st
  | [], st, _ => ⟨rfl, List.Subset.refl _, fun a ha => absurd ha List.not_mem_nil⟩
  | account :: accounts, st, hlisted => by
    have hone := activateAccount_obeys (i := i) (hlisted account List.mem_cons_self)
    refine Obeys.bind (P := onboardingProtocol) (R := fun st' x =>
      (st'.listed = st.listed ∧ st.active ⊆ st'.active ∧ account.id ∈ st'.active) ∧ x = .ok ()) ?_ ?_ nofun
    · refine Obeys.tryCatch (P := onboardingProtocol)
        (R := fun st' _ => st'.listed = st.listed ∧ st.active ⊆ st'.active ∧ account.id ∈ st'.active) ?_
        (fun _ _ h => ⟨h, rfl⟩) fun _ _ h => ⟨h, rfl⟩
      exact Obeys.bind (P := onboardingProtocol) hone (fun _ _ h => h) fun _ _ h => h
    · rintro st' - ⟨⟨hl, hsub, hmem⟩, -⟩
      refine (activateAll_obeys accounts st' fun a ha => hl ▸ hlisted a (List.mem_cons_of_mem _ ha)).mono
        fun st'' _ h => ⟨h.1.trans hl, fun id hid => h.2.1 (hsub hid), fun a ha => ?_⟩
      rcases List.mem_cons.1 ha with rfl | ha
      · exact h.2.1 hmem
      · exact h.2.2 a ha

theorem mapM_loadable : ∀ {rows : List AccountRecord}, (∀ r ∈ rows, Loadable r) →
    ∃ accounts, rows.mapM AccountMapper.toDomain = .ok accounts ∧
      ∀ r ∈ rows, ∃ a ∈ accounts, AccountMapper.toDomain r = .ok a
  | [], _ => ⟨[], rfl, fun r hr => absurd hr List.not_mem_nil⟩
  | r :: rows, h => by
    obtain ⟨a, ha⟩ := h r List.mem_cons_self
    obtain ⟨accounts, hm, hall⟩ := mapM_loadable fun r' hr' => h r' (List.mem_cons_of_mem _ hr')
    refine ⟨a :: accounts, ?_, fun r' hr' => ?_⟩
    · rw [List.mapM_cons, ha, hm]
      rfl
    · rcases List.mem_cons.1 hr' with rfl | hr'
      · exact ⟨a, List.mem_cons_self, ha⟩
      · obtain ⟨a', ha', hl⟩ := hall r' hr'
        exact ⟨a', List.mem_cons_of_mem _ ha', hl⟩

/-- The handler of an upgrade leaves no listed account pending. -/
theorem handleUpgrade_obeys (event : KycTierUpgradedEvent) :
    onboardingProtocol.Obeys i (fun st' _ => st'.Done) (KycTierUpgradedHandler.handle event) .init := by
  unfold KycTierUpgradedHandler.handle
  split
  · exact fun r hr => absurd hr List.not_mem_nil
  unfold PrismaAccountRepository.findAllByUserId
  rw [Prog.bind_assoc]
  refine .await_bind trivial (fun rows hy => ?_) fun e hy => hy.elim
  obtain ⟨accounts, hm, hall⟩ := mapM_loadable hy
  rw [hm]
  refine (activateAll_obeys (accounts.filter fun account => account.status = .PENDING_VERIFICATION) _
    fun a ha => ?_).mono fun st' _ h r hr hpending => ?_
  · obtain ⟨r, hr, hl⟩ := mem_of_mapM_ok hm a (List.mem_of_mem_filter ha)
    exact ⟨r, List.mem_append_left _ hr, (congrArg AccountRecord.id (AccountMapper.toDomain_ok hl).1).symm⟩
  · rw [h.1] at hr
    obtain ⟨a, ha, hl⟩ := hall r ((List.mem_append.1 hr).resolve_right List.not_mem_nil)
    obtain ⟨rfl, -⟩ := AccountMapper.toDomain_ok hl
    have hpending : a.status = .PENDING_VERIFICATION := hpending
    exact h.2.2 a (List.mem_filter.2 ⟨ha, decide_eq_true hpending⟩)

/-- Opening lists nothing. -/
theorem openAccount_obeys (bankCode : String) (randomInt : Fin 10 → Fin 1000000) (command : OpenAccountCommand) :
    onboardingProtocol.Obeys i (fun st' _ => st'.Done) (OpenAccountHandler.execute bankCode randomInt command)
      .init := by
  have hcalls : (OpenAccountHandler.execute bankCode randomInt command).Calls fun op => op = .randomUUID ∨
      (∃ e, op = .publish e) ∨ (∃ n, op = .account .prisma (.count n)) ∨
        ∃ data : AccountRecord, data.status = .PENDING_VERIFICATION ∧ data.version = 0 ∧ Loadable data ∧
          op = .account .prisma (.create data) := by
    have hattempts : ∀ serials, (NubanAccountNumberGenerator.attempts bankCode serials).Calls fun op =>
        op = .randomUUID ∨ (∃ e, op = .publish e) ∨ (∃ n, op = .account .prisma (.count n)) ∨
          ∃ data : AccountRecord, data.status = .PENDING_VERIFICATION ∧ data.version = 0 ∧ Loadable data ∧
            op = .account .prisma (.create data) := by
      intro serials
      induction serials with
      | nil => trivial
      | cons n serials ih =>
        refine .bind (.ofExcept _) fun number =>
          .bind (.bind (.await (.inr (.inr (.inl ⟨_, rfl⟩)))) fun _ => trivial)
          fun taken => ?_
        cases taken
        · trivial
        · exact ih
    refine .bind (hattempts _) fun number => .bind (.await (.inl rfl)) fun id => .bind ?_ fun _ =>
      .bind (publishAll_calls (fun e => .inr (.inl ⟨e, rfl⟩)) _) fun _ => trivial
    exact .await (.inr (.inr (.inr ⟨_, rfl, rfl, loadable_toPersistence rfl, rfl⟩)))
  refine (Obeys.of_calls (P := onboardingProtocol) (K := fun st' => st' = Activating.init) ?_ hcalls rfl).mono
    fun st' _ h r hr => ?_
  · rintro st' op rfl (rfl | ⟨e, rfl⟩ | ⟨n, rfl⟩ | ⟨data, hs, hv, hl, rfl⟩)
    · exact ⟨trivial, fun _ _ => rfl⟩
    · exact ⟨trivial, fun _ _ => rfl⟩
    · exact ⟨trivial, fun _ _ => rfl⟩
    · exact ⟨⟨hs, hv, hl⟩, fun _ _ => rfl⟩
  · rw [h] at hr
    exact absurd hr List.not_mem_nil

theorem OnboardingRequest.obeys (request : OnboardingRequest) :
    onboardingProtocol.Obeys i (fun st' _ => st'.Done) request.program .init := by
  cases request with
  | openAccount bankCode randomInt command =>
    exact Obeys.bind (P := onboardingProtocol) (openAccount_obeys bankCode randomInt command) (fun _ _ h => h)
      fun _ _ h => h
  | tierUpgraded event => exact handleUpgrade_obeys event

end

/-! ## The invariant -/

/-- No account is anything but new or activated. -/
structure Shaped (r : AccountRecord) : Prop where
  shape : (r.version = 0 ∧ r.status = .PENDING_VERIFICATION) ∨ (0 < r.version ∧ r.status = .ACTIVE)
  loadable : Loadable r

theorem Shaped.active {r : AccountRecord} (h : Shaped r) (hv : 0 < r.version) : r.status = .ACTIVE := by
  rcases h.shape with ⟨hv0, -⟩ | ⟨-, hs⟩
  · omega
  · exact hs

/-- What a program has seen is so. -/
structure Activating.Suits (st : Activating) (o : Onboarding) : Prop where
  copies : ∀ r, r ∈ st.listed ∨ r ∈ st.loaded → Shaped r ∧
    ∃ cur, o.db.accounts.find? r.id = some cur ∧ cur.userId = r.userId ∧ r.version ≤ cur.version
  listed : ∀ r ∈ st.listed, OpenedFirst o.journal r.id r.userId
  activated : ∀ id ∈ st.active, ∃ row, o.db.accounts.find? id = some row ∧ row.status = .ACTIVE

/-- Some program has listed account `id`. -/
def Listing (sts : PId → Activating) (id : String) : Prop := ∃ i, ∃ r ∈ (sts i).listed, r.id = id

structure OnboardingInv (o : Onboarding) (sts : PId → Activating) : Prop where
  shaped : ∀ id row, o.db.accounts.find? id = some row → Shaped row
  opened : ∀ id userId, .opened id userId ∈ o.journal ↔ ∃ row, o.db.accounts.find? id = some row ∧
    row.userId = userId
  active : ∀ id row, o.db.accounts.find? id = some row → row.status = .ACTIVE →
    OpenedFirst o.journal id row.userId
  suits : ∀ i, (sts i).Suits o
  listings : ∀ id userId, OpenedFirst o.journal id userId → Listing sts id

section
variable {journal : List OnboardingStep} {id userId : String}

theorem pair_sublist_concat {α : Type} {a b c : α} {l : List α} :
    List.Sublist [a, b] (l ++ [c]) ↔ List.Sublist [a, b] l ∨ b = c ∧ a ∈ l := by
  rw [← List.reverse_sublist, List.reverse_append, List.reverse_singleton, List.singleton_append,
    List.sublist_cons_iff]
  simp only [List.reverse_cons, List.reverse_nil, List.nil_append, List.singleton_append, List.cons.injEq]
  constructor
  · rintro (h | ⟨r, ⟨rfl, rfl⟩, h⟩)
    · exact .inl (by simpa using h.reverse)
    · exact .inr ⟨rfl, by simpa using h⟩
  · rintro (h | ⟨rfl, h⟩)
    · exact .inl (by simpa using h.reverse)
    · exact .inr ⟨_, ⟨rfl, rfl⟩, by simpa using h⟩

theorem OpenedFirst.append (h : OpenedFirst journal id userId) (steps : List OnboardingStep) :
    OpenedFirst (journal ++ steps) id userId := h.trans (List.sublist_append_left _ _)

theorem openedFirst_listed {userId' : String} : OpenedFirst (journal ++ [.listed userId']) id userId ↔
    OpenedFirst journal id userId ∨ userId = userId' ∧ .opened id userId ∈ journal := by
  rw [OpenedFirst, pair_sublist_concat, OnboardingStep.listed.injEq]
  rfl

theorem openedFirst_opened {id' userId' : String} : OpenedFirst (journal ++ [.opened id' userId']) id userId ↔
    OpenedFirst journal id userId := by
  rw [OpenedFirst, pair_sublist_concat]
  simp only [reduceCtorEq, false_and, or_false]
  rfl

end

/-! ## One step -/

section
variable {o : Onboarding} {sts : PId → Activating} {i : PId} {st : Activating}

theorem suits_update (h : ∀ j, (sts j).Suits o) (hi : st.Suits o) (j : PId) : (Function.update sts i st j).Suits o :=
  (Function.forall_update_iff sts fun _ (st : Activating) => st.Suits o).2 ⟨hi, fun j _ => h j⟩ j

theorem Listing.update {id : String} (h : Listing sts id) (hsub : (sts i).listed ⊆ st.listed) :
    Listing (Function.update sts i st) id := by
  obtain ⟨j, r, hr, hid⟩ := h
  by_cases hj : j = i
  · subst hj
    exact ⟨j, r, by rw [Function.update_self]; exact hsub hr, hid⟩
  · exact ⟨j, r, by rwa [Function.update_of_ne hj], hid⟩

end

namespace OnboardingInv

variable {o : Onboarding} {sts : PId → Activating} {i : PId}

/-- The accounts are as they were, and nothing is noted. -/
theorem unchanged (h : OnboardingInv o sts) {o' : Onboarding} (ha : o'.db.accounts = o.db.accounts)
    (hj : o'.journal = o.journal) : OnboardingInv o' sts where
  shaped := ha ▸ h.shaped
  opened := ha ▸ hj ▸ h.opened
  active := ha ▸ hj ▸ h.active
  suits j := ⟨ha ▸ (h.suits j).copies, hj ▸ (h.suits j).listed, ha ▸ (h.suits j).activated⟩
  listings := hj ▸ h.listings

/-- Program `i` has loaded a row. -/
theorem load (h : OnboardingInv o sts) {id : String} {row : AccountRecord} (hrow : o.db.accounts.find? id = some row) :
    OnboardingInv o (Function.update sts i { sts i with loaded := row :: (sts i).loaded }) where
  shaped := h.shaped
  opened := h.opened
  active := h.active
  suits := by
    refine suits_update h.suits ⟨fun r hr => ?_, (h.suits i).listed, (h.suits i).activated⟩
    rcases hr with hr | hr
    · exact (h.suits i).copies r (.inl hr)
    rcases List.mem_cons.1 hr with rfl | hr
    · obtain rfl := Table.key_of_find? hrow
      exact ⟨h.shaped _ _ hrow, _, hrow, rfl, le_rfl⟩
    · exact (h.suits i).copies r (.inr hr)
  listings id userId hfirst := (h.listings id userId hfirst).update (List.Subset.refl _)

/-- Program `i` has seen that an account is ACTIVE. -/
theorem see (h : OnboardingInv o sts) {id : String} {row : AccountRecord} (hrow : o.db.accounts.find? id = some row)
    (hs : row.status = .ACTIVE) :
    OnboardingInv o (Function.update sts i { sts i with active := id :: (sts i).active }) where
  shaped := h.shaped
  opened := h.opened
  active := h.active
  suits := by
    refine suits_update h.suits ⟨(h.suits i).copies, (h.suits i).listed, fun id' hid => ?_⟩
    rcases List.mem_cons.1 hid with rfl | hid
    · exact ⟨row, hrow, hs⟩
    · exact (h.suits i).activated id' hid
  listings id userId hfirst := (h.listings id userId hfirst).update (List.Subset.refl _)

/-- Program `i` has listed the accounts of `userId`. -/
theorem list (h : OnboardingInv o sts) {userId : String} {rows : List AccountRecord}
    (hrows : rows = o.db.accounts.rows.filter fun r => r.userId = userId) {o' : Onboarding}
    (ha : o'.db.accounts = o.db.accounts) (hj : o'.journal = o.journal ++ [.listed userId]) :
    OnboardingInv o' (Function.update sts i { sts i with listed := rows ++ (sts i).listed }) := by
  have hsuits : ∀ j, (sts j).Suits o' := fun j =>
    ⟨ha ▸ (h.suits j).copies, fun r hr => hj ▸ ((h.suits j).listed r hr).append _, ha ▸ (h.suits j).activated⟩
  have hmem : ∀ {r}, r ∈ rows → o.db.accounts.find? r.id = some r ∧ r.userId = userId := by
    intro r hr
    rw [hrows] at hr
    exact ⟨Table.find?_of_mem (List.mem_filter.1 hr).1, of_decide_eq_true (List.mem_filter.1 hr).2⟩
  constructor
  · exact ha ▸ h.shaped
  · intro id userId'
    rw [ha, hj, List.mem_append, List.mem_singleton, or_iff_left OnboardingStep.noConfusion]
    exact h.opened id userId'
  · intro id row hrow hs
    rw [ha] at hrow
    exact hj ▸ (h.active id row hrow hs).append _
  · refine suits_update hsuits ⟨fun r hr => ?_, fun r hr => ?_, (hsuits i).activated⟩
    · rcases hr with hr | hr
      · rcases List.mem_append.1 hr with hr | hr
        · obtain ⟨hrow, -⟩ := hmem hr
          exact ⟨h.shaped _ _ hrow, r, ha ▸ hrow, rfl, le_rfl⟩
        · exact (hsuits i).copies r (.inl hr)
      · exact (hsuits i).copies r (.inr hr)
    · rcases List.mem_append.1 hr with hr | hr
      · obtain ⟨hrow, hu⟩ := hmem hr
        rw [hj, openedFirst_listed]
        exact .inr ⟨hu, (h.opened _ _).2 ⟨r, hrow, rfl⟩⟩
      · exact (hsuits i).listed r hr
  · intro id userId' hfirst
    rw [hj, openedFirst_listed] at hfirst
    rcases hfirst with hfirst | ⟨hu, hopened⟩
    · exact (h.listings id userId' hfirst).update (List.subset_append_right _ _)
    · obtain ⟨row, hrow, hown⟩ := (h.opened _ _).1 hopened
      have hrow' : row ∈ rows :=
        hrows ▸ List.mem_filter.2 ⟨Table.mem_of_find? hrow, decide_eq_true (hown.trans hu)⟩
      refine ⟨i, row, ?_, Table.key_of_find? hrow⟩
      rw [Function.update_self]
      exact List.mem_append_left _ hrow'

/-- A new account. -/
theorem create (h : OnboardingInv o sts) {data : AccountRecord} (hs : data.status = .PENDING_VERIFICATION)
    (hv : data.version = 0) (hl : Loadable data) (hfree : o.db.accounts.find? data.id = none) {o' : Onboarding}
    (ha : o'.db.accounts = o.db.accounts.put data) (hj : o'.journal = o.journal ++ [.opened data.id data.userId]) :
    OnboardingInv o' sts := by
  have hold : ∀ {id row}, o.db.accounts.find? id = some row → o'.db.accounts.find? id = some row := by
    intro id row hrow
    rw [ha, Table.find?_put_ne]
    · exact hrow
    · rintro rfl
      rw [hfree] at hrow
      cases hrow
  have hnew : ∀ {id row}, o'.db.accounts.find? id = some row →
      (id = data.id ∧ row = data) ∨ o.db.accounts.find? id = some row := by
    intro id row hrow
    rw [ha, Table.find?_put] at hrow
    split at hrow
    · rename_i hid
      cases hrow
      exact .inl ⟨hid.symm, rfl⟩
    · exact .inr hrow
  constructor
  · intro id row hrow
    rcases hnew hrow with ⟨rfl, rfl⟩ | hrow
    · exact ⟨.inl ⟨hv, hs⟩, hl⟩
    · exact h.shaped id row hrow
  · intro id userId
    rw [hj, List.mem_append, List.mem_singleton, OnboardingStep.opened.injEq]
    constructor
    · rintro (hmem | ⟨rfl, rfl⟩)
      · obtain ⟨row, hrow, hu⟩ := (h.opened id userId).1 hmem
        exact ⟨row, hold hrow, hu⟩
      · exact ⟨data, by rw [ha, Table.find?_put_self], rfl⟩
    · rintro ⟨row, hrow, rfl⟩
      rcases hnew hrow with ⟨rfl, rfl⟩ | hrow
      · exact .inr ⟨rfl, rfl⟩
      · exact .inl ((h.opened id _).2 ⟨row, hrow, rfl⟩)
  · intro id row hrow hactive
    rcases hnew hrow with ⟨rfl, rfl⟩ | hrow
    · rw [hs] at hactive
      cases hactive
    · exact hj ▸ (h.active id row hrow hactive).append _
  · intro j
    refine ⟨fun r hr => ?_, fun r hr => hj ▸ ((h.suits j).listed r hr).append _, fun id hid => ?_⟩
    · obtain ⟨hsh, cur, hcur, hu, hver⟩ := (h.suits j).copies r hr
      exact ⟨hsh, cur, hold hcur, hu, hver⟩
    · obtain ⟨row, hrow, hactive⟩ := (h.suits j).activated id hid
      exact ⟨row, hold hrow, hactive⟩
  · intro id userId hfirst
    rw [hj, openedFirst_opened] at hfirst
    exact h.listings id userId hfirst

/-- A save that goes through. -/
theorem save (h : OnboardingInv o sts) {version : Nat} {data row : AccountRecord} (hmakes : (sts i).Makes version data)
    (hrow : o.db.accounts.find? data.id = some row) (hver : row.version = version) {o' : Onboarding}
    (ha : o'.db.accounts = o.db.accounts.put data) (hj : o'.journal = o.journal) : OnboardingInv o' sts := by
  obtain ⟨r, hr, hrid, hru, -⟩ := hmakes.source
  obtain ⟨-, cur, hcur, hcu, -⟩ := (h.suits i).copies r (.inr hr)
  rw [hrid, hrow, Option.some.injEq] at hcur
  subst hcur
  have hown : row.userId = data.userId := hcu.trans hru
  have hlater : row.version ≤ data.version := by
    rw [hmakes.version, hver]
    omega
  -- The row changes; its owner does not, and its version grows.
  have hold : ∀ {id x}, o.db.accounts.find? id = some x →
      ∃ x', o'.db.accounts.find? id = some x' ∧ x'.userId = x.userId ∧ x.version ≤ x'.version ∧
        (x.status = .ACTIVE → x'.status = .ACTIVE) := by
    intro id x hx
    rw [ha, Table.find?_put]
    split
    · rename_i hid
      rw [← hid, hrow, Option.some.injEq] at hx
      exact ⟨data, rfl, hx ▸ hown.symm, hx ▸ hlater, fun _ => hmakes.status⟩
    · exact ⟨x, hx, rfl, le_rfl, fun hs => hs⟩
  have hnew : ∀ {id x}, o'.db.accounts.find? id = some x → (id = data.id ∧ x = data) ∨
    o.db.accounts.find? id = some x := by
    intro id x hx
    rw [ha, Table.find?_put] at hx
    split at hx
    · rename_i hid
      cases hx
      exact .inl ⟨hid.symm, rfl⟩
    · exact .inr hx
  constructor
  · intro id x hx
    rcases hnew hx with ⟨rfl, rfl⟩ | hx
    · refine ⟨.inr ⟨?_, hmakes.status⟩, hmakes.loadable⟩
      rw [hmakes.version]
      omega
    · exact h.shaped id x hx
  · intro id userId
    rw [hj, h.opened]
    constructor
    · rintro ⟨x, hx, rfl⟩
      obtain ⟨x', hx', hu, -⟩ := hold hx
      exact ⟨x', hx', hu⟩
    · rintro ⟨x, hx, rfl⟩
      rcases hnew hx with ⟨rfl, rfl⟩ | hx
      · exact ⟨row, hrow, hown⟩
      · exact ⟨x, hx, rfl⟩
  · intro id x hx hactive
    rw [hj]
    rcases hnew hx with ⟨rfl, rfl⟩ | hx
    · obtain ⟨l, hl, hlid⟩ := hmakes.listed
      obtain ⟨-, cur, hcur, hlu, -⟩ := (h.suits i).copies l (.inl hl)
      rw [hlid, hrow, Option.some.injEq] at hcur
      have hfirst := (h.suits i).listed l hl
      rwa [hlid, ← hlu, ← hcur, hown] at hfirst
    · exact h.active id x hx hactive
  · intro j
    refine ⟨fun x hx => ?_, hj ▸ (h.suits j).listed, fun id hid => ?_⟩
    · obtain ⟨hsh, cur, hcur, hu, hle⟩ := (h.suits j).copies x hx
      obtain ⟨cur', hcur', hu', hle', -⟩ := hold hcur
      exact ⟨hsh, cur', hcur', hu'.trans hu, hle.trans hle'⟩
    · obtain ⟨x, hx, hactive⟩ := (h.suits j).activated id hid
      obtain ⟨x', hx', -, -, hs⟩ := hold hx
      exact ⟨x', hx', hs hactive⟩
  · exact fun id userId hfirst => h.listings id userId (hj ▸ hfirst)

/-- **Every call of every program keeps the invariant**, if the outside world rejects none. -/
theorem step (h : OnboardingInv o sts) {a : Ans} {op : Op} {r : Except Err op.Res} {s' : Store}
    (hok : onboardingProtocol.ok i (sts i) op) (hf : a.isFail = false)
    (hx : Kudi.exec i a op o.world.store = some (r, s')) :
    onboardingProtocol.yields i (sts i) op r ∧
      OnboardingInv ⟨o.world.after s' (activatedBy op r), o.journal ++ journaled op r⟩
        (Function.update sts i (onboardingProtocol.next i (sts i) op r)) := by
  have ht : ∀ q, op ≠ .transaction q := fun q e => by
    subst e
    exact hok
  have hread : op.savedAccount? = none → s'.db.accounts = o.db.accounts := fun hop => exec_accounts ht hop hx
  have hfailed : op.constrained = false → ∀ e, r ≠ .error e := by
    rintro hc e rfl
    rw [isFail_of_error hc hx] at hf
    cases hf
  have hsame : OnboardingInv o (Function.update sts i (sts i)) := by rwa [Function.update_eq_self]
  cases op with
  | account c q =>
    cases c with
    | tx => exact absurd hok fun h => h
    | prisma =>
      cases q with
      | findUnique id =>
        rcases r with e | (_ | row)
        · exact absurd rfl (hfailed rfl e)
        · obtain ⟨db, hv, hrow, rfl⟩ := exec_account_findUnique hx
          rw [Store.view_prisma, Option.some.injEq] at hv
          subst hv
          refine ⟨fun l hl hid => ?_, hsame.unchanged rfl (List.append_nil _)⟩
          obtain ⟨-, cur, hcur, -⟩ := (h.suits i).copies l (.inl hl)
          have hcur : o.world.store.db.accounts.find? l.id = some cur := hcur
          rw [hid, ← hrow] at hcur
          cases hcur
        · obtain ⟨db, hv, hrow, rfl⟩ := exec_account_findUnique hx
          rw [Store.view_prisma, Option.some.injEq] at hv
          subst hv
          exact ⟨⟨Table.key_of_find? hrow.symm, (h.shaped id row hrow.symm).loadable⟩,
            (h.load hrow.symm).unchanged rfl (List.append_nil _)⟩
      | findMany userId =>
        rcases r with e | rows
        · exact absurd rfl (hfailed rfl e)
        · obtain ⟨db, hv, hrows⟩ := exec_account_findMany hx
          rw [Store.view_prisma, Option.some.injEq] at hv
          subst hv
          refine ⟨fun x hx => ?_, h.list hrows (hread rfl) rfl⟩
          rw [hrows] at hx
          exact (h.shaped x.id x (Table.find?_of_mem (List.mem_filter.1 hx).1)).loadable
      | count number => exact ⟨trivial, hsame.unchanged (hread rfl) (List.append_nil _)⟩
      | create data =>
        obtain ⟨hs, hv0, hl⟩ := hok
        rcases r with e | x
        · have hrows := (exec_error hx).resolve_right fun hc => ht _ hc.1
          exact ⟨trivial, hsame.unchanged (congrArg Db.accounts hrows.db) (List.append_nil _)⟩
        · obtain ⟨rfl, db, hv, hfree⟩ := exec_account_create hx
          rw [Store.view_prisma, Option.some.injEq] at hv
          subst hv
          exact ⟨trivial, hsame.create hs hv0 hl hfree rfl rfl⟩
      | updateMany version data events =>
        rcases r with e | n
        · exact absurd rfl (hfailed rfl e)
        · refine ⟨trivial, ?_⟩
          rcases exec_account_updateMany hx with ⟨rfl, rfl⟩ | ⟨rfl, rfl, -, db, row, hv, hrow, hver⟩
          · -- Somebody else has saved the account since it was loaded.
            obtain ⟨x, hxl, hid, -, hxv⟩ := hok.source
            obtain ⟨-, cur, hcur, -, hle⟩ := (h.suits i).copies x (.inr hxl)
            rw [hid] at hcur
            have hmoved := exec_account_missed hx (Store.view_prisma (i := i)) hcur
            have hactive := (h.shaped _ _ hcur).active (by omega)
            exact (h.see hcur hactive).unchanged rfl (List.append_nil _)
          · rw [Store.view_prisma, Option.some.injEq] at hv
            subst hv
            have hsaved : OnboardingInv ⟨o.world.after (o.world.store.write i .prisma (.account data events))
                (activatedBy (.account .prisma (.updateMany version data events)) (.ok 1)), o.journal ++ []⟩ sts :=
              h.save hok hrow hver rfl (List.append_nil _)
            exact hsaved.see (Table.find?_put_self _ _) hok.status
  | transaction q => exact absurd rfl (ht q)
  | _ => exact ⟨trivial, hsame.unchanged (hread rfl) (List.append_nil _)⟩

end OnboardingInv

/-- What happens elsewhere touches no account. -/
theorem World.happen_accounts (w : World) (x : Happening) : (w.happen x).store.db.accounts = w.store.db.accounts := by
  cases x with
  | tick ms => rfl
  | registered id userId =>
    simp only [World.happen]
    split <;> rfl
  | verified userId operation =>
    simp only [World.happen, World.verify]
    split
    · rfl
    · split <;> rfl

theorem onboarding_preserves (requests : PId → OnboardingRequest) :
    onboardingProtocol.Preserves (onboardingSchedule requests) OnboardingInv where
  call h hok ha hw := by
    obtain ⟨⟨r, w'⟩, hworld, he⟩ := Option.map_eq_some_iff.1 hw
    cases he
    obtain ⟨⟨r, s'⟩, hx, he⟩ := Option.map_eq_some_iff.1 hworld
    cases he
    exact h.step hok ha.1 hx
  act x h := h.unchanged (World.happen_accounts _ x) rfl

theorem Onboarding.Fresh.inv {o : Onboarding} (h : o.Fresh) : OnboardingInv o fun _ => .init := by
  have hnone : ∀ {id row}, o.db.accounts.find? id ≠ some row := by
    intro id row hrow
    have hmem := Table.mem_of_find? hrow
    rw [h.accounts] at hmem
    exact List.not_mem_nil hmem
  have hfirst : ∀ {id userId}, ¬ OpenedFirst o.journal id userId := by
    intro id userId hs
    rw [OpenedFirst, h.journal] at hs
    exact nomatch List.eq_nil_of_sublist_nil hs
  constructor
  · exact fun id row hrow => absurd hrow hnone
  · intro id userId
    rw [h.journal]
    exact ⟨fun hm => absurd hm List.not_mem_nil, fun ⟨row, hrow, _⟩ => absurd hrow hnone⟩
  · exact fun id row hrow => absurd hrow hnone
  · exact fun j => ⟨fun r hr => (hr.elim List.not_mem_nil List.not_mem_nil).elim,
      fun r hr => (List.not_mem_nil hr).elim,
      fun id hid => (List.not_mem_nil hid).elim⟩
  · exact fun id userId hs => absurd hs hfirst

/-! ## Every quiet state -/

/-- **Once everything has been handled an account is ACTIVE if it was opened before the handler of one of its owner's
upgrades listed the owner's accounts**, and only then: an account opened later stays PENDING_VERIFICATION, whatever the
tier of its owner. -/
theorem active_iff_opened_first (requests : PId → OnboardingRequest) {start : Onboarding} (hstart : start.Fresh)
    {c : Config Op.Res Err Onboarding Err Unit}
    (hr : (onboardingSchedule requests).Reach ⟨start, fun i => (requests i).program⟩ c)
    (hquiet : Quiescent requests c)
    {id : String} {row : AccountRecord} (hrow : c.store.db.accounts.find? id = some row) :
    row.status = .ACTIVE ↔ OpenedFirst c.store.journal id row.userId := by
  have htracks : onboardingProtocol.Tracks OnboardingInv (fun _ st _ => st.Done)
      (⟨start, fun i => (requests i).program⟩ : Config Op.Res Err Onboarding Err Unit) fun _ => .init :=
    ⟨hstart.inv, fun i => (requests i).obeys⟩
  obtain ⟨sts, hend, hunmoved⟩ := reach_unmoved (onboarding_preserves requests) htracks hr
  have hinv := hend.1
  refine ⟨hinv.active id row hrow, fun hfirst => ?_⟩
  obtain ⟨i, l, hl, rfl⟩ := hinv.listings id row.userId hfirst
  obtain ⟨hshaped, cur, hcur, -, hle⟩ := (hinv.suits i).copies l (.inl hl)
  rw [hrow, Option.some.injEq] at hcur
  subst hcur
  rcases hquiet.idle i with ⟨x, hx⟩ | hi
  · rcases hshaped.shape with ⟨-, hpending⟩ | ⟨hv, -⟩
    · obtain ⟨row', hrow', hactive⟩ := (hinv.suits i).activated l.id (hend.ended hx l hl hpending)
      rw [hrow, Option.some.injEq] at hrow'
      exact hrow' ▸ hactive
    · exact (hinv.shaped _ _ hrow).active (by omega)
  · rw [hunmoved i hi] at hl
    exact absurd hl List.not_mem_nil

/-- Nobody has registered yet. -/
def Onboarding.empty : Onboarding := ⟨.empty, []⟩

theorem Onboarding.empty_fresh : Onboarding.empty.Fresh := ⟨rfl, rfl⟩

def sampleUpgrade : KycTierUpgradedEvent := ⟨"kyc", "user", .TIER_2⟩

/-- Program 0 opens an account, the others handle the upgrade of its owner. -/
def sampleOnboarding : PId → OnboardingRequest
  | 0 => .openAccount "999" sampleSerials ⟨"user", .NGN⟩
  | _ => .tierUpgraded sampleUpgrade

/-- Opened, then verified. -/
def sampleOpenedFirst : List (System.Move Ans Happening) :=
  [.act (.registered "kyc" "user")] ++ System.calls 0 [Ans.ok, .uuid "acc", .ok, .ok] ++
    [.act (.verified "user" (.recordBvnVerified 0 "hash" "*"))] ++ System.calls 1 [Ans.ok, .ok, .ok, .ok]

/-- Verified, then opened. -/
def sampleUpgradedFirst : List (System.Move Ans Happening) :=
  [.act (.registered "kyc" "user"), .act (.verified "user" (.recordBvnVerified 0 "hash" "*"))] ++
    System.calls 1 [Ans.ok] ++ System.calls 0 [Ans.ok, .uuid "acc", .ok, .ok]

/-- Nobody but programs 0 and 1 has started, and both have ended. -/
theorem sampleOnboarding_quiescent {ms : List (System.Move Ans Happening)} {c : Config Op.Res Err Onboarding Err Unit}
    (hplay : (onboardingSchedule sampleOnboarding).play ms ⟨.empty, fun i => (sampleOnboarding i).program⟩ = some c)
    (hms : ∀ i, ms.any (System.Move.isCallOf (i + 2)) = false) (h0 : c.Ended 0 (.ok ())) (h1 : c.Ended 1 (.ok ()))
    (hpublished : c.store.world.published = [sampleUpgrade]) : Quiescent sampleOnboarding c where
  idle
    | 0 => .inl ⟨_, h0⟩
    | 1 => .inl ⟨_, h1⟩
    | i + 2 => .inr (System.pool_of_play _ (hms i) hplay)
  handled event hevent := by
    rw [hpublished, List.mem_singleton] at hevent
    exact ⟨1, hevent ▸ rfl, _, h1⟩

theorem active_iff_opened_first_sample : ∃ c row,
    (onboardingSchedule sampleOnboarding).Reach ⟨.empty, fun i => (sampleOnboarding i).program⟩ c ∧
    Quiescent sampleOnboarding c ∧ c.store.db.accounts.find? "acc" = some row ∧ row.status = .ACTIVE ∧
    OpenedFirst c.store.journal "acc" row.userId := by
  have hplay : ((onboardingSchedule sampleOnboarding).play sampleOpenedFirst
      ⟨.empty, fun i => (sampleOnboarding i).program⟩).any fun c =>
        ((c.store.db.accounts.find? "acc").map (·.status)) = some .ACTIVE ∧ c.Ended 0 (.ok ()) ∧
          c.Ended 1 (.ok ()) ∧
          c.store.world.published = [sampleUpgrade] := by decide +kernel
  obtain ⟨c, hc, hs, h0, h1, hpublished⟩ := System.play_seen _ hplay
  obtain ⟨row, hrow, hactive⟩ := Option.map_eq_some_iff.1 hs
  have hquiet := sampleOnboarding_quiescent hc
    (fun i => by simp [sampleOpenedFirst, System.calls, System.Move.isCallOf])
    h0 h1 hpublished
  have hr := (onboardingSchedule sampleOnboarding).reach_of_play hc
  exact ⟨c, row, hr, hquiet, hrow, hactive,
    (active_iff_opened_first sampleOnboarding Onboarding.empty_fresh hr hquiet hrow).1 hactive⟩

/-- A verified user's new account is left pending. -/
theorem verified_account_pending : ∃ c row,
    (onboardingSchedule sampleOnboarding).Reach ⟨.empty, fun i => (sampleOnboarding i).program⟩ c ∧
    Quiescent sampleOnboarding c ∧ c.store.db.accounts.find? "acc" = some row ∧
      row.status = .PENDING_VERIFICATION ∧
    ((c.store.world.profiles.find? row.userId).map (·.tier)) = some .TIER_2 := by
  have hplay : ((onboardingSchedule sampleOnboarding).play sampleUpgradedFirst
      ⟨.empty, fun i => (sampleOnboarding i).program⟩).any fun c =>
        ((c.store.db.accounts.find? "acc").map fun row => (row.status,
          (c.store.world.profiles.find? row.userId).map (·.tier))) = some (.PENDING_VERIFICATION, some .TIER_2) ∧
          c.Ended 0 (.ok ()) ∧ c.Ended 1 (.ok ()) ∧ c.store.world.published = [sampleUpgrade] := by decide +kernel
  obtain ⟨c, hc, hs, h0, h1, hpublished⟩ := System.play_seen _ hplay
  obtain ⟨row, hrow, hpending⟩ := Option.map_eq_some_iff.1 hs
  rw [Prod.mk.injEq] at hpending
  have hquiet := sampleOnboarding_quiescent hc
    (fun i => by simp [sampleUpgradedFirst, System.calls, System.Move.isCallOf])
    h0 h1 hpublished
  exact ⟨c, row, System.reach_of_play _ hc, hquiet, hrow, hpending⟩

end Kudi
