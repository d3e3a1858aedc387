import KudiCore.Accounts.Opening
import KudiCore.Concurrency.AccountWriters

/-!
# Accounts and the verification of their owners

| here | there |
| --- | --- |
| `GateRequest` | the commands of `modules/accounts/application/commands` and the event handler |
| `Happening.registered` | `modules/compliance/application/event-handlers/user-registered.handler.ts` |
| `Happening.verified` | what a command of `modules/compliance/application/commands` commits |

What such a command commits is one operation on the stored profile, saved on condition that nobody has saved it in
between, and its events.

An account is opened as PENDING_VERIFICATION and activated once its owner is verified, but `unfreeze`
makes any account ACTIVE. The gate holds as long as only accounts that have been activated are
unfrozen (`UnfreezesActivated`).
-/

namespace Kudi

open Interleave Protocol

/-! ## The programs -/

inductive GateRequest where
  | openAccount (bankCode : String) (randomInt : Fin 10 → Fin 1000000) (command : OpenAccountCommand)
  | tierUpgraded (event : KycTierUpgradedEvent)
  | freeze (command : FreezeAccountCommand)
  | unfreeze (command : UnfreezeAccountCommand)
  | close (command : CloseAccountCommand)
  | credit (command : CreditAccountCommand)
  | debit (command : DebitAccountCommand)

namespace GateRequest

def program : GateRequest → Handler Unit
  | .openAccount bankCode randomInt command => forget (OpenAccountHandler.execute bankCode randomInt command)
  | .tierUpgraded event => KycTierUpgradedHandler.handle event
  | .freeze command => forget (FreezeAccountHandler.execute command)
  | .unfreeze command => forget (UnfreezeAccountHandler.execute command)
  | .close command => forget (CloseAccountHandler.execute command)
  | .credit command => forget (CreditAccountHandler.execute command)
  | .debit command => forget (DebitAccountHandler.execute command)

def unfreezes : GateRequest → Bool
  | .unfreeze _ => true
  | _ => false

def upgraded? : GateRequest → Option KycTierUpgradedEvent
  | .tierUpgraded event => some event
  | _ => none

end GateRequest

/-! ## The world -/

/-- `reached` and `activated` are history variables: the users whose tier has been TIER_2 or above, and
the accounts that an activation has made ACTIVE. -/
structure World where
  store : Store
  profiles : Table KycProfile.userId
  published : List KycTierUpgradedEvent
  reached : List String
  activated : List String

inductive Happening where
  | tick (ms : Nat)
  | registered (id userId : String)
  | verified (userId : String) (operation : KycOperation)

/-- The account that the call activates. -/
def activatedBy (op : Op) (r : Except Err op.Res) : List String :=
  match op, r with
  | .account _ (.updateMany _ data events), .ok n => if n ≠ 0 ∧ .activated data.id ∈ events then [data.id] else []
  | _, _ => []

namespace World

/-- The profile is stored; the limit checks read its tier. -/
def saveProfile (w : World) (p : KycProfile) : World :=
  { w with
    profiles := w.profiles.put { p with domainEvents := [] }
    store := { w.store with db := { w.store.db with kycProfiles := w.store.db.kycProfiles.put ⟨p.userId, p.tier⟩ } }
    reached := if p.tier = .TIER_1 then w.reached else p.userId :: w.reached }

/-- One operation on the loaded profile `p`; what throws saves nothing. -/
def verify (w : World) (operation : KycOperation) (p : KycProfile) : World :=
  match operation.apply p with
  | .error _ => w
  | .ok p' =>
    { w.saveProfile p' with published := w.published ++ p'.domainEvents.filterMap KycEvent.upgrade? }

def happen (w : World) : Happening → World
  | .tick ms => { w with store := Kudi.tick ms w.store }
  | .registered id userId => match w.profiles.find? userId with
    | some _ => w
    | none => w.saveProfile (.createDefault id userId)
  | .verified userId operation => match w.profiles.find? userId with
    | none => w
    | some p => w.verify operation { p with domainEvents := [] }

/-- A call has led to store `s'` and activated these accounts. -/
def after (w : World) (s' : Store) (activated : List String) : World :=
  { w with store := s', activated := activated ++ w.activated }

def exec (i : PId) (a : Ans) (op : Op) (w : World) : Option (Except Err op.Res × World) :=
  (Kudi.exec i a op w.store).map fun r => (r.1, w.after r.2 (activatedBy op r.1))

/-- Only the activated accounts are ACTIVE, and their owners have been verified. -/
structure Gated (w : World) : Prop where
  active : ∀ id row, w.store.db.accounts.find? id = some row → row.status = .ACTIVE → id ∈ w.activated
  reached : ∀ id ∈ w.activated, ∃ row, w.store.db.accounts.find? id = some row ∧ row.userId ∈ w.reached
  announced : ∀ e ∈ w.published, e.userId ∈ w.reached

end World

/-- An upgrade is handled once it has been published. -/
def Announced (requests : PId → GateRequest) (w : World) (i : PId) : Prop :=
  ∀ event ∈ (requests i).upgraded?, event ∈ w.published

/-- No unfreeze of an account that has never been activated goes through. -/
def UnfreezesActivated (requests : PId → GateRequest) (w : World) (i : PId) (a : Ans) (op : Op) : Prop :=
  (requests i).unfreezes = true → ∀ id ∈ op.savedAccount?, lands w.store i a op → id ∈ w.activated

/-- The schedules whose steps also meet `allow`. -/
def gateSchedule (requests : PId → GateRequest) (allow : World → PId → Ans → Op → Prop) :
    System Op.Res Err World Ans Happening :=
  ⟨World.exec, fun x w => w.happen x, fun w i a op => Announced requests w i ∧ allow w i a op⟩

instance (requests : PId → GateRequest) (w : World) (i : PId) (a : Ans) (op : Op) :
    Decidable ((gateSchedule requests fun _ _ _ _ => True).allow w i a op) :=
  inferInstanceAs (Decidable ((∀ event ∈ (requests i).upgraded?, event ∈ w.published) ∧ True))

instance (requests : PId → GateRequest) (w : World) (i : PId) (a : Ans) (op : Op) :
    Decidable ((gateSchedule requests (UnfreezesActivated requests)).allow w i a op) :=
  inferInstanceAs (Decidable ((∀ event ∈ (requests i).upgraded?, event ∈ w.published) ∧
    (_ → ∀ id ∈ op.savedAccount?, lands w.store i a op → id ∈ w.activated)))

/-! ## The protocol -/

/-- The rows a program has seen, listed ones included. -/
def listed (rows : List AccountRecord) (op : Op) (r : Except Err op.Res) : List AccountRecord :=
  match op, r with
  | .account _ (.findUnique _), .ok (some row) => row :: rows
  | .account _ (.findMany _), .ok found => found ++ rows
  | _, _ => rows

/-- The event that lets the request activate an account of user `userId`. -/
def GateRequest.Activates (q : GateRequest) (userId : String) : Prop := ∃ event ∈ q.upgraded?, event.userId = userId

/-- What the request may make of row `r`. -/
structure GateRequest.Changes (q : GateRequest) (r data : AccountRecord) (events : List AccountEvent) : Prop where
  id : data.id = r.id
  userId : data.userId = r.userId
  active : data.status = .ACTIVE → r.status = .ACTIVE ∨ q.unfreezes = true ∨ .activated data.id ∈ events
  activated : .activated data.id ∈ events → q.Activates r.userId

def gateProtocol (requests : PId → GateRequest) : Protocol Op.Res Err where
  State := List AccountRecord
  ok i st op := match op with
    | .account .prisma (.create data) => data.status ≠ .ACTIVE
    | .account .prisma (.updateMany _ data events) => ∃ r ∈ st, (requests i).Changes r data events
    | .account .tx _ => False
    | .transaction _ => False
    | _ => True
  yields _ st op r := match op, r with
    | .account .prisma (.findUnique id), .ok (some row) =>
      row.id = id ∧ ∀ r ∈ st, r.id = id → row.userId = r.userId
    | .account .prisma (.findMany userId), .ok rows => ∀ r ∈ rows, r.userId = userId
    | _, _ => True
  next _ st op r := listed st op r

section
variable {requests : PId → GateRequest} {i : PId} {st : List AccountRecord}

/-- A handler whose mutator makes a permitted change. -/
theorem gate_mutate {accountId : String} {mutate : Account → Handler Account}
    (hcalls : ∀ a, (mutate a).Calls fun op => ∃ c q, op = .kyc c q)
    (hmutate : ∀ row a, row.id = accountId → (∀ r ∈ st, r.id = accountId → row.userId = r.userId) →
      AccountMapper.toDomain row = .ok a →
      (mutate a).Returns fun a' => a'.version = a.version + 1 ∧
        (requests i).Changes row (AccountMapper.toPersistence a') a'.domainEvents) :
    (gateProtocol requests).Obeys i (fun st' _ => st ⊆ st') (mutateAccount accountId mutate) st := by
  refine mutateAccount_obeys_of (P := gateProtocol requests) (K := fun st' => st ⊆ st') ⟨trivial, fun r hr => ?_⟩
    (fun row a hy hl => ?_) fun st' e hK => ⟨trivial, fun _ _ => hK⟩
  · rcases r with e | (_ | row)
    · exact List.Subset.refl st
    · exact List.Subset.refl st
    · exact List.subset_cons_self row st
  · have hkyc : ∀ st' op, st' = row :: st → (∃ c q, op = Op.kyc c q) → (gateProtocol requests).ok i st' op ∧
        ∀ r, (gateProtocol requests).yields i st' op r → (gateProtocol requests).next i st' op r = row :: st := by
      rintro st' op rfl ⟨c, q, rfl⟩
      exact ⟨trivial, fun _ _ => rfl⟩
    refine (Obeys.of_calls_returns (P := gateProtocol requests) (K := fun st' => st' = row :: st) hkyc (hcalls a)
      (hmutate row a hy.1 hy.2 hl) rfl).mono fun st' x hx => ?_
    obtain ⟨rfl, hret⟩ := hx
    refine ⟨List.subset_cons_self row st, fun a' ha' => ?_⟩
    obtain ⟨hv, hch⟩ := hret a' ha'
    refine ⟨by omega, ⟨row, List.mem_cons_self, hch⟩, fun _ => List.subset_cons_self row st⟩

theorem mem_of_mapM_ok {ρ α : Type} {f : ρ → Except Err α} :
    ∀ {rows : List ρ} {as : List α}, rows.mapM f = .ok as →
    ∀ a ∈ as, ∃ r ∈ rows, f r = .ok a
  | [], as, h, a, ha => by
    cases h
    exact absurd ha List.not_mem_nil
  | r :: rows, as, h, a, ha => by
    rw [List.mapM_cons] at h
    cases hr : f r with
    | error e => simp [hr, bind, Except.bind] at h
    | ok b =>
      cases hrows : rows.mapM f with
      | error e => simp [hr, hrows, bind, Except.bind] at h
      | ok bs =>
        simp only [hr, hrows, bind, Except.bind, pure, Except.pure, Except.ok.injEq] at h
        subst h
        rcases List.mem_cons.1 ha with rfl | ha
        · exact ⟨r, List.mem_cons_self, hr⟩
        · obtain ⟨r', hr', h'⟩ := mem_of_mapM_ok hrows a ha
          exact ⟨r', List.mem_cons_of_mem r hr', h'⟩

/-- The mutators, seen from the row. -/
theorem gate_status {q : GateRequest} {row : AccountRecord} {a : Account} (hl : AccountMapper.toDomain row = .ok a)
    (status : AccountStatus) (e : AccountEvent)
    (hactive : status = .ACTIVE → q.unfreezes = true ∨ e = .activated a.id)
    (hactivated : e = .activated a.id → q.Activates row.userId) :
    let a' := ({ a with status := status }.touch).addDomainEvent e
    a'.version = a.version + 1 ∧ q.Changes row (AccountMapper.toPersistence a') a'.domainEvents := by
  obtain ⟨rfl, -, hev⟩ := AccountMapper.toDomain_ok hl
  refine ⟨rfl, rfl, rfl, fun hs => ?_, fun he => ?_⟩
  · rcases hactive hs with h | rfl
    · exact .inr (.inl h)
    · exact .inr (.inr (by simp [Account.addDomainEvent, Account.touch, hev, AccountMapper.toPersistence]))
  · refine hactivated ?_
    simpa [Account.addDomainEvent, Account.touch, hev, AccountMapper.toPersistence, eq_comm] using he

/-- Money moves the balance only. -/
theorem gate_balance {q : GateRequest} {row : AccountRecord} {a : Account} (hl : AccountMapper.toDomain row = .ok a)
    (balance : Money) {e : AccountEvent} (he : e ≠ .activated a.id) :
    let a' := { a with balance := balance, version := a.version + 1, domainEvents := a.domainEvents ++ [e] }
    a'.version = a.version + 1 ∧ q.Changes row (AccountMapper.toPersistence a') a'.domainEvents := by
  obtain ⟨rfl, -, hev⟩ := AccountMapper.toDomain_ok hl
  refine ⟨rfl, rfl, rfl, fun hs => .inl hs, fun h => ?_⟩
  simp only [hev, List.nil_append, List.mem_singleton, AccountMapper.toPersistence] at h
  exact absurd h.symm he

theorem gate_ofExcept {accountId : String} {m : Account → Except Err Account}
    (hm : ∀ row a a', row.id = accountId → (∀ r ∈ st, r.id = accountId → row.userId = r.userId) →
      AccountMapper.toDomain row = .ok a → m a = .ok a' →
      a'.version = a.version + 1 ∧ (requests i).Changes row (AccountMapper.toPersistence a') a'.domainEvents) :
    (gateProtocol requests).Obeys i (fun st' _ => st ⊆ st')
      (mutateAccount accountId fun a => Prog.ofExcept (m a)) st :=
  gate_mutate (fun _ => .ofExcept _) fun row a hid hown hl => .ofExcept fun a' ha' => hm row a a' hid hown hl ha'

theorem open_obeys (bankCode : String) (randomInt : Fin 10 → Fin 1000000) (command : OpenAccountCommand) :
    (gateProtocol requests).Obeys i (fun _ _ => True) (OpenAccountHandler.execute bankCode randomInt command) st := by
  have stays : ∀ {α : Type} {p : Handler α} {T : Op → Prop},
      (∀ st' op, T op → (gateProtocol requests).ok i st' op) → p.Calls T →
      (gateProtocol requests).Obeys i (fun _ _ => True) p st := fun {α p T} hT hp =>
    (Obeys.of_calls (P := gateProtocol requests) (K := fun _ => True)
      (fun st' op _ h => ⟨hT st' op h, fun _ _ => trivial⟩)
      hp trivial).mono fun _ _ _ => trivial
  refine stays (T := fun op => op = .randomUUID ∨ (∃ e, op = .publish e) ∨
    (∃ n, op = .account .prisma (.count n)) ∨
    ∃ data : AccountRecord, data.status ≠ .ACTIVE ∧ op = .account .prisma (.create data)) ?_ ?_
  · rintro st' op (rfl | ⟨e, rfl⟩ | ⟨n, rfl⟩ | ⟨data, hd, rfl⟩)
    · trivial
    · trivial
    · trivial
    · exact hd
  · have hattempts : ∀ serials, (NubanAccountNumberGenerator.attempts bankCode serials).Calls fun op =>
        op = .randomUUID ∨ (∃ e, op = .publish e) ∨ (∃ n, op = .account .prisma (.count n)) ∨
          ∃ data : AccountRecord, data.status ≠ .ACTIVE ∧ op = .account .prisma (.create data) := by
      intro serials
      induction serials with
      | nil => trivial
      | cons n serials ih =>
        refine .bind (.ofExcept _) fun number =>
          .bind (.bind (.await (.inr (.inr (.inl ⟨_, rfl⟩)))) fun _ => trivial)
          fun taken => ?_
        cases taken
        · trivial
        · exact ih
    refine .bind (hattempts _) fun number => .bind (.await (.inl rfl)) fun id => .bind ?_ fun _ =>
      .bind (publishAll_calls (fun e => .inr (.inl ⟨e, rfl⟩)) _) fun _ => trivial
    refine .await (.inr (.inr (.inr ⟨_, ?_, rfl⟩)))
    exact AccountStatus.noConfusion

/-- Account `id` is known to be one of the upgraded user's. -/
def Lists (event : KycTierUpgradedEvent) (rows : List AccountRecord) (id : String) : Prop :=
  ∃ r ∈ rows, r.id = id ∧ r.userId = event.userId

theorem gateRequest_obeys :
    (gateProtocol requests).Obeys i (fun _ _ => True) (requests i).program st := by
  have forgotten : ∀ {α : Type} {p : Handler α} {Q : List AccountRecord → Except Err α → Prop},
      (gateProtocol requests).Obeys i Q p st → (gateProtocol requests).Obeys i (fun _ _ => True) (forget p) st :=
    fun hp => hp.bind (fun _ _ _ => trivial) fun _ _ _ => trivial
  cases hq : requests i with
  | openAccount bankCode randomInt command => exact forgotten (open_obeys bankCode randomInt command)
  | tierUpgraded event =>
    refine handle_obeys_of (P := gateProtocol requests) (K := Lists event) trivial ?_ ?_ fun _ _ => trivial
    · intro rows accounts hy ha a hmem
      obtain ⟨row, hrow, hl⟩ := mem_of_mapM_ok ha a hmem
      obtain ⟨rfl, -⟩ := AccountMapper.toDomain_ok hl
      exact ⟨_, List.mem_append_left _ hrow, rfl, hy _ hrow⟩
    · rintro st' id ⟨r, hr, hid, hown⟩
      refine (gate_ofExcept (m := fun a => .ok a.activate) fun row a a' hrow hsame hl ha' => ?_).mono
        fun st'' _ hsub id' ⟨r', hr', h'⟩ => ⟨r', hsub hr', h'⟩
      cases ha'
      refine gate_status hl .ACTIVE _ (fun _ => .inr rfl) fun _ => ⟨event, by rw [hq]; rfl, ?_⟩
      rw [hsame r hr hid, hown]
  | freeze command =>
    refine forgotten (gate_ofExcept (m := fun a => .ok (a.freeze command.reason)) fun row a a' _ _ hl ha' => ?_)
    cases ha'
    exact gate_status hl .FROZEN _ nofun nofun
  | unfreeze command =>
    refine forgotten (gate_ofExcept (m := fun a => .ok a.unfreeze) fun row a a' _ _ hl ha' => ?_)
    cases ha'
    exact gate_status hl .ACTIVE _ (fun _ => .inl (by rw [hq]; rfl)) nofun
  | close command =>
    refine forgotten (gate_ofExcept (m := Account.close) fun row a a' _ _ hl ha' => ?_)
    unfold Account.close at ha'
    split at ha'
    · cases ha'
    · cases ha'
      exact gate_status hl .CLOSED _ nofun nofun
  | credit command =>
    refine forgotten (gate_mutate (fun a => ?_) fun row a _ _ hl => ?_)
    · exact .bind (.ofExcept _) fun _ =>
        .bind (MaxBalanceGuardService.assertWithinLimit_calls (fun q => ⟨_, q, rfl⟩) _ _) fun _ => .ofExcept _
    · refine .bind (Prog.returns_true _) fun amount _ => .bind (Prog.returns_true _) fun _ _ =>
        .ofExcept fun a' ha' => ?_
      obtain ⟨-, -, -, rfl⟩ := Account.credit_ok.1 ha'
      exact gate_balance hl _ nofun
  | debit command =>
    refine forgotten (gate_mutate (fun a => .bind (.ofExcept _) fun _ => .ofExcept _) fun row a _ _ hl => ?_)
    refine .bind (Prog.returns_true _) fun amount _ => .ofExcept fun a' ha' => ?_
    obtain ⟨-, -, -, rfl⟩ := (Account.debit_ok (AccountMapper.toDomain_ok hl).2.1).1 ha'
    exact gate_balance hl _ nofun

end

/-! ## One step -/

namespace World

/-- Row `r` is, or has been, the row of an account that has the same owner. -/
structure Known (w : World) (r : AccountRecord) : Prop where
  owner : ∃ cur, w.store.db.accounts.find? r.id = some cur ∧ cur.userId = r.userId
  active : r.status = .ACTIVE → r.id ∈ w.activated

structure GateInv (w : World) (rows : PId → List AccountRecord) : Prop where
  gated : w.Gated
  known : ∀ i, ∀ r ∈ rows i, w.Known r

section
variable {requests : PId → GateRequest} {w w' : World} {rows : PId → List AccountRecord} {i : PId} {a : Ans}
  {op : Op}
  {r : Except Err op.Res} {s' : Store}

theorem Gated.known (h : w.Gated) {id : String} {row : AccountRecord} (hrow : w.store.db.accounts.find? id = some row) :
    w.Known row := by
  obtain rfl := Table.key_of_find? hrow
  exact ⟨⟨row, hrow, rfl⟩, h.active _ row hrow⟩

/-- Nothing happens to the accounts. -/
theorem Gated.of_accounts (h : w.Gated) (ha : w'.store.db.accounts = w.store.db.accounts)
    (hact : w'.activated = w.activated) (hreached : w.reached ⊆ w'.reached)
    (hann : ∀ e ∈ w'.published, e.userId ∈ w'.reached) : w'.Gated where
  active id row hrow hs := by
    rw [ha] at hrow
    exact hact ▸ h.active id row hrow hs
  reached id hid := by
    rw [hact] at hid
    obtain ⟨row, hrow, hu⟩ := h.reached id hid
    exact ⟨row, ha ▸ hrow, hreached hu⟩
  announced := hann

theorem Known.of_accounts {x : AccountRecord} (h : w.Known x) (ha : w'.store.db.accounts = w.store.db.accounts)
    (hact : w'.activated = w.activated) : w'.Known x where
  owner := ha ▸ h.owner
  active hs := hact ▸ h.active hs

theorem GateInv.update (h : GateInv w rows) (hg : w'.Gated) (hk : ∀ x, w.Known x → w'.Known x)
    {l : List AccountRecord} (hl : ∀ x ∈ l, w'.Known x) : GateInv w' (Function.update rows i l) := by
  refine ⟨hg, fun j x hx => ?_⟩
  by_cases hj : j = i
  · subst hj
    rw [Function.update_self] at hx
    exact hl x hx
  · rw [Function.update_of_ne hj] at hx
    exact hk x (h.known j x hx)

/-- The accounts are as they were. -/
theorem GateInv.unchanged (h : GateInv w rows) (ha : s'.db.accounts = w.store.db.accounts) {l : List AccountRecord}
    (hl : ∀ x ∈ l, w.Known x) : GateInv (w.after s' []) (Function.update rows i l) :=
  have hk : ∀ x, w.Known x → (w.after s' []).Known x := fun _ hx => ⟨ha ▸ hx.owner, hx.active⟩
  have hg : (w.after s' []).Gated := h.gated.of_accounts ha rfl (List.Subset.refl _) h.gated.announced
  h.update hg hk fun x hx => hk x (hl x hx)

/-- A new account. -/
theorem GateInv.create (h : GateInv w rows) {data : AccountRecord} (hs : data.status ≠ .ACTIVE)
    (hfree : w.store.db.accounts.find? data.id = none) (hw' : s'.db.accounts = w.store.db.accounts.put data) :
    (w.after s' []).Gated ∧ ∀ x, w.Known x → (w.after s' []).Known x := by
  have hold : ∀ {id row}, w.store.db.accounts.find? id = some row → s'.db.accounts.find? id = some row := by
    intro id row hrow
    rw [hw', Table.find?_put_ne]
    · exact hrow
    · rintro rfl
      rw [hfree] at hrow
      cases hrow
  refine ⟨⟨fun id row hrow hstatus => ?_, fun id hid => ?_, h.gated.announced⟩, fun x hx => ⟨?_, hx.active⟩⟩
  · rw [World.after, hw', Table.find?_put] at hrow
    split at hrow
    · cases hrow
      exact absurd hstatus hs
    · exact h.gated.active id row hrow hstatus
  · obtain ⟨row, hrow, hu⟩ := h.gated.reached id hid
    exact ⟨row, hold hrow, hu⟩
  · obtain ⟨cur, hcur, hu⟩ := hx.owner
    exact ⟨cur, hold hcur, hu⟩

/-- A save that goes through. -/
theorem GateInv.save (h : GateInv w rows) {data x : AccountRecord} {events : List AccountEvent}
    (hx : x ∈ rows i) (hch : (requests i).Changes x data events) (hann : Announced requests w i)
    (hun : (requests i).unfreezes = true → data.id ∈ w.activated)
    (hw' : s'.db.accounts = w.store.db.accounts.put data) :
    let w' := w.after s' (if .activated data.id ∈ events then [data.id] else [])
    w'.Gated ∧ ∀ y, w.Known y → w'.Known y := by
  intro w'
  have ha : w'.store.db.accounts = w.store.db.accounts.put data := hw'
  have hact : w'.activated = (if .activated data.id ∈ events then [data.id] else []) ++ w.activated := rfl
  obtain ⟨⟨cur, hcur, hcu⟩, hxa⟩ := h.known i x hx
  have hgrow : ∀ {id}, id ∈ w.activated → id ∈ w'.activated := fun hid => List.mem_append_right _ hid
  -- The row changes, its owner does not.
  have hold : ∀ {id row}, w.store.db.accounts.find? id = some row →
      ∃ row', w'.store.db.accounts.find? id = some row' ∧ row'.userId = row.userId := by
    intro id row hrow
    rw [ha, Table.find?_put]
    split
    · rename_i hid
      refine ⟨data, rfl, ?_⟩
      rw [← hid, hch.id, hcur, Option.some.injEq] at hrow
      rw [hch.userId, ← hcu, hrow]
    · exact ⟨row, hrow, rfl⟩
  refine ⟨⟨fun id row hrow hstatus => ?_, fun id hid => ?_, h.gated.announced⟩,
    fun y hy => ⟨?_, fun hstatus => hgrow (hy.active hstatus)⟩⟩
  · rw [ha, Table.find?_put] at hrow
    split at hrow
    · rename_i hid
      subst hid
      cases hrow
      rcases hch.active hstatus with hxs | hu | he
      · exact hch.id ▸ hgrow (hxa hxs)
      · exact hgrow (hun hu)
      · rw [hact, if_pos he]
        exact List.mem_append_left _ (List.mem_singleton_self _)
    · exact hgrow (h.gated.active id row hrow hstatus)
  · rw [hact] at hid
    rcases List.mem_append.1 hid with hid | hid
    · split at hid
      · rename_i he
        obtain rfl := List.mem_singleton.1 hid
        obtain ⟨event, hevent, heu⟩ := hch.activated he
        refine ⟨data, by rw [ha, Table.find?_put_self], ?_⟩
        rw [hch.userId, ← heu]
        exact h.gated.announced event (hann event hevent)
      · exact absurd hid List.not_mem_nil
    · obtain ⟨row, hrow, hu⟩ := h.gated.reached id hid
      obtain ⟨row', hrow', hu'⟩ := hold hrow
      exact ⟨row', hrow', by rw [hu']; exact hu⟩
  · obtain ⟨c, hc, hcu'⟩ := hy.owner
    obtain ⟨c', hc', hu'⟩ := hold hc
    exact ⟨c', hc', hu'.trans hcu'⟩

/-- **Every call of every program keeps the gate, if only activated accounts are unfrozen.** -/
theorem GateInv.step (h : GateInv w rows) (hok : (gateProtocol requests).ok i (rows i) op)
    (hann : Announced requests w i) (hun : UnfreezesActivated requests w i a op)
    (hx : Kudi.exec i a op w.store = some (r, s')) :
    (gateProtocol requests).yields i (rows i) op r ∧
      GateInv (w.after s' (activatedBy op r)) (Function.update rows i (listed (rows i) op r)) := by
  have ht : ∀ q, op ≠ .transaction q := fun q e => by
    subst e
    exact hok
  have hread : op.savedAccount? = none → s'.db.accounts = w.store.db.accounts := fun hop => exec_accounts ht hop hx
  have herror : ∀ e, r = .error e → s'.db.accounts = w.store.db.accounts := by
    rintro e rfl
    exact congrArg Db.accounts ((exec_error hx).resolve_right fun hc => ht _ hc.1).db
  cases op with
  | account c q =>
    cases c with
    | tx => exact absurd hok fun h => h
    | prisma =>
      cases q with
      | findUnique id =>
        rcases r with e | (_ | row)
        · exact ⟨trivial, h.unchanged (hread rfl) (h.known i)⟩
        · exact ⟨trivial, h.unchanged (hread rfl) (h.known i)⟩
        · obtain ⟨db, hv, hrow, rfl⟩ := exec_account_findUnique hx
          rw [Store.view_prisma, Option.some.injEq] at hv
          subst hv
          obtain rfl := Table.key_of_find? hrow.symm
          refine ⟨⟨rfl, fun x hx hid => ?_⟩, h.unchanged rfl fun x hx => ?_⟩
          · obtain ⟨cur, hcur, hu⟩ := (h.known i x hx).owner
            rw [hid, ← hrow, Option.some.injEq] at hcur
            rw [hcur, hu]
          · rcases List.mem_cons.1 hx with rfl | hx
            · exact h.gated.known hrow.symm
            · exact h.known i x hx
      | findMany userId =>
        rcases r with e | found
        · exact ⟨trivial, h.unchanged (hread rfl) (h.known i)⟩
        · obtain ⟨db, hv, rfl⟩ := exec_account_findMany hx
          rw [Store.view_prisma, Option.some.injEq] at hv
          subst hv
          refine ⟨fun x hx => by simpa using (List.mem_filter.1 hx).2, h.unchanged (hread rfl) fun x hx => ?_⟩
          rcases List.mem_append.1 hx with hx | hx
          · exact h.gated.known (Table.find?_of_mem (List.mem_filter.1 hx).1)
          · exact h.known i x hx
      | count number => exact ⟨trivial, h.unchanged (hread rfl) (h.known i)⟩
      | create data =>
        rcases r with e | x
        · exact ⟨trivial, h.unchanged (herror e rfl) (h.known i)⟩
        · obtain ⟨rfl, db, hv, hfree⟩ := exec_account_create hx
          rw [Store.view_prisma, Option.some.injEq] at hv
          subst hv
          have hput : (w.store.write i .prisma (.account data [])).db.accounts = w.store.db.accounts.put data := rfl
          obtain ⟨hg, hk⟩ := h.create hok hfree hput
          exact ⟨trivial, h.update hg hk fun x hx => hk x (h.known i x hx)⟩
      | updateMany version data events =>
        rcases r with e | n
        · exact ⟨trivial, h.unchanged (herror e rfl) (h.known i)⟩
        · refine ⟨trivial, ?_⟩
          rcases exec_account_updateMany hx with ⟨rfl, rfl⟩ | ⟨rfl, rfl, -⟩
          · exact h.unchanged rfl (h.known i)
          · obtain ⟨x, hx', hch⟩ := hok
            have hland := lands_of_write hx
            have hput : (w.store.write i .prisma (.account data events)).db.accounts = w.store.db.accounts.put data :=
              rfl
            have hkept := h.save hx' hch hann (fun hu => hun hu data.id rfl hland) hput
            have hby : activatedBy (.account .prisma (.updateMany version data events)) (.ok 1) =
                if .activated data.id ∈ events then [data.id] else [] := by
              simp [activatedBy]
            rw [hby]
            exact h.update hkept.1 hkept.2 fun x hx => hkept.2 x (h.known i x hx)
  | transaction q => exact absurd rfl (ht q)
  | _ => exact ⟨trivial, h.unchanged (hread rfl) (h.known i)⟩

end

/-! ## What else happens -/

theorem Gated.saveProfile {w : World} (h : w.Gated) (p : KycProfile) : (w.saveProfile p).Gated := by
  have hsub : w.reached ⊆ (w.saveProfile p).reached := by
    unfold World.saveProfile
    split
    · exact List.Subset.refl _
    · exact List.subset_cons_self _ _
  exact h.of_accounts rfl rfl hsub fun e he => hsub (h.announced e he)

theorem Gated.verify {w : World} (h : w.Gated) (operation : KycOperation) {p : KycProfile} (hp : p.domainEvents = []) :
    (w.verify operation p).Gated ∧ (w.verify operation p).store.db.accounts = w.store.db.accounts ∧
      (w.verify operation p).activated = w.activated := by
  unfold World.verify
  cases hp' : operation.apply p with
  | error e => exact ⟨h, rfl, rfl⟩
  | ok p' =>
    obtain ⟨hu, hup⟩ := KycOperation.apply_upgrades hp' hp
    have hs := h.saveProfile p'
    refine ⟨hs.of_accounts rfl rfl (List.Subset.refl _) fun e he => ?_, rfl, rfl⟩
    rcases List.mem_append.1 he with he | he
    · exact hs.announced e he
    · obtain ⟨heu, htier⟩ := hup e he
      simp [World.saveProfile, htier, heu, hu]

/-- What happens elsewhere upgrades users, and touches no account. -/
theorem Gated.happen {w : World} (h : w.Gated) (x : Happening) :
    (w.happen x).Gated ∧ (w.happen x).store.db.accounts = w.store.db.accounts ∧
      (w.happen x).activated = w.activated := by
  cases x with
  | tick ms =>
    have ha : (w.happen (.tick ms)).store.db.accounts = w.store.db.accounts := rfl
    exact ⟨h.of_accounts ha rfl (List.Subset.refl _) h.announced, ha, rfl⟩
  | registered id userId =>
    simp only [World.happen]
    split
    · exact ⟨h, rfl, rfl⟩
    · exact ⟨h.saveProfile _, rfl, rfl⟩
  | verified userId operation =>
    simp only [World.happen]
    split
    · exact ⟨h, rfl, rfl⟩
    · exact h.verify operation rfl

theorem GateInv.happen {w : World} {rows : PId → List AccountRecord} (h : GateInv w rows) (x : Happening) :
    GateInv (w.happen x) rows := by
  obtain ⟨hg, ha, hact⟩ := h.gated.happen x
  exact ⟨hg, fun i r hr => (h.known i r hr).of_accounts ha hact⟩

end World

theorem gate_preserves (requests : PId → GateRequest) :
    (gateProtocol requests).Preserves (gateSchedule requests (UnfreezesActivated requests)) World.GateInv where
  call h hok ha hw := by
    obtain ⟨⟨r, s'⟩, hx, he⟩ := Option.map_eq_some_iff.1 hw
    cases he
    exact h.step hok ha.1 ha.2 hx
  act x h := h.happen x

/-! ## Every run -/

/-- **Only verified owners have ACTIVE accounts**, whatever runs in whatever order: as long as nobody unfreezes an
account that has never been activated, every ACTIVE account has been activated, and its owner's tier has been
TIER_2 or above. -/
theorem active_once_verified (requests : PId → GateRequest) {start : World} (hstart : start.Gated)
    {c : Config Op.Res Err World Err Unit}
    (hr : (gateSchedule requests (UnfreezesActivated requests)).Reach ⟨start, fun i => (requests i).program⟩ c)
    {id : String} {row : AccountRecord} (hrow : c.store.store.db.accounts.find? id = some row)
    (hactive : row.status = .ACTIVE) : row.userId ∈ c.store.reached ∧ id ∈ c.store.activated := by
  have htracks : (gateProtocol requests).Tracks World.GateInv (fun _ _ _ => True)
      (⟨start, fun i => (requests i).program⟩ : Config Op.Res Err World Err Unit) fun _ => [] :=
    ⟨⟨hstart, fun i r hr => absurd hr List.not_mem_nil⟩, fun i => gateRequest_obeys⟩
  obtain ⟨rows, hinv, -⟩ := reach (gate_preserves requests) htracks hr
  have hid := hinv.gated.active id row hrow hactive
  obtain ⟨row', hrow', hu⟩ := hinv.gated.reached id hid
  rw [hrow, Option.some.injEq] at hrow'
  exact ⟨hrow' ▸ hu, hid⟩

/-- Nobody has registered yet. -/
def World.empty : World := ⟨.init .empty 0, .empty, [], [], []⟩

theorem World.empty_gated : World.empty.Gated where
  active id row hrow := by simp [World.empty, Store.init, Db.empty, Table.find?_empty] at hrow
  reached id hid := absurd hid List.not_mem_nil
  announced e he := absurd he List.not_mem_nil

/-- Program 0 opens an account, 1 freezes it, 2 unfreezes it, 3 credits it with ₦1.00, the others handle the upgrade
of its owner. -/
def sampleGate : PId → GateRequest
  | 0 => .openAccount "999" sampleSerials ⟨"user", .NGN⟩
  | 1 => .freeze ⟨"acc", "suspicious"⟩
  | 2 => .unfreeze ⟨"acc"⟩
  | 3 => .credit ⟨"acc", "1.00", .NGN, "ref"⟩
  | _ => .tierUpgraded ⟨"kyc", "user", .TIER_2⟩

/-- Registered, opened, verified, activated; then frozen and unfrozen. -/
def sampleVerified : List (System.Move Ans Happening) :=
  [.act (.registered "kyc" "user")] ++ System.calls 0 [Ans.ok, .uuid "acc", .ok, .ok] ++
    [.act (.verified "user" (.recordBvnVerified 0 "hash" "*"))] ++ System.calls 4 [Ans.ok, .ok, .ok, .ok] ++
    System.calls 1 [Ans.ok, .ok, .ok] ++ System.calls 2 [Ans.ok, .ok, .ok]

theorem active_once_verified_sample : ∃ c row,
    (gateSchedule sampleGate (UnfreezesActivated sampleGate)).Reach
      ⟨World.empty, fun i => (sampleGate i).program⟩ c ∧
    c.store.store.db.accounts.find? "acc" = some row ∧ row.status = .ACTIVE ∧
    row.userId ∈ c.store.reached ∧ "acc" ∈ c.store.activated := by
  have hplay : ((gateSchedule sampleGate (UnfreezesActivated sampleGate)).play sampleVerified
      ⟨World.empty, fun i => (sampleGate i).program⟩).any fun c =>
        ((c.store.store.db.accounts.find? "acc").map (·.status)) = some .ACTIVE := by decide +kernel
  obtain ⟨c, hc, hs⟩ := System.play_seen _ hplay
  obtain ⟨row, hrow, hactive⟩ := Option.map_eq_some_iff.1 hs
  have hr := (gateSchedule sampleGate (UnfreezesActivated sampleGate)).reach_of_play hc
  exact ⟨c, row, hr, hrow, hactive, active_once_verified sampleGate World.empty_gated hr hrow hactive⟩

/-- Nobody is verified, and after a freeze and an unfreeze the pending account takes money. -/
def sampleUnverified : List (System.Move Ans Happening) :=
  [.act (.registered "kyc" "user")] ++ System.calls 0 [Ans.ok, .uuid "acc", .ok, .ok] ++
    System.calls 1 [Ans.ok, .ok, .ok] ++ System.calls 2 [Ans.ok, .ok, .ok] ++ System.calls 3 [Ans.ok, .ok, .ok, .ok]

theorem unverified_account_operable : ∃ c,
    (gateSchedule sampleGate fun _ _ _ _ => True).Reach ⟨World.empty, fun i => (sampleGate i).program⟩ c ∧
    ((c.store.store.db.accounts.find? "acc").map fun row => (row.userId, row.status, row.balance)) =
      some ("user", .ACTIVE, 100) ∧
    c.store.reached = [] ∧ ((c.store.profiles.find? "user").map (·.tier)) = some .TIER_1 := by
  have hplay : ((gateSchedule sampleGate fun _ _ _ _ => True).play sampleUnverified
      ⟨World.empty, fun i => (sampleGate i).program⟩).any fun c =>
        ((c.store.store.db.accounts.find? "acc").map fun row => (row.userId, row.status, row.balance)) =
          some ("user", .ACTIVE, 100) ∧
        c.store.reached = [] ∧ ((c.store.profiles.find? "user").map (·.tier)) = some .TIER_1 := by decide +kernel
  obtain ⟨c, hc, hseen⟩ := System.play_seen _ hplay
  exact ⟨c, System.reach_of_play _ hc, hseen⟩

end Kudi
