import KudiCore.Accounts.Opening
import KudiCore.Concurrency.AccountWriters

/-!
# Freezing an account while its owner is verified

`KycTierUpgradedHandler` lists the pending accounts first and activates them one by one later, each
through a load and a save of its own; the activation looks at no status. Its version check protects a
freeze that is committed after the activation's load, and only that one: loaded afterwards, the frozen
row is made ACTIVE. As long as no activation loads a FROZEN row (`ActivatesUnfrozen`) a frozen account
stays frozen until somebody unfreezes or closes it.
-/

namespace Kudi

open Interleave Protocol

/-! ## The programs -/

inductive StatusRequest where
  | tierUpgraded (event : KycTierUpgradedEvent)
  | freeze (command : FreezeAccountCommand)
  | unfreeze (command : UnfreezeAccountCommand)
  | close (command : CloseAccountCommand)

namespace StatusRequest

def program : StatusRequest → Handler Unit
  | .tierUpgraded event => KycTierUpgradedHandler.handle event
  | .freeze command => forget (FreezeAccountHandler.execute command)
  | .unfreeze command => forget (UnfreezeAccountHandler.execute command)
  | .close command => forget (CloseAccountHandler.execute command)

def activates : StatusRequest → Bool
  | .tierUpgraded _ => true
  | _ => false

/-- The commands that end a freeze. -/
def lifts : StatusRequest → Bool
  | .unfreeze _ | .close _ => true
  | _ => false

/-- What request makes of row `r`. -/
def Changes (r data : AccountRecord) : StatusRequest → Prop
  | .tierUpgraded _ => r.status ≠ .FROZEN
  | .freeze _ => data.status = .FROZEN
  | .unfreeze _ => True
  | .close _ => True

end StatusRequest

/-! ## The schedules -/

def Store.Frozen (s : Store) (id : String) : Prop := ((s.db.accounts.find? id).map (·.status)) = some .FROZEN

instance (s : Store) (id : String) : Decidable (s.Frozen id) := inferInstanceAs (Decidable (_ = _))

/-- No activation loads an account while it is stored as FROZEN. -/
def ActivatesUnfrozen (requests : PId → StatusRequest) (s : Store) (i : PId) (_ : Ans) (op : Op) : Prop :=
  (requests i).activates = true → ∀ id ∈ op.loadedAccount?, ¬ s.Frozen id

/-- No unfreeze and no close of account `id` goes through. -/
def NotLifted (requests : PId → StatusRequest) (id : String) (s : Store) (i : PId) (a : Ans) (op : Op) : Prop :=
  (requests i).lifts = true → op.savedAccount? = some id → ¬ lands s i a op

instance (requests : PId → StatusRequest) (s : Store) (i : PId) (a : Ans) (op : Op) :
    Decidable ((scheduleOf (ActivatesUnfrozen requests)).allow s i a op) :=
  inferInstanceAs (Decidable (_ → ∀ id ∈ op.loadedAccount?, ¬ s.Frozen id))

instance (requests : PId → StatusRequest) (id : String) (s : Store) (i : PId) (a : Ans) (op : Op) :
    Decidable ((scheduleOf (NotLifted requests id)).allow s i a op) :=
  inferInstanceAs (Decidable (_ → _ → _))

/-- Both. -/
def FreezeKept (requests : PId → StatusRequest) (id : String) (s : Store) (i : PId) (a : Ans) (op : Op) : Prop :=
  ActivatesUnfrozen requests s i a op ∧ NotLifted requests id s i a op

instance (requests : PId → StatusRequest) (id : String) (s : Store) (i : PId) (a : Ans) (op : Op) :
    Decidable ((scheduleOf (FreezeKept requests id)).allow s i a op) :=
  inferInstanceAs (Decidable ((_ → ∀ id ∈ op.loadedAccount?, ¬ s.Frozen id) ∧ (_ → _ → ¬ lands s i a op)))

/-! ## The protocol -/

/-- A program holds the rows it has loaded, and saves its own kind of change of one of them. -/
def statusProtocol (requests : PId → StatusRequest) : Protocol Op.Res Err where
  State := List AccountRecord
  ok i st op := match op with
    | .account .prisma (.updateMany version data _) =>
      ∃ r ∈ st, version = r.version ∧ data.id = r.id ∧ (requests i).Changes r data
    | .account .tx (.updateMany ..) => False
    | .account _ (.create _) => False
    | .transaction _ => False
    | _ => True
  yields i _ op r := match op, r with
    | .account .prisma (.findUnique _), .ok (some row) => (requests i).activates = true → row.status ≠ .FROZEN
    | _, _ => True
  next _ st op r := loaded st op r

section
variable {requests : PId → StatusRequest} {i : PId} {pol : Policy}

/-- The programs that change the status of an account they have loaded. -/
theorem setStatus_obeys {accountId : String} {m : Account → Except Err Account} (st : List AccountRecord)
    (hm : ∀ a a', m a = .ok a' → a'.version = a.version + 1 ∧ a'.id = a.id)
    (hc : ∀ row a a', ((requests i).activates = true → row.status ≠ .FROZEN) →
      AccountMapper.toDomain row = .ok a →
      m a = .ok a' → (requests i).Changes row (AccountMapper.toPersistence a')) :
    (statusProtocol requests).Obeys i (fun _ _ => True) (mutateAccount accountId fun a => Prog.ofExcept (m a)) st := by
  refine mutateAccount_obeys_of (K := fun _ => True) ⟨trivial, fun _ _ => trivial⟩
    (fun row a hy hl => .ofExcept ⟨trivial, fun a' ha' => ?_⟩) fun _ _ _ => ⟨trivial, fun _ _ => trivial⟩
  obtain ⟨hv, hid⟩ := hm a a' ha'
  obtain ⟨hrow, -, -⟩ := AccountMapper.toDomain_ok hl
  refine ⟨by omega, ⟨row, List.mem_cons_self, ?_, ?_, hc row a a' hy hl ha'⟩, fun _ => trivial⟩
  · rw [hv, ← hrow]
    rfl
  · rw [← hrow]
    exact hid

theorem close_ok {a a' : Account} (h : a.close = .ok a') : a'.version = a.version + 1 ∧ a'.id = a.id := by
  unfold Account.close at h
  split at h
  · cases h
  · cases h
    exact ⟨rfl, rfl⟩

theorem statusRequest_obeys (st : List AccountRecord) :
    (statusProtocol requests).Obeys i (fun _ _ => True) (requests i).program st := by
  have forgotten : ∀ {α : Type} {p : Handler α}, (statusProtocol requests).Obeys i (fun _ _ => True) p st →
      (statusProtocol requests).Obeys i (fun _ _ => True) (forget p) st :=
    fun hp => hp.bind (fun _ _ _ => trivial) fun _ _ _ => trivial
  cases hq : requests i with
  | tierUpgraded event =>
    refine handle_obeys_of (K := fun _ _ => True) trivial (fun _ _ _ _ _ _ => trivial) (fun st' id _ => ?_)
      fun _ _ => trivial
    refine (setStatus_obeys (m := fun a => .ok a.activate) st' (fun a a' h => ?_) fun row a a' hrow _ _ => ?_).mono
      fun _ _ _ _ _ => trivial
    · cases h
      exact ⟨rfl, rfl⟩
    · rw [hq] at hrow ⊢
      exact hrow rfl
  | freeze command =>
    refine forgotten (setStatus_obeys (m := fun a => .ok (a.freeze command.reason)) st (fun a a' h => ?_) ?_)
    · cases h
      exact ⟨rfl, rfl⟩
    · intro row a a' _ _ h
      cases h
      rw [hq]
      rfl
  | unfreeze command =>
    refine forgotten (setStatus_obeys (m := fun a => .ok a.unfreeze) st (fun a a' h => ?_) ?_)
    · cases h
      exact ⟨rfl, rfl⟩
    · intro row a a' _ _ _
      rw [hq]
      trivial
  | close command =>
    refine forgotten (setStatus_obeys (m := Account.close) st (fun a a' h => close_ok h) ?_)
    intro row a a' _ _ _
    rw [hq]
    trivial

/-- The same programs as writers of accounts. -/
theorem statusRequest_writes (hd : pol.direct) (r : StatusRequest) (st : Copies) : Writes pol i r.program st := by
  cases r with
  | tierUpgraded event =>
    refine handle_obeys_of (K := fun _ _ => True) trivial (fun _ _ _ _ _ _ => trivial) (fun st' id _ => ?_)
      fun _ _ => trivial
    exact (activateHandler_obeys hd ⟨id⟩ st').mono fun _ _ _ _ _ => trivial
  | freeze command => exact Writes.bind (freezeHandler_obeys hd command st) fun _ _ => trivial
  | unfreeze command => exact Writes.bind (unfreezeHandler_obeys hd command st) fun _ _ => trivial
  | close command => exact Writes.bind (closeHandler_obeys hd command st) fun _ _ => trivial

end

/-! ## One step -/

section
variable {requests : PId → StatusRequest} {db0 : Db} {s s' : Store} {sts : PId → Copies}
  {rows : PId → List AccountRecord} {i : PId} {a : Ans} {op : Op} {r : Except Err op.Res} {id : String}

/-- What an activation loads is not frozen. -/
theorem status_yields (ha : ActivatesUnfrozen requests s i a op) (hx : exec i a op s = some (r, s')) :
    (statusProtocol requests).yields i (rows i) op r := by
  cases op with
  | account c q =>
    cases q with
    | findUnique id =>
      cases c with
      | tx => rcases r with e | x <;> trivial
      | prisma =>
        rcases r with e | (_ | row)
        · trivial
        · trivial
        · intro hact hfrozen
          obtain ⟨db, hv, hrow, -⟩ := exec_account_findUnique hx
          rw [Store.view_prisma, Option.some.injEq] at hv
          subst hv
          refine ha hact id rfl ?_
          simp [Store.Frozen, ← hrow, hfrozen]
    | _ => cases c <;> trivial
  | _ => trivial

/-- The save of a frozen account that neither activates nor lifts. -/
theorem LoadsInv.frozen_save (h : LoadsInv db0 s sts rows) {version n : Nat} {data : AccountRecord}
    {events : List AccountEvent} (hok : ∃ r ∈ rows i, version = r.version ∧ data.id = r.id ∧
      (requests i).Changes r data)
    (ha : NotLifted requests id s i a (.account .prisma (.updateMany version data events)))
    (hx : exec i a (.account .prisma (.updateMany version data events)) s = some (.ok n, s'))
    (hf : s.Frozen id) : s'.Frozen id := by
  by_cases hn : n = 0
  · rcases exec_account_updateMany hx with ⟨-, rfl⟩ | ⟨h1, -⟩
    · exact hf
    · omega
  · obtain ⟨r, hr, rfl, hid, hch⟩ := hok
    obtain ⟨rfl, db, hv, hrow⟩ := h.accounts.stored_is_copy (h.copies i r hr) hid hx hn
    rw [Store.view_prisma, Option.some.injEq] at hv
    subst hv
    have hdb : (s.write i .prisma (.account data events)).db.accounts = s.db.accounts.put data := rfl
    by_cases hdata : data.id = id
    · subst hdata
      have hrs : r.status = .FROZEN := by simpa [Store.Frozen, hrow] using hf
      have hland := lands_of_write hx
      have hstatus : data.status = .FROZEN := by
        cases hq : requests i with
        | tierUpgraded event =>
          rw [hq] at hch
          exact absurd hrs hch
        | freeze command =>
          rw [hq] at hch
          exact hch
        | unfreeze command => exact absurd hland (ha (by rw [hq]; rfl) rfl)
        | close command => exact absurd hland (ha (by rw [hq]; rfl) rfl)
      rw [Store.Frozen, hdb, Table.find?_put_self, Option.map_some, hstatus]
    · rwa [Store.Frozen, hdb, Table.find?_put_ne _ hdata]

/-- **A call that neither activates what it found frozen nor ends the freeze leaves a frozen account frozen.** -/
theorem LoadsInv.frozen (h : LoadsInv db0 s sts rows) (hok : (statusProtocol requests).ok i (rows i) op)
    (ha : NotLifted requests id s i a op) (hx : exec i a op s = some (r, s')) (hf : s.Frozen id) : s'.Frozen id := by
  have ht : ∀ q, op ≠ .transaction q := fun q e => by
    subst e
    exact hok
  by_cases hsave : op.savedAccount? = none
  · rwa [Store.Frozen, exec_accounts ht hsave hx]
  cases op with
  | account c q =>
    cases q with
    | updateMany version data events =>
      cases c with
      | tx => exact absurd hok (fun h => h)
      | prisma =>
        rcases r with e | n
        · have hs : s.SameRows s' := (exec_error hx).resolve_right nofun
          rwa [Store.Frozen, hs.db]
        · exact h.frozen_save hok ha hx hf
    | create data => exact absurd hok (by cases c <;> exact fun h => h)
    | _ => exact absurd rfl hsave
  | _ => exact absurd rfl hsave

/-- The programs' protocols together. -/
theorem status_preserves (requests : PId → StatusRequest) (db0 : Db) :
    ((accountProtocol .free).prod (statusProtocol requests)).Preserves (scheduleOf (ActivatesUnfrozen requests))
      fun s sts => LoadsInv db0 s (fun i => (sts i).1) fun i => (sts i).2 :=
  Preserves.of_prod
    (fun h hok _ ha hx => by
      obtain ⟨hy, h'⟩ := h.step hok hx
      exact ⟨⟨hy, status_yields ha hx⟩, h'⟩)
    fun x h => h.tick x

theorem frozen_preserves (requests : PId → StatusRequest) (db0 : Db) (id : String) :
    ((accountProtocol .free).prod (statusProtocol requests)).Preserves (scheduleOf (FreezeKept requests id))
      fun s sts => LoadsInv db0 s (fun i => (sts i).1) (fun i => (sts i).2) ∧ s.Frozen id := by
  refine Preserves.of_prod (P := accountProtocol .free) (R := statusProtocol requests)
    (I := fun s sts rows => LoadsInv db0 s sts rows ∧ s.Frozen id) ?_ ?_
  · intro s sts rows i a op r s' h hok hok' ha hx
    obtain ⟨hy, h'⟩ := h.1.step hok hx
    exact ⟨⟨hy, status_yields ha.1 hx⟩, h', h.1.frozen hok' ha.2 hx h.2⟩
  · intro s sts rows x h
    exact ⟨h.1.tick x, h.2⟩

end

/-! ## Every schedule -/

/-- **A freeze lasts.** As long as no activation loads an account while it is frozen, a frozen account stays
frozen, over all steps of all programs, until an unfreeze or a close of it goes through. -/
theorem freeze_lasts (requests : PId → StatusRequest) (db0 : Db) (clock : Nat)
    {c c' : Config Op.Res Err Store Err Unit}
    (hc : (scheduleOf (ActivatesUnfrozen requests)).Reach ⟨.init db0 clock, fun i => (requests i).program⟩ c)
    {id : String} (hf : c.store.Frozen id) (hc' : (scheduleOf (FreezeKept requests id)).Reach c c') :
    c'.store.Frozen id := by
  have htracks : ((accountProtocol .free).prod (statusProtocol requests)).Tracks
      (fun s sts => LoadsInv db0 s (fun i => (sts i).1) fun i => (sts i).2) (fun _ _ _ => True)
      (⟨.init db0 clock, fun i => (requests i).program⟩ : Config Op.Res Err Store Err Unit) fun _ => (.init, []) :=
    ⟨.init db0 clock, fun i => ((statusRequest_writes trivial (requests i) .init).prod (statusRequest_obeys [])).mono
      fun _ _ _ => trivial⟩
  obtain ⟨sts, hinv, hobeys⟩ := reach (status_preserves requests db0) htracks hc
  obtain ⟨_, hkept⟩ := reach (frozen_preserves requests db0 id) ⟨⟨hinv, hf⟩, hobeys⟩ hc'
  exact hkept.1.2

/-- A wallet that waits for its owner's verification. -/
def samplePending : AccountRecord := ⟨"acc", "user", "0123456789", .NGN, 0, .PENDING_VERIFICATION, 0⟩

/-- Program 0 handles the verification of the owner, the others freeze. -/
def sampleStatusRequests (i : PId) : StatusRequest :=
  if i = 0 then .tierUpgraded ⟨"kyc", "user", .TIER_2⟩ else .freeze ⟨"acc", "suspicious"⟩

/-- The activation has loaded the account when the freeze is saved, and misses. -/
theorem freeze_lasts_sample : ∃ c c' : Config Op.Res Err Store Err Unit,
    (scheduleOf (ActivatesUnfrozen sampleStatusRequests)).Reach
      ⟨.init (.of [samplePending] []) 0, fun i => (sampleStatusRequests i).program⟩ c ∧ c.store.Frozen "acc" ∧
    (scheduleOf (FreezeKept sampleStatusRequests "acc")).Reach c c' ∧ c'.store.Frozen "acc" := by
  have hplay : ((scheduleOf (ActivatesUnfrozen sampleStatusRequests)).play
      (System.calls 0 [Ans.ok, .ok] ++ System.calls 1 [Ans.ok, .ok, .ok])
      ⟨.init (.of [samplePending] []) 0, fun i => (sampleStatusRequests i).program⟩).any fun c =>
        c.store.Frozen "acc" ∧
          ((scheduleOf (FreezeKept sampleStatusRequests "acc")).play (System.calls 0 [.ok]) c).isSome := by
    decide +kernel
  obtain ⟨c, hc, hf, hplay⟩ := System.play_seen _ hplay
  have hc := (scheduleOf (ActivatesUnfrozen sampleStatusRequests)).reach_of_play hc
  have hc' := (scheduleOf (FreezeKept sampleStatusRequests "acc")).reach_play hplay
  exact ⟨c, _, hc, hf, hc', freeze_lasts sampleStatusRequests _ 0 hc hf hc'⟩

/-- The account is listed as pending, frozen, then activated: ACTIVE again, though nobody unfreezes or closes. -/
theorem frozen_account_activated : ∃ c c' : Config Op.Res Err Store Err Unit,
    anySchedule.Reach ⟨.init (.of [samplePending] []) 0, fun i => (sampleStatusRequests i).program⟩ c ∧
    c.store.Frozen "acc" ∧ anySchedule.Reach c c' ∧
    ((c'.store.db.accounts.find? "acc").map (·.status)) = some .ACTIVE ∧
      ∀ i, (sampleStatusRequests i).lifts = false := by
  have hplay : (anySchedule.play (System.calls 0 [Ans.ok] ++ System.calls 1 [Ans.ok, .ok, .ok])
      ⟨.init (.of [samplePending] []) 0, fun i => (sampleStatusRequests i).program⟩).any fun c =>
        c.store.Frozen "acc" ∧ (anySchedule.play (System.calls 0 [.ok, .ok]) c).any fun c' =>
          ((c'.store.db.accounts.find? "acc").map (·.status)) = some .ACTIVE := by
    decide +kernel
  obtain ⟨c, hc, hf, hplay⟩ := anySchedule.play_seen hplay
  obtain ⟨c', hc', hactive⟩ := anySchedule.play_seen hplay
  refine ⟨c, c', anySchedule.reach_of_play hc, hf, anySchedule.reach_of_play hc', hactive, fun i => ?_⟩
  by_cases hi : i = 0 <;> simp [sampleStatusRequests, hi, StatusRequest.lifts]

end Kudi
