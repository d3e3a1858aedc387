import KudiCore.Gateway.TransferRoutes
import KudiCore.Idempotency.Replay
import KudiCore.Transfers.LateFailure

/-!
# What comes of requests

Every request, the webhook and the handler of `KycTierUpgradedEvent` obey `authorityProtocol`, so in every run of any of
them everything that is written has been permitted.

| here | there |
| --- | --- |
| `accounts_written_by_authority`  | the guards, the ownership checks and the `version` column together |
| `only_authority_takes_or_rules`  | ... and what they mean for the holder of an account |
| `transfers_written_by_authority` | `findByProviderReference`, behind the `verif-hash` of the webhook |
-/

namespace Kudi

open Interleave Protocol
open Identity (AccessTokenPayload)

/-! ## The programs -/

section
variable {config : GatewayConfig} {incoming : PId → Incoming} {mine : PId → String → Prop}
  {stored : TransferRecord → Prop} {i : PId} {α : Type}

theorem Confined.answer {p : Handler α} {f : α → HttpResponse} {st : Holdings}
    (hp : Confined config incoming mine stored i p st) :
    Confined config incoming mine stored i (p >>= fun a => pure (f a)) st := hp.bind fun _ _ => trivial

theorem Route.handle_confined {user : AccessTokenPayload} {route : Route}
    (hrequest : incoming i = .request (.bearer (some user) route))
    (hroles : RolesGuard.canActivate route.roles user = .ok ()) (st : Holdings) :
    Confined config incoming mine stored i (route.handle config user) st := by
  have hrole : route.roles ≠ [] → user.role ∈ route.roles :=
    fun h => (RolesGuard.canActivate_ok hroles).resolve_left h
  cases route with
  | openAccount dto randomInt =>
    exact .answer (openAccount_confined config.bankCode randomInt (fun id number => hrequest ▸ .asked id number) st)
  | listMyAccounts =>
    refine .answer (Confined.bind (Obeys.await_bind (P := authorityProtocol config incoming mine stored) trivial
      (fun rows _ => .ofExcept trivial) fun _ _ => trivial) fun _ _ => trivial)
  | getAccount accountId =>
    exact .answer (Obeys.mono (P := authorityProtocol config incoming mine stored) (getAccountById_obeys accountId)
      fun _ _ _ => trivial)
  | creditAccount accountId dto => exact .answer (creditAccount_confined (hrole (List.cons_ne_nil _ _)) hrequest st)
  | debitAccount accountId dto => exact .answer (debitAccount_confined (hrole (List.cons_ne_nil _ _)) hrequest st)
  | freezeAccount accountId dto =>
    exact .answer (freeze_confined (hrole (List.cons_ne_nil _ _)) hrequest (.inl rfl) st)
  | unfreezeAccount accountId =>
    exact .answer (unfreeze_confined (hrole (List.cons_ne_nil _ _)) hrequest (.inl rfl) st)
  | closeAccount accountId => exact .answer (closeAccount_confined hrequest st)
  | staffFreezeAccount accountId dto =>
    exact .answer (freeze_confined (mem_accountFreezeRoles (hrole (List.cons_ne_nil _ _))) hrequest (.inr rfl) st)
  | staffUnfreezeAccount accountId =>
    exact .answer (unfreeze_confined (mem_accountFreezeRoles (hrole (List.cons_ne_nil _ _))) hrequest (.inr rfl) st)
  | initiateInternal dto key fuel => exact .answer (InitiateInternalTransferHandler.execute_confined hrequest st)
  | initiateExternal dto key fuel => exact .answer (InitiateExternalTransferHandler.execute_confined hrequest st)

/-- Without a token that passes, and without the role that the route asks for, nothing is called. -/
theorem Incoming.program_confined (st : Holdings) :
    Confined config incoming mine stored i ((incoming i).program config) st := by
  cases hi : incoming i with
  | tierUpgraded event => exact .answer (tierUpgraded_confined hi st)
  | registration userId randomInt =>
    exact Confined.answer (openAccount_confined config.bankCode randomInt
      (fun id number => hi ▸ .registered id number) st)
  | request http =>
    cases http with
    | webhook verifHash payload => exact .answer (FlutterwaveTransferWebhookController.handle_confined hi st)
    | bearer user route =>
      refine Obeys.ofExcept_bind (P := authorityProtocol config incoming mine stored) (fun user' huser => ?_)
        fun _ _ => trivial
      cases user with
      | none => cases huser
      | some user =>
        cases huser
        exact Obeys.ofExcept_bind (P := authorityProtocol config incoming mine stored)
          (fun _ hroles => Route.handle_confined hi hroles st) fun _ _ => trivial

end

/-- The runs keep the invariant. -/
theorem AuthorityInv.of_reach {config : GatewayConfig} {incoming : PId → Incoming} (mine : PId → String → Prop)
    (stored : TransferRecord → Prop) {allow : Store → PId → Ans → Op → Prop}
    (hmine : ∀ s i id op, allow s i (.uuid id) op → mine i id)
    (hstored : ∀ s i a op, allow s i a op → ∀ r ∈ s.db.transfers.rows, stored r) {db0 : Db}
    {clock : Nat} {c : Config Op.Res Err Store Err HttpResponse}
    (hr : (scheduleOf allow).Reach ⟨.init db0 clock, fun i => (incoming i).program config⟩ c) :
    ∃ sts, AuthorityInv config incoming mine stored db0 c.store sts := by
  have htracks : (authorityProtocol config incoming mine stored).Tracks (AuthorityInv config incoming mine stored db0)
      (fun _ _ _ => True)
      (⟨.init db0 clock, fun i => (incoming i).program config⟩ : Config Op.Res Err Store Err HttpResponse)
      fun _ => .init := ⟨.init db0 clock, fun i => Incoming.program_confined .init⟩
  obtain ⟨sts, hinv, -⟩ := reach (AuthorityInv.preserves hmine hstored) htracks hr
  exact ⟨sts, hinv⟩

/-! ## The accounts -/

theorem Permitted.same {config : GatewayConfig} {stored : TransferRecord → Prop} {incoming : Incoming}
    {row row' : AccountRecord} {op : AccountOperation}
    (h : Permitted config stored incoming row op) (hid : row.id = row'.id) (hsame : SameHolder row row') :
    Permitted config stored incoming row' op := by
  obtain ⟨huser, hcurrency⟩ := hsame
  cases h with
  | credit hadmin hamount => exact hid ▸ .credit hadmin hamount
  | debit hadmin hamount => exact hid ▸ .debit hadmin hamount
  | freeze hrole hroute => exact .freeze hrole (hid ▸ hroute)
  | unfreeze hrole hroute => exact .unfreeze hrole (hid ▸ hroute)
  | close howner => exact hid ▸ .close (huser ▸ howner)
  | sendInternal howner hrow hcharged => exact .sendInternal (huser ▸ howner) (hid ▸ hrow) (hcurrency ▸ hcharged)
  | receiveInternal hother hrow hamount =>
    exact .receiveInternal (hid ▸ hother) (hid ▸ hrow) (hcurrency ▸ hamount)
  | sendExternal howner hrow hcharged => exact .sendExternal (huser ▸ howner) (hid ▸ hrow) (hcurrency ▸ hcharged)
  | refund howner hrow hcharged => exact .refund (huser ▸ howner) (hid ▸ hrow) (hcurrency ▸ hcharged)
  | refundLate hvalid hevent hdata hfailed hstored href hload hopen hrow hamount =>
    exact .refundLate hvalid hevent hdata hfailed hstored href hload hopen (hid ▸ hrow) hamount
  | activate howner htier => exact .activate (huser ▸ howner) htier

/-- The operations one after another, each loading the row and saving what it makes of the account. -/
def AccountRecord.perform (row : AccountRecord) (ops : List AccountOperation) : Except Err AccountRecord :=
  ops.foldlM (fun row op => do return AccountMapper.toPersistence (← op.apply (← AccountMapper.toDomain row))) row

namespace AccountRecord

variable {row row' row'' : AccountRecord} {op : AccountOperation} {ops : List AccountOperation}

theorem perform_snoc {events : List AccountEvent} (h : row.perform ops = .ok row')
    (hop : op.Turns row' (.account row'' events)) : row.perform (ops ++ [op]) = .ok row'' := by
  obtain ⟨a, a', hload, happly, hw⟩ := hop
  obtain ⟨rfl, rfl⟩ := Write.account.inj hw
  unfold perform at h ⊢
  rw [List.foldlM_append, h]
  simp [bind, Except.bind, hload, happly, pure, Except.pure]

theorem perform_cons (h : row.perform (op :: ops) = .ok row'') :
    ∃ row' events, op.Turns row (.account row' events) ∧ row'.perform ops = .ok row'' := by
  unfold perform at h
  rw [List.foldlM_cons] at h
  cases hload : AccountMapper.toDomain row with
  | error e => simp [hload, bind, Except.bind] at h
  | ok a =>
    cases happly : op.apply a with
    | error e => simp [hload, happly, bind, Except.bind] at h
    | ok a' =>
      simp only [hload, happly, bind, Except.bind, pure, Except.pure] at h
      exact ⟨_, _, ⟨a, a', hload, happly, rfl⟩, h⟩

/-- What the operations come to. -/
theorem perform_ok : ∀ {ops : List AccountOperation} {row : AccountRecord}, row.perform ops = .ok row' →
    row'.id = row.id ∧ SameHolder row row' ∧ row'.version = row.version + ops.length ∧
      row'.balance = row.balance + (ops.map AccountOperation.moves).sum ∧
        row'.status = ops.foldl (fun status op => op.assigns.getD status) row.status
  | [], row, h => by
    cases h
    exact ⟨rfl, ⟨rfl, rfl⟩, rfl, (Int.add_zero _).symm, rfl⟩
  | op :: ops, row, h => by
    obtain ⟨row1, events, hop, h⟩ := perform_cons h
    obtain ⟨hid1, huser1, hcurrency1, hversion1, hbalance1, hstatus1⟩ := hop.row
    obtain ⟨hid, ⟨huser, hcurrency⟩, hversion, hbalance, hstatus⟩ := perform_ok h
    refine ⟨hid.trans hid1, ⟨huser1.symm.trans huser, hcurrency1.symm.trans hcurrency⟩, ?_, ?_, ?_⟩
    · rw [hversion, hversion1, List.length_cons]
      omega
    · rw [hbalance, hbalance1, List.map_cons, List.sum_cons]
      omega
    · rw [hstatus, hstatus1]
      rfl

end AccountRecord

/-- Money is taken by debits alone. -/
theorem AccountOperation.debits_of_sum_neg {ops : List AccountOperation}
    (h : (ops.map AccountOperation.moves).sum < 0) : ∃ amount reference, .debit amount reference ∈ ops := by
  by_contra hno
  refine absurd (List.sum_nonneg fun x hx => ?_) (not_le.2 h)
  obtain ⟨op, hop, rfl⟩ := List.mem_map.1 hx
  cases op with
  | debit amount reference => exact absurd ⟨amount, reference, hop⟩ hno
  | credit amount reference => exact Int.natCast_nonneg _
  | _ => exact le_rfl

/-- The status is the one that was there, or has been assigned. -/
theorem AccountOperation.status_assigned : ∀ (ops : List AccountOperation) (status : AccountStatus),
    ops.foldl (fun status op => op.assigns.getD status) status = status ∨
      ∃ op ∈ ops, op.assigns = some (ops.foldl (fun status op => op.assigns.getD status) status)
  | [], _ => .inl rfl
  | op :: ops, status => by
    rcases status_assigned ops (op.assigns.getD status) with h | ⟨op', hop', h⟩
    · rw [List.foldl_cons, h]
      cases hassigns : op.assigns with
      | none => exact .inl rfl
      | some status' => exact .inr ⟨op, List.mem_cons_self, hassigns⟩
    · exact .inr ⟨op', List.mem_cons_of_mem _ hop', h⟩

/-- `row` is what permitted operations have made of `row0`. -/
structure Authorised (config : GatewayConfig) (stored : TransferRecord → Prop) (incoming : PId → Incoming)
    (row0 : AccountRecord)
    (ops : List (PId × AccountOperation)) (row : AccountRecord) : Prop where
  permitted : ∀ e ∈ ops, Permitted config stored (incoming e.1) row0 e.2
  performed : row0.perform (ops.map Prod.snd) = .ok row

theorem Authorised.step {config : GatewayConfig} {stored : TransferRecord → Prop}
    {incoming : PId → Incoming} {row0 row : AccountRecord}
    {ops : List (PId × AccountOperation)} (h : Authorised config stored incoming row0 ops row) {e : PId × Write}
    {row' : AccountRecord} (hw : accountRow e.2 = some row')
    (hmay : MayWriteAccount config stored (incoming e.1) (some row) e.2) :
    ∃ ops', Authorised config stored incoming row0 ops' row' := by
  obtain ⟨events, he⟩ := accountRow_eq hw
  obtain ⟨op, hpermitted, hop⟩ := hmay
  rw [he] at hop
  obtain ⟨hid, ⟨huser, hcurrency⟩, -⟩ := AccountRecord.perform_ok h.performed
  refine ⟨ops ++ [(e.1, op)], fun e' he' => ?_, ?_⟩
  · rcases List.mem_append.1 he' with he' | he'
    · exact h.permitted e' he'
    · obtain rfl := List.mem_singleton.1 he'
      exact hpermitted.same hid ⟨huser.symm, hcurrency.symm⟩
  · rw [List.map_append]
    exact AccountRecord.perform_snoc h.performed hop

theorem Authorised.init {config : GatewayConfig} {stored : TransferRecord → Prop}
    {incoming : PId → Incoming} (row0 : AccountRecord) :
    Authorised config stored incoming row0 [] row0 := ⟨fun _ h => absurd h List.not_mem_nil, rfl⟩

/-- The transfer has had the row `r` at some moment of the run. -/
def StoredIn (c0 c : Config Op.Res Err Store Err HttpResponse) (r : TransferRecord) : Prop :=
  ∃ s, anySchedule.Through c0 c s ∧ r ∈ s.db.transfers.rows

theorem AuthorityInv.of_any {config : GatewayConfig} {incoming : PId → Incoming} {db0 : Db} {clock : Nat}
    {c : Config Op.Res Err Store Err HttpResponse}
    (hr : anySchedule.Reach ⟨.init db0 clock, fun i => (incoming i).program config⟩ c) :
    ∃ sts, AuthorityInv config incoming (fun _ _ => True)
      (StoredIn ⟨.init db0 clock, fun i => (incoming i).program config⟩ c) db0 c.store sts :=
  AuthorityInv.of_reach _ _ (fun _ _ _ _ _ => trivial) (fun s _ _ _ ha _ hr => ⟨s, ha.2, hr⟩)
    (anySchedule.reach_through hr)

/-- **Every account is what permitted operations have made of it.** Whatever requests, callbacks and events are handled
at once, in any order and with any failures: the row of every account comes from a row that was there at the start, or
from one that its own holder has asked to be opened, or that was opened for them at their registration, by operations
each of which some request was permitted on that account. -/
theorem accounts_written_by_authority (config : GatewayConfig) (incoming : PId → Incoming) (db0 : Db) (clock : Nat)
    {c : Config Op.Res Err Store Err HttpResponse}
    (hr : anySchedule.Reach ⟨.init db0 clock, fun i => (incoming i).program config⟩ c) :
    ∀ row ∈ c.store.db.accounts.rows, ∃ row0 ops,
      (row0 ∈ db0.accounts.rows ∨ ∃ i, OpensAccount (incoming i) row0) ∧
        Authorised config (StoredIn ⟨.init db0 clock, fun i => (incoming i).program config⟩ c) incoming row0 ops
          row := by
  obtain ⟨sts, hinv⟩ := AuthorityInv.of_any hr
  have hreplayed : c.store.db.accounts = Table.replay _ db0.accounts c.store.authored := hinv.accounts.replayed
  rw [hreplayed]
  refine Table.Derived.all (M := fun row => ∃ row0 ops,
    (row0 ∈ db0.accounts.rows ∨ ∃ i, OpensAccount (incoming i) row0) ∧
      Authorised config _ incoming row0 ops row)
    (fun e row hw hmay => ?_) (fun row e row' h hw _ hmay => ?_) hinv.accounts.history
    fun row hrow => ⟨row, [], .inl hrow, .init row⟩
  · obtain ⟨data, he, hopens⟩ := hmay
    obtain rfl : data = row := by
      have hw' : accountRow e.2 = some row := hw
      rw [he] at hw'
      exact Option.some.inj hw'
    exact ⟨data, [], .inr ⟨e.1, hopens⟩, .init data⟩
  · obtain ⟨row0, ops, horigin, h⟩ := h
    obtain ⟨ops', h'⟩ := h.step hw hmay
    exact ⟨row0, ops', horigin, h'⟩

def sampleConfig : GatewayConfig := ⟨"000", some "hash"⟩

/-- A customer sends money from their account, compliance freezes it, and the provider settles another transfer. -/
def sampleIncoming (i : PId) : Incoming :=
  if i = 1 then .request (.bearer (some ⟨"user", "user@kudi.africa", .CUSTOMER⟩)
    (.initiateInternal ⟨"acc", "other", "30000.00", "rent"⟩ none 0))
  else if i = 2 then .request (.bearer (some ⟨"officer", "officer@kudi.africa", .COMPLIANCE_OFFICER⟩)
    (.staffFreezeAccount "acc" ⟨"court order"⟩))
  else .request (.webhook (some "hash") ⟨"transfer.completed", some ⟨⟨7, .SUCCESSFUL⟩, none⟩⟩)

def sampleBefore : Db := .of [sampleSender, sampleReceiver] [sampleInFlight]

def sampleHandled : List (System.Move Ans Nat) :=
  System.calls 1 (sampleDebit "t2" sampleLaterReference) ++ System.calls 2 [Ans.ok, .ok, .ok] ++
    System.calls 3 [Ans.ok, .ok, .uuid "j2", .ok, .ok, .ok]

def sampleArrivals : Config Op.Res Err Store Err HttpResponse :=
  ⟨.init sampleBefore 0, fun i => (sampleIncoming i).program sampleConfig⟩

theorem accounts_written_by_authority_sample : ∃ c : Config Op.Res Err Store Err HttpResponse,
    c.store.db.accounts.rows.map (fun r => (r.id, r.balance, r.status)) =
      [("acc", 17000000, .FROZEN), ("other", 3000000, .ACTIVE)] ∧
    ∀ row ∈ c.store.db.accounts.rows, ∃ row0 ops,
      (row0 ∈ sampleBefore.accounts.rows ∨ ∃ i, OpensAccount (sampleIncoming i) row0) ∧
        Authorised sampleConfig (StoredIn sampleArrivals c) sampleIncoming row0 ops row := by
  have hplay : (anySchedule.play sampleHandled sampleArrivals).any fun c =>
        c.store.db.accounts.rows.map (fun r => (r.id, r.balance, r.status)) =
          [("acc", 17000000, .FROZEN), ("other", 3000000, .ACTIVE)] := by
    decide +kernel
  obtain ⟨c, hc, hseen⟩ := System.play_seen _ hplay
  exact ⟨c, hseen, accounts_written_by_authority sampleConfig sampleIncoming sampleBefore 0
    (System.reach_of_play _ hc)⟩

/-- **Only authority takes money or rules an account.** An account stays whose it is and in its currency; if there is
less on it than before then some request was permitted to debit it, and if it has another status then some request was
permitted to give it that one. -/
theorem only_authority_takes_or_rules (config : GatewayConfig) (incoming : PId → Incoming) (db0 : Db) (clock : Nat)
    {c : Config Op.Res Err Store Err HttpResponse}
    (hr : anySchedule.Reach ⟨.init db0 clock, fun i => (incoming i).program config⟩ c) :
    ∀ row0 ∈ db0.accounts.rows, ∃ row, c.store.db.accounts.find? row0.id = some row ∧ SameHolder row0 row ∧
      (row.balance < row0.balance → ∃ i amount reference,
        Permitted config (StoredIn ⟨.init db0 clock, fun i => (incoming i).program config⟩ c) (incoming i) row0
          (.debit amount reference)) ∧
      (row.status ≠ row0.status → ∃ i op, op.assigns = some row.status ∧
        Permitted config (StoredIn ⟨.init db0 clock, fun i => (incoming i).program config⟩ c)
          (incoming i) row0 op) := by
  obtain ⟨sts, hinv⟩ := AuthorityInv.of_any hr
  have hreplayed : c.store.db.accounts = Table.replay _ db0.accounts c.store.authored := hinv.accounts.replayed
  intro row0 hrow0
  obtain ⟨row, hrow, ops, h⟩ := Table.Derived.invariant
    (M := fun row => ∃ ops, Authorised config _ incoming row0 ops row)
    (fun row e row' h hw hmay => h.choose_spec.step hw hmay) hinv.accounts.history (Table.find?_of_mem hrow0)
    ⟨[], .init row0⟩
  obtain ⟨-, hsame, -, hbalance, hstatus⟩ := AccountRecord.perform_ok h.performed
  refine ⟨row, by rw [hreplayed]; exact hrow, hsame, fun hless => ?_, fun hother => ?_⟩
  · obtain ⟨amount, reference, hmem⟩ := AccountOperation.debits_of_sum_neg
      (show ((ops.map Prod.snd).map AccountOperation.moves).sum < 0 by omega)
    obtain ⟨e, he, hop⟩ := List.mem_map.1 hmem
    exact ⟨e.1, amount, reference, hop ▸ h.permitted e he⟩
  · obtain ⟨op, hmem, hassigns⟩ := (AccountOperation.status_assigned (ops.map Prod.snd) row0.status).resolve_left
      fun hstay => hother (hstatus.trans hstay)
    obtain ⟨e, he, rfl⟩ := List.mem_map.1 hmem
    exact ⟨e.1, e.2, hassigns.trans (congrArg some hstatus.symm), h.permitted e he⟩

theorem only_authority_takes_or_rules_sample : ∃ (c : Config Op.Res Err Store Err HttpResponse) (row : AccountRecord),
    row.balance < sampleSender.balance ∧ row.status ≠ sampleSender.status ∧
    (∃ i amount reference,
      Permitted sampleConfig (StoredIn sampleArrivals c) (sampleIncoming i) sampleSender (.debit amount reference)) ∧
    ∃ i op, op.assigns = some row.status ∧
      Permitted sampleConfig (StoredIn sampleArrivals c) (sampleIncoming i) sampleSender op := by
  have hplay : (anySchedule.play sampleHandled sampleArrivals).any fun c =>
        (c.store.db.accounts.find? "acc").map (fun r => (r.balance, r.status)) = some (17000000, .FROZEN) := by
    decide +kernel
  obtain ⟨c, hc, hseen⟩ := System.play_seen _ hplay
  obtain ⟨row, hrow, -, hless, hother⟩ := only_authority_takes_or_rules sampleConfig sampleIncoming sampleBefore 0
    (System.reach_of_play _ hc) sampleSender (by decide)
  rw [show sampleSender.id = "acc" from rfl] at hrow
  rw [hrow, Option.map_some, Option.some.injEq, Prod.mk.injEq] at hseen
  have hlow : row.balance < sampleSender.balance := by
    rw [hseen.1]
    decide
  have hfrozen : row.status ≠ sampleSender.status := by
    rw [hseen.2]
    decide
  exact ⟨c, row, hlow, hfrozen, hless hlow, hother hfrozen⟩

/-! ## The transfers -/

/-- Loading a saved transfer and saving it again keeps what was asked for. -/
theorem TransferMapper.order_reloaded {t t' : Transfer}
    (h : TransferMapper.toDomain (TransferMapper.toPersistence t) = .ok t') :
    (TransferMapper.toPersistence t').order = (TransferMapper.toPersistence t).order := by
  have hrecipient : TransferMapper.recipientOf (TransferMapper.toPersistence t) = .ok t.externalRecipient :=
    TransferMapper.recipientOf_written rfl rfl rfl
  have hreference : TransferReference.create (TransferMapper.toPersistence t).reference = .ok t.reference :=
    t.reference.create_value
  have hamount : Money.fromMinorUnits (TransferMapper.toPersistence t).amountMinorUnits
      (TransferMapper.toPersistence t).currency = .ok t.amount := Money.fromMinorUnits_cast ..
  unfold TransferMapper.toDomain at h
  cases hfee : Money.fromMinorUnits (TransferMapper.toPersistence t).feeMinorUnits
      (TransferMapper.toPersistence t).currency with
  | error e => simp [hrecipient, hreference, hamount, hfee, bind, Except.bind] at h
  | ok fee =>
    simp only [hrecipient, hreference, hamount, hfee, bind, Except.bind, pure, Except.pure, Except.ok.injEq] at h
    exact h ▸ rfl

/-- The provider's news does not make another transfer of it. -/
theorem SettlesTransfer.order {config : GatewayConfig} {incoming : Incoming} {t : Transfer} {data : TransferRecord}
    (h : SettlesTransfer config incoming (TransferMapper.toPersistence t) data) :
    ∃ t', data = TransferMapper.toPersistence t' ∧ t'.id = t.id ∧
      (TransferMapper.toPersistence t').order = (TransferMapper.toPersistence t).order := by
  obtain ⟨-, hid⟩ := h.advances
  obtain ⟨-, -, callback, loaded, t', -, -, -, -, -, hload, hmark, rfl⟩ := h
  have hsettled : ∃ op : TransferOperation, op.apply loaded = .ok t' := by
    rcases hmark with ⟨-, hmark⟩ | ⟨-, hmark⟩
    · exact ⟨.markSuccessful, hmark⟩
    · exact ⟨.markReversed _, hmark⟩
  obtain ⟨op, hop⟩ := hsettled
  exact ⟨t', rfl, hid, (TransferOperation.apply_order hop).2.trans (TransferMapper.order_reloaded hload)⟩

theorem SettlesTransfer.terminal {config : GatewayConfig} {incoming : Incoming} {old data : TransferRecord}
    (h : SettlesTransfer config incoming old data) : old.status.isTerminal = false ∧
      data.status.isTerminal = true := by
  obtain ⟨-, -, callback, t, t', -, -, -, -, -, hload, hmark, rfl⟩ := h
  have hstatus := (TransferMapper.toDomain_ok hload).status
  rcases hmark with ⟨-, hmark⟩ | ⟨-, hmark⟩
  · obtain ⟨hopen, -, hsettled⟩ := SameOrder.of_markSuccessful hmark
    exact ⟨hstatus ▸ hopen, by show t'.status.isTerminal = true; rw [hsettled]; rfl⟩
  · obtain ⟨hopen, -, -, -, hsettled⟩ := Transfer.markReversed_ok hmark
    exact ⟨hstatus ▸ hopen, by show t'.status.isTerminal = true; rw [hsettled]; rfl⟩

/-- A transfer of a request that has drawn its `id`, or one that was there at the start: then it is as it was, or as one
authentic callback about it has left it. -/
def Traced (config : GatewayConfig) (incoming : PId → Incoming) (drawer : String → Option PId) (db0 : Db)
    (row : TransferRecord) : Prop :=
  (∃ i t, row = TransferMapper.toPersistence t ∧ Ordered (incoming i) (fun id => drawer id = some i) t) ∨
    ∃ row0 ∈ db0.transfers.rows, row0.id = row.id ∧
      (row = row0 ∨ ∃ i, SettlesTransfer config (incoming i) row0 row)

section
variable {config : GatewayConfig} {incoming : PId → Incoming} {drawer : String → Option PId} {db0 : Db}
  {row row' : TransferRecord} {i : PId} {w : Write}

theorem Traced.ordered (hw : w.transfer? = some row)
    (hmay : MayWriteTransfer config (incoming i) (fun id => drawer id = some i) none w) :
    Traced config incoming drawer db0 row := by
  cases hmay with
  | @ordered _ t hordered _ =>
    obtain rfl := Option.some.inj hw
    exact .inl ⟨i, t, rfl, hordered⟩

theorem Traced.step (h : Traced config incoming drawer db0 row)
    (hw : w.transfer? = some row') (hid : row.id = row'.id)
    (hmay : MayWriteTransfer config (incoming i) (fun id => drawer id = some i) (some row) w) :
    Traced config incoming drawer db0 row' := by
  cases hmay with
  | @ordered _ t hordered _ =>
    obtain rfl := Option.some.inj hw
    exact .inl ⟨i, t, rfl, hordered⟩
  | settled hsettles =>
    obtain rfl := Option.some.inj hw
    rcases h with ⟨j, t, rfl, hmine, horders⟩ | ⟨row0, hrow0, hid0, rfl | ⟨j, hbefore⟩⟩
    · obtain ⟨t', rfl, hid', horder⟩ := hsettles.order
      exact .inl ⟨j, t', rfl, hid' ▸ hmine, horder ▸ horders⟩
    · exact .inr ⟨row, hrow0, hid, .inr ⟨i, hsettles⟩⟩
    · -- A settled transfer is not settled again.
      have hover := hbefore.terminal.2
      rw [hsettles.terminal.1] at hover
      cases hover

end

/-- **Every transfer is its own request's, and the provider's news is the only other thing that changes one.** Whatever
is handled at once: a transfer has an initiator, an account, a recipient and an amount that the request which drew its
`id` has asked for, in the name of that request's user; or it was there at the start and is unchanged, or has been
settled once, by a callback that carries the secret and names the provider's reference of this transfer. -/
theorem transfers_written_by_authority (config : GatewayConfig) (incoming : PId → Incoming)
    (drawer : String → Option PId) (db0 : Db) (clock : Nat)
    {c : Config Op.Res Err Store Err HttpResponse}
    (hr : (scheduleOf (DrawnBy drawer)).Reach ⟨.init db0 clock, fun i => (incoming i).program config⟩ c) :
    ∀ row ∈ c.store.db.transfers.rows,
      (∃ i, drawer row.id = some i ∧ (incoming i).Orders row.order) ∨
        ∃ row0 ∈ db0.transfers.rows, row0.id = row.id ∧
          (row = row0 ∨ ∃ i, SettlesTransfer config (incoming i) row0 row) := by
  obtain ⟨sts, hinv⟩ := AuthorityInv.of_reach (fun i id => drawer id = some i) (fun _ => True)
    (fun _ _ _ _ h => h _ rfl) (fun _ _ _ _ _ _ _ => trivial) hr
  have hreplayed : c.store.db.transfers = Table.replay _ db0.transfers c.store.authored := hinv.transfers.replayed
  have htraced : ∀ row ∈ c.store.db.transfers.rows, Traced config incoming drawer db0 row := by
    rw [hreplayed]
    refine Table.Derived.all (fun e row hw hmay => ?_) (fun row e row' h hw hid hmay => ?_) hinv.transfers.history
      fun row hrow => .inr ⟨row, hrow, rfl, .inl rfl⟩
    · exact Traced.ordered hw hmay
    · exact h.step hw hid hmay
  intro row hrow
  rcases htraced row hrow with ⟨i, t, rfl, hid, horders⟩ | h
  · exact .inl ⟨i, hid, horders⟩
  · exact .inr h

/-- Program 1 draws the `id` of its transfer and of its journal, the webhook that of the settlement's journal. -/
def sampleDraws (id : String) : Option PId :=
  if id = "t2" ∨ id = "j" then some 1 else if id = "j2" then some 3 else none

theorem transfers_written_by_authority_sample : ∃ c : Config Op.Res Err Store Err HttpResponse,
    c.store.db.transfers.rows.map (fun r => (r.id, r.status)) = [("t", .SUCCESSFUL), ("t2", .SUCCESSFUL)] ∧
    ∀ row ∈ c.store.db.transfers.rows,
      (∃ i, sampleDraws row.id = some i ∧ (sampleIncoming i).Orders row.order) ∨
        ∃ row0 ∈ sampleBefore.transfers.rows, row0.id = row.id ∧
          (row = row0 ∨ ∃ i, SettlesTransfer sampleConfig (sampleIncoming i) row0 row) := by
  have hplay : ((scheduleOf (DrawnBy sampleDraws)).play sampleHandled sampleArrivals).any fun c =>
        c.store.db.transfers.rows.map (fun r => (r.id, r.status)) = [("t", .SUCCESSFUL), ("t2", .SUCCESSFUL)] := by
    decide +kernel
  obtain ⟨c, hc, hseen⟩ := System.play_seen _ hplay
  exact ⟨c, hseen, transfers_written_by_authority sampleConfig sampleIncoming sampleDraws sampleBefore 0
    (System.reach_of_play _ hc)⟩

end Kudi
