import KudiCore.Ledger.Clearing
import KudiCore.Transfers.LateFailure
import KudiCore.Transfers.Outages

/-!
# A webhook delivered until it goes through

| here | there |
| --- | --- |
| `Redelivered` | the provider delivers a webhook again as long as `execute` throws |
| `Standing`       | account balances, transfer statuses, and what each ledger account comes to |
| `Severs`      | a call between two writes of `ConfirmExternalTransferHandler.execute` that belong together |

The handler writes in three statements, and what a redelivery goes by is the status alone. On success the status is the
first of them, so a journal that has not been entered by then never will be; on failure it is the last, so the refund is
made again.
-/

namespace Kudi

open Interleave PrismaLedgerRecorderService

/-! ## Where things stand -/

@[ext] structure Standing where
  balance : String → Option Int
  status : String → Option TransactionStatus
  ledger : String → Int

def Db.standing (db : Db) : Standing :=
  ⟨fun id => (db.accounts.find? id).map (·.balance), fun id => (db.transfers.find? id).map (·.status),
    ledgerNet db.ledgerEntries⟩

namespace Standing

def credited (b : Standing) (id : String) (amount : Int) : Standing :=
  { b with balance := Function.update b.balance id ((b.balance id).map (· + amount)) }

def marked (b : Standing) (id : String) (status : TransactionStatus) : Standing :=
  { b with status := Function.update b.status id (some status) }

def posted (b : Standing) (legs : List LedgerPostingLeg) : Standing :=
  { b with ledger := fun id => b.ledger id + legsNet legs id }

/-- All that good news should lead to. -/
def settled (b : Standing) (total : Money) (t : Transfer) : Standing :=
  (b.marked t.id .SUCCESSFUL).posted (settlementLegs total t.amount t.fee)

/-- All that bad news should lead to. -/
def refunded (b : Standing) (accountId : String) (total : Money) (transferId : String) : Standing :=
  ((b.credited accountId total.minorUnits).posted (reversalLegs accountId total total)).marked transferId .REVERSED

theorem balance_refunded (b : Standing) (accountId : String) (total : Money) (transferId : String) :
    (b.refunded accountId total transferId).balance accountId =
      (b.balance accountId).map (· + (total.minorUnits : Int)) := Function.update_self ..

variable {db : Db}

theorem of_transfer (db : Db) (row : TransferRecord) :
    (db.apply (.transfer row)).standing = db.standing.marked row.id row.status := by
  refine Standing.ext rfl (funext fun id => ?_) rfl
  show ((db.transfers.put row).find? id).map (·.status) = _
  by_cases h : row.id = id
  · subst h
    simp [marked]
  · simp [marked, Function.update_of_ne (Ne.symm h), h, Db.standing]

theorem of_account {row old : AccountRecord} {amount : Int} (events : List AccountEvent)
    (hold : db.accounts.find? row.id = some old) (hb : row.balance = old.balance + amount) :
    (db.apply (.account row events)).standing = db.standing.credited row.id amount := by
  refine Standing.ext (funext fun id => ?_) rfl rfl
  show ((db.accounts.put row).find? id).map (·.balance) = _
  by_cases h : row.id = id
  · subst h
    simp [credited, Db.standing, hold, hb]
  · simp [credited, Function.update_of_ne (Ne.symm h), h, Db.standing]

theorem of_ledger (db : Db) {rows : List LedgerEntryRecord} {legs : List LedgerPostingLeg}
    (h : ∀ id, ledgerNet rows id = legsNet legs id) :
    (db.apply (.ledgerEntries rows)).standing = db.standing.posted legs :=
  Standing.ext rfl rfl (funext fun id => by
    show ledgerNet (db.ledgerEntries ++ rows) id = _
    rw [ledgerNet_append, h]
    rfl)

theorem credited_zero (b : Standing) (id : String) : b.credited id 0 = b := by
  refine Standing.ext (funext fun id' => ?_) rfl rfl
  by_cases h : id' = id
  · subst h
    simp [credited]
  · simp [credited]

theorem posted_zero (b : Standing) {legs : List LedgerPostingLeg} (h : ∀ leg ∈ legs, leg.amount.minorUnits = 0) :
    b.posted legs = b := by
  refine Standing.ext rfl rfl (funext fun id => ?_)
  have hzero : legsNet legs id = 0 := by
    refine List.sum_eq_zero fun n hn => ?_
    obtain ⟨leg, hleg, rfl⟩ := List.mem_map.1 hn
    cases leg.direction <;> simp [h leg hleg]
  show b.ledger id + legsNet legs id = b.ledger id
  rw [hzero, add_zero]

end Standing

/-! ## What a delivery finds -/

/-- The lookup comes back with `t`, which is still open. -/
structure Awaiting (providerReference : String) (r : TransferRecord) (t : Transfer) (db : Db) : Prop where
  found : db.transfers.rows.find? (fun r => r.providerReference = some providerReference) = some r
  loads : TransferMapper.toDomain r = .ok t
  processing : r.status = .PROCESSING

/-- The lookup comes back with a transfer that is settled or reversed. -/
def Over (providerReference : String) (db : Db) : Prop :=
  ∃ r, db.transfers.rows.find? (fun r => r.providerReference = some providerReference) = some r ∧
    r.status.isTerminal = true

namespace Awaiting

variable {providerReference : String} {r : TransferRecord} {t : Transfer} {db : Db}

theorem open_ (h : Awaiting providerReference r t db) : t.status.isTerminal = false := by
  rw [(TransferMapper.toDomain_ok h.loads).status, h.processing]
  rfl

theorem stored (h : Awaiting providerReference r t db) : db.transfers.find? t.id = some r := by
  rw [(TransferMapper.toDomain_ok h.loads).id]
  exact Table.find?_of_mem (List.mem_of_find?_eq_some h.found)

/-- Once the transfer has been marked and saved. -/
theorem handled (h : Awaiting providerReference r t db) {t' : Transfer} (hid : t'.id = t.id)
    (href : t'.providerReference = t.providerReference) (hstatus : t'.status.isTerminal = true) :
    Over providerReference (db.apply (.transfer (TransferMapper.toPersistence t'))) := by
  have hload := TransferMapper.toDomain_ok h.loads
  have hmine : r.providerReference = some providerReference := by simpa using List.find?_some h.found
  have hrow := h.stored
  rw [← hid] at hrow
  refine ⟨TransferMapper.toPersistence t', Table.find?_putRows_where _ ?_ hrow h.found, hstatus⟩
  exact decide_eq_true (href.trans (hload.providerReference.trans hmine))

/-- Writes to other tables are of no account. -/
theorem of_transfers {db' : Db} (h : Awaiting providerReference r t db) (ht : db'.transfers = db.transfers) :
    Awaiting providerReference r t db' where
  found := ht ▸ h.found
  loads := h.loads
  processing := h.processing

theorem save_does {i : PId} (h : Awaiting providerReference r t db) {t' : Transfer} (hid : t'.id = t.id)
    (hversion : t'.version = t.version + 1) :
    Does TimePasses i (At db) (· = .transfer .prisma (.updateMany (t'.version - 1) (TransferMapper.toPersistence t')))
      False (PrismaTransferRepository.save t') fun _ =>
        At (db.apply (.transfer (TransferMapper.toPersistence t'))) := by
  refine PrismaTransferRepository.save_does (at_stable _) (by omega) (fun s1 hs1 => ⟨r, ?_, ?_⟩)
    fun s1 hs1 => hs1.write i _
  · rw [hid, hs1]
    exact h.stored
  · rw [hversion, (TransferMapper.toDomain_ok h.loads).version]
    rfl

theorem total (h : Awaiting providerReference r t db) : ∃ total, t.amount.add t.fee = .ok total := by
  have hload := TransferMapper.toDomain_ok h.loads
  exact ⟨_, Money.add_ok.2 ⟨by rw [hload.amount, hload.fee], rfl⟩⟩

end Awaiting

/-- The source account takes the refund. -/
structure Creditable (accountId : String) (total : Money) (b : Account) (db : Db) : Prop where
  row : db.accounts.find? accountId = some (AccountMapper.toPersistence b)
  active : b.status = .ACTIVE
  currency : b.balance.currency = b.currency
  sameCurrency : total.currency = b.currency

namespace Creditable

variable {accountId : String} {total : Money} {b c : Account} {db : Db}

theorem of_accounts {db' : Db} (h : Creditable accountId total b db) (ha : db'.accounts = db.accounts) :
    Creditable accountId total b db' := ⟨ha ▸ h.row, h.active, h.currency, h.sameCurrency⟩

theorem credited {events : List AccountEvent} (h : Creditable accountId total b db)
    (hc : Creditable accountId total c (db.apply (.account (AccountMapper.toPersistence c) events)))
    (hbalance : c.balance.minorUnits = b.balance.minorUnits + total.minorUnits) :
    (db.apply (.account (AccountMapper.toPersistence c) events)).standing =
      db.standing.credited accountId total.minorUnits := by
  have hid : (AccountMapper.toPersistence c).id = accountId := Table.key_of_find? hc.row
  have hold : db.accounts.find? (AccountMapper.toPersistence c).id = some (AccountMapper.toPersistence b) := by
    rw [hid]
    exact h.row
  have hsum : (AccountMapper.toPersistence c).balance = (AccountMapper.toPersistence b).balance + total.minorUnits := by
    simp [AccountMapper.toPersistence, hbalance]
  rw [Standing.of_account events hold hsum, hid]

end Creditable

/-! ## One delivery -/

/-- Calls after which some of the writes that belong together have been made and others have not. -/
def Severs (isSuccessful : Bool) : Op → Prop
  | .ledgerEntry .. => True
  | .transfer _ (.updateMany ..) => isSuccessful = false
  | _ => False

theorem severs_of_onLedger {isSuccessful : Bool} {op : Op} (h : op.onLedger) : Severs isSuccessful op := by
  cases op <;> first | exact h.elim | trivial

theorem not_severs_of_isPublish {isSuccessful : Bool} {op : Op} (h : op.isPublish) : ¬ Severs isSuccessful op := by
  cases op <;> first | exact h.elim | exact id

section
variable (providerReference : String) (t : Transfer) (total : Money) (db : Db) (tr : List (Event Op.Res Err Store))
  (x : Except Err Unit) (db' : Db)

/-- What a delivery of **good news** comes to. -/
inductive SettleDelivery : Prop
  | nothing (herror : ∃ e, x = .error e) (hsame : db' = db) (hwhole : ¬ Stopped (Severs true) tr)
  | marked (herror : ∃ e, x = .error e) (hover : Over providerReference db')
      (hstanding : db'.standing = db.standing.marked t.id .SUCCESSFUL) (hsevered : Stopped (Severs true) tr)
  | settled (hover : Over providerReference db')
      (hstanding : db'.standing = db.standing.settled total t) (hwhole : ¬ Stopped (Severs true) tr)

/-- What a delivery of **bad news** comes to. In `credited` the account has its money back, and the transfer is still
awaiting the news. -/
inductive ReverseDelivery : Prop
  | nothing (herror : ∃ e, x = .error e) (hsame : db' = db) (hwhole : ¬ Stopped (Severs false) tr)
  | unmarked (herror : ∃ e, x = .error e) (hsame : db' = db) (hnobody : db.accounts.find? t.sourceAccountId = none)
  | marked (hover : Over providerReference db') (hstanding : db'.standing = db.standing.marked t.id .REVERSED)
      (hnobody : db.accounts.find? t.sourceAccountId = none)
  | credited (herror : ∃ e, x = .error e) (r : TransferRecord) (b c : Account)
      (hsource : Creditable t.sourceAccountId total b db) (hawaiting : Awaiting providerReference r t db')
      (hsource' : Creditable t.sourceAccountId total c db')
      (hbalance : db'.standing.balance t.sourceAccountId =
        (db.standing.balance t.sourceAccountId).map (· + (total.minorUnits : Int)))
      (hzero : total.minorUnits = 0 → db'.standing = db.standing) (hsevered : Stopped (Severs false) tr)
  | refunded (b : Account) (hsource : Creditable t.sourceAccountId total b db) (hover : Over providerReference db')
      (hstanding : db'.standing = db.standing.refunded t.sourceAccountId total t.id)
      (hwhole : ¬ Stopped (Severs false) tr)

end

section
variable {providerReference : String} {t : Transfer} {total : Money} {db : Db} {tr tr' : List (Event Op.Res Err Store)}
  {x : Except Err Unit} {db' : Db}

/-- What went through before makes no difference. -/
theorem SettleDelivery.after (hthrough : Through tr) (h : SettleDelivery providerReference t total db tr' x db') :
    SettleDelivery providerReference t total db (tr ++ tr') x db' := by
  cases h with
  | nothing herror hsame hwhole => exact .nothing herror hsame fun h => hwhole (h.of_append hthrough)
  | marked herror hover hstanding hsevered => exact .marked herror hover hstanding (hsevered.append hthrough)
  | settled hover hstanding hwhole => exact .settled hover hstanding fun h => hwhole (h.of_append hthrough)

theorem ReverseDelivery.after (hthrough : Through tr) (h : ReverseDelivery providerReference t total db tr' x db') :
    ReverseDelivery providerReference t total db (tr ++ tr') x db' := by
  cases h with
  | nothing herror hsame hwhole => exact .nothing herror hsame fun h => hwhole (h.of_append hthrough)
  | unmarked herror hsame hnobody => exact .unmarked herror hsame hnobody
  | marked hover hstanding hnobody => exact .marked hover hstanding hnobody
  | credited herror r b c hsource hawaiting hsource' hbalance hzero hsevered =>
    exact .credited herror r b c hsource hawaiting hsource' hbalance hzero (hsevered.append hthrough)
  | refunded b hsource hover hstanding hwhole =>
    exact .refunded b hsource hover hstanding fun h => hwhole (h.of_append hthrough)

end

namespace ConfirmExternalTransferHandler

variable {i : PId} {providerReference : String} {isSuccessful : Bool} {reason : Option String} {r : TransferRecord}
  {t : Transfer} {total : Money} {s s' : Store} {tr : List (Event Op.Res Err Store)} {x : Except Err Unit}

/-- The lookup goes through, or is rejected. -/
theorem execute_looks_up (h : Awaiting providerReference r t s.db)
    (hrun : Run anySchedule TimePasses i (execute ⟨providerReference, isSuccessful, reason⟩) s tr x s') :
    (∃ s1 tr1 tr2, s1.db = s.db ∧ Through tr1 ∧ tr = tr1 ++ tr2 ∧
      Run anySchedule TimePasses i (if isSuccessful then settle t else reverse reason t) s1 tr2 x s') ∨
    ((∃ e, x = .error e) ∧ s'.db = s.db ∧ ∀ b, ¬ Stopped (Severs b) tr) := by
  have hlookup : Does TimePasses i (At s.db) (· = .transfer .prisma (.findFirst providerReference)) False
      (PrismaTransferRepository.findByProviderReference providerReference) fun o s1 => At s.db s1 ∧ o = some t := by
    refine (PrismaTransferRepository.findByProviderReference_does (F := (· = some r)) (at_stable s.db)
      (fun s1 hs1 => hs1 ▸ h.found) fun row e hrow he => ?_).mono (fun _ h => h) (fun h => h) fun o s1 ho =>
        ⟨ho.1, ?_⟩
    · cases hrow
      exact nomatch h.loads.symm.trans he
    · cases o with
      | none => cases ho.2
      | some t' =>
        obtain ⟨row, hrow, ht'⟩ := ho.2
        cases hrow
        rw [Except.ok.inj (ht'.symm.trans h.loads)]
  have hrun : Run anySchedule TimePasses i (PrismaTransferRepository.findByProviderReference providerReference >>= _)
      s tr x s' := hrun
  rcases hrun.bind with ⟨o, s1, tr1, tr2, h1, h2, rfl⟩ | ⟨e, rfl, h1⟩
  · obtain ⟨hthrough, hs1, rfl⟩ := hlookup.returns rfl h1
    simp only [h.open_, Bool.false_eq_true, if_false] at h2
    exact .inl ⟨s1, tr1, tr2, hs1, hthrough, rfl, h2⟩
  · obtain ⟨hs, hstopped⟩ := hlookup.throws rfl h1
    refine .inr ⟨⟨e, rfl⟩, hs, fun b => ?_⟩
    refine (hstopped.resolve_right fun h => h.1).not_of_disjoint fun op hop => ?_
    rw [hop]
    exact id

theorem publishAll_delivery {events : List DomainEvent}
    (hrun : Run anySchedule TimePasses i (publishAll events) s tr x s') :
    s'.db = s.db ∧ ∀ b, ¬ Stopped (Severs b) tr := by
  have hpublish := publishAll_does (P := False) (i := i) (at_stable s.db) events
  rcases x with e | a
  · obtain ⟨hs', hstopped⟩ := hpublish.throws rfl hrun
    exact ⟨hs', fun b => (hstopped.resolve_right fun h => h.1).not_of_disjoint fun op => not_severs_of_isPublish⟩
  · obtain ⟨hthrough, hs'⟩ := hpublish.returns rfl hrun
    exact ⟨hs', fun b h => h.not_through hthrough⟩

theorem settle_delivery (h : Awaiting providerReference r t s.db) (htotal : t.amount.add t.fee = .ok total)
    (hrun : Run anySchedule TimePasses i (settle t) s tr x s') :
    SettleDelivery providerReference t total s.db tr x s'.db := by
  unfold settle at hrun
  rw [Transfer.markSuccessful_of h.open_] at hrun
  generalize hmarked : ({ t with
      status := .SUCCESSFUL
      version := t.version + 1
      domainEvents := t.domainEvents ++ [.completed t.id t.reference.value] } : Transfer) = marked at hrun
  have hid : marked.id = t.id := hmarked ▸ rfl
  have hstatus : marked.status = .SUCCESSFUL := hmarked ▸ rfl
  have hversion : marked.version = t.version + 1 := hmarked ▸ rfl
  have hamount : marked.amount = t.amount := hmarked ▸ rfl
  have hfee : marked.fee = t.fee := hmarked ▸ rfl
  have hmtotal : marked.amount.add marked.fee = .ok total := by rw [hamount, hfee, htotal]
  let row := TransferMapper.toPersistence marked
  have hover : Over providerReference (s.db.apply (.transfer row)) :=
    h.handled hid (hmarked ▸ rfl) (show marked.status.isTerminal = true by rw [hstatus]; rfl)
  have hstanding : (s.db.apply (.transfer row)).standing = s.db.standing.marked t.id .SUCCESSFUL := by
    rw [Standing.of_transfer, show row.id = t.id from hid, show row.status = .SUCCESSFUL from hstatus]
  have hsave := h.save_does (i := i) hid hversion
  have hpost : ∀ db, Does TimePasses i (At db) Op.onLedger False (postTransferJournal marked
      "external payout confirmed by webhook" (settlementLegs total marked.amount marked.fee))
      fun _ s1 => s1.db.standing = db.standing.posted (settlementLegs total t.amount t.fee) ∧
        s1.db.transfers = db.transfers := fun db => by
    refine post_does (at_stable db) (net_settlementLegs hmtotal) fun s1 rows hs1 hrows => ⟨?_, ?_⟩
    · rw [hs1.write i, Standing.of_ledger db hrows, hamount, hfee]
    · rw [hs1.write i]
      rfl
  have hrun : Run anySchedule TimePasses i (PrismaTransferRepository.save marked >>= _) s tr x s' := hrun
  rcases hrun.bind with ⟨_, s1, tr1, tr2, h1, h2, rfl⟩ | ⟨e, rfl, h1⟩
  · obtain ⟨hthrough, hs1⟩ := hsave.returns rfl h1
    rw [hmtotal] at h2
    have h2 : Run anySchedule TimePasses i (postTransferJournal marked "external payout confirmed by webhook"
        (settlementLegs total marked.amount marked.fee) >>= _) s1 tr2 x s' := h2
    rcases h2.bind with ⟨_, s2, tr3, tr4, h3, h4, rfl⟩ | ⟨e, rfl, h3⟩
    · obtain ⟨hthrough', hs2, htransfers⟩ := (hpost s1.db).returns rfl h3
      rw [show s1.db.standing = _ from (congrArg Db.standing hs1).trans hstanding] at hs2
      rw [hs1] at htransfers
      obtain ⟨hs', hstopped⟩ := publishAll_delivery h4
      refine .settled ?_ (hs' ▸ hs2) fun h => hstopped true ((h.of_append hthrough).of_append hthrough')
      obtain ⟨row', hrow', hterminal⟩ := hover
      exact ⟨row', by rw [hs', htransfers]; exact hrow', hterminal⟩
    · obtain ⟨hs', hstopped⟩ := (hpost s1.db).throws rfl h3
      have hs' : s'.db = s.db.apply (.transfer row) := hs'.trans hs1
      exact .marked ⟨e, rfl⟩ (hs' ▸ hover) (hs' ▸ hstanding)
        (((hstopped.resolve_right fun h => h.1).mono fun _ _ => severs_of_onLedger).append hthrough)
  · obtain ⟨hs, hstopped⟩ := hsave.throws rfl h1
    refine .nothing ⟨e, rfl⟩ hs ((hstopped.resolve_right fun h => h.1).not_of_disjoint fun op hop => ?_)
    rw [hop]
    exact Bool.noConfusion

/-- The credit once it has been made: it is not saved; or saved but not entered; or both. -/
theorem credit_delivery {b c : Account} {db : Db} {narration : String} {x : Except Err (List AccountEvent)}
    (h : Creditable t.sourceAccountId total b db) (hid : c.id = b.id) (hversion : c.version = b.version + 1)
    (hs : s.db = db)
    (hrun : Run anySchedule TimePasses i (do
      PrismaAccountRepository.save c
      postTransferJournal t narration (reversalLegs c.id c.balance total)
      return c.domainEvents) s tr x s') :
    ((∃ e, x = .error e) ∧ s'.db = db ∧ ∀ b, ¬ Stopped (Severs b) tr) ∨
    (∃ e, x = .error e) ∧ s'.db = db.apply (.account (AccountMapper.toPersistence c) c.domainEvents) ∧
      Stopped Op.onLedger tr ∨
    (∃ accountEvents, x = .ok accountEvents) ∧ Through tr ∧ ∃ rows,
      (∀ id, ledgerNet rows id = legsNet (reversalLegs t.sourceAccountId total total) id) ∧
      s'.db = (db.apply (.account (AccountMapper.toPersistence c) c.domainEvents)).apply (.ledgerEntries rows) := by
  have hsource : c.id = t.sourceAccountId := hid.trans (Table.key_of_find? (r := AccountMapper.toPersistence b) h.row)
  have hsave : Does TimePasses i (At db)
      (· = .account .prisma (.updateMany (c.version - 1) (AccountMapper.toPersistence c) c.domainEvents)) False
      (PrismaAccountRepository.save c)
      fun _ => At (db.apply (.account (AccountMapper.toPersistence c) c.domainEvents)) := by
    refine PrismaAccountRepository.save_does (at_stable db) (by omega) (fun s1 row hs1 _ _ => hs1.write i _)
      fun s1 hs1 hmissed => ?_
    refine hmissed (AccountMapper.toPersistence b) (by rw [hs1, hsource]; exact h.row) ?_
    show b.version = c.version - 1
    omega
  have hpost : Does TimePasses i (At (db.apply (.account (AccountMapper.toPersistence c) c.domainEvents))) Op.onLedger
      False (postTransferJournal t narration (reversalLegs c.id c.balance total)) fun _ s1 => ∃ rows,
        (∀ id, ledgerNet rows id = legsNet (reversalLegs t.sourceAccountId total total) id) ∧
        s1.db = (db.apply (.account (AccountMapper.toPersistence c) c.domainEvents)).apply (.ledgerEntries rows) :=
    post_does (at_stable _) (net_reversalLegs c.id c.balance total) fun s1 rows hs1 hrows =>
      ⟨rows, fun id => (hrows id).trans (by rw [hsource]; rfl), hs1.write i _⟩
  rcases hrun.bind with ⟨_, s1, tr1, tr2, h1, h2, rfl⟩ | ⟨e, rfl, h1⟩
  · obtain ⟨hthrough, hs1⟩ := hsave.returns hs h1
    refine .inr ?_
    rcases h2.bind with ⟨_, s2, tr3, tr4, h3, ⟨rfl, rfl, rfl⟩, rfl⟩ | ⟨e, rfl, h3⟩
    · obtain ⟨hthrough', rows, hrows, hs2⟩ := hpost.returns hs1 h3
      exact .inr ⟨⟨_, rfl⟩, hthrough.append (hthrough'.append .nil), rows, hrows, hs2⟩
    · obtain ⟨hs2, hstopped⟩ := hpost.throws hs1 h3
      exact .inl ⟨⟨e, rfl⟩, hs2, (hstopped.resolve_right fun h => h.1).append hthrough⟩
  · obtain ⟨hs1, hstopped⟩ := hsave.throws hs h1
    refine .inl ⟨⟨e, rfl⟩, hs1, fun b => (hstopped.resolve_right fun h => h.1).not_of_disjoint fun op hop => ?_⟩
    rw [hop]
    exact id

/-- The compensation comes to nothing; or there is no account to credit; or there is, and the credit is saved but not
entered, or both. -/
theorem compensate_delivery {narration : String} {x : Except Err (List AccountEvent)}
    (hrun : Run anySchedule TimePasses i (compensate t (.ok total) narration) s tr x s') :
    ((∃ e, x = .error e) ∧ s'.db = s.db ∧ ∀ b, ¬ Stopped (Severs b) tr) ∨
    (s.db.accounts.find? t.sourceAccountId = none ∧ s'.db = s.db ∧ x = .ok [] ∧ Through tr) ∨
    ∃ b c events, Creditable t.sourceAccountId total b s.db ∧
      Creditable t.sourceAccountId total c (s.db.apply (.account (AccountMapper.toPersistence c) events)) ∧
      c.balance.minorUnits = b.balance.minorUnits + total.minorUnits ∧
      ((∃ e, x = .error e) ∧ s'.db = s.db.apply (.account (AccountMapper.toPersistence c) events) ∧
          Stopped Op.onLedger tr ∨
        (∃ accountEvents, x = .ok accountEvents) ∧ Through tr ∧ ∃ rows,
          (∀ id, ledgerNet rows id = legsNet (reversalLegs t.sourceAccountId total total) id) ∧
          s'.db = (s.db.apply (.account (AccountMapper.toPersistence c) events)).apply (.ledgerEntries rows)) := by
  have hread : ∀ s1, At s.db s1 → s.db.accounts.find? t.sourceAccountId = s1.db.accounts.find? t.sourceAccountId :=
    fun s1 hs1 => by rw [hs1]
  have hfind := PrismaAccountRepository.findById_does (i := i) (P := True)
    (F := (s.db.accounts.find? t.sourceAccountId = ·)) (at_stable s.db) hread fun _ _ _ _ => trivial
  have hrun : Run anySchedule TimePasses i (PrismaAccountRepository.findById t.sourceAccountId >>= _) s tr x s' := hrun
  rcases hrun.bind with ⟨o, s1, tr1, tr2, h1, h2, rfl⟩ | ⟨e, rfl, h1⟩
  · obtain ⟨hthrough, hs1, ho⟩ := hfind.returns rfl h1
    cases o with
    | none =>
      obtain ⟨rfl, rfl, rfl⟩ := h2
      exact .inr (.inl ⟨ho, hs1, rfl, hthrough.append .nil⟩)
    | some b =>
      obtain ⟨row, hrow, hb⟩ := ho
      obtain ⟨rfl, hcurrency, hevents⟩ := AccountMapper.toDomain_ok hb
      have h2 : Run anySchedule TimePasses i (Prog.ofExcept (b.credit total s!"reversal:{t.reference.value}") >>= _)
        s1 tr2 x s' := h2
      rcases h2.ofExcept_bind with ⟨c, hc, h3⟩ | ⟨e, -, rfl, rfl, rfl⟩
      · obtain ⟨hactive, hsame, -, hcredited⟩ := Account.credit_ok.1 hc
        have h : Creditable t.sourceAccountId total b s.db := ⟨hrow, hactive, hcurrency, hsame⟩
        have hid : c.id = b.id := hcredited ▸ rfl
        rcases credit_delivery h hid (hcredited ▸ rfl) hs1 h3 with ⟨herror, hs, hstopped⟩ | hsaved
        · exact .inl ⟨herror, hs, fun b h => hstopped b (h.of_append hthrough)⟩
        · refine .inr (.inr ⟨b, c, c.domainEvents, h, ?_, by rw [hcredited], ?_⟩)
          · refine ⟨?_, ?_, ?_, ?_⟩
            · have hsource : (AccountMapper.toPersistence c).id = t.sourceAccountId :=
                hid.trans (Table.key_of_find? (r := AccountMapper.toPersistence b) hrow)
              rw [← hsource]
              exact Table.find?_put_self _ _
            · rw [hcredited]
              exact hactive
            · rw [hcredited]
              exact hcurrency
            · rw [hcredited]
              exact hsame
          · exact hsaved.imp (fun hs => ⟨hs.1, hs.2.1, hs.2.2.append hthrough⟩)
              fun hs => ⟨hs.1, hthrough.append hs.2.1, hs.2.2⟩
      · exact .inl ⟨⟨e, rfl⟩, hs1, fun b h => h.not_through (hthrough.append .nil)⟩
  · obtain ⟨hs, hstopped⟩ := hfind.throws rfl h1
    refine .inl ⟨⟨e, rfl⟩, hs, fun b => ?_⟩
    rcases hstopped with hstopped | ⟨-, hthrough⟩
    · refine hstopped.not_of_disjoint fun op hop => ?_
      rw [hop]
      exact id
    · exact fun h => h.not_through hthrough

theorem reverse_delivery (h : Awaiting providerReference r t s.db) (htotal : t.amount.add t.fee = .ok total)
    (hrun : Run anySchedule TimePasses i (reverse reason t) s tr x s') :
    ReverseDelivery providerReference t total s.db tr x s'.db := by
  unfold reverse at hrun
  rw [htotal, Transfer.markReversed_of h.open_] at hrun
  generalize hmarked : ({ t with
      status := .REVERSED
      failureReason := some (reason.getD "Payout failed at provider")
      version := t.version + 1
      domainEvents := t.domainEvents ++ [.reversed t.id t.reference.value] } : Transfer) = marked at hrun
  have hid : marked.id = t.id := hmarked ▸ rfl
  have hstatus : marked.status = .REVERSED := hmarked ▸ rfl
  have hversion : marked.version = t.version + 1 := hmarked ▸ rfl
  have hmark : ∀ {db : Db} {events : List DomainEvent} {s1 : Store} {tr2 : List (Event Op.Res Err Store)}
      (h1 : Awaiting providerReference r t db) (hs1 : s1.db = db) (h2 : Run anySchedule TimePasses i (do
        PrismaTransferRepository.save marked
        publishAll events) s1 tr2 x s'),
      ((∃ e, x = .error e) ∧ Stopped (Severs false) tr2 ∧ s'.db = db) ∨
        ¬ Stopped (Severs false) tr2 ∧ Over providerReference s'.db ∧
          s'.db.standing = db.standing.marked t.id .REVERSED := by
    intro db events s1 tr2 h1 hs1 h2
    have hsave := h1.save_does (i := i) hid hversion
    rcases h2.bind with ⟨_, s2, tr3, tr4, h3, h4, rfl⟩ | ⟨e, rfl, h3⟩
    · obtain ⟨hthrough, hs2⟩ := hsave.returns hs1 h3
      obtain ⟨hs', hstopped⟩ := publishAll_delivery h4
      have hs' : s'.db = db.apply (.transfer (TransferMapper.toPersistence marked)) := hs'.trans hs2
      refine .inr ⟨fun h => hstopped false (h.of_append hthrough), ?_, ?_⟩
      · rw [hs']
        exact h1.handled hid (hmarked ▸ rfl) (show marked.status.isTerminal = true by rw [hstatus]; rfl)
      · rw [hs', Standing.of_transfer]
        exact congrArg₂ (db.standing.marked · ·) hid hstatus
    · obtain ⟨hs', hstopped⟩ := hsave.throws hs1 h3
      refine .inl ⟨⟨e, rfl⟩, (hstopped.resolve_right fun h => h.1).mono fun event _ hop => ?_, hs'⟩
      rw [hop]
      rfl
  have hrun : Run anySchedule TimePasses i
      (compensate t (.ok total) "external payout failed at provider (late webhook)" >>= _) s tr x s' := hrun
  rcases hrun.bind with ⟨accountEvents, s1, tr1, tr2, h1, h2, rfl⟩ | ⟨e, rfl, h1⟩
  · have h2 : Run anySchedule TimePasses i (do
        PrismaTransferRepository.save marked
        publishAll (accountEvents.map .account ++ marked.pullDomainEvents.1.map .transfer)) s1 tr2 x s' := h2
    rcases compensate_delivery h1 with
      ⟨⟨e, he⟩, -⟩ | ⟨hnone, hs1, -, hthrough⟩ | ⟨b, c, events, hb, hc, hbalance, hpart⟩
    · cases he
    · rcases hmark h hs1 h2 with ⟨herror, -, hs'⟩ | ⟨-, hover, hs'⟩
      · exact .unmarked herror hs' hnone
      · exact .marked hover hs' hnone
    · rcases hpart with ⟨⟨e, he⟩, -⟩ | ⟨-, hthrough, rows, hrows, hs1⟩
      · cases he
      · have hstanding := (Standing.of_ledger _ hrows).trans
          (congrArg (Standing.posted · _) (hb.credited hc hbalance))
        rcases hmark (hs1 ▸ h.of_transfers (hs1 ▸ rfl)) hs1 h2 with ⟨herror, hstopped,
          hs'⟩ | ⟨hstopped, hover, hs'⟩
        · rw [← hs'] at hstanding
          refine .credited herror r b c hb (h.of_transfers (hs' ▸ rfl)) (hc.of_accounts (hs' ▸ rfl)) ?_
            (fun hzero => ?_) (hstopped.append hthrough)
          · rw [hstanding]
            exact Function.update_self ..
          · rw [hstanding, hzero, Standing.posted_zero _ (by simp [reversalLegs, hzero])]
            exact Standing.credited_zero _ _
        · rw [hstanding] at hs'
          exact .refunded b hb hover hs' fun h => hstopped (h.of_append hthrough)
  · rcases compensate_delivery h1 with ⟨herror, hs', hstopped⟩ | ⟨-, -, he, -⟩ | ⟨b, c, events, hb,
      hc, hbalance, hpart⟩
    · exact .nothing ⟨e, rfl⟩ hs' (hstopped false)
    · cases he
    · rcases hpart with ⟨-, hs', hstopped⟩ | ⟨⟨accountEvents, he⟩, -⟩
      · have hstanding := hb.credited hc hbalance
        rw [← hs'] at hstanding hc
        refine .credited ⟨e, rfl⟩ r b c hb (h.of_transfers (hs' ▸ rfl)) hc ?_ (fun hzero => ?_)
          (hstopped.mono fun _ _ => severs_of_onLedger)
        · rw [hstanding]
          exact Function.update_self ..
        · rw [hstanding, hzero]
          exact Standing.credited_zero _ _
      · cases he

theorem execute_settles (h : Awaiting providerReference r t s.db) (htotal : t.amount.add t.fee = .ok total)
    (hrun : Run anySchedule TimePasses i (execute ⟨providerReference, true, reason⟩) s tr x s') :
    SettleDelivery providerReference t total s.db tr x s'.db := by
  rcases execute_looks_up h hrun with ⟨s1, tr1, tr2, hs1, hthrough, rfl, h2⟩ | ⟨herror, hs', hstopped⟩
  · have hsettles := settle_delivery (hs1 ▸ h) htotal h2
    rw [hs1] at hsettles
    exact hsettles.after hthrough
  · exact .nothing herror hs' (hstopped true)

theorem execute_reverses (h : Awaiting providerReference r t s.db) (htotal : t.amount.add t.fee = .ok total)
    (hrun : Run anySchedule TimePasses i (execute ⟨providerReference, false, reason⟩) s tr x s') :
    ReverseDelivery providerReference t total s.db tr x s'.db := by
  rcases execute_looks_up h hrun with ⟨s1, tr1, tr2, hs1, hthrough, rfl, h2⟩ | ⟨herror, hs', hstopped⟩
  · have hreverses := reverse_delivery (hs1 ▸ h) htotal h2
    rw [hs1] at hreverses
    exact hreverses.after hthrough
  · exact .nothing herror hs' (hstopped false)

/-- The transfer is over: nothing is done. -/
theorem execute_over (h : Over providerReference s.db)
    (hrun : Run anySchedule TimePasses i (execute ⟨providerReference, isSuccessful, reason⟩) s tr x s') :
    s'.db = s.db ∧ ∀ b, ¬ Stopped (Severs b) tr := by
  obtain ⟨row, hfound, hterminal⟩ := h
  have hlookup := PrismaTransferRepository.findByProviderReference_does (P := True) (i := i) (F := (· = some row))
    (at_stable s.db) (fun s1 hs1 => hs1 ▸ hfound) fun _ _ _ _ => trivial
  have hrun : Run anySchedule TimePasses i (PrismaTransferRepository.findByProviderReference providerReference >>= _)
      s tr x s' := hrun
  rcases hrun.bind with ⟨o, s1, tr1, tr2, h1, h2, rfl⟩ | ⟨e, rfl, h1⟩
  · obtain ⟨hthrough, hs1, ho⟩ := hlookup.returns rfl h1
    cases o with
    | none => cases ho
    | some t =>
      obtain ⟨_, hrow, ht⟩ := ho
      cases hrow
      have hover : t.status.isTerminal = true := by rw [(TransferMapper.toDomain_ok ht).status, hterminal]
      simp only [hover, if_true] at h2
      obtain ⟨rfl, rfl, rfl⟩ := h2
      exact ⟨hs1, fun b h => h.not_through (hthrough.append .nil)⟩
  · obtain ⟨hs', hstopped⟩ := hlookup.throws rfl h1
    refine ⟨hs', fun b => ?_⟩
    rcases hstopped with hstopped | ⟨-, hthrough⟩
    · refine hstopped.not_of_disjoint fun op hop => ?_
      rw [hop]
      exact id
    · exact fun h => h.not_through hthrough

/-- A delivery that comes back has loaded what it has found. -/
theorem execute_loads
    (hfound : s.db.transfers.rows.find? (fun r => r.providerReference = some providerReference) = some r)
    (hrun : Run anySchedule TimePasses i (execute ⟨providerReference, isSuccessful, reason⟩) s tr (.ok ()) s') :
    ∃ t, TransferMapper.toDomain r = .ok t := by
  have hlookup := PrismaTransferRepository.findByProviderReference_does (P := True) (i := i) (F := (· = some r))
    (at_stable s.db) (fun s1 hs1 => hs1 ▸ hfound) fun _ _ _ _ => trivial
  have hrun : Run anySchedule TimePasses i (PrismaTransferRepository.findByProviderReference providerReference >>= _)
      s tr (.ok ()) s' := hrun
  rcases hrun.bind with ⟨o, s1, tr1, tr2, h1, -, -⟩ | ⟨e, he, -⟩
  · obtain ⟨-, -, ho⟩ := hlookup.returns rfl h1
    cases o with
    | none => cases ho
    | some t =>
      obtain ⟨_, hrow, ht⟩ := ho
      cases hrow
      exact ⟨t, ht⟩
  · cases he

end ConfirmExternalTransferHandler

/-! ## Until it goes through -/

/-- `failed` are the deliveries that threw, and the next one did not. -/
inductive Redelivered (command : ConfirmExternalTransferCommand) :
    Store → List (List (Event Op.Res Err Store)) → Store → Prop
  | returns {i : PId} {s : Store} {tr : List (Event Op.Res Err Store)} {s' : Store}
      (hrun : Run anySchedule TimePasses i (ConfirmExternalTransferHandler.execute command) s tr (.ok ()) s') :
      Redelivered command s [] s'
  | throws {i : PId} {s : Store} {tr : List (Event Op.Res Err Store)} {e : Err} {s1 : Store}
      {failed : List (List (Event Op.Res Err Store))} {s' : Store}
      (hrun : Run anySchedule TimePasses i (ConfirmExternalTransferHandler.execute command) s tr (.error e) s1)
      (rest : Redelivered command s1 failed s') : Redelivered command s (tr :: failed) s'

namespace Redelivered

variable {providerReference : String} {isSuccessful : Bool} {reason : Option String} {r : TransferRecord}
  {t : Transfer} {total : Money} {s s' : Store} {failed : List (List (Event Op.Res Err Store))}

theorem handled (h : Over providerReference s.db)
    (hd : Redelivered ⟨providerReference, isSuccessful, reason⟩ s failed s') :
    s'.db = s.db ∧ ∀ tr ∈ failed, ∀ b, ¬ Stopped (Severs b) tr := by
  induction hd with
  | returns hrun => exact ⟨(ConfirmExternalTransferHandler.execute_over h hrun).1, by simp⟩
  | throws hrun rest ih =>
    obtain ⟨hs1, hstopped⟩ := ConfirmExternalTransferHandler.execute_over h hrun
    obtain ⟨hs', hall⟩ := ih (hs1 ▸ h)
    exact ⟨hs'.trans hs1, List.forall_mem_cons.2 ⟨hstopped, hall⟩⟩

/-- Good news: the journal is entered unless a delivery was severed. -/
theorem settled (h : Awaiting providerReference r t s.db) (htotal : t.amount.add t.fee = .ok total)
    (hd : Redelivered ⟨providerReference, true, reason⟩ s failed s') :
    (∀ tr ∈ failed, ¬ Stopped (Severs true) tr) ∧ s'.db.standing = s.db.standing.settled total t ∨
      (∃ tr ∈ failed, Stopped (Severs true) tr) ∧ s'.db.standing = s.db.standing.marked t.id .SUCCESSFUL := by
  induction hd with
  | returns hrun =>
    cases ConfirmExternalTransferHandler.execute_settles h htotal hrun with
    | nothing herror | marked herror => exact nomatch herror
    | settled hover hstanding => exact .inl ⟨by simp, hstanding⟩
  | throws hrun rest ih =>
    cases ConfirmExternalTransferHandler.execute_settles h htotal hrun with
    | nothing _ hsame hwhole =>
      rw [hsame] at ih
      refine (ih h).imp (And.imp_left fun hall => List.forall_mem_cons.2 ⟨hwhole, hall⟩) (And.imp_left ?_)
      exact fun ⟨tr, htr, hsevered⟩ => ⟨tr, List.mem_cons_of_mem _ htr, hsevered⟩
    | marked _ hover hstanding hsevered =>
      exact .inr ⟨⟨_, List.mem_cons_self, hsevered⟩, (rest.handled hover).1 ▸ hstanding⟩
    | settled hover hstanding hwhole =>
      obtain ⟨hs', hall⟩ := rest.handled hover
      exact .inl ⟨List.forall_mem_cons.2 ⟨hwhole, fun tr htr => hall tr htr true⟩, hs' ▸ hstanding⟩

/-- Bad news, and nobody to refund. -/
theorem marked (h : Awaiting providerReference r t s.db) (htotal : t.amount.add t.fee = .ok total)
    (hnobody : s.db.accounts.find? t.sourceAccountId = none)
    (hd : Redelivered ⟨providerReference, false, reason⟩ s failed s') :
    s'.db.standing = s.db.standing.marked t.id .REVERSED := by
  induction hd with
  | returns hrun =>
    cases ConfirmExternalTransferHandler.execute_reverses h htotal hrun with
    | nothing herror | unmarked herror | credited herror => exact nomatch herror
    | marked _ hstanding => exact hstanding
    | refunded b hsource => exact nomatch hnobody.symm.trans hsource.row
  | throws hrun rest ih =>
    cases ConfirmExternalTransferHandler.execute_reverses h htotal hrun with
    | nothing _ hsame | unmarked _ hsame =>
      rw [hsame] at ih
      exact ih h hnobody
    | marked hover hstanding => exact (rest.handled hover).1 ▸ hstanding
    | credited _ _ b _ hsource | refunded b hsource => exact nomatch hnobody.symm.trans hsource.row

/-- Bad news: the refund is made once more for each delivery that was severed. -/
theorem refunded {b : Account} (h : Awaiting providerReference r t s.db) (htotal : t.amount.add t.fee = .ok total)
    (hsource : Creditable t.sourceAccountId total b s.db)
    (hd : Redelivered ⟨providerReference, false, reason⟩ s failed s') : ∃ again : Nat,
    (again = 0 ↔ ∀ tr ∈ failed, ¬ Stopped (Severs false) tr) ∧
    s'.db.standing.balance t.sourceAccountId =
      (s.db.standing.balance t.sourceAccountId).map (· + (again + 1) * (total.minorUnits : Int)) ∧
    (again = 0 ∨ total.minorUnits = 0 →
      s'.db.standing = s.db.standing.refunded t.sourceAccountId total t.id) := by
  induction hd generalizing r b with
  | returns hrun =>
    cases ConfirmExternalTransferHandler.execute_reverses h htotal hrun with
    | nothing herror | unmarked herror | credited herror => exact nomatch herror
    | marked _ _ hnobody => exact nomatch hnobody.symm.trans hsource.row
    | refunded _ _ _ hstanding =>
      exact ⟨0, by simp, by simp [hstanding, Standing.balance_refunded], fun _ => hstanding⟩
  | throws hrun rest ih =>
    cases ConfirmExternalTransferHandler.execute_reverses h htotal hrun with
    | nothing _ hsame hwhole =>
      rw [hsame] at ih
      obtain ⟨again, hagain, hrest⟩ := ih h hsource
      exact ⟨again, by rw [hagain, List.forall_mem_cons, and_iff_right hwhole], hrest⟩
    | unmarked _ _ hnobody | marked _ _ hnobody => exact nomatch hnobody.symm.trans hsource.row
    | credited _ r1 _ c _ hawaiting hsource' hcredited hzero hsevered =>
      obtain ⟨again, hagain, hfinal, hdone⟩ := ih hawaiting hsource'
      refine ⟨again + 1, iff_of_false (Nat.succ_ne_zero _) fun hall => hall _ List.mem_cons_self hsevered, ?_,
        fun hz => ?_⟩
      · rw [hfinal, hcredited, Option.map_map]
        congr 1
        funext balance
        simp only [Function.comp, Nat.cast_add, Nat.cast_one]
        ring
      · have hz := hz.resolve_left (Nat.succ_ne_zero _)
        rw [hdone (.inr hz), hzero hz]
    | refunded _ _ hover hstanding hwhole =>
      obtain ⟨hs', hall⟩ := rest.handled hover
      refine ⟨0, iff_of_true rfl (List.forall_mem_cons.2 ⟨hwhole, fun tr htr => hall tr htr false⟩), ?_,
        fun _ => hs' ▸ hstanding⟩
      simp [hs', hstanding, Standing.balance_refunded]

end Redelivered

/-- What a journal of nothing but zeros comes to. -/
theorem Standing.settled_zero (b : Standing) {t : Transfer} {total : Money} (htotal : t.amount.add t.fee = .ok total)
    (hzero : total.minorUnits = 0) : b.settled total t = b.marked t.id .SUCCESSFUL := by
  obtain ⟨-, rfl⟩ := Money.add_ok.1 htotal
  have hzero : t.amount.minorUnits + t.fee.minorUnits = 0 := hzero
  refine Standing.posted_zero _ fun leg hleg => ?_
  have hfee : t.fee.isZero = true := by simp [Money.isZero]; omega
  simp only [settlementLegs, feeLegs, hfee, if_true, List.append_nil, List.mem_cons, List.not_mem_nil, or_false] at hleg
  rcases hleg with rfl | rfl
  · exact hzero
  · show t.amount.minorUnits = 0
    omega

/-- **A webhook delivered until it goes through leaves things as a single delivery would**, if there is nothing to
move, if there is nobody to refund, or if no delivery was severed; and only then. -/
theorem redelivered_as_once_iff {providerReference : String} {isSuccessful : Bool} {reason : Option String}
    {r : TransferRecord} {i : PId} {s s₀ s' : Store} {tr : List (Event Op.Res Err Store)}
    {failed : List (List (Event Op.Res Err Store))}
    (hfound : s.db.transfers.rows.find? (fun r => r.providerReference = some providerReference) = some r)
    (hprocessing : r.status = .PROCESSING)
    (honce : Run anySchedule TimePasses i
      (ConfirmExternalTransferHandler.execute ⟨providerReference, isSuccessful, reason⟩) s tr (.ok ()) s₀)
    (hd : Redelivered ⟨providerReference, isSuccessful, reason⟩ s failed s') :
    s'.db.standing = s₀.db.standing ↔
      r.amountMinorUnits + r.feeMinorUnits = 0 ∨
      (isSuccessful = false ∧ s.db.accounts.find? r.sourceAccountId = none) ∨
      ∀ tr ∈ failed, ¬ Stopped (Severs isSuccessful) tr := by
  obtain ⟨t, hload⟩ := ConfirmExternalTransferHandler.execute_loads hfound honce
  have h : Awaiting providerReference r t s.db := ⟨hfound, hload, hprocessing⟩
  have hloads := TransferMapper.toDomain_ok hload
  obtain ⟨total, htotal⟩ := h.total
  have hzero : r.amountMinorUnits + r.feeMinorUnits = 0 ↔ total.minorUnits = 0 := by
    obtain ⟨hamount, hfee⟩ := TransferMapper.toDomain_amounts hload
    obtain ⟨-, rfl⟩ := Money.add_ok.1 htotal
    show _ ↔ t.amount.minorUnits + t.fee.minorUnits = 0
    omega
  rw [hzero, ← hloads.sourceAccountId]
  cases isSuccessful with
  | true =>
    have hdone : s₀.db.standing = s.db.standing.settled total t := by
      rcases Redelivered.settled h htotal (.returns honce) with ⟨-, hs₀⟩ | ⟨⟨_, hnil, -⟩, -⟩
      · exact hs₀
      · cases hnil
    rcases hd.settled h htotal with ⟨hwhole, hs'⟩ | ⟨⟨tr, htr, hsevered⟩, hs'⟩
    · exact iff_of_true (hs'.trans hdone.symm) (.inr (.inr hwhole))
    · rw [hs', hdone]
      constructor
      · intro hsame
        refine .inl ?_
        have hclearing := (settlementLegs_relieve total t.amount t.fee).clearing total.currency
        have hledger := congrFun (congrArg Standing.ledger hsame)
          (SystemLedgerAccount.externalPayoutClearing total.currency)
        simp only [Standing.settled, Standing.posted, hclearing, Money.totals, if_true] at hledger
        omega
      · rintro (hz | ⟨hfalse, -⟩ | hwhole)
        · exact (Standing.settled_zero _ htotal hz).symm
        · cases hfalse
        · exact absurd hsevered (hwhole tr htr)
  | false =>
    cases ConfirmExternalTransferHandler.execute_reverses h htotal honce with
    | nothing herror | unmarked herror | credited herror =>
      obtain ⟨_, herror⟩ := herror
      cases herror
    | marked _ hdone hnobody =>
      exact iff_of_true ((hd.marked h htotal hnobody).trans hdone.symm) (.inr (.inl ⟨rfl, hnobody⟩))
    | refunded b hsource _ hdone =>
      obtain ⟨again, hagain, hbalance, hs'⟩ := hd.refunded h htotal hsource
      rw [← hagain]
      constructor
      · intro hsame
        have hheld : s.db.standing.balance t.sourceAccountId = some (b.balance.minorUnits : Int) :=
          congrArg (Option.map AccountRecord.balance) hsource.row
        rw [hsame, hdone, Standing.balance_refunded, hheld, Option.map_some, Option.map_some,
          Option.some.injEq] at hbalance
        have hagain : again = 0 ∨ total.minorUnits = 0 := by simpa [add_mul] using hbalance
        exact hagain.elim (.inr ∘ .inr) .inl
      · rintro (hz | ⟨-, hnobody⟩ | hnone)
        · exact (hs' (.inr hz)).trans hdone.symm
        · cases hnobody.symm.trans hsource.row
        · exact (hs' (.inl hnone)).trans hdone.symm

/-- The news that payout 7 has gone through. -/
def sampleGoodNews : Handler Unit := ConfirmExternalTransferHandler.execute ⟨"7", true, none⟩

/-- What `external-payout-clearing` in naira comes to. -/
def sampleClearing (s : Store) : Int := ledgerNet s.db.ledgerEntries (SystemLedgerAccount.externalPayoutClearing .NGN)

/-- A delivery whose lookup is rejected changes nothing. -/
theorem redelivered_as_once_iff_sample : ∃ i s₀ s' tr failed, failed ≠ [] ∧
    Run anySchedule TimePasses i sampleGoodNews (sampleLate sampleEmptied) tr (.ok ()) s₀ ∧
    Redelivered ⟨"7", true, none⟩ (sampleLate sampleEmptied) failed s' ∧ sampleClearing s' = -6000 ∧
    (s'.db.standing = s₀.db.standing ↔
      sampleInFlight.amountMinorUnits + sampleInFlight.feeMinorUnits = 0 ∨
      (true = false ∧ (sampleLate sampleEmptied).db.accounts.find? sampleInFlight.sourceAccountId = none) ∨
      ∀ tr ∈ failed, ¬ Stopped (Severs true) tr) := by
  have hat : ∀ s, TimePasses s s := fun s => ⟨0, rfl⟩
  have honce : (playRun anySchedule 0 [.ok, .ok, .uuid "j", .ok, .ok, .ok, .ok, .ok] sampleGoodNews
      (sampleLate sampleEmptied)).any fun r => r.2.1 = .ok () := by
    decide +kernel
  have hfirst : (playRun anySchedule 0 [.fail connectionLost] sampleGoodNews (sampleLate sampleEmptied)).any fun r =>
      r.2.1 = .error connectionLost ∧ (playRun anySchedule 0 [.ok, .ok, .uuid "j", .ok, .ok, .ok, .ok, .ok]
        sampleGoodNews r.2.2).any fun r => r.2.1 = .ok () ∧ sampleClearing r.2.2 = -6000 := by
    decide +kernel
  obtain ⟨tr, x, s₀, hrun, rfl⟩ := playRun_seen (Q := fun _ x _ => x = .ok ()) honce
  obtain ⟨tr₁, x, s₁, hrun₁, rfl, hnext⟩ := playRun_seen (Q := fun _ x s₁ => x = .error connectionLost ∧
    (playRun anySchedule 0 [.ok, .ok, .uuid "j", .ok, .ok, .ok, .ok, .ok] sampleGoodNews s₁).any fun r =>
      r.2.1 = .ok () ∧ sampleClearing r.2.2 = -6000) hfirst
  obtain ⟨tr₂, x, s', hrun₂, rfl, hclearing⟩ := playRun_seen
    (Q := fun _ x s' => x = .ok () ∧ sampleClearing s' = -6000) hnext
  have hd : Redelivered ⟨"7", true, none⟩ (sampleLate sampleEmptied) [tr₁] s' :=
    .throws (run_of_play hat hrun₁) (.returns (run_of_play hat hrun₂))
  have honce := run_of_play hat hrun
  exact ⟨0, s₀, s', tr, [tr₁], List.cons_ne_nil _ _, honce, hd, hclearing,
    redelivered_as_once_iff rfl rfl honce hd⟩

/-- The journal is rejected; the transfer is SUCCESSFUL by then, and the next delivery finds nothing left to do. -/
theorem redelivery_skips_journal : ∃ i s₀ s' tr failed,
    Run anySchedule TimePasses i sampleGoodNews (sampleLate sampleEmptied) tr (.ok ()) s₀ ∧
    Redelivered ⟨"7", true, none⟩ (sampleLate sampleEmptied) failed s' ∧
    sampleClearing s₀ = -6000 ∧ sampleClearing s' = 0 ∧ s'.db.standing ≠ s₀.db.standing := by
  have hat : ∀ s, TimePasses s s := fun s => ⟨0, rfl⟩
  have honce : (playRun anySchedule 0 [.ok, .ok, .uuid "j", .ok, .ok, .ok, .ok, .ok] sampleGoodNews
      (sampleLate sampleEmptied)).any fun r => r.2.1 = .ok () ∧ sampleClearing r.2.2 = -6000 := by
    decide +kernel
  have hfirst : (playRun anySchedule 0 [.ok, .ok, .uuid "j", .ok, .ok, .ok, .fail connectionLost] sampleGoodNews
      (sampleLate sampleEmptied)).any fun r => r.2.1 = .error connectionLost ∧
        (playRun anySchedule 0 [.ok] sampleGoodNews r.2.2).any fun r => r.2.1 = .ok () ∧
          sampleClearing r.2.2 = 0 := by
    decide +kernel
  obtain ⟨tr, x, s₀, hrun, rfl, hentered⟩ := playRun_seen
    (Q := fun _ x s₀ => x = .ok () ∧ sampleClearing s₀ = -6000) honce
  obtain ⟨tr₁, x, s₁, hrun₁, rfl, hnext⟩ := playRun_seen (Q := fun _ x s₁ => x = .error connectionLost ∧
    (playRun anySchedule 0 [.ok] sampleGoodNews s₁).any fun r => r.2.1 = .ok () ∧ sampleClearing r.2.2 = 0) hfirst
  obtain ⟨tr₂, x, s', hrun₂, rfl, hskipped⟩ := playRun_seen
    (Q := fun _ x s' => x = .ok () ∧ sampleClearing s' = 0) hnext
  refine ⟨0, s₀, s', tr, [tr₁], run_of_play hat hrun,
    .throws (run_of_play hat hrun₁) (.returns (run_of_play hat hrun₂)), hentered, hskipped, fun hsame => ?_⟩
  have hledger : sampleClearing s' = sampleClearing s₀ :=
    congrFun (congrArg Standing.ledger hsame) (SystemLedgerAccount.externalPayoutClearing .NGN)
  rw [hentered, hskipped] at hledger
  cases hledger

end Kudi
