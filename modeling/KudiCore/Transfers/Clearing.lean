import KudiCore.Ledger.Clearing
import KudiCore.Transfers.Sequential
import KudiCore.Concurrency.LostUpdates

/-!
# The clearing account holds what is outstanding

| here | there |
| --- | --- |
| `Clears` | a handler that finds the two ledger accounts `Balanced` leaves them so, returning or throwing |
| `Stored` | an open external transfer in memory, and the row it was saved as or loaded from |

Handlers run one at a time. The hold is relieved in four places: settled at once, refused at once, settled late, refused
late. Each of them posts the opposite of the hold, and where it cannot go on to do so it has not touched the row.
-/

namespace Kudi

open Interleave

/-- From balanced accounts to balanced accounts. -/
def Clears (i : PId) {ε α : Type} (p : Program ε α) : Prop :=
  Upholds (scheduleOf OnlyPayoutsRefused) TimePasses i (fun s => Balanced s.db) p

section
variable {i : PId} {ε α β : Type} {db : Db}

theorem Balanced.at {s : Store} (h : Balanced db) (hs : At db s) : Balanced s.db := by
  rw [hs]
  exact h

/-- Calls on the idempotency key, and calls that only read. -/
def Op.IsAside (op : Op) : Prop := op.mutates = false ∨ ∃ q, op = .idempotencyKey q

namespace Clears

theorem of_db {p : Program ε α} (hp : ∀ db, Balanced db →
    Alone i (At db) p (fun _ s => Balanced s.db) fun _ s => Balanced s.db) : Clears i p := Triple.of_forall hp

theorem bind {p : Program ε α} {f : α → Program ε β} (hp : Clears i p) (hf : ∀ a, Clears i (f a)) :
    Clears i (p >>= f) :=
  Upholds.bind hp hf

theorem tryCatch {ε' : Type} {p : Program ε α} {h : ε → Program ε' α} (hp : Clears i p)
    (hh : ∀ e, Clears i (h e)) :
    Clears i (p.tryCatch h) := Upholds.tryCatch hp hh

theorem pure (a : α) : Clears i (.pure a : Program ε α) := Upholds.pure
theorem throw (e : ε) : Clears i (.throw e : Program ε α) := Upholds.throw

theorem ofExcept_bind {x : Except ε α} {f : α → Program ε β} (hf : ∀ a, x = .ok a → Clears i (f a)) :
    Clears i (Prog.ofExcept x >>= f) := Triple.ofExcept_bind hf fun _ _ _ h => h

theorem of_calls {p : Program ε α} (hp : p.Calls Op.IsAside) : Clears i p := by
  refine Upholds.of_calls hp (fun hs h => ?_) fun {s op a r s'} h hop _ hx => ?_
  · obtain ⟨ms, rfl⟩ := hs
    exact h
  · rcases hop with hop | ⟨q, rfl⟩
    · rw [(exec_read hop hx).db]
      exact h
    · rcases r with e | x
      · rw [((exec_error hx).resolve_right nofun).db]
        exact h
      · rcases exec_idempotencyKey_write hx with rfl | ⟨w, rfl, ha, ht, hl, -⟩
        · exact h
        · refine Tallies.of_eq h ?_ ?_ ?_
          · exact Db.apply_accounts_of_none ha s.db
          · exact Db.apply_transfers_of_none ht s.db
          · rw [Store.db_write_prisma, Db.apply_ledgerEntries, hl, List.append_nil]

theorem read (hp : Handler α) (h : hp.Calls fun op => op.mutates = false) : Clears i hp :=
  of_calls (h.mono fun _ => .inl)

end Clears

theorem run_clears {o : Operation α} (he : Clears i o.execute) (hr : ∀ resourceId, Clears i (o.rehydrate resourceId))
    (userId scope : String) (key : Option String) (fuel : Nat) :
    Clears i (IdempotencyGuardService.run userId scope key fuel o) := by
  have one : ∀ {op : Op}, op.IsAside → Clears i (Prog.await op) := fun h => .of_calls (.await h)
  have unguarded : Clears i (do return (← o.execute).2 : Handler α) := .bind he fun _ => .pure _
  unfold IdempotencyGuardService.run
  split
  · exact unguarded
  · exact unguarded
  · refine .bind (.of_calls (PrismaIdempotencyKeyRepository.tryAcquire_calls (fun q => .inr ⟨q, rfl⟩)
      (.inl rfl) _ _))
      fun acquisition => ?_
    cases acquisition with
    | COMPLETED resourceId => exact hr resourceId
    | IN_PROGRESS => exact .throw _
    | ACQUIRED =>
      refine .tryCatch (.bind ?_ fun _ => .bind (one (.inr ⟨_, rfl⟩)) fun _ => .pure _) fun _ =>
        .bind (one (.inr ⟨_, rfl⟩)) fun _ => .throw _
      exact .bind (one (.inl rfl)) fun _ => .bind (.tryCatch he fun _ => .bind (one (.inl rfl)) fun _ => .throw _)
        fun _ => .bind (one (.inl rfl)) fun _ => .pure _

/-! ## The account handlers -/

/-- The row that an account loaded from `row` is saved to. -/
theorem saved_row {id : String} {row : AccountRecord} {a a' : Account} (hrow : db.accounts.find? id = some row)
    (hl : AccountMapper.toDomain row = .ok a) (hid : a'.id = a.id) :
    a'.id = id ∧ ∃ row', db.accounts.find? (AccountMapper.toPersistence a').id = some row' := by
  have haid : a.id = row.id := congrArg AccountRecord.id (AccountMapper.toDomain_ok hl).1
  have hkey : a'.id = id := (hid.trans haid).trans (Table.key_of_find? hrow)
  exact ⟨hkey, row, by rw [show (AccountMapper.toPersistence a').id = id from hkey]; exact hrow⟩

theorem mutateAccount_clears {accountId : String} {mutate : Account → Handler Account}
    (hcalls : ∀ a, (mutate a).Calls fun op => op.mutates = false)
    (hid : ∀ a row, AccountMapper.toDomain row = .ok a → (mutate a).Returns fun a' => a'.id = a.id) :
    Clears i (mutateAccount accountId mutate) := by
  refine .of_db fun db hb => ?_
  refine PrismaAccountRepository.findById_alone_bind (fun _ => .throw fun _ h => hb.at h) (fun a row hrow hl => ?_)
    fun _ _ h => hb.at h
  refine Alone.reads_bind at_ofRows (hcalls a) (hid a row hl) (fun a' ha' => ?_) fun _ _ h => hb.at h
  refine .bind ((PrismaAccountRepository.save_alone a').mono (fun _ h => h) (fun _ _ h => h) fun _ _ h => hb.at h)
    fun _ => .of_exists fun events => ?_
  have hb' : Balanced (db.apply (.account (AccountMapper.toPersistence a') events)) :=
    hb.saveAccount events (saved_row hrow hl ha').2
  exact .bind ((publishAll_alone at_ofRows _).mono (fun _ h => h) (fun _ _ h => h) fun _ _ h => h.elim)
    fun _ => .pure fun _ h => hb'.at h

theorem credit_clears (command : CreditAccountCommand) : Clears i (CreditAccountHandler.execute command) := by
  refine mutateAccount_clears (fun a => .bind (.ofExcept _) fun amount =>
    .bind (MaxBalanceGuardService.assertWithinLimit_calls (fun _ => rfl) _ _) fun _ => .ofExcept _) fun a row hl => ?_
  refine .bind (Prog.returns_true _) fun amount _ => .bind (Prog.returns_true _) fun _ _ => .ofExcept fun a' hc => ?_
  obtain ⟨-, -, -, rfl⟩ := Account.credit_ok.1 hc
  rfl

theorem debit_clears (command : DebitAccountCommand) : Clears i (DebitAccountHandler.execute command) := by
  refine mutateAccount_clears (fun a => .bind (.ofExcept _) fun amount => .ofExcept _) fun a row hl => ?_
  refine .bind (Prog.returns_true _) fun amount _ => .ofExcept fun a' hd => ?_
  obtain ⟨-, -, -, rfl⟩ := (Account.debit_ok (AccountMapper.toDomain_ok hl).2.1).1 hd
  rfl

theorem freeze_clears (command : FreezeAccountCommand) : Clears i (FreezeAccountHandler.execute command) :=
  mutateAccount_clears (fun _ => trivial) fun _ _ _ => rfl

theorem unfreeze_clears (command : UnfreezeAccountCommand) : Clears i (UnfreezeAccountHandler.execute command) :=
  mutateAccount_clears (fun _ => trivial) fun _ _ _ => rfl

theorem activate_clears (command : ActivateAccountCommand) : Clears i (ActivateAccountHandler.execute command) :=
  mutateAccount_clears (fun _ => trivial) fun _ _ _ => rfl

theorem close_clears (command : CloseAccountCommand) : Clears i (CloseAccountHandler.execute command) := by
  refine mutateAccount_clears (fun _ => .ofExcept _) fun a row _ => .ofExcept fun a' hc => ?_
  unfold Account.close at hc
  split at hc
  · cases hc
  · cases hc
    rfl

/-! ## Open external transfers -/

/-- `t` is open and external, and `r` is its row. -/
structure Stored (t : Transfer) (r : TransferRecord) (transfers : Table TransferRecord.id) : Prop where
  row : transfers.find? t.id = some r
  version : r.version = t.version
  external : t.type = .EXTERNAL
  type : r.type = t.type
  open_ : t.status.isTerminal = false
  status : r.status = t.status
  source : r.sourceAccountId = t.sourceAccountId
  amount : r.amountMinorUnits = t.amount.minorUnits
  fee : r.feeMinorUnits = t.fee.minorUnits
  currency : r.currency = t.amount.currency

/-- One mutator of the transfer: what it leaves as it is. -/
structure Advanced (t t' : Transfer) : Prop where
  id : t'.id = t.id
  version : t'.version = t.version + 1
  type : t'.type = t.type
  source : t'.sourceAccountId = t.sourceAccountId
  amount : t'.amount = t.amount
  fee : t'.fee = t.fee

variable {t t' : Transfer} {r : TransferRecord} {ts : Table TransferRecord.id} {total : Money}
  {held paid moved settled : Currency → Int}

theorem Stored.pulled (h : Stored t r ts) : Stored t.pullDomainEvents.2 r ts :=
  ⟨h.row, h.version, h.external, h.type, h.open_, h.status, h.source, h.amount, h.fee, h.currency⟩

/-- The row of a transfer that is still open claims its total. -/
theorem outstanding_open (hopen : t.status.isTerminal = false) (hext : t.type = .EXTERNAL)
    (htotal : t.amount.add t.fee = .ok total) (c : Currency) :
    (TransferMapper.toPersistence t).outstanding c = total.totals c := by
  obtain ⟨-, rfl⟩ := Money.add_ok.1 htotal
  have hstatus := TransactionStatus.isTerminal_eq_false.1 hopen
  by_cases hc : t.amount.currency = c <;>
    simp [TransferRecord.outstanding, TransferMapper.toPersistence, Money.totals, hext, hstatus, hc]

theorem paidOut_successful (hs : t.status = .SUCCESSFUL) (hext : t.type = .EXTERNAL) (c : Currency) :
    (TransferMapper.toPersistence t).paidOut c = t.amount.totals c := by
  simp [TransferRecord.paidOut, TransferMapper.toPersistence, Money.totals, hext, hs]

theorem Stored.outstanding (h : Stored t r ts) (htotal : t.amount.add t.fee = .ok total) (c : Currency) :
    r.outstanding c = total.totals c := by
  rw [← outstanding_open h.open_ h.external htotal]
  simp only [TransferRecord.outstanding, TransferMapper.toPersistence, h.type, h.currency, h.status, h.amount, h.fee]
  exact if_congr Iff.rfl rfl rfl

theorem Stored.paidOut (h : Stored t r ts) (c : Currency) : r.paidOut c = 0 := by
  refine TransferRecord.paidOut_of_ne (fun hs => ?_) c
  have hopen := h.open_
  rw [← h.status, hs] at hopen
  cases hopen

namespace Advanced

theorem outstanding (hm : Advanced t t') (hst : Stored t r ts) (hopen : t'.status.isTerminal = false)
    (htotal : t.amount.add t.fee = .ok total) (c : Currency) :
    (TransferMapper.toPersistence t').outstanding c = total.totals c :=
  outstanding_open hopen (hm.type.trans hst.external) (by rw [hm.amount, hm.fee, htotal]) c

theorem paidOut (hm : Advanced t t') (hst : Stored t r ts) (hs : t'.status = .SUCCESSFUL) (c : Currency) :
    (TransferMapper.toPersistence t').paidOut c = t.amount.totals c :=
  hm.amount ▸ paidOut_successful hs (hm.type.trans hst.external) c

end Advanced

/-- A row that is loaded. -/
theorem Tallies.stored (h : Tallies held paid db) (hr : db.transfers.find? r.id = some r)
    (hl : TransferMapper.toDomain r = .ok t) (hopen : t.status.isTerminal = false) : Stored t r db.transfers := by
  have hload := TransferMapper.toDomain_ok hl
  obtain ⟨hamount, hfee⟩ := TransferMapper.toDomain_amounts hl
  have hext := (h.sources r.id r hr (hload.status ▸ hopen)).1
  have htype := TransferMapper.toDomain_type hl
  exact ⟨hload.id ▸ hr, hload.version.symm, htype.trans hext, htype.symm, hopen, hload.status.symm,
    hload.sourceAccountId.symm, hamount.symm, hfee.symm, by rw [hload.amount]⟩

/-! ## What the methods move -/

/-- The two accounts against these transfers. -/
def On (held paid : Currency → Int) (ts : Table TransferRecord.id) (s : Store) : Prop :=
  Tallies held paid s.db ∧ s.db.transfers = ts

theorem alone_of_on {p : Program ε α} {Q : α → Store → Prop} {R : ε → Store → Prop}
    (hp : ∀ db, Tallies held paid db → db.transfers = ts → Alone i (At db) p Q R) :
    Alone i (On held paid ts) p Q R :=
  .of_forall (f := Store.db) (I := fun db => Tallies held paid db ∧ db.transfers = ts) fun db h => hp db h.1 h.2

theorem alone_of_tallies {p : Program ε α} {Q : α → Store → Prop} {R : ε → Store → Prop}
    (hp : ∀ ts, Alone i (On held paid ts) p Q R) : Alone i (fun s => Tallies held paid s.db) p Q R :=
  (Triple.of_exists hp).mono (fun s h => ⟨s.db.transfers, h, rfl⟩) (fun _ _ h => h) fun _ _ h => h

theorem on_ofRows : OfRows (On held paid ts) := fun hs h => by
  rw [On, hs.db]
  exact h

theorem postTransferJournal_moves {legs : List LedgerPostingLeg}
    (hlegs : ∀ currency, PrismaLedgerRecorderService.netByCurrency legs currency = 0)
    (hmoves : Relieves legs moved settled) (transfer : Transfer) (narration : String) :
    Alone i (On held paid ts) (postTransferJournal transfer narration legs)
      (fun _ => On (fun c => held c + moved c) (fun c => paid c + settled c) ts) fun _ _ => False := by
  refine alone_of_on fun db hc hts => ?_
  refine (postTransferJournal_alone hlegs transfer narration).mono (fun _ h => h) (fun _ s h => ?_) fun _ _ h => h
  obtain ⟨rows, hrows, h⟩ := h
  rw [On, h]
  exact ⟨hc.post hrows hmoves, hts⟩

/-- A transfer that has been marked is saved. -/
theorem save_marked (hst : Stored t r ts) (hm : Advanced t t') (htotal : t.amount.add t.fee = .ok total) :
    Alone i (On held paid ts) (PrismaTransferRepository.save t')
      (fun _ s => Tallies (fun c => held c + (total.totals c - (TransferMapper.toPersistence t').outstanding c))
        (fun c => paid c - (TransferMapper.toPersistence t').paidOut c) s.db) fun _ _ => False := by
  refine alone_of_on fun db hc hts => ?_
  subst hts
  have hrow : db.transfers.find? t'.id = some r := hm.id ▸ hst.row
  refine (PrismaTransferRepository.save_stored hrow (by rw [hst.version, hm.version])).mono (fun _ h => h)
    (fun _ s h => ?_) fun _ _ h => h
  rw [h]
  refine (hc.update (TransferMapper.toPersistence t') hrow (hst.status ▸ hst.open_) (hm.type.trans hst.type.symm)
    (hm.source.trans hst.source.symm)).congr (fun c => ?_) fun c => ?_
  · rw [hst.outstanding htotal]
  · rw [hst.paidOut, zero_sub, sub_eq_add_neg]

/-- ... and claims its total no longer. -/
theorem save_successful (hst : Stored t r ts) (hm : Advanced t t') (hs : t'.status = .SUCCESSFUL)
    (htotal : t.amount.add t.fee = .ok total) :
    Alone i (On held paid ts) (PrismaTransferRepository.save t')
      (fun _ s => Tallies (fun c => held c + total.totals c) (fun c => paid c - t.amount.totals c) s.db)
      fun _ _ => False := by
  refine (save_marked hst hm htotal).mono (fun _ h => h) (fun _ _ h => h.congr (fun c => ?_) fun c => ?_) fun _ _ h => h
  · rw [TransferRecord.outstanding_terminal (show t'.status.isTerminal = true by rw [hs]; rfl), sub_zero]
  · rw [hm.paidOut hst hs]

theorem save_reversed (hst : Stored t r ts) (hm : Advanced t t') (hs : t'.status = .REVERSED)
    (htotal : t.amount.add t.fee = .ok total) :
    Alone i (On held paid ts) (PrismaTransferRepository.save t')
      (fun _ s => Tallies (fun c => held c + total.totals c) paid s.db) fun _ _ => False := by
  refine (save_marked hst hm htotal).mono (fun _ h => h) (fun _ _ h => h.congr (fun c => ?_) fun c => ?_) fun _ _ h => h
  · rw [TransferRecord.outstanding_terminal (show t'.status.isTerminal = true by rw [hs]; rfl), sub_zero]
  · rw [TransferRecord.paidOut_of_ne (show t'.status ≠ .SUCCESSFUL by rw [hs]; nofun), sub_zero]

theorem save_processing (hst : Stored t r ts) (hm : Advanced t t') (hs : t'.status = .PROCESSING)
    (htotal : t.amount.add t.fee = .ok total) :
    Alone i (On held paid ts) (PrismaTransferRepository.save t') (fun _ s => Tallies held paid s.db)
      fun _ _ => False := by
  refine (save_marked hst hm htotal).mono (fun _ h => h) (fun _ _ h => h.congr (fun c => ?_) fun c => ?_) fun _ _ h => h
  · rw [hm.outstanding hst (by rw [hs]; rfl) htotal, sub_self, add_zero]
  · rw [TransferRecord.paidOut_of_ne (show t'.status ≠ .SUCCESSFUL by rw [hs]; nofun), sub_zero]

theorem publishAll_keeps (events : List DomainEvent) :
    Alone i (fun s => Balanced s.db) (publishAll events) (fun _ s => Balanced s.db) fun _ s => Balanced s.db :=
  (publishAll_alone (fun hs h => by rw [hs.db]; exact h) events).mono (fun _ h => h) (fun _ _ h => h)
    fun _ _ h => h.elim

/-- A refund relieves the clearing account, or leaves everything as it is. -/
theorem compensate_moves (hst : Stored t r ts) (total : Money) (narration : String) :
    Alone i (On (fun _ => 0) (fun _ => 0) ts) (compensate t (.ok total) narration)
      (fun _ => On (fun c => -total.totals c) (fun _ => 0) ts) fun _ s => Balanced s.db := by
  refine alone_of_on fun db hc hts => ?_
  subst hts
  have hb : Balanced db := hc
  have hsource := (hc.sources _ r hst.row (hst.status ▸ hst.open_)).2
  rw [hst.source] at hsource
  refine PrismaAccountRepository.findById_alone_bind (fun hnone => ?_) (fun account row hrow hl => ?_)
    fun _ _ h => hb.at h
  · obtain ⟨row, hrow⟩ := hsource
    exact absurd (hnone.symm.trans hrow) nofun
  refine .ofExcept_bind (fun total' ht => ?_) fun _ _ _ h => hb.at h
  cases ht
  refine .ofExcept_bind (fun credited hcredit => ?_) fun _ _ _ h => hb.at h
  have hid : credited.id = account.id := by
    obtain ⟨-, -, -, rfl⟩ := Account.credit_ok.1 hcredit
    rfl
  obtain ⟨hkey, hsaved⟩ := saved_row hrow hl hid
  refine .bind (M := fun _ => On (fun _ => 0) (fun _ => 0) db.transfers)
    ((PrismaAccountRepository.save_alone credited).mono (fun _ h => h) (fun _ s h => ?_) fun _ _ h => hb.at h)
      fun _ => ?_
  · obtain ⟨events, h⟩ := h
    rw [On, h]
    exact ⟨hc.saveAccount events hsaved, rfl⟩
  have hcustomer : credited.id ∉ SystemLedgerAccount.all := hkey ▸ hc.customers _ row hrow
  refine .bind ((postTransferJournal_moves (PrismaLedgerRecorderService.net_reversalLegs _ _ _)
    (reversalLegs_relieve hcustomer _ _) _ _).mono (fun _ h => h) (fun _ _ h => h) fun _ _ h => h.elim)
    fun _ => .pure fun s h => ?_
  exact ⟨h.1.congr (fun c => by rw [zero_add]) fun c => by rw [zero_add], h.2⟩

/-! ## External transfers -/

theorem marked_successful (hst : Stored t r ts) (h : t.markSuccessful = .ok t') :
    Advanced t t' ∧ t'.status = .SUCCESSFUL := by
  rw [Transfer.markSuccessful_of hst.open_, Except.ok.injEq] at h
  exact h ▸ ⟨⟨rfl, rfl, rfl, rfl, rfl, rfl⟩, rfl⟩

theorem marked_reversed {reason : String} (hst : Stored t r ts) (h : t.markReversed reason = .ok t') :
    Advanced t t' ∧ t'.status = .REVERSED := by
  rw [Transfer.markReversed_of hst.open_, Except.ok.injEq] at h
  exact h ▸ ⟨⟨rfl, rfl, rfl, rfl, rfl, rfl⟩, rfl⟩

theorem marked_processing {providerReference : String} (hst : Stored t r ts)
    (h : t.markProcessing providerReference = .ok t') : Advanced t t' ∧ t'.status = .PROCESSING := by
  rw [Transfer.markProcessing_of hst.open_, Except.ok.injEq] at h
  exact h ▸ ⟨⟨rfl, rfl, rfl, rfl, rfl, rfl⟩, rfl⟩

/-- The amount and the fee of a transfer that has been loaded are of one currency. -/
theorem total_of_load (hl : TransferMapper.toDomain r = .ok t) : ∃ total, t.amount.add t.fee = .ok total := by
  have hload := TransferMapper.toDomain_ok hl
  exact ⟨_, Money.add_ok.2 ⟨by rw [hload.amount, hload.fee], rfl⟩⟩

namespace ConfirmExternalTransferHandler

theorem settle_clears (hst : Stored t r ts) (htotal : t.amount.add t.fee = .ok total) :
    Alone i (On (fun _ => 0) (fun _ => 0) ts) (settle t) (fun _ s => Balanced s.db) fun _ s => Balanced s.db := by
  refine .ofExcept_bind (fun t' ht' => ?_) fun _ _ _ h => h.1
  obtain ⟨hm, hs⟩ := marked_successful hst ht'
  refine .bind ((save_successful hst hm hs htotal).mono (fun _ h => h) (fun _ _ h => h) fun _ _ h => h.elim) fun _ => ?_
  have htotal' : t'.amount.add t'.fee = .ok total := by rw [hm.amount, hm.fee, htotal]
  refine .ofExcept_bind (fun total' ht => ?_) fun e _ he => nomatch htotal'.symm.trans he
  obtain rfl : total = total' := Except.ok.inj (htotal'.symm.trans ht)
  refine .bind (alone_of_tallies fun ts' =>
    (postTransferJournal_moves (PrismaLedgerRecorderService.net_settlementLegs htotal')
    (settlementLegs_relieve _ _ _) _ _).mono (fun _ h => h) (fun _ s h => ?_) fun _ _ h => h.elim)
    fun _ => publishAll_keeps _
  show Balanced s.db
  exact h.1.congr (fun c => by ring) fun c => by rw [hm.amount]; ring

theorem reverse_clears (failureReason : Option String) (hst : Stored t r ts) (htotal : t.amount.add t.fee = .ok total) :
    Alone i (On (fun _ => 0) (fun _ => 0) ts) (reverse failureReason t) (fun _ s => Balanced s.db)
      fun _ s => Balanced s.db := by
  unfold reverse
  rw [htotal]
  refine .bind (compensate_moves hst total _) fun accountEvents => ?_
  refine .ofExcept_bind (fun t' ht' => ?_) fun e _ he => ?_
  · obtain ⟨hm, hs⟩ := marked_reversed hst ht'
    refine .bind ((save_reversed hst hm hs htotal).mono (fun _ h => h) (fun _ s h => ?_) fun _ _ h => h.elim)
      fun _ => publishAll_keeps _
    show Balanced s.db
    exact h.congr (fun c => by ring) fun c => rfl
  · rw [Transfer.markReversed_of hst.open_] at he
    cases he

theorem execute_clears (command : ConfirmExternalTransferCommand) : Clears i (execute command) := by
  refine .of_db fun db hb => ?_
  refine .bind ((PrismaTransferRepository.findByProviderReference_alone _).mono (fun _ h => h) (fun _ _ h => h)
    fun _ _ h => hb.at h) fun found => .of_and fun hfound => ?_
  cases found with
  | none => exact .throw fun _ h => hb.at h
  | some t =>
    obtain ⟨r, hr, hl⟩ := hfound
    obtain ⟨total, htotal⟩ := total_of_load hl
    dsimp only
    split
    · exact .pure fun _ h => hb.at h
    rename_i hopen
    have hst : Stored t r db.transfers := Tallies.stored hb hr hl (by simpa using hopen)
    have on : ∀ s, At db s → On (fun _ => 0) (fun _ => 0) db.transfers s := fun s h => by
      rw [On, h]
      exact ⟨hb, rfl⟩
    split
    · exact (settle_clears hst htotal).mono on (fun _ _ h => h) fun _ _ h => h
    · exact (reverse_clears _ hst htotal).mono on (fun _ _ h => h) fun _ _ h => h

end ConfirmExternalTransferHandler

namespace InitiateExternalTransferHandler

/-- What `hold` has returned, and the account it has debited. -/
structure HeldIn (command : InitiateExternalTransferCommand)
    (held : Account × ExternalRecipient × Money × Money × Money)
    (db : Db) : Prop where
  balanced : Balanced db
  source : ∃ row, db.accounts.find? command.sourceAccountId = some row
  account : held.1.id = command.sourceAccountId
  total : held.2.2.1.add held.2.2.2.1 = .ok held.2.2.2.2

theorem hold_clears (command : InitiateExternalTransferCommand) (hb : Balanced db) :
    Alone i (At db) (hold command) (fun held s => HeldIn command held s.db) fun _ s => Balanced s.db := by
  refine PrismaAccountRepository.findById_alone_bind (fun _ => .throw fun _ h => hb.at h)
    (fun account row hrow hl => ?_)
    fun _ _ h => hb.at h
  dsimp only
  split
  · exact .throw fun _ h => hb.at h
  refine .ofExcept_bind (fun amount _ => ?_) fun _ _ _ h => hb.at h
  refine Alone.reads_bind at_ofRows (KycTransferLimitCheckerService.assertWithinLimits_calls
    (T := fun op => op.mutates = false) (fun _ => rfl) rfl (fun _ _ _ => rfl) _ _ _) (Prog.returns_true _)
      (fun _ _ => ?_)
    fun _ _ h => hb.at h
  refine .ofExcept_bind (fun fee _ => ?_) fun _ _ _ h => hb.at h
  refine .ofExcept_bind (fun total htotal => ?_) fun _ _ _ h => hb.at h
  refine .ofExcept_bind (fun recipient _ => ?_) fun _ _ _ h => hb.at h
  refine .ofExcept_bind (fun debited hd => ?_) fun _ _ _ h => hb.at h
  have hid : debited.id = account.id := by
    obtain ⟨-, -, -, rfl⟩ := (Account.debit_ok (AccountMapper.toDomain_ok hl).2.1).1 hd
    rfl
  obtain ⟨hkey, hsaved⟩ := saved_row hrow hl hid
  refine .bind ((PrismaAccountRepository.save_alone debited).mono (fun _ h => h) (fun _ _ h => h) fun _ _ h => hb.at h)
    fun _ => .pure fun s h => ?_
  obtain ⟨events, h⟩ := h
  rw [h]
  refine ⟨hb.saveAccount events hsaved, ⟨AccountMapper.toPersistence debited, ?_⟩, hkey, htotal⟩
  rw [← hkey]
  exact Table.find?_put_self ..

/-- What `record` has returned: the hold is in the ledger, the transfer in the table. -/
def RecordedIn (amount fee : Money) (t : Transfer) (s : Store) : Prop :=
  ∃ r ts, Stored t r ts ∧ t.amount = amount ∧ t.fee = fee ∧ On (fun _ => 0) (fun _ => 0) ts s

theorem record_clears (command : InitiateExternalTransferCommand) {sourceAccount : Account}
    {recipient : ExternalRecipient}
    {amount fee total : Money} (h : HeldIn command (sourceAccount, recipient, amount, fee, total) db) :
    Alone i (At db) (record command sourceAccount recipient amount fee total)
      (fun t s => RecordedIn amount fee t s) fun _ s => Balanced s.db := by
  have hcustomer : sourceAccount.id ∉ SystemLedgerAccount.all := by
    obtain ⟨row, hrow⟩ := h.source
    rw [show sourceAccount.id = command.sourceAccountId from h.account]
    exact h.balanced.customers _ row hrow
  refine .bind ((draw_alone _).mono (fun _ h => h) (fun _ _ h => h) fun _ _ h => h.elim) fun t => .of_and fun ht => ?_
  obtain ⟨now, reference, id, rfl, hnew⟩ := ht
  generalize ht : Transfer.initiateExternal now reference id command.initiatorUserId command.sourceAccountId
    recipient amount
    fee command.narration = t
  have hid : t.id = id := ht ▸ rfl
  have hext : t.type = .EXTERNAL := ht ▸ rfl
  have hopen : t.status.isTerminal = false := ht ▸ rfl
  have hsource : t.sourceAccountId = command.sourceAccountId := ht ▸ rfl
  have hsource' : ∃ row, db.accounts.find? t.sourceAccountId = some row := by
    rw [hsource]
    exact h.source
  have hamount : t.amount = amount := ht ▸ rfl
  have hfee : t.fee = fee := ht ▸ rfl
  have hnew : db.transfers.find? t.id = none := hid ▸ hnew
  have htotal : t.amount.add t.fee = .ok total := by rw [hamount, hfee]; exact h.total
  refine .bind ((PrismaTransferRepository.save_new hnew).mono (fun _ h => h) (fun _ _ h => h)
    fun _ _ hs => h.balanced.at hs)
    fun _ => ?_
  have hc := Tallies.insert h.balanced (TransferMapper.toPersistence t) hnew fun _ => ⟨hext, hsource'⟩
  have hstatus : t.status ≠ .SUCCESSFUL := fun hs => by
    rw [hs] at hopen
    cases hopen
  have hjournal : Alone i (On (fun c => -total.totals c) (fun _ => 0)
    (db.apply (.transfer (TransferMapper.toPersistence t))).transfers)
      (postTransferJournal t command.narration (holdLegs sourceAccount.id sourceAccount.balance total)) _
        fun _ _ => False :=
    postTransferJournal_moves (PrismaLedgerRecorderService.net_holdLegs _ _ _) (holdLegs_relieve hcustomer _ _) _ _
  refine .bind (hjournal.mono (fun s hs => ?_) (fun _ _ hs => hs) fun _ _ hs => hs.elim) fun _ => .pure fun s hs => ?_
  · rw [On, hs]
    refine ⟨hc.congr (fun c => ?_) fun c => ?_, rfl⟩
    · rw [outstanding_open hopen hext htotal, zero_sub]
    · rw [TransferRecord.paidOut_of_ne hstatus, sub_zero]
  · exact ⟨TransferMapper.toPersistence t, _,
      ⟨Table.find?_put_self .., rfl, hext, rfl, hopen, rfl, rfl, rfl, rfl, rfl⟩,
      hamount, hfee, hs.1.congr (fun c => by ring) fun c => by ring, hs.2⟩

/-- What is still to be made up for where the transfer is `marked`. -/
def MarkedIn (t : Transfer) (total : Money) (ts : Table TransferRecord.id) (marked : Transfer) (s : Store) : Prop :=
  Advanced t marked ∧ ((marked.status = .SUCCESSFUL ∧ On (fun c => -total.totals c) t.amount.totals ts s) ∨
    (marked.status = .PROCESSING ∧ On (fun _ => 0) (fun _ => 0) ts s))

theorem markAccepted_clears (command : InitiateExternalTransferCommand) (hst : Stored t r ts)
    (htotal : t.amount.add t.fee = .ok total) (payoutResult : PayoutInitiationResult) :
    Alone i (On (fun _ => 0) (fun _ => 0) ts) (markAccepted command total t payoutResult) (MarkedIn t total ts)
      fun _ _ => False := by
  obtain ⟨t1, h1⟩ : ∃ t1, t.markSuccessful = .ok t1 := ⟨_, Transfer.markSuccessful_of hst.open_⟩
  obtain ⟨t2, h2⟩ : ∃ t2, t.markProcessing payoutResult.providerReference = .ok t2 :=
    ⟨_, Transfer.markProcessing_of hst.open_ _⟩
  obtain ⟨hm1, hs1⟩ := marked_successful hst h1
  obtain ⟨hm2, hs2⟩ := marked_processing hst h2
  have hjournal : Alone i (On (fun _ => 0) (fun _ => 0) ts)
      (postTransferJournal t command.narration (settlementLegs total t.amount t.fee))
      (fun _ => On (fun c => -total.totals c) t.amount.totals ts) fun _ _ => False := by
    refine (postTransferJournal_moves (PrismaLedgerRecorderService.net_settlementLegs htotal)
      (settlementLegs_relieve _ _ _)
      _ _).mono (fun _ h => h) (fun _ s h => ?_) fun _ _ h => h
    exact ⟨h.1.congr (fun c => by ring) fun c => by ring, h.2⟩
  unfold markAccepted
  rw [h1, h2]
  split
  · show Alone i _ (during t1 (postTransferJournal t command.narration
      (settlementLegs total t.amount t.fee)) >>= fun _ =>
      .pure t1) _ _
    exact .bind (Alone.during hjournal) fun _ => .pure fun s h => ⟨hm1, .inl ⟨hs1, h⟩⟩
  · exact .pure fun s h => ⟨hm2, .inr ⟨hs2, h⟩⟩

theorem accepted_clears (command : InitiateExternalTransferCommand) (hst : Stored t r ts)
    (htotal : t.amount.add t.fee = .ok total) (events : List DomainEvent) (payoutResult : PayoutInitiationResult) :
    Alone i (On (fun _ => 0) (fun _ => 0) ts) (accepted command total events t payoutResult) (fun _ s => Balanced s.db)
      fun _ _ => False := by
  refine .bind (markAccepted_clears command hst htotal payoutResult) fun marked => .of_and fun hm => ?_
  refine .bind (M := fun _ s => Balanced s.db) (Alone.during ?_) fun _ => .bind (M := fun _ s => Balanced s.db)
    (Alone.during (publishAll_alone (fun hs h => by rw [hs.db]; exact h) _)) fun _ => .pure fun _ h => h
  refine ⟨fun {s tr _ s'} h hr => ?_, fun {s tr _ s'} h hr => ?_⟩
  · rcases h with ⟨hs, h⟩ | ⟨hs, h⟩
    · refine ((save_successful hst hm hs htotal).returns h hr).congr (fun c => ?_) fun c => ?_
      · ring
      · ring
    · exact (save_processing hst hm hs htotal).returns h hr
  · rcases h with ⟨hs, h⟩ | ⟨hs, h⟩
    · exact (save_successful hst hm hs htotal).throws h hr
    · exact (save_processing hst hm hs htotal).throws h hr

theorem reverse_clears (command : InitiateExternalTransferCommand) (hst : Stored t r ts)
    (htotal : t.amount.add t.fee = .ok total) (events : List DomainEvent) (payoutError : Err) :
    Alone i (On (fun _ => 0) (fun _ => 0) ts) (reverse command total events payoutError t : Handler Transfer)
      (fun _ s => Balanced s.db) fun _ s => Balanced s.db := by
  refine .bind (compensate_moves hst total _) fun accountEvents => ?_
  refine .ofExcept_bind (fun t' ht' => ?_) fun e _ he => ?_
  · obtain ⟨hm, hs⟩ := marked_reversed hst ht'
    refine .bind ((save_reversed hst hm hs htotal).mono (fun _ h => h) (fun _ s h => ?_) fun _ _ h => h.elim)
      fun _ => .bind (publishAll_keeps _) fun _ => .throw fun _ h => h
    show Balanced s.db
    exact h.congr (fun c => by ring) fun c => rfl
  · rw [Transfer.markReversed_of hst.open_] at he
    cases he

/-- The provider may refuse; nothing else in the `try` block is refused. -/
theorem payOut_clears (command : InitiateExternalTransferCommand) (recipient : ExternalRecipient) (hst : Stored t r ts)
    (htotal : t.amount.add t.fee = .ok total) (events : List DomainEvent) :
    Alone i (On (fun _ => 0) (fun _ => 0) ts) (payOut command recipient total events t) (fun _ s => Balanced s.db)
      fun _ s => Balanced s.db := by
  refine .tryCatch (M := fun thrown s => thrown.2 = t ∧ On (fun _ => 0) (fun _ => 0) ts s) (.bind
    (M := fun _ => On (fun _ => 0) (fun _ => 0) ts) (Alone.during ?_) fun payoutResult =>
      (accepted_clears command hst htotal events payoutResult).mono (fun _ h => h) (fun _ _ h => h) fun _ _ h => h.elim)
    fun thrown => .of_and fun hthrown => ?_
  · exact (Alone.reads on_ofRows (FlutterwavePayoutProvider.initiatePayout_calls (T := fun op => op.mutates = false)
      (fun _ => rfl) _ _ _ _) (Prog.returns_true _)).mono (fun _ h => h) (fun _ _ h => h.2) fun _ _ h => ⟨rfl, h⟩
  · rw [hthrown]
    exact reverse_clears command hst htotal events thrown.1

theorem doExecute_clears (command : InitiateExternalTransferCommand) : Clears i (doExecute command) := by
  refine .of_db fun db hb => ?_
  refine .bind (hold_clears command hb) fun held => ?_
  obtain ⟨sourceAccount, recipient, amount, fee, total⟩ := held
  refine .of_forall (f := Store.db) fun db' hheld => ?_
  refine .bind (record_clears command hheld) fun t => .of_exists fun r => .of_exists fun ts => .of_and fun hst =>
    .of_and fun hamount => .of_and fun hfee => ?_
  have htotal : t.amount.add t.fee = .ok total := by rw [hamount, hfee]; exact hheld.total
  exact .bind (payOut_clears command recipient hst.pulled htotal _) fun _ => .pure fun _ h => h

end InitiateExternalTransferHandler

/-! ## Internal transfers -/

/-- An internal transfer that is inserted once it is closed claims nothing. -/
theorem insert_closed (hb : Balanced db) (hnew : db.transfers.find? t.id = none) (hclosed : t.status.isTerminal = true)
    (hinternal : t.type = .INTERNAL) : Balanced (db.apply (.transfer (TransferMapper.toPersistence t))) := by
  refine (Tallies.insert hb (TransferMapper.toPersistence t) hnew fun hopen =>
    absurd (show t.status.isTerminal = false from hopen) (by simp [hclosed])).congr (fun c => ?_) fun c => ?_
  · rw [TransferRecord.outstanding_terminal hclosed, sub_zero]
  · rw [TransferRecord.paidOut_internal hinternal, sub_zero]

namespace PrismaInternalTransferExecutor

theorem requireRecord_staged (id : String) :
    Alone i (InTx i db []) (requireRecord id) (fun row s => db.accounts.find? id = some row ∧ InTx i db [] s)
      fun _ => At db := by
  refine .bind (M := fun found s => found = db.accounts.find? id ∧ InTx i db [] s) (.await inTx_ofRows.passes
    (fun h _ hx => ?_) fun h _ hx => (inTx_ofRows (exec_read rfl hx) h).1) fun found => .of_and fun hfound => ?_
  · obtain ⟨db', hv, rfl, rfl⟩ := exec_account_findUnique hx
    rw [Store.view_tx hv, h.2, h.1]
    exact ⟨rfl, h⟩
  · cases found with
    | none => exact .throw fun _ h => h.1
    | some row => exact .pure fun _ h => ⟨hfound.symm, h⟩

theorem update_staged (a : Account) (ws : List Write) :
    Alone i (InTx i db ws) (PrismaAccountRepository.update a .tx)
      (fun _ => InTx i db (ws ++ [.account (AccountMapper.toPersistence a) a.domainEvents])) fun _ => At db := by
  refine .bind (M := fun n s => if n = 0 then At db s
      else InTx i db (ws ++ [.account (AccountMapper.toPersistence a) a.domainEvents]) s)
    (.await inTx_ofRows.passes (fun h _ hx => ?_) fun h _ hx => ?_) fun n => ?_
  · rcases exec_account_updateMany hx with ⟨rfl, rfl⟩ | ⟨rfl, rfl, -⟩
    · exact h.1
    · exact h.write _
  · exact (inTx_ofRows ((exec_error hx).resolve_right nofun) h).1
  · by_cases hn : n = 0
    · subst hn
      exact .throw fun _ h => h
    · rw [if_neg hn]
      exact .pure fun _ h => by simpa only [if_neg hn] using h

theorem find?_saved {data : AccountRecord} {events : List AccountEvent} {id : String}
    (h : ∃ row, db.accounts.find? id = some row) :
    ∃ row, (db.apply (.account data events)).accounts.find? id = some row := by
  obtain ⟨row, hrow⟩ := h
  by_cases hd : data.id = id
  · exact ⟨data, by simp [Db.apply, hd]⟩
  · exact ⟨row, by simpa [Db.apply, hd] using hrow⟩

/-- What the funds and the journal leave once they are committed. -/
def CommitsTo (db : Db) (ws : List Write) : Prop := Balanced (db.applyAll ws)

theorem moveFunds_clears (params : InternalTransferParams) (transfer : Transfer) (hb : Balanced db) :
    Alone i (InTx i db []) (moveFunds params transfer) (fun _ s => ∃ ws, CommitsTo db ws ∧ InTx i db ws s)
      fun _ => At db := by
  refine .bind (requireRecord_staged _) fun sourceRow => .of_and fun hsource => ?_
  refine .bind (requireRecord_staged _) fun destinationRow => .of_and fun hdestination => ?_
  refine .ofExcept_bind (fun source hs => ?_) fun _ _ _ h => h.1
  refine .ofExcept_bind (fun destination hd => ?_) fun _ _ _ h => h.1
  split
  · exact .throw fun _ h => h.1
  refine .ofExcept_bind (fun total _ => ?_) fun _ _ _ h => h.1
  refine .ofExcept_bind (fun debited hdebit => ?_) fun _ _ _ h => h.1
  refine Alone.reads_bind inTx_ofRows (MaxBalanceGuardService.assertWithinLimit_calls
    (T := fun op => op.mutates = false)
    (fun _ => rfl) _ _) (Prog.returns_true _) (fun _ _ => ?_) fun _ _ h => h.1
  refine .ofExcept_bind (fun credited hcredit => ?_) fun _ _ _ h => h.1
  have hdebited : debited.id = source.id := by
    obtain ⟨-, -, -, rfl⟩ := (Account.debit_ok (AccountMapper.toDomain_ok hs).2.1).1 hdebit
    rfl
  have hcredited : credited.id = destination.id := by
    obtain ⟨-, -, -, rfl⟩ := Account.credit_ok.1 hcredit
    rfl
  obtain ⟨hkey, hsaved⟩ := saved_row hsource hs hdebited
  obtain ⟨hkey', hsaved'⟩ := saved_row hdestination hd hcredited
  refine .bind (update_staged debited []) fun _ => .bind (update_staged credited _) fun _ => ?_
  refine .bind (PrismaLedgerRecorderService.post_staged _) fun _ => .of_exists fun rows => .of_and fun hrows =>
    .pure fun s h => ⟨_, ?_, h⟩
  have hmoved := (hb.saveAccount debited.domainEvents hsaved).saveAccount credited.domainEvents (find?_saved hsaved')
  have hposted := hmoved.post hrows (internalLegs_relieve (hkey ▸ hb.customers _ _ hsource)
    (hkey' ▸ hb.customers _ _ hdestination) _ _ _ _ _)
  exact hposted.congr (fun c => by rw [add_zero]) fun c => by rw [add_zero]

/-- An internal transfer with this id, however far the attempt has got with it. -/
def InternalWith (id : String) (transfer : Transfer) : Prop := transfer.id = id ∧ transfer.type = .INTERNAL

theorem body_clears (params : InternalTransferParams) {transfer : Transfer} {id : String}
    (ht : InternalWith id transfer)
    (hb : Balanced db) :
    Alone i (InTx i db []) (body params transfer) (fun _ s => ∃ ws, CommitsTo db ws ∧ InTx i db ws s)
      fun thrown s => InternalWith id thrown.2 ∧ At db s := by
  refine .bind (Alone.during ((moveFunds_clears params transfer hb).mono (fun _ h => h) (fun _ _ h => h)
    fun _ _ h => ⟨ht, h⟩)) fun accounts => .of_exists fun ws => .of_and fun hws => ?_
  refine .bind (M := fun completed s => (InternalWith id completed ∧ completed.status = .SUCCESSFUL) ∧
    InTx i db ws s)
    (Alone.during (.ofExcept (fun completed s hc h => ⟨?_, h⟩) fun _ _ _ h => ⟨ht, h.1⟩)) fun completed =>
      .of_and fun ⟨hcompleted, hstatus⟩ => ?_
  · unfold Transfer.markSuccessful at hc
    cases ha : transfer.assertNotTerminal "mark as successful" with
    | error e => simp [ha, bind, Except.bind] at hc
    | ok u =>
      simp only [ha, bind, Except.bind, pure, Except.pure, Except.ok.injEq] at hc
      exact hc ▸ ⟨ht, rfl⟩
  refine .bind (M := fun _ s => ∃ ws, CommitsTo db ws ∧ InTx i db ws s) (Alone.during (.await inTx_ofRows.passes
    (fun h _ hx => ?_) fun h _ hx => ⟨hcompleted, (inTx_ofRows ((exec_error hx).resolve_right nofun) h).1⟩))
    fun _ => .pure fun _ h => h
  obtain ⟨rfl, -, db', hv, hnew⟩ := exec_transfer_create hx
  rw [Store.view_tx hv, h.2, h.1] at hnew
  refine ⟨_, ?_, h.write _⟩
  rw [CommitsTo, Db.applyAll_append]
  exact insert_closed hws hnew (by rw [hstatus]; rfl) hcompleted.2

/-- A failed transfer claims nothing. -/
theorem recordFailure_clears {error : Err} {transfer : Transfer} {id : String} (ht : InternalWith id transfer)
    (hb : Balanced db) (hnew : db.transfers.find? id = none) :
    Alone i (At db) (recordFailure error transfer : Handler (Transfer × List DomainEvent)) (fun _ s => Balanced s.db)
      fun _ s => Balanced s.db := by
  refine .ofExcept_bind (fun failed hf => ?_) fun _ _ _ h => hb.at h
  obtain ⟨hfailed, hstatus⟩ : InternalWith id failed ∧ failed.status = .FAILED := by
    unfold Transfer.markFailed at hf
    cases ha : transfer.assertNotTerminal "mark as failed" with
    | error e => simp [ha, bind, Except.bind] at hf
    | ok u =>
      simp only [ha, bind, Except.bind, pure, Except.pure, Except.ok.injEq] at hf
      exact hf ▸ ⟨ht, rfl⟩
  have hnew : db.transfers.find? failed.id = none := hfailed.1 ▸ hnew
  refine .bind ((PrismaTransferRepository.save_new hnew).mono (fun _ h => h) (fun _ _ h => h) fun _ _ h => hb.at h)
    fun _ => .throw fun s h => ?_
  rw [h]
  exact insert_closed hb hnew (by rw [hstatus]; rfl) hfailed.2

theorem execute_clears (params : InternalTransferParams) : Clears i (execute params) := by
  refine .of_db fun db hb => ?_
  refine .bind ((draw_alone _).mono (fun _ h => h) (fun _ _ h => h) fun _ _ h => h.elim) fun transfer =>
    .of_and fun hdrawn => ?_
  obtain ⟨now, reference, id, htransfer, hnew⟩ := hdrawn
  have ht : InternalWith id transfer := htransfer ▸ ⟨rfl, rfl⟩
  refine .bind (M := fun _ s => Balanced s.db) (.tryCatch ((transaction_alone (W := fun _ => CommitsTo db)
    (body_clears params ht hb)).mono (fun _ h => h) (fun _ s h => ?_) fun _ _ h => h)
    fun thrown => .of_and fun hthrown => recordFailure_clears hthrown hb hnew) fun _ => .pure fun _ h => h
  obtain ⟨ws, hws, h⟩ := h
  exact Balanced.at hws h

end PrismaInternalTransferExecutor

theorem rehydrateTransfer_clears (resourceId : Option String) : Clears i (rehydrateTransfer resourceId) :=
  .read _ (rehydrateTransfer_calls (fun _ => rfl) resourceId)

theorem internalTransfer_clears (fuel : Nat) (command : InitiateInternalTransferCommand) :
    Clears i (InitiateInternalTransferHandler.execute fuel command) := by
  refine run_clears ?_ rehydrateTransfer_clears _ _ _ _
  show Clears i (InitiateInternalTransferHandler.doExecute command)
  unfold InitiateInternalTransferHandler.doExecute
  split
  · exact .throw _
  refine .bind (.read _ (PrismaAccountRepository.findById_calls (fun _ => rfl) _)) fun account => ?_
  cases account with
  | none => exact .throw _
  | some account =>
    dsimp only
    split
    · exact .throw _
    refine .ofExcept_bind fun amount _ => .bind (.read _ ?_) fun _ => .ofExcept_bind fun fee _ =>
      .bind (PrismaInternalTransferExecutor.execute_clears _) fun result =>
        .bind (.read _ (publishAll_calls (fun _ => rfl) _)) fun _ => .pure _
    exact KycTransferLimitCheckerService.assertWithinLimits_calls (T := fun op => op.mutates = false) (fun _ => rfl) rfl
      (fun _ _ _ => rfl) _ _ _

/-- **Every handler that finds the accounts balanced leaves them so.** -/
theorem Request.clears (request : Request) : Clears i request.program := by
  cases request with
  | credit command => exact .bind (credit_clears command) fun _ => .pure _
  | debit command => exact .bind (debit_clears command) fun _ => .pure _
  | freeze command => exact .bind (freeze_clears command) fun _ => .pure _
  | unfreeze command => exact .bind (unfreeze_clears command) fun _ => .pure _
  | close command => exact .bind (close_clears command) fun _ => .pure _
  | activate command => exact .bind (activate_clears command) fun _ => .pure _
  | internalExecution params => exact .bind (PrismaInternalTransferExecutor.execute_clears params) fun _ => .pure _
  | internalTransfer fuel command => exact .bind (internalTransfer_clears fuel command) fun _ => .pure _
  | externalTransfer fuel command =>
    exact .bind (run_clears (InitiateExternalTransferHandler.doExecute_clears command) rehydrateTransfer_clears _ _ _ _)
      fun _ => .pure _
  | externalConfirmation command => exact ConfirmExternalTransferHandler.execute_clears command

end

/-! ## Any number of handlers, one after another -/

/-- **The clearing account holds what is outstanding.** From an empty ledger, whatever handlers run one after another,
whichever of their payouts are refused: `external-payout-clearing` holds amount and fee of the external transfers that
are PENDING or PROCESSING, `external-payout-settled` the amounts of the SUCCESSFUL ones. -/
theorem clearing_is_outstanding (db0 : Db) (clock : Nat) (hledger : db0.ledgerEntries = [])
    (htransfers : ∀ r ∈ db0.transfers.rows, r.status.isTerminal = true ∧
      (r.type = .EXTERNAL → r.status ≠ .SUCCESSFUL))
    (haccounts : ∀ row ∈ db0.accounts.rows, row.id ∉ SystemLedgerAccount.all) {s : Store}
    (h : Relation.ReflTransGen (Serves (scheduleOf OnlyPayoutsRefused) TimePasses Request.program) (.init db0 clock) s)
    (currency : Currency) :
    ledgerNet s.db.ledgerEntries (SystemLedgerAccount.externalPayoutClearing currency) =
        s.db.transfers.sum (TransferRecord.outstanding currency) ∧
      ledgerNet s.db.ledgerEntries (SystemLedgerAccount.externalPayoutSettled currency) =
        s.db.transfers.sum (TransferRecord.paidOut currency) := by
  have hinit : Balanced db0 := by
    refine ⟨fun c => ?_, fun c => ?_, fun id row hrow => ?_, fun id r hr hopen => ?_⟩
    · rw [hledger, Table.sum_eq_zero fun r hr => TransferRecord.outstanding_terminal (htransfers r hr).1 c]
      rfl
    · rw [hledger, Table.sum_eq_zero (f := TransferRecord.paidOut c) fun r hr =>
        if_neg fun hpaid => (htransfers r hr).2 hpaid.1 hpaid.2.2]
      rfl
    · rw [← Table.key_of_find? hrow]
      exact haccounts row (Table.mem_of_find? hrow)
    · rw [(htransfers r (Table.mem_of_find? hr)).1] at hopen
      cases hopen
  have hb : Balanced s.db :=
    Serves.invariant (K := fun s : Store => Balanced s.db) h (fun i request => Request.clears (i := i) request) hinit
  exact ⟨(hb.clearing currency).trans (add_zero _), (hb.settled currency).trans (add_zero _)⟩

/-- ₦50.00 to another bank, and the provider's word that it has arrived. -/
def samplePayout : Request := .externalTransfer 0 ⟨"user", "acc", "044", "0123456780", "Ada", "50.00", "rent", none⟩
def sampleArrival : Request := .externalConfirmation ⟨"7", true, none⟩

def samplePayoutAnswers : List Ans :=
  [.ok, .ok, .ok, .ok, .ok, .ok, .ok, .uuid "t", .reference sampleReference, .ok, .uuid "j", .ok, .ok,
    .payout ⟨true, "queued", some ⟨7, .PENDING⟩⟩, .ok, .ok, .ok]

def sampleArrivalAnswers : List Ans := [.ok, .ok, .uuid "k", .ok, .ok, .ok, .ok, .ok]

/-- With the fee of ₦10.00 the clearing account has held ₦60.00. -/
theorem clearing_is_outstanding_sample : ∃ s : Store,
    Relation.ReflTransGen (Serves (scheduleOf OnlyPayoutsRefused) TimePasses Request.program)
      (.init (.of [sampleAccount] []) 0) s ∧
    s.db.ledgerEntries.length = 5 ∧
    ledgerNet s.db.ledgerEntries (SystemLedgerAccount.externalPayoutClearing .NGN) =
        s.db.transfers.sum (TransferRecord.outstanding .NGN) ∧
      ledgerNet s.db.ledgerEntries (SystemLedgerAccount.externalPayoutSettled .NGN) =
        s.db.transfers.sum (TransferRecord.paidOut .NGN) := by
  have hplay : (playRun (scheduleOf OnlyPayoutsRefused) 0 samplePayoutAnswers samplePayout.program
      (.init (.of [sampleAccount] []) 0)).any fun r =>
        r.2.2.db.transfers.sum (TransferRecord.outstanding .NGN) = 6000 ∧
        (playRun (scheduleOf OnlyPayoutsRefused) 1 sampleArrivalAnswers sampleArrival.program r.2.2).any fun r' =>
          r'.2.2.db.ledgerEntries.length = 5 := by
    decide +kernel
  obtain ⟨tr, x, s, hfirst, -, hplay⟩ := playRun_seen (Q := fun _ _ (s : Store) =>
    s.db.transfers.sum (TransferRecord.outstanding .NGN) = 6000 ∧
      (playRun (scheduleOf OnlyPayoutsRefused) 1 sampleArrivalAnswers sampleArrival.program s).any fun r' =>
        r'.2.2.db.ledgerEntries.length = 5) hplay
  obtain ⟨tr', x', s', hsecond, hlength⟩ :=
    playRun_seen (Q := fun _ _ (s : Store) => s.db.ledgerEntries.length = 5) hplay
  have hat : ∀ s : Store, TimePasses s s := fun s => ⟨0, rfl⟩
  have h : Relation.ReflTransGen (Serves (scheduleOf OnlyPayoutsRefused) TimePasses Request.program)
      (.init (.of [sampleAccount] []) 0) s' :=
    .tail (.single ⟨0, samplePayout, tr, x, run_of_play hat hfirst⟩)
      ⟨1, sampleArrival, tr', x', run_of_play hat hsecond⟩
  exact ⟨s', h, hlength, clearing_is_outstanding _ 0 rfl (by decide) (by decide) h .NGN⟩

end Kudi
