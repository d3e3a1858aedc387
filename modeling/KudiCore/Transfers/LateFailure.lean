import KudiCore.Accounts.Lifecycle
import KudiCore.Transfers.Sequential

/-!
# A payout that fails late

| here | there |
| --- | --- |
| `AccountOperation.assigns` | the status that a mutator of `account.entity.ts` sets, if it sets one |
| `Refunded` | what `modules/transfers/README.md` promises of a payout that a webhook reports as failed |

The refund is an ordinary `credit`, and `credit` wants the account ACTIVE. Between the hold and the webhook the account
is open to every lifecycle command: the hold may have emptied it, and an empty account can be closed. Then the credit
throws, before the transfer is marked, and every redelivery of the webhook throws again.
-/

namespace Kudi

open Interleave

/-! ## What the account went through since the hold -/

/-- If `ops` set the status at all, the last to do so has made it ACTIVE. -/
def LeavesActive (ops : List AccountOperation) : Prop :=
  ∀ status ∈ (ops.filterMap AccountOperation.assigns).getLast?, status = .ACTIVE

instance (ops : List AccountOperation) : Decidable (LeavesActive ops) :=
  inferInstanceAs (Decidable (∀ status ∈ (ops.filterMap AccountOperation.assigns).getLast?, status = .ACTIVE))

namespace Account

/-- The same over a sequence: the last status set is the one that counts. -/
theorem perform_keeps {ops : List AccountOperation} {a b : Account} (ha : a.balance.currency = a.currency)
    (h : a.perform ops = .ok b) :
    b.id = a.id ∧ b.currency = a.currency ∧ b.balance.currency = b.currency ∧
      b.status = (ops.filterMap AccountOperation.assigns).getLast?.getD a.status := by
  induction ops generalizing a with
  | nil =>
    simp only [perform, List.foldlM_nil, pure, Except.pure, Except.ok.injEq] at h
    subst h
    exact ⟨rfl, rfl, ha, rfl⟩
  | cons op ops ih =>
    rw [perform_cons] at h
    cases hop : op.apply a with
    | error e =>
      rw [hop] at h
      cases h
    | ok a' =>
      rw [hop] at h
      obtain ⟨hid, hc, hb, hs⟩ := AccountOperation.apply_keeps ha hop
      obtain ⟨hid', hc', hb', hs'⟩ := ih hb h
      refine ⟨hid'.trans hid, hc'.trans hc, hb', ?_⟩
      rw [hs', hs]
      cases hassigns : op.assigns with
      | none => simp [hassigns]
      | some status => simp [hassigns, List.getLast?_cons]

/-- Held and operated on, an account is ACTIVE exactly if the operations leave it so. -/
theorem active_iff_leavesActive {a held b : Account} {total : Money} {reference : String} {ops : List AccountOperation}
    (ha : a.balance.currency = a.currency) (hhold : a.debit total reference = .ok held)
    (hops : held.perform ops = .ok b) :
    b.status = .ACTIVE ↔ LeavesActive ops := by
  have hactive : a.status = .ACTIVE := ((debit_ok ha).1 hhold).1
  obtain ⟨-, -, hheld, hkept⟩ := AccountOperation.apply_keeps ha
    (show (AccountOperation.debit total reference).apply a = _ from hhold)
  obtain ⟨-, -, -, hs⟩ := perform_keeps hheld hops
  rw [hs, hkept, LeavesActive]
  cases (ops.filterMap AccountOperation.assigns).getLast? with
  | none => simpa [AccountOperation.assigns] using hactive
  | some status => simp

end Account

/-! ## The webhook -/

/-- The account has the held total back, and the transfer is REVERSED. -/
structure Refunded (b : Account) (total : Money) (transferId : String) (db : Db) : Prop where
  account : ∃ row, db.accounts.find? b.id = some row ∧
    row.balance = (b.balance.minorUnits : Int) + (total.minorUnits : Int)
  transfer : ∃ row, db.transfers.find? transferId = some row ∧ row.status = .REVERSED

section
variable {i : PId} {db : Db} {b : Account} {r : TransferRecord} {t : Transfer} {total : Money}

/-- The row of a loaded account, one version further. -/
theorem PrismaAccountRepository.save_stored {a : Account} {old : AccountRecord}
    (hold : db.accounts.find? a.id = some old)
    (hv : a.version = old.version + 1) :
    Alone i (At db) (save a) (fun _ => At (db.apply (.account (AccountMapper.toPersistence a) a.domainEvents)))
      fun _ _ => False := by
  unfold save
  rw [if_neg (by omega)]
  refine .bind (M := fun n s => n ≠ 0 ∧ At (db.apply (.account (AccountMapper.toPersistence a) a.domainEvents)) s)
    (.await at_ofRows.passes (fun h _ hx => ?_) fun _ ha hx => not_refused rfl rfl ha hx) fun n => .of_and fun hn => ?_
  · rcases exec_account_updateMany hx with ⟨rfl, rfl⟩ | ⟨rfl, rfl, -⟩
    · rw [← h] at hold
      refine absurd ?_ (exec_account_missed hx Store.view_prisma hold)
      show old.version = a.version - 1
      omega
    · exact ⟨Nat.one_ne_zero, h.write i _⟩
  · rw [if_neg hn]
    exact .pure fun _ h => h

/-- A row that loads is found. -/
theorem PrismaAccountRepository.findById_finds {a : Account} {row : AccountRecord}
    (hrow : db.accounts.find? row.id = some row)
    (hload : AccountMapper.toDomain row = .ok a) :
    Alone i (At db) (findById row.id) (fun o s => o = some a ∧ At db s) fun _ _ => False := by
  refine .bind (M := fun found s => found = some row ∧ At db s) (.await at_ofRows.passes (fun h _ hx => ?_)
    fun _ ha hx => not_refused rfl rfl ha hx) fun found => .of_and fun hr => ?_
  · obtain ⟨db', hv, rfl, rfl⟩ := exec_account_findUnique hx
    cases hv
    rw [At] at h
    exact ⟨h ▸ hrow, h⟩
  · subst hr
    exact .ofExcept_bind (fun a' ha' => .pure fun _ h => ⟨by rw [Except.ok.inj (ha'.symm.trans hload)], h⟩)
      fun e _ he => by cases he.symm.trans hload

/-- The lookup comes back with the transfer that the reference is found for. -/
theorem PrismaTransferRepository.findByProviderReference_finds {providerReference : String}
    (hfound : db.transfers.rows.find? (fun r => r.providerReference = some providerReference) = some r)
    (hload : TransferMapper.toDomain r = .ok t) :
    Alone i (At db) (findByProviderReference providerReference) (fun o s => o = some t ∧ At db s) fun _ _ =>
      False := by
  refine .bind (M := fun found s => found = some r ∧ At db s) (.await at_ofRows.passes (fun h _ hx => ?_)
    fun _ ha hx => not_refused rfl rfl ha hx) fun found => .of_and fun hr => ?_
  · obtain ⟨db', hv, rfl, rfl⟩ := exec_transfer_findFirst hx
    cases hv
    rw [At] at h
    exact ⟨h ▸ hfound, h⟩
  · subst hr
    exact .ofExcept_bind (fun t' ht' => .pure fun _ h => ⟨by rw [Except.ok.inj (ht'.symm.trans hload)], h⟩)
      fun e _ he => by cases he.symm.trans hload

/-- What the webhook finds: the open transfer, and the account as it is now. -/
structure LateFailure (r : TransferRecord) (t : Transfer) (b : Account) (total : Money) (db : Db) : Prop where
  row : db.transfers.find? r.id = some r
  loads : TransferMapper.toDomain r = .ok t
  processing : r.status = .PROCESSING
  source : db.accounts.find? t.sourceAccountId = some (AccountMapper.toPersistence b)
  held : t.amount.add t.fee = .ok total
  currency : b.balance.currency = b.currency
  sameCurrency : total.currency = b.currency

namespace LateFailure

variable (h : LateFailure r t b total db)
include h

theorem account_id : b.id = t.sourceAccountId := Table.key_of_find? (r := AccountMapper.toPersistence b) h.source

theorem account_row : db.accounts.find? b.id = some (AccountMapper.toPersistence b) := h.account_id ▸ h.source

theorem open_ : t.status.isTerminal = false := by
  rw [(TransferMapper.toDomain_ok h.loads).status, h.processing]
  rfl

theorem not_refunded : ¬ Refunded b total r.id db := fun hr => by
  obtain ⟨row, hrow, hs⟩ := hr.transfer
  rw [h.row, Option.some.injEq] at hrow
  rw [← hrow, h.processing] at hs
  cases hs

end LateFailure

namespace ConfirmExternalTransferHandler

theorem compensate_loads (h : LateFailure r t b total db) {narration : String}
    {Q : List AccountEvent → Store → Prop}
    {R : Err → Store → Prop}
    (hcredit : Alone i (At db) (do
      let source ← Prog.ofExcept (Account.credit { b with domainEvents := [] } total s!"reversal:{t.reference.value}")
      PrismaAccountRepository.save source
      postTransferJournal t narration (reversalLegs source.id source.balance total)
      return source.domainEvents) Q R) :
    Alone i (At db) (compensate t (.ok total) narration) Q R := by
  have hsource : t.sourceAccountId = (AccountMapper.toPersistence b).id := h.account_id.symm
  unfold compensate
  rw [hsource]
  refine .bind ((PrismaAccountRepository.findById_finds h.account_row
    (AccountMapper.toDomain_toPersistence h.currency)).mono (fun _ h => h) (fun _ _ h => h) fun _ _ h => h.elim)
    fun o => .of_and fun ho => ?_
  subst ho
  exact hcredit

/-- An ACTIVE account gets its money back. -/
theorem reverse_refunds (reason : Option String) (h : LateFailure r t b total db) (hactive : b.status = .ACTIVE) :
    Alone i (At db) (reverse reason t) (fun _ s => Refunded b total r.id s.db) fun _ _ => False := by
  have hloads := TransferMapper.toDomain_ok h.loads
  unfold reverse
  rw [h.held]
  refine .bind (M := fun _ s => ∃ row events rows, (row.id = b.id ∧
      row.balance = (b.balance.minorUnits : Int) + (total.minorUnits : Int)) ∧
      At ((db.apply (.account row events)).apply (.ledgerEntries rows)) s) (compensate_loads h ?_)
    fun accountEvents => .of_exists fun row => .of_exists fun events => .of_exists fun rows => .of_and fun hrow => ?_
  · refine .ofExcept_bind (fun credited hcredited => ?_) fun e _ he => ?_
    · obtain ⟨-, -, -, rfl⟩ := Account.credit_ok.1 hcredited
      refine .bind (PrismaAccountRepository.save_stored h.account_row rfl) fun _ => ?_
      refine .bind ((postTransferJournal_alone (PrismaLedgerRecorderService.net_reversalLegs _ _ _) _ _).mono
        (fun _ h => h) (fun _ _ h => h) fun _ _ h => h.elim) fun _ => .pure fun s hs => ?_
      obtain ⟨rows, -, hs⟩ := hs
      exact ⟨_, _, rows, ⟨rfl, rfl⟩, hs⟩
    · exact nomatch he.symm.trans (Account.credit_ok.2
        ⟨hactive, h.sameCurrency, h.currency.trans h.sameCurrency.symm, rfl⟩)
  · rw [Transfer.markReversed_of h.open_]
    have hkept : ((db.apply (.account row events)).apply (.ledgerEntries rows)).transfers.find? t.id = some r := by
      rw [hloads.id]
      exact h.row
    refine .ofExcept_bind (fun reversed hreversed => ?_) fun _ _ he => nomatch he
    cases hreversed
    refine .bind (PrismaTransferRepository.save_stored hkept (congrArg (· + 1) hloads.version)) fun _ => ?_
    refine (publishAll_alone at_ofRows _).mono (fun _ h => h) (fun _ s hs => ?_) fun _ _ h => h
    rw [hs]
    refine ⟨⟨row, ?_, hrow.2⟩, ⟨_, by rw [← hloads.id]; exact Table.find?_put_self _ _, rfl⟩⟩
    show (db.accounts.put row).find? b.id = some row
    rw [← hrow.1, Table.find?_put_self]

/-- Any other is refused the credit, and nothing has been written by then. -/
theorem reverse_refused (reason : Option String) (h : LateFailure r t b total db) (hactive : b.status ≠ .ACTIVE) :
    Alone i (At db) (reverse reason t) (fun _ _ => False) fun _ => At db := by
  unfold reverse
  rw [h.held]
  refine .bind (M := fun _ _ => False) (compensate_loads h ?_) fun _ => ⟨fun h => h.elim, fun h => h.elim⟩
  refine .ofExcept_bind (fun credited hcredited => ?_) fun _ _ _ hs => hs
  exact absurd (Account.credit_ok.1 hcredited).1 hactive

theorem execute_refunds {providerReference : String} (reason : Option String)
    (hfound : db.transfers.rows.find? (fun r => r.providerReference = some providerReference) = some r)
    (h : LateFailure r t b total db) {Q : Unit → Store → Prop} {R : Err → Store → Prop}
    (hreverse : Alone i (At db) (reverse reason t) Q R) :
    Alone i (At db) (execute ⟨providerReference, false, reason⟩) Q R := by
  refine .bind ((PrismaTransferRepository.findByProviderReference_finds hfound h.loads).mono (fun _ h => h)
    (fun _ _ h => h) fun _ _ h => h.elim) fun o => .of_and fun ho => ?_
  subst ho
  simpa only [h.open_, Bool.false_eq_true, if_false] using hreverse

end ConfirmExternalTransferHandler

end

/-- **A late failure is refunded exactly if the operations since the hold leave the account ACTIVE.** `held` is the
account once the hold has debited it, `b` what `ops` have made of it by the time the webhook comes. -/
theorem late_failure_refunded_iff {i : PId} {s s' : Store} {tr : List (Event Op.Res Err Store)} {x : Except Err Unit}
    {providerReference reference : String} {reason : Option String} {r : TransferRecord} {t : Transfer} {total : Money}
    {a held b : Account} {ops : List AccountOperation}
    (hfound : s.db.transfers.rows.find? (fun r => r.providerReference = some providerReference) = some r)
    (hprocessing : r.status = .PROCESSING) (hload : TransferMapper.toDomain r = .ok t)
    (htotal : t.amount.add t.fee = .ok total) (ha : a.balance.currency = a.currency)
    (hhold : a.debit total reference = .ok held) (hops : held.perform ops = .ok b)
    (hrow : s.db.accounts.find? t.sourceAccountId = some (AccountMapper.toPersistence b))
    (hrun : Run (scheduleOf OnlyPayoutsRefused) TimePasses i
      (ConfirmExternalTransferHandler.execute ⟨providerReference, false, reason⟩) s tr x s') :
    Refunded b total r.id s'.db ↔ LeavesActive ops := by
  have hfailure : LateFailure r t b total s.db := by
    obtain ⟨-, hsame, -⟩ := (Account.debit_ok ha).1 hhold
    obtain ⟨-, hc, hheld, -⟩ := AccountOperation.apply_keeps ha
      (show (AccountOperation.debit total reference).apply a = _ from hhold)
    obtain ⟨-, hc', hb, -⟩ := Account.perform_keeps hheld hops
    exact ⟨Table.find?_of_mem (List.mem_of_find?_eq_some hfound), hload, hprocessing, hrow, htotal, hb,
      (hsame.trans hc.symm).trans hc'.symm⟩
  rw [← Account.active_iff_leavesActive ha hhold hops]
  by_cases hactive : b.status = .ACTIVE
  · have hrefunds := ConfirmExternalTransferHandler.execute_refunds (i := i) reason hfound hfailure
      (ConfirmExternalTransferHandler.reverse_refunds reason hfailure hactive)
    rcases Triple.run hrefunds hrun (show s.db = s.db from rfl) with ⟨-, -, h⟩ | ⟨-, -, h⟩
    · exact iff_of_true h hactive
    · exact h.elim
  · have hrefused := ConfirmExternalTransferHandler.execute_refunds (i := i) reason hfound hfailure
      (ConfirmExternalTransferHandler.reverse_refused reason hfailure hactive)
    rcases Triple.run hrefused hrun (show s.db = s.db from rfl) with ⟨-, -, h⟩ | ⟨-, -, h⟩
    · exact h.elim
    · rw [h]
      exact iff_of_false hfailure.not_refunded hactive

/-- The hold of ₦50.00 and the fee of ₦10.00 take all that `sampleWallet` has. -/
def sampleWallet : Account := ⟨"acc", "user", sampleNumber, .NGN, ⟨6000, .NGN⟩, .ACTIVE, 3, []⟩

/-- ... and emptied. -/
def sampleEmptied : Account :=
  { sampleWallet with
    balance := ⟨0, .NGN⟩
    version := 4
    domainEvents := [.debited "acc" ⟨6000, .NGN⟩ "hold" 0] }

def sampleInFlight : TransferRecord :=
  { id := "t", reference := sampleReference.value, type := .EXTERNAL, initiatorUserId := "user",
    sourceAccountId := "acc",
    destinationAccountId := none, recipientBankCode := some "044", recipientAccountNumber := some "0123456780",
    recipientAccountName := some "Ada", amountMinorUnits := 5000, feeMinorUnits := 1000, currency := .NGN,
    narration := "rent", status := .PROCESSING, failureReason := none, providerReference := some "7", version := 1,
    createdAt := 0 }

/-- The news that payout 7 has failed. -/
def sampleFailure : Handler Unit := ConfirmExternalTransferHandler.execute ⟨"7", false, none⟩

/-- The webhook finds the wallet `b` and the transfer in flight. -/
def sampleLate (b : Account) : Store := .init (.of [AccountMapper.toPersistence b] [sampleInFlight]) 0

/-- Frozen and unfrozen in between, the wallet gets its ₦60.00 back. -/
theorem late_failure_refunded_iff_sample : ∃ tr x s',
    Run (scheduleOf OnlyPayoutsRefused) TimePasses 0 sampleFailure
      (sampleLate (sampleEmptied.freeze "check").unfreeze) tr x s' ∧
    ((s'.db.accounts.find? "acc").map (·.balance)) = some 6000 ∧
    (Refunded (sampleEmptied.freeze "check").unfreeze ⟨6000, .NGN⟩ "t" s'.db ↔
      LeavesActive [.freeze "check", .unfreeze]) := by
  have hplay : (playRun (scheduleOf OnlyPayoutsRefused) 0 [.ok, .ok, .ok, .uuid "j", .ok, .ok, .ok, .ok, .ok]
    sampleFailure
      (sampleLate (sampleEmptied.freeze "check").unfreeze)).any fun r =>
        ((r.2.2.db.accounts.find? "acc").map (·.balance)) = some 6000 := by
    decide +kernel
  obtain ⟨tr, x, s', hrun, hseen⟩ := playRun_seen
    (Q := fun _ _ (s : Store) => ((s.db.accounts.find? "acc").map (·.balance)) = some 6000) hplay
  have hat : ∀ s, TimePasses s s := fun s => ⟨0, rfl⟩
  have hrun := run_of_play hat hrun
  exact ⟨tr, x, s', hrun, hseen, late_failure_refunded_iff (r := sampleInFlight) rfl rfl rfl rfl rfl
    (show sampleWallet.debit ⟨6000, .NGN⟩ "hold" = .ok sampleEmptied from rfl) rfl rfl hrun⟩

/-- The owner closes the wallet that the hold has emptied: the webhook throws, and the ₦60.00 are gone. -/
theorem late_failure_stranded : ∃ closed tr e s',
    sampleWallet.debit ⟨6000, .NGN⟩ "hold" = .ok sampleEmptied ∧ sampleEmptied.perform [.close] = .ok closed ∧
    Run (scheduleOf OnlyPayoutsRefused) TimePasses 0 sampleFailure (sampleLate closed) tr (.error e) s' ∧
    e = accountNotActive "acc" .CLOSED ∧ ¬ Refunded closed ⟨6000, .NGN⟩ "t" s'.db := by
  have hplay : (playRun (scheduleOf OnlyPayoutsRefused) 0 [.ok, .ok] sampleFailure
      (sampleLate { sampleEmptied with
        status := .CLOSED
        version := 5
        domainEvents := [.debited "acc" ⟨6000, .NGN⟩ "hold" 0, .closed "acc"] })).any fun r =>
      r.2.1 = .error (accountNotActive "acc" .CLOSED) ∧
        ((r.2.2.db.transfers.find? "t").map (·.status)) = some .PROCESSING := by
    decide +kernel
  obtain ⟨tr, x, s', hrun, rfl, hseen⟩ := playRun_seen (Q := fun _ x (s : Store) =>
    x = .error (accountNotActive "acc" .CLOSED) ∧
      ((s.db.transfers.find? "t").map (·.status)) = some .PROCESSING) hplay
  refine ⟨_, tr, _, s', rfl, rfl, run_of_play (fun s => ⟨0, rfl⟩) hrun, rfl, fun h => ?_⟩
  obtain ⟨row, hrow, hs⟩ := h.transfer
  rw [hrow, Option.map_some, Option.some.injEq, hs] at hseen
  cases hseen

end Kudi
