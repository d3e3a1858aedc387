import KudiCore.Ledger.Recorder

/-!
# The clearing account

| here | there |
| --- | --- |
| `TransferRecord.outstanding` | what a PENDING or PROCESSING external transfer has in `external-payout-clearing` |
| `TransferRecord.paidOut` | what a SUCCESSFUL one has in `external-payout-settled` |
| `Tallies` | the two ledger accounts against the `Transfer` table, up to what is on its way |

A handler writes the journal and the row in two statements. Between them the accounts and the table differ by an amount
known from the handler's text, the `held` and `paid` of `Tallies`; where it has ended both are zero.
-/

namespace Kudi

open Interleave

/-! ## What the rows claim -/

def TransferRecord.outstanding (currency : Currency) (r : TransferRecord) : Int :=
  if r.type = .EXTERNAL ∧ r.currency = currency ∧ (r.status = .PENDING ∨ r.status = .PROCESSING) then
    r.amountMinorUnits + r.feeMinorUnits
  else 0

def TransferRecord.paidOut (currency : Currency) (r : TransferRecord) : Int :=
  if r.type = .EXTERNAL ∧ r.currency = currency ∧ r.status = .SUCCESSFUL then r.amountMinorUnits else 0

theorem TransactionStatus.isTerminal_eq_false {status : TransactionStatus} :
    status.isTerminal = false ↔ status = .PENDING ∨ status = .PROCESSING := by
  cases status <;> simp [isTerminal]

/-- An amount, as the totals of all currencies. -/
def Money.totals (m : Money) : Currency → Int := fun currency => if m.currency = currency then m.minorUnits else 0

section
variable {r : TransferRecord}

theorem TransferRecord.outstanding_terminal (h : r.status.isTerminal = true) (currency : Currency) :
    r.outstanding currency = 0 := by
  refine if_neg fun hr => ?_
  rw [TransactionStatus.isTerminal_eq_false.2 hr.2.2] at h
  cases h

theorem TransferRecord.paidOut_of_ne (h : r.status ≠ .SUCCESSFUL) (currency : Currency) : r.paidOut currency = 0 :=
  if_neg fun hr => h hr.2.2

theorem TransferRecord.paidOut_internal (h : r.type = .INTERNAL) (currency : Currency) : r.paidOut currency = 0 :=
  if_neg fun hr => by simp [h] at hr

end

/-! ## What the journals book on the two accounts -/

namespace SystemLedgerAccount

theorem clearing_inj (c c' : Currency) : externalPayoutClearing c = externalPayoutClearing c' ↔ c = c' := by
  cases c <;> cases c' <;> decide +kernel

theorem settled_inj (c c' : Currency) : externalPayoutSettled c = externalPayoutSettled c' ↔ c = c' := by
  cases c <;> cases c' <;> decide +kernel

theorem clearing_ne_settled (c c' : Currency) : externalPayoutClearing c ≠ externalPayoutSettled c' := by
  cases c <;> cases c' <;> decide +kernel

theorem feeRevenue_ne_clearing (c c' : Currency) : feeRevenue c ≠ externalPayoutClearing c' := by
  cases c <;> cases c' <;> decide +kernel

theorem feeRevenue_ne_settled (c c' : Currency) : feeRevenue c ≠ externalPayoutSettled c' := by
  cases c <;> cases c' <;> decide +kernel

end SystemLedgerAccount

/-- What `legs` book on the two accounts. -/
structure Relieves (legs : List LedgerPostingLeg) (held paid : Currency → Int) : Prop where
  clearing : ∀ c, PrismaLedgerRecorderService.legsNet legs (SystemLedgerAccount.externalPayoutClearing c) = held c
  settled : ∀ c, PrismaLedgerRecorderService.legsNet legs (SystemLedgerAccount.externalPayoutSettled c) = paid c

section
open SystemLedgerAccount PrismaLedgerRecorderService

variable {account : String}

theorem ne_of_not_system (h : account ∉ SystemLedgerAccount.all) (c : Currency) :
    account ≠ externalPayoutClearing c ∧ account ≠ externalPayoutSettled c :=
  ⟨fun e => h (e ▸ (mem_all c).2.1), fun e => h (e ▸ (mem_all c).2.2)⟩

theorem feeLegs_relieve (fee : Money) : Relieves (feeLegs fee) (fun _ => 0) fun _ => 0 := by
  unfold feeLegs
  split
  · exact ⟨fun _ => rfl, fun _ => rfl⟩
  · exact ⟨fun c => by simp [legsNet, feeRevenue_ne_clearing], fun c => by simp [legsNet, feeRevenue_ne_settled]⟩

theorem legsNet_append (legs legs' : List LedgerPostingLeg) (id : String) :
    legsNet (legs ++ legs') id = legsNet legs id + legsNet legs' id := by
  simp [legsNet]

theorem holdLegs_relieve (h : account ∉ SystemLedgerAccount.all) (balance total : Money) :
    Relieves (holdLegs account balance total) total.totals fun _ => 0 := by
  refine ⟨fun c => ?_, fun c => ?_⟩
  · simp [legsNet, holdLegs, (ne_of_not_system h c).1, clearing_inj, Money.totals]
  · simp [legsNet, holdLegs, (ne_of_not_system h c).2, clearing_ne_settled]

theorem reversalLegs_relieve (h : account ∉ SystemLedgerAccount.all) (balance total : Money) :
    Relieves (reversalLegs account balance total) (fun c => -total.totals c) fun _ => 0 := by
  refine ⟨fun c => ?_, fun c => ?_⟩
  · by_cases hc : total.currency = c <;>
      simp [legsNet, reversalLegs, (ne_of_not_system h c).1, clearing_inj, Money.totals, hc]
  · simp [legsNet, reversalLegs, (ne_of_not_system h c).2, clearing_ne_settled]

theorem settlementLegs_relieve (total amount fee : Money) :
    Relieves (settlementLegs total amount fee) (fun c => -total.totals c) amount.totals := by
  have hfee := feeLegs_relieve fee
  refine ⟨fun c => ?_, fun c => ?_⟩
  · rw [settlementLegs, legsNet_append, hfee.clearing, add_zero]
    by_cases hc : total.currency = c <;>
      simp [legsNet, clearing_inj, (clearing_ne_settled c amount.currency).symm, Money.totals, hc]
  · rw [settlementLegs, legsNet_append, hfee.settled, add_zero]
    simp [legsNet, settled_inj, clearing_ne_settled, Money.totals]

theorem internalLegs_relieve {destination : String} (hs : account ∉ SystemLedgerAccount.all)
    (hd : destination ∉ SystemLedgerAccount.all) (balance balance' total amount fee : Money) :
    Relieves (internalLegs account balance destination balance' total amount fee) (fun _ => 0) fun _ => 0 := by
  have hfee := feeLegs_relieve fee
  refine ⟨fun c => ?_, fun c => ?_⟩
  · rw [internalLegs, legsNet_append, hfee.clearing, add_zero]
    simp [legsNet, (ne_of_not_system hs c).1, (ne_of_not_system hd c).1]
  · rw [internalLegs, legsNet_append, hfee.settled, add_zero]
    simp [legsNet, (ne_of_not_system hs c).2, (ne_of_not_system hd c).2]

end

/-! ## The accounts against the table -/

/-- `external-payout-clearing` is ahead of the transfers outstanding by `held`, `external-payout-settled` ahead of those
paid out by `paid`. -/
structure Tallies (held paid : Currency → Int) (db : Db) : Prop where
  clearing : ∀ c, ledgerNet db.ledgerEntries (SystemLedgerAccount.externalPayoutClearing c) =
    db.transfers.sum (TransferRecord.outstanding c) + held c
  settled : ∀ c, ledgerNet db.ledgerEntries (SystemLedgerAccount.externalPayoutSettled c) =
    db.transfers.sum (TransferRecord.paidOut c) + paid c
  /-- No customer's account has the id of a system account. -/
  customers : ∀ id row, db.accounts.find? id = some row → id ∉ SystemLedgerAccount.all
  /-- A transfer that is still open is an external one, from an account that exists. -/
  sources : ∀ id r, db.transfers.find? id = some r → r.status.isTerminal = false →
    r.type = .EXTERNAL ∧ ∃ row, db.accounts.find? r.sourceAccountId = some row

/-- Where every handler has ended. -/
def Balanced (db : Db) : Prop := Tallies (fun _ => 0) (fun _ => 0) db

namespace Tallies

variable {held paid : Currency → Int} {db : Db}

theorem of_eq {db' : Db} (h : Tallies held paid db) (ha : db'.accounts = db.accounts)
    (ht : db'.transfers = db.transfers)
    (hl : db'.ledgerEntries = db.ledgerEntries) : Tallies held paid db' := by
  refine ⟨?_, ?_, ?_, ?_⟩
  · rw [ht, hl]; exact h.clearing
  · rw [ht, hl]; exact h.settled
  · rw [ha]; exact h.customers
  · rw [ha, ht]; exact h.sources

theorem congr {held' paid' : Currency → Int} (h : Tallies held paid db) (hh : ∀ c, held' c = held c)
    (hp : ∀ c, paid' c = paid c) : Tallies held' paid' db := by
  obtain rfl : held' = held := funext hh
  obtain rfl : paid' = paid := funext hp
  exact h

/-- An account that exists is saved. -/
theorem saveAccount (h : Tallies held paid db) {data : AccountRecord} (events : List AccountEvent)
    (hid : ∃ row, db.accounts.find? data.id = some row) : Tallies held paid (db.apply (.account data events)) where
  clearing := h.clearing
  settled := h.settled
  customers id row hrow := by
    obtain ⟨row0, h0⟩ := hid
    by_cases hd : data.id = id
    · exact h.customers id row0 (hd ▸ h0)
    · exact h.customers id row (by simpa [Db.apply, hd] using hrow)
  sources id r hr hopen := by
    obtain ⟨htype, row, hrow⟩ := h.sources id r hr hopen
    refine ⟨htype, ?_⟩
    by_cases hd : data.id = r.sourceAccountId
    · exact ⟨data, by simp [Db.apply, hd]⟩
    · exact ⟨row, by simpa [Db.apply, hd] using hrow⟩

/-- A journal is posted. -/
theorem post (h : Tallies held paid db) {rows : List LedgerEntryRecord} {legs : List LedgerPostingLeg}
    (hrows : ∀ id, ledgerNet rows id = PrismaLedgerRecorderService.legsNet legs id) {moved settled : Currency → Int}
    (hlegs : Relieves legs moved settled) :
    Tallies (fun c => held c + moved c) (fun c => paid c + settled c) (db.apply (.ledgerEntries rows)) where
  clearing c := by
    show ledgerNet (db.ledgerEntries ++ rows) _ = db.transfers.sum _ + _
    rw [ledgerNet_append, h.clearing, hrows, hlegs.clearing, add_assoc]
  settled c := by
    show ledgerNet (db.ledgerEntries ++ rows) _ = db.transfers.sum _ + _
    rw [ledgerNet_append, h.settled, hrows, hlegs.settled, add_assoc]
  customers := h.customers
  sources := h.sources

/-- A transfer is inserted. -/
theorem insert (h : Tallies held paid db) (data : TransferRecord) (hnew : db.transfers.find? data.id = none)
    (hsource : data.status.isTerminal = false →
      data.type = .EXTERNAL ∧ ∃ row, db.accounts.find? data.sourceAccountId = some row) :
    Tallies (fun c => held c - data.outstanding c) (fun c => paid c - data.paidOut c) (db.apply (.transfer data)) where
  clearing c := by
    show ledgerNet db.ledgerEntries _ = (db.transfers.put data).sum _ + _
    rw [h.clearing, Table.sum_put_new _ hnew]
    ring
  settled c := by
    show ledgerNet db.ledgerEntries _ = (db.transfers.put data).sum _ + _
    rw [h.settled, Table.sum_put_new _ hnew]
    ring
  customers := h.customers
  sources id r hr hopen := by
    by_cases hd : data.id = id
    · obtain rfl : data = r := by simpa [Db.apply, hd] using hr
      exact hsource hopen
    · exact h.sources id r (by simpa [Db.apply, hd] using hr) hopen

/-- A stored transfer goes on, of the same type and from the same account. -/
theorem update (h : Tallies held paid db) {old : TransferRecord} (data : TransferRecord)
    (hold : db.transfers.find? data.id = some old)
    (hopen : old.status.isTerminal = false) (htype : data.type = old.type)
    (hsource : data.sourceAccountId = old.sourceAccountId) :
    Tallies (fun c => held c + (old.outstanding c - data.outstanding c))
      (fun c => paid c + (old.paidOut c - data.paidOut c)) (db.apply (.transfer data)) where
  clearing c := by
    show ledgerNet db.ledgerEntries _ = (db.transfers.put data).sum _ + _
    rw [h.clearing, Table.sum_put _ hold]
    ring
  settled c := by
    show ledgerNet db.ledgerEntries _ = (db.transfers.put data).sum _ + _
    rw [h.settled, Table.sum_put _ hold]
    ring
  customers := h.customers
  sources id r hr hropen := by
    by_cases hd : data.id = id
    · obtain rfl : data = r := by simpa [Db.apply, hd] using hr
      rw [htype, hsource]
      exact h.sources _ old hold hopen
    · exact h.sources id r (by simpa [Db.apply, hd] using hr) hropen

end Tallies

end Kudi
