import KudiCore.Concurrency.Books

/-!
# Every handler leaves the books balanced

| here | there |
| --- | --- |
| `TransferringRequest` | the entry points of the transfers module that move money |

Wherever a handler of the transfers module ends, what it has moved on a customer's account is in the ledger
(`Settles`): a hold is followed by its journal, and so is a compensating credit.
-/

namespace Kudi

open Interleave Protocol

/-! ## Calls that do not matter -/

def BooksNothing : Op → Prop
  | .account _ (.updateMany ..) | .ledgerEntry _ (.createMany _) | .transaction _ => False
  | _ => True

section
variable {i : PId} {ε α β : Type} {st : Books}

theorem booksNothing_quiet {op : Op} (h : BooksNothing op) : bookProtocol.Quiet i op := by
  refine fun st => ⟨trivial, fun r => ?_⟩
  cases op with
  | account c q => cases q <;> rcases r with e | x <;> first | rfl | exact absurd h id
  | transfer c q => cases q <;> rcases r with e | x <;> rfl
  | ledgerEntry c q => cases q <;> rcases r with e | x <;> first | rfl | exact absurd h id
  | transaction q => exact absurd h id
  | _ => rcases r with e | x <;> rfl

theorem not_returned {e : ε} : ¬ ∃ a : α, Except.error e = .ok a := fun ⟨_, h⟩ => by cases h

/-- From settled books to settled books. -/
def Settles (i : PId) (p : Program ε α) : Prop :=
  ∀ st : Books, st.Settled → bookProtocol.Obeys i (fun st' _ => Books.Settled st') p st

theorem Settles.pure (a : α) : Settles i (Prog.pure a : Program ε α) := fun _ h => h

theorem Settles.throw (e : ε) : Settles i (Prog.throw e : Program ε α) := fun _ h => h

theorem Settles.bind {p : Program ε α} {f : α → Program ε β} (hp : Settles i p) (hf : ∀ a, Settles i (f a)) :
    Settles i (p >>= f) := fun st h =>
  Obeys.bind (P := bookProtocol) (hp st h) (fun st' a h' => hf a st' h') fun _ _ h' => h'

theorem Settles.tryCatch {ε' : Type} {p : Program ε α} {h : ε → Program ε' α} (hp : Settles i p)
    (hh : ∀ e, Settles i (h e)) : Settles i (p.tryCatch h) := fun st hst =>
  Obeys.tryCatch (P := bookProtocol) (hp st hst) (fun _ _ h' => h') fun st' e h' => hh e st' h'

theorem Settles.ofExcept_bind {x : Except ε α} {f : α → Program ε β}
    (hf : ∀ a, x = .ok a → Settles i (f a)) :
    Settles i (Prog.ofExcept x >>= f) := fun st h =>
  Obeys.ofExcept_bind (P := bookProtocol) (fun a ha => hf a ha st h) fun _ _ => h

theorem Settles.of_calls {p : Program ε α} (hp : p.Calls BooksNothing) : Settles i p := fun st h =>
  (Obeys.quiet (P := bookProtocol) (hp.mono fun _ => booksNothing_quiet) p.returns_true st).mono fun _ _ h' =>
    h'.1 ▸ h

theorem Settles.during {σ : Type} {a : σ} {p : Handler α} (hp : Settles i p) : Settles i (during a p) :=
  hp.tryCatch fun _ => .throw _

/-! ## Postings -/

/-- The books once `legs` are posted. -/
def Books.post (st : Books) (c : Client) (legs : List LedgerPostingLeg) : Books :=
  match c with
  | .prisma => { st with due := fun id => st.due id - PrismaLedgerRecorderService.legsNet legs id }
  | .tx => { st with staged := fun id => st.staged id - PrismaLedgerRecorderService.legsNet legs id }

theorem Books.add_rows {posting : LedgerPosting} {journalId : String} {data : List LedgerEntryData}
    (h : PrismaLedgerRecorderService.RowsOf posting journalId posting.legs data) (c : Client) :
    st.add c (.ledgerEntries (data.map fun d => { d with createdAt := 0 })) = st.post c posting.legs := by
  cases c <;> simp only [Books.add, Books.post, unbooked_ledgerEntries, h.net 0, sub_eq_add_neg]

namespace PrismaLedgerRecorderService

theorem rows_books (posting : LedgerPosting) (c : Client) (journalId : String) (legs : List LedgerPostingLeg)
    (st : Books) :
    bookProtocol.Obeys i (fun st' x => st' = st ∧ (∀ data, x = .ok data → RowsOf posting journalId legs data) ∧
      (c = .prisma → ∃ data, x = .ok data)) (rows posting c journalId legs) st := by
  have hrows : bookProtocol.Obeys i (fun st' x => st' = st ∧ ∀ data, x = .ok data →
    RowsOf posting journalId legs data)
      (rows posting c journalId legs) st :=
    Obeys.quiet (P := bookProtocol) (rows_calls (fun _ => booksNothing_quiet trivial) legs) (rows_returns legs) st
  cases c with
  | tx => exact hrows.mono fun _ _ h => ⟨h.1, h.2, nofun⟩
  | prisma =>
    have hok : bookProtocol.Obeys i (fun _ x => True ∧ ∃ data, x = .ok data)
      (rows posting .prisma journalId legs) st :=
      Obeys.of_calls_unfailing (P := bookProtocol) (K := fun _ => True)
      (T := fun op => ∃ id, op = .ledgerEntry .prisma (.findFirst id))
      (fun st op _ hop => by
        obtain ⟨id, rfl⟩ := hop
        exact ⟨trivial, fun r hr => ⟨trivial, hr⟩⟩)
      (rows_calls (fun id => ⟨id, rfl⟩) legs) (rows_unfailing legs) trivial
    exact (hrows.and hok).mono fun _ _ h => ⟨h.1.1, h.1.2, fun _ => h.2.2⟩

/-- A posting enters its legs, or nothing; a balanced one outside a transaction enters them. -/
theorem post_books (posting : LedgerPosting) (c : Client) (st : Books) :
    bookProtocol.Obeys i (fun st' x => (∀ u, x = .ok u → st' = st.post c posting.legs) ∧
      ∀ e, x = .error e → st' = st ∧ (c = .prisma → assertBalanced posting ≠ .ok ()))
        (post posting c) st := by
  have journal : ∀ {op : Op}, op = .randomUUID → ∀ r, bookProtocol.yields i st op r →
    ∃ x, r = .ok x := fun h r hy => by
    subst h
    exact hy
  refine Obeys.ofExcept_bind (P := bookProtocol) (fun _ hbalanced => ?_) fun e he =>
    ⟨nofun, fun _ _ => ⟨rfl, ?_⟩⟩
  · refine Obeys.await_bind (P := bookProtocol) trivial (fun journalId _ => ?_) fun e hy => ?_
    · refine Obeys.bind (P := bookProtocol) (rows_books posting c journalId posting.legs st) (fun st' data h => ?_)
        fun st' e h => ⟨nofun, fun _ _ => ⟨h.1, fun hc => ?_⟩⟩
      · obtain ⟨rfl, hrows, -⟩ := h
        refine Obeys.await (P := bookProtocol) trivial fun r hy => ?_
        rcases r with e | x
        · refine ⟨nofun, fun _ _ => ⟨rfl, fun hc => ?_⟩⟩
          subst hc
          obtain ⟨_, hx⟩ := hy
          cases hx
        · exact ⟨fun _ _ => Books.add_rows (hrows data rfl) c, nofun⟩
      · obtain ⟨_, hx⟩ := h.2.2 hc
        cases hx
    · obtain ⟨_, hx⟩ := journal rfl _ hy
      cases hx
  · rw [he]
    exact fun _ => nofun

end PrismaLedgerRecorderService

theorem postTransferJournal_books {legs : List LedgerPostingLeg}
    (hlegs : ∀ currency, PrismaLedgerRecorderService.netByCurrency legs currency = 0) (transfer : Transfer)
    (narration : String) (st : Books) :
    bookProtocol.Obeys i (fun st' x => (∃ u, x = .ok u) ∧ st' = st.post .prisma legs)
      (postTransferJournal transfer narration legs) st := by
  refine (PrismaLedgerRecorderService.post_books _ .prisma st).mono fun st' x h => ?_
  rcases x with e | u
  · exact absurd (PrismaLedgerRecorderService.assertBalanced_of hlegs) ((h.2 e rfl).2 rfl)
  · exact ⟨⟨u, rfl⟩, h.1 u rfl⟩

/-- A journal that has no leg on a customer's account. -/
theorem postTransferJournal_settles {legs : List LedgerPostingLeg}
    (hlegs : ∀ id ∉ SystemLedgerAccount.all, PrismaLedgerRecorderService.legsNet legs id = 0) (transfer : Transfer)
    (narration : String) : Settles i (postTransferJournal transfer narration legs) := fun st hst => by
  refine (PrismaLedgerRecorderService.post_books _ .prisma st).mono fun st' x h => ?_
  rcases x with e | u
  · exact (h.2 e rfl).1 ▸ hst
  · rw [h.1 u rfl]
    intro id hid
    show st.due id - _ = 0
    rw [hst id hid, hlegs id hid, sub_zero]

/-! ### What the legs book on a customer's account -/

theorem ne_of_customer {id : String} (hid : id ∉ SystemLedgerAccount.all) (currency : Currency) :
    SystemLedgerAccount.feeRevenue currency ≠ id ∧ SystemLedgerAccount.externalPayoutClearing currency ≠ id ∧
      SystemLedgerAccount.externalPayoutSettled currency ≠ id := by
  obtain ⟨hfee, hclearing, hsettled⟩ := SystemLedgerAccount.mem_all currency
  exact ⟨fun h => hid (h ▸ hfee), fun h => hid (h ▸ hclearing), fun h => hid (h ▸ hsettled)⟩

theorem holdLegs_net {id : String} (hid : id ∉ SystemLedgerAccount.all) (account : String) (balance total : Money) :
    PrismaLedgerRecorderService.legsNet (holdLegs account balance total) id =
      if account = id then -(total.minorUnits : Int) else 0 := by
  simp [PrismaLedgerRecorderService.legsNet, holdLegs, (ne_of_customer hid total.currency).2.1]

theorem reversalLegs_net {id : String} (hid : id ∉ SystemLedgerAccount.all) (account : String)
    (balance total : Money) :
    PrismaLedgerRecorderService.legsNet (reversalLegs account balance total) id =
      if account = id then (total.minorUnits : Int) else 0 := by
  simp [PrismaLedgerRecorderService.legsNet, reversalLegs, (ne_of_customer hid total.currency).2.1]

theorem internalLegs_net_customer {id : String} (hid : id ∉ SystemLedgerAccount.all) (source destination : String)
    (sourceBalance destinationBalance total amount fee : Money) :
    PrismaLedgerRecorderService.legsNet
        (internalLegs source sourceBalance destination destinationBalance total amount fee) id =
      (if source = id then -(total.minorUnits : Int) else 0) +
        if destination = id then (amount.minorUnits : Int) else 0 := by
  have hfee := feeLegs_net fee id
  rw [if_neg (Ne.symm (ne_of_customer hid fee.currency).1)] at hfee
  simp only [PrismaLedgerRecorderService.legsNet] at hfee
  simp [PrismaLedgerRecorderService.legsNet, internalLegs, hfee]

theorem settlementLegs_net {id : String} (hid : id ∉ SystemLedgerAccount.all) (total amount fee : Money) :
    PrismaLedgerRecorderService.legsNet (settlementLegs total amount fee) id = 0 := by
  have hfee := feeLegs_net fee id
  rw [if_neg (Ne.symm (ne_of_customer hid fee.currency).1)] at hfee
  simp only [PrismaLedgerRecorderService.legsNet] at hfee
  simp [PrismaLedgerRecorderService.legsNet, settlementLegs, hfee, (ne_of_customer hid total.currency).2.1,
    (ne_of_customer hid amount.currency).2.2]

/-! ## Saves -/

theorem update_books (a : Account) (c : Client) (st : Books) :
    bookProtocol.Obeys i (fun st' x =>
      (∀ u, x = .ok u → st' = st.add c (.account (AccountMapper.toPersistence a) a.domainEvents)) ∧
        ∀ e, x = .error e → st' = st) (PrismaAccountRepository.update a c) st := by
  refine .await_bind trivial (fun n _ => ?_) fun _ _ => ⟨nofun, fun _ _ => rfl⟩
  by_cases hn : n = 0
  · subst hn
    exact ⟨nofun, fun _ _ => rfl⟩
  · have hnext : bookProtocol.next i st (.account c (.updateMany ((AccountMapper.toPersistence a).version - 1)
        (AccountMapper.toPersistence a) a.domainEvents)) (.ok n) =
          st.add c (.account (AccountMapper.toPersistence a) a.domainEvents) := if_neg hn
    rw [hnext, if_neg hn]
    exact ⟨fun _ _ => rfl, nofun⟩

theorem save_books {a : Account} (hv : a.version ≠ 0) (st : Books) :
    bookProtocol.Obeys i (fun st' x =>
      (∀ u, x = .ok u → st' = st.add .prisma (.account (AccountMapper.toPersistence a) a.domainEvents)) ∧
        ∀ e, x = .error e → st' = st) (PrismaAccountRepository.save a) st := by
  unfold PrismaAccountRepository.save
  rw [if_neg hv]
  exact update_books a .prisma st

theorem findById_returns (id : String) : (PrismaAccountRepository.findById id).Returns fun o =>
    ∀ a, o = some a → ∃ r, AccountMapper.toDomain r = .ok a := by
  refine .bind (Prog.returns_true _) fun record _ => ?_
  cases record with
  | none => exact nofun
  | some record =>
    refine .bind (.ofExcept (Q := fun a => AccountMapper.toDomain record = .ok a) fun _ h => h) fun a ha => ?_
    intro a' ha'
    cases ha'
    exact ⟨record, ha⟩

theorem findById_books_bind {id : String} {f : Option Account → Handler β} {Q : Books → Except Err β → Prop}
    (hok : ∀ o, (∀ a, o = some a → ∃ r, AccountMapper.toDomain r = .ok a) → bookProtocol.Obeys i Q (f o) st)
    (herr : ∀ e, Q st (.error e)) : bookProtocol.Obeys i Q (PrismaAccountRepository.findById id >>= f) st :=
  .quiet_returns_bind (PrismaAccountRepository.findById_calls (fun _ => booksNothing_quiet trivial) id)
    (findById_returns id) hok herr

/-! ## External transfers -/

/-- The credit is in the ledger when the journal is. -/
theorem compensate_settles (transfer : Transfer) (totalDebit : Except Err Money) (narration : String) :
    Settles i (compensate transfer totalDebit narration) := by
  intro st hst
  refine findById_books_bind (fun account haccount => ?_) fun _ => hst
  cases account with
  | none => exact hst
  | some account =>
    obtain ⟨row, hl⟩ := haccount account rfl
    refine Obeys.ofExcept_bind (P := bookProtocol) (fun total _ => ?_) fun _ _ => hst
    refine Obeys.ofExcept_bind (P := bookProtocol) (fun credited hc => ?_) fun _ _ => hst
    have hv : credited.version ≠ 0 := by
      obtain ⟨-, -, -, rfl⟩ := Account.credit_ok.1 hc
      exact Nat.succ_ne_zero _
    refine Obeys.bind (P := bookProtocol) (save_books hv st) (fun st1 u h1 => ?_) fun st1 e h1 => h1.2 e rfl ▸ hst
    rw [h1.1 u rfl]
    refine Obeys.bind (P := bookProtocol)
      (postTransferJournal_books (PrismaLedgerRecorderService.net_reversalLegs _ _ _) _ _ _)
      (fun st2 _ h2 => ?_) fun st2 e h2 => absurd h2.1 not_returned
    show Books.Settled st2
    rw [h2.2]
    intro id hid
    show st.due id + _ - _ = 0
    rw [hst id hid, unbooked_account, reversalLegs_net hid, net_credit hl hc]
    exact sub_eq_zero.2 (zero_add _)

theorem saveTransfer_settles (transfer : Transfer) : Settles i (PrismaTransferRepository.save transfer) :=
  .of_calls (PrismaTransferRepository.save_calls (fun _ => trivial) transfer)

theorem publishAll_settles (events : List DomainEvent) : Settles i (publishAll events) :=
  .of_calls (publishAll_calls (fun _ => trivial) events)

theorem confirm_settles (command : ConfirmExternalTransferCommand) :
    Settles i (ConfirmExternalTransferHandler.execute command) := by
  refine .bind (.of_calls (PrismaTransferRepository.findByProviderReference_calls (fun _ => trivial) _)) fun found => ?_
  cases found with
  | none => exact .throw _
  | some transfer =>
    dsimp only
    split
    · exact .pure _
    split
    · exact .ofExcept_bind fun _ _ => .bind (saveTransfer_settles _) fun _ => .ofExcept_bind fun _ _ =>
        .bind (postTransferJournal_settles (fun _ hid => settlementLegs_net hid _ _ _) _ _) fun _ =>
          publishAll_settles _
    · exact .bind (compensate_settles _ _ _) fun _ => .ofExcept_bind fun _ _ =>
        .bind (saveTransfer_settles _) fun _ => publishAll_settles _

/-- What is drawn is never refused. -/
theorem draw_books (initiate : Nat → TransferReference → String → α) (st : Books) :
    bookProtocol.Obeys i (fun st' x => st' = st ∧ (∃ a, x = .ok a) ∧
      ∀ a, x = .ok a → ∃ now reference id, a = initiate now reference id) (draw initiate) st := by
  have hok : bookProtocol.Obeys i (fun _ x => True ∧ ∃ a, x = .ok a) (draw initiate) st :=
    Obeys.of_calls_unfailing (P := bookProtocol) (K := fun _ => True)
    (T := fun op => op = .randomUUID ∨ op = .generateReference ∨ op = .dateNow)
    (fun st' op _ hop => ⟨trivial, fun r hr => by rcases hop with rfl | rfl | rfl <;> exact ⟨trivial, hr⟩⟩)
    (draw_calls (.inr (.inr rfl)) (.inl rfl) (.inr (.inl rfl)) initiate) (draw_unfailing initiate) trivial
  have hdrawn := Obeys.quiet (P := bookProtocol) (i := i) (draw_calls (booksNothing_quiet trivial)
    (booksNothing_quiet trivial) (booksNothing_quiet trivial) initiate) (draw_returns initiate) st
  exact (hok.and hdrawn).mono fun _ _ h => ⟨h.2.1, h.1.2, h.2.2⟩

namespace InitiateExternalTransferHandler

/-- After the hold, the account is ahead of the ledger by the total. -/
def Ahead (total : Money) (account : Account) (st : Books) : Prop :=
  ∀ id ∉ SystemLedgerAccount.all, st.due id = if account.id = id then -(total.minorUnits : Int) else 0

/-- How `hold` ends. -/
def HoldEnds (st : Books) : Except Err (Account × ExternalRecipient × Money × Money × Money) → Prop
  | .ok held => Ahead held.2.2.2.2 held.1 st
  | .error _ => st.Settled

theorem hold_books (command : InitiateExternalTransferCommand) (hst : st.Settled) :
    bookProtocol.Obeys i HoldEnds (hold command) st := by
  refine findById_books_bind (fun account haccount => ?_) fun _ => hst
  cases account with
  | none => exact hst
  | some account =>
    obtain ⟨row, hl⟩ := haccount account rfl
    dsimp only
    split
    · exact hst
    refine Obeys.ofExcept_bind (P := bookProtocol) (fun amount _ => ?_) fun _ _ => hst
    refine .quiet_bind (KycTransferLimitCheckerService.assertWithinLimits_calls (fun _ => booksNothing_quiet trivial)
      (booksNothing_quiet trivial) (fun _ _ _ => booksNothing_quiet trivial) _ _ _) (fun _ => ?_) fun _ => hst
    refine Obeys.ofExcept_bind (P := bookProtocol) (fun fee _ => ?_) fun _ _ => hst
    refine Obeys.ofExcept_bind (P := bookProtocol) (fun total _ => ?_) fun _ _ => hst
    refine Obeys.ofExcept_bind (P := bookProtocol) (fun recipient _ => ?_) fun _ _ => hst
    refine Obeys.ofExcept_bind (P := bookProtocol) (fun debited hd => ?_) fun _ _ => hst
    have hv : debited.version ≠ 0 := by
      obtain ⟨-, -, -, rfl⟩ := (Account.debit_ok (AccountMapper.toDomain_ok hl).2.1).1 hd
      exact Nat.succ_ne_zero _
    refine Obeys.bind (P := bookProtocol) (save_books hv st) (fun st1 u h1 => ?_) fun st1 e h1 => h1.2 e rfl ▸ hst
    show Ahead total debited st1
    rw [h1.1 u rfl]
    intro id hid
    show st.due id + _ = _
    rw [hst id hid, unbooked_account, net_debit hl hd, zero_add]
    rfl

/-- The clearing journal settles the hold. -/
theorem record_books (command : InitiateExternalTransferCommand) {sourceAccount : Account}
    (recipient : ExternalRecipient)
    (amount fee : Money) {totalDebit : Money} (hst : Ahead totalDebit sourceAccount st) :
    bookProtocol.Obeys i (fun st' _ => Books.Settled st')
      (record command sourceAccount recipient amount fee totalDebit) st := by
  refine Obeys.bind (P := bookProtocol) (draw_books _ st) (fun st1 transfer h1 => ?_) fun st1 e h1 =>
    absurd h1.2.1 not_returned
  obtain ⟨rfl, -, hdrawn⟩ := h1
  obtain ⟨now, reference, id, htransfer⟩ := hdrawn transfer rfl
  have hv : transfer.version = 0 := htransfer ▸ rfl
  have hsave : bookProtocol.Obeys i (fun st' x => st' = st1 ∧ ∃ u, x = .ok u)
    (PrismaTransferRepository.save transfer) st1 := by
    unfold PrismaTransferRepository.save
    rw [if_pos hv]
    exact .await trivial fun r hr => ⟨by rcases r with e | x <;> rfl, hr⟩
  refine Obeys.bind (P := bookProtocol) hsave (fun st2 _ h2 => ?_) fun st2 e h2 => absurd h2.2 not_returned
  obtain ⟨rfl, -⟩ := h2
  refine Obeys.bind (P := bookProtocol)
    (postTransferJournal_books (PrismaLedgerRecorderService.net_holdLegs _ _ _) _ _ _)
    (fun st3 _ h3 => ?_) fun st3 e h3 => absurd h3.1 not_returned
  show Books.Settled st3
  rw [h3.2]
  intro id hid
  show st2.due id - _ = 0
  rw [hst id hid, holdLegs_net hid, sub_self]

theorem payOut_settles (command : InitiateExternalTransferCommand) (recipient : ExternalRecipient) (totalDebit : Money)
    (events : List DomainEvent) (transfer : Transfer) :
    Settles i (payOut command recipient totalDebit events transfer) := by
  refine .tryCatch (.bind (.during (.of_calls
    (FlutterwavePayoutProvider.initiatePayout_calls (fun _ => trivial) _ _ _ _))) fun payoutResult =>
      ?_) fun thrown => ?_
  · refine .bind ?_ fun marked => .bind (.during (saveTransfer_settles _)) fun _ =>
      .bind (.during (publishAll_settles _)) fun _ => .pure _
    unfold markAccepted
    split
    · exact .bind (.of_calls (calls_during (.ofExcept _))) fun _ =>
        .bind (.during (postTransferJournal_settles (fun _ hid => settlementLegs_net hid _ _ _) _ _)) fun _ => .pure _
    · exact .of_calls (calls_during (.ofExcept _))
  · exact .bind (compensate_settles _ _ _) fun _ => .ofExcept_bind fun _ _ =>
      .bind (saveTransfer_settles _) fun _ => .bind (publishAll_settles _) fun _ => .throw _

theorem doExecute_settles (command : InitiateExternalTransferCommand) : Settles i (doExecute command) := by
  intro st hst
  refine Obeys.bind (P := bookProtocol) (hold_books command hst) (fun st1 held h1 => ?_) fun _ _ h1 => h1
  refine Obeys.bind (P := bookProtocol) (record_books command _ _ _ h1) (fun st2 transfer h2 => ?_)
    fun _ _ h2 => h2
  exact Settles.bind (payOut_settles _ _ _ _ _) (fun _ => .pure _) st2 h2

end InitiateExternalTransferHandler

/-! ## Internal transfers -/

/-- How a transaction's body ends: what it has staged is booked, or it throws. -/
def BodyEnds (due : String → Int) (st : Books) (x : Except ε α) : Prop :=
  st.due = due ∧ match x with
    | .ok _ => ∀ id ∉ SystemLedgerAccount.all, st.staged id = 0
    | .error _ => True

/-- No transaction commits books that are not settled. -/
theorem transaction_settles {onBegin : Err → ε} {onCommit : α → Err → ε} {body : Program ε α}
    (hbody : ∀ st : Books, (∀ id, st.staged id = 0) → bookProtocol.Obeys i (BodyEnds st.due) body st) :
    Settles i (transaction onBegin onCommit body) := by
  intro st hst
  refine Obeys.bind (P := bookProtocol)
    (R := fun st' x => st'.due = st.due ∧ ((∃ u, x = .ok u) → ∀ id, st'.staged id = 0))
    (.mapError (.await trivial fun r _ => ?_)) (fun st1 u h1 => ?_) fun st1 e h1 => ?_
  · rcases r with e | x
    · exact ⟨rfl, fun h => absurd h not_returned⟩
    · exact ⟨rfl, fun _ _ => rfl⟩
  · refine Obeys.bind (P := bookProtocol) (R := BodyEnds st1.due) (Obeys.tryCatch (P := bookProtocol)
      (hbody st1 (h1.2 ⟨u, rfl⟩)) (fun _ _ h => h) fun st2 e h2 => ?_) (fun st2 a h2 => ?_) fun st2 e h2 => ?_
    · refine Obeys.bind (P := bookProtocol) (R := fun st' _ => st'.due = st1.due)
        (.mapError (.await trivial fun r _ => ?_)) (fun _ _ h => ⟨h, trivial⟩) fun _ _ h => ⟨h, trivial⟩
      rcases r with e | x <;> exact h2.1
    · refine Obeys.bind (P := bookProtocol) (R := fun st' _ => Books.Settled st')
        (.mapError (.await trivial fun r _ => ?_)) (fun _ _ h => h) fun _ _ h => h
      rcases r with e | x
      · exact fun id hid => (congrFun (h2.1.trans h1.1) id).trans (hst id hid)
      · intro id hid
        show st2.due id + st2.staged id = 0
        rw [h2.2 id hid, h2.1, h1.1, hst id hid, add_zero]
    · exact fun id hid => (congrFun (h2.1.trans h1.1) id).trans (hst id hid)
  · exact fun id hid => (congrFun h1.1 id).trans (hst id hid)

namespace PrismaInternalTransferExecutor

theorem requireRecord_books (id : String) : (requireRecord id).Calls (bookProtocol.Quiet i) :=
  .bind (.await (booksNothing_quiet trivial)) fun record => by cases record <;> trivial

/-- What the two updates move, the journal books. -/
theorem moveFunds_books (params : InternalTransferParams) (transfer : Transfer) (hstaged : ∀ id, st.staged id = 0) :
    bookProtocol.Obeys i (BodyEnds st.due) (moveFunds params transfer) st := by
  refine .quiet_bind (requireRecord_books _) (fun source => ?_) fun _ => ⟨rfl, trivial⟩
  refine .quiet_bind (requireRecord_books _) (fun destination => ?_) fun _ => ⟨rfl, trivial⟩
  refine Obeys.ofExcept_bind (P := bookProtocol) (fun sourceAccount hs => ?_) fun _ _ => ⟨rfl, trivial⟩
  refine Obeys.ofExcept_bind (P := bookProtocol) (fun destinationAccount hd => ?_) fun _ _ => ⟨rfl, trivial⟩
  split
  · exact ⟨rfl, trivial⟩
  refine Obeys.ofExcept_bind (P := bookProtocol) (fun total _ => ?_) fun _ _ => ⟨rfl, trivial⟩
  refine Obeys.ofExcept_bind (P := bookProtocol) (fun debited hdebit => ?_) fun _ _ => ⟨rfl, trivial⟩
  refine .quiet_bind (MaxBalanceGuardService.assertWithinLimit_calls (fun _ => booksNothing_quiet trivial) _ _)
    (fun _ => ?_) fun _ => ⟨rfl, trivial⟩
  refine Obeys.ofExcept_bind (P := bookProtocol) (fun credited hcredit => ?_) fun _ _ => ⟨rfl, trivial⟩
  refine Obeys.bind (P := bookProtocol) (update_books debited .tx st) (fun st1 u h1 => ?_)
    fun st1 e h1 => ⟨congrArg Books.due (h1.2 e rfl), trivial⟩
  obtain rfl := h1.1 u rfl
  refine Obeys.bind (P := bookProtocol) (update_books credited .tx _) (fun st2 u h2 => ?_)
    fun st2 e h2 => ⟨by rw [h2.2 e rfl]; rfl, trivial⟩
  obtain rfl := h2.1 u rfl
  refine Obeys.bind (P := bookProtocol) (PrismaLedgerRecorderService.post_books _ .tx _) (fun st3 u h3 => ?_)
    fun st3 e h3 => ⟨by rw [(h3.2 e rfl).1]; rfl, trivial⟩
  obtain rfl := h3.1 u rfl
  refine ⟨rfl, fun id hid => ?_⟩
  show st.staged id + unbooked id _ + unbooked id _ - PrismaLedgerRecorderService.legsNet _ id = 0
  rw [hstaged, unbooked_account, unbooked_account, net_debit hs hdebit, net_credit hd hcredit,
    internalLegs_net_customer hid, zero_add]
  exact sub_self _

theorem body_books (params : InternalTransferParams) (transfer : Transfer) (hstaged : ∀ id, st.staged id = 0) :
    bookProtocol.Obeys i (BodyEnds st.due) (body params transfer) st := by
  refine Obeys.bind (P := bookProtocol) (R := BodyEnds st.due)
    (.mapError ((moveFunds_books params transfer hstaged).mono fun st' x h => ?_)) (fun st1 accounts h1 => ?_)
    fun _ _ h1 => h1
  · rcases x with e | x <;> exact h
  · refine .quiet_bind (calls_during (.ofExcept _)) (fun completed => ?_) fun _ => ⟨h1.1, trivial⟩
    refine .quiet_bind (calls_during (.await (booksNothing_quiet trivial))) (fun _ => ?_) fun _ => ⟨h1.1, trivial⟩
    exact h1

theorem execute_settles (params : InternalTransferParams) : Settles i (execute params) := by
  refine .bind (.of_calls (draw_calls trivial trivial trivial _)) fun transfer => .bind (.tryCatch ?_ fun thrown => ?_)
    fun _ => .pure _
  · exact transaction_settles fun st hstaged => body_books params transfer hstaged
  · exact .ofExcept_bind fun _ _ => .bind (saveTransfer_settles _) fun _ => .throw _

end PrismaInternalTransferExecutor

/-! ## Under an idempotency key -/

theorem run_settles {o : Operation α} (he : Settles i o.execute)
    (hr : ∀ resourceId, Settles i (o.rehydrate resourceId))
    (userId scope : String) (key : Option String) (fuel : Nat) :
    Settles i (IdempotencyGuardService.run userId scope key fuel o) := fun st hst =>
  IdempotencyGuardService.run_obeys_of (P := bookProtocol) (K := Books.Settled) (fun _ => booksNothing_quiet trivial)
    (booksNothing_quiet trivial) (fun _ => booksNothing_quiet trivial) hst (he st hst)
    (fun resourceId => hr resourceId st hst) userId scope key fuel

theorem rehydrateTransfer_settles (resourceId : Option String) : Settles i (rehydrateTransfer resourceId) :=
  .of_calls (rehydrateTransfer_calls (fun _ => trivial) resourceId)

theorem internal_settles (fuel : Nat) (command : InitiateInternalTransferCommand) :
    Settles i (InitiateInternalTransferHandler.execute fuel command) := by
  refine run_settles ?_ rehydrateTransfer_settles _ _ _ _
  show Settles i (InitiateInternalTransferHandler.doExecute command)
  unfold InitiateInternalTransferHandler.doExecute
  split
  · exact .throw _
  refine .bind (.of_calls (PrismaAccountRepository.findById_calls (fun _ => trivial) _)) fun account => ?_
  cases account with
  | none => exact .throw _
  | some account =>
    dsimp only
    split
    · exact .throw _
    · refine .ofExcept_bind fun _ _ => .bind (.of_calls ?_) fun _ => .ofExcept_bind fun _ _ =>
        .bind (PrismaInternalTransferExecutor.execute_settles _) fun _ => .bind (publishAll_settles _) fun _ => .pure _
      exact KycTransferLimitCheckerService.assertWithinLimits_calls (fun _ => trivial) trivial
        (fun _ _ _ => trivial) _ _ _

theorem external_settles (fuel : Nat) (command : InitiateExternalTransferCommand) :
    Settles i (InitiateExternalTransferHandler.execute fuel command) :=
  run_settles (InitiateExternalTransferHandler.doExecute_settles command) rehydrateTransfer_settles _ _ _ _

end

/-! ## Every schedule -/

inductive TransferringRequest where
  | internalExecution (params : InternalTransferParams)
  | internal (fuel : Nat) (command : InitiateInternalTransferCommand)
  | external (fuel : Nat) (command : InitiateExternalTransferCommand)
  | confirmation (command : ConfirmExternalTransferCommand)

namespace TransferringRequest

def program : TransferringRequest → Handler Unit
  | .internalExecution params => forget (PrismaInternalTransferExecutor.execute params)
  | .internal fuel command => forget (InitiateInternalTransferHandler.execute fuel command)
  | .external fuel command => forget (InitiateExternalTransferHandler.execute fuel command)
  | .confirmation command => ConfirmExternalTransferHandler.execute command

theorem settles {i : PId} (request : TransferringRequest) : Settles i request.program := by
  cases request with
  | internalExecution params => exact .bind (PrismaInternalTransferExecutor.execute_settles params) fun _ => .pure _
  | internal fuel command => exact .bind (internal_settles fuel command) fun _ => .pure _
  | external fuel command => exact .bind (external_settles fuel command) fun _ => .pure _
  | confirmation command => exact confirm_settles command

/-- It writes accounts as `Request.program` does. -/
def request : TransferringRequest → Request
  | .internalExecution params => .internalExecution params
  | .internal fuel command => .internalTransfer fuel command
  | .external fuel command => .externalTransfer fuel command
  | .confirmation command => .externalConfirmation command

theorem writes (request : TransferringRequest) (i : PId) (st : Copies) : Writes .free i request.program st := by
  have h := request.request.obeys i st
  cases request <;> exact h

end TransferringRequest

theorem books_preserves (db0 : Db) : ((accountProtocol .free).prod bookProtocol).Preserves (scheduleOf NothingLost)
    fun s sts => AccountsInv db0 s (fun i => (sts i).1) ∧ BooksInv db0 s fun i => (sts i).2 :=
  Preserves.of_prod (P := accountProtocol .free) (R := bookProtocol)
    (I := fun s sts books => AccountsInv db0 s sts ∧ BooksInv db0 s books)
    (fun {_ _ books _ _ _ _ _} h hok _ ha hx => by
      obtain ⟨hy, haccounts⟩ := h.1.step hok hx
      exact ⟨⟨hy, yields_of_nothingLost ha hx books⟩, haccounts, h.2.step hx⟩)
    fun _ h => ⟨h.1.of_eq rfl rfl fun _ => rfl, h.2.due, h.2.staged, h.2.ledger⟩

/-- **Balances move as the ledger says.** Over any schedule of internal transfers, external transfers and webhooks in
which no transfer insert and no posting is refused, whatever else fails: where every program has ended or not started,
what has been entered on a customer's account in the ledger is what its balance has changed by. -/
theorem balance_change_is_ledger_net (requests : PId → TransferringRequest) (db0 : Db) (clock : Nat)
    {c : Config Op.Res Err Store Err Unit}
    (hr : (scheduleOf NothingLost).Reach ⟨.init db0 clock, fun i => (requests i).program⟩ c)
    (hidle : ∀ i, c.pool i = (requests i).program ∨ ∃ x, c.Ended i x) :
    ∃ entries, c.store.db.ledgerEntries = db0.ledgerEntries ++ entries ∧
      ∀ id ∉ SystemLedgerAccount.all, ∀ row0, db0.accounts.find? id = some row0 →
        ∃ row, c.store.db.accounts.find? id = some row ∧ row.balance - row0.balance = ledgerNet entries id := by
  have htracks : ((accountProtocol .free).prod bookProtocol).Tracks
      (fun s sts => AccountsInv db0 s (fun i => (sts i).1) ∧ BooksInv db0 s fun i => (sts i).2)
      (fun _ st _ => Books.Settled st.2)
      (⟨.init db0 clock, fun i => (requests i).program⟩ : Config Op.Res Err Store Err Unit) fun _ =>
        (.init, .clear) :=
    ⟨⟨.init db0 clock, .init db0 clock⟩, fun i => (((requests i).writes i .init).prod
      ((requests i).settles Books.clear fun _ _ => rfl)).mono fun _ _ h => h.2⟩
  obtain ⟨sts, htracks', hunmoved⟩ := reach_unmoved (books_preserves db0) htracks hr
  have hsettled : ∀ i, Books.Settled (sts i).2 := fun i => by
    rcases hidle i with hi | ⟨x, hx⟩
    · rw [hunmoved i hi]
      exact fun _ _ => rfl
    · exact htracks'.ended hx
  obtain ⟨⟨haccounts, hbooks⟩, -⟩ := htracks'
  refine ⟨_, hbooks.ledger, fun id hid row0 h0 => ?_⟩
  have hzero : unbooked id c.store.writes = 0 := by
    rw [Store.writes, unbooked_flatMap]
    refine sum_eq_zero_of_groups (fun e => unbooked id e.2) _ _ le_rfl fun i => ?_
    rw [← unbooked_flatMap]
    exact (hbooks.due i id).symm.trans (hsettled i id hid)
  obtain ⟨row, hrow, hb, -, -⟩ := haccounts.row h0
  refine ⟨row, hrow, ?_⟩
  rw [hb, ← net_of_booked hzero]
  ring

/-- Program 1 sends ₦50.00 to another bank. -/
def sampleTransferring (_ : PId) : TransferringRequest :=
  .external 0 ⟨"user", "acc", "044", "0123456780", "Ada", "50.00", "rent", none⟩

/-- The provider refuses the payout, and the hold is returned. -/
def sampleRefused : List (System.Move Ans Nat) :=
  System.calls 1 [.ok, .ok, .ok, .ok, .ok, .ok, .ok, .uuid "t", .reference sampleReference, .ok, .uuid "j", .ok, .ok,
    .payout ⟨false, "refused", none⟩, .ok, .ok, .uuid "k", .ok, .ok, .ok, .ok, .ok, .ok, .ok]

theorem balance_change_is_ledger_net_sample :
    ∃ (c : Config Op.Res Err Store Err Unit) (entries : List LedgerEntryRecord),
    c.Ended 1 (.error (payoutProviderException "refused")) ∧ entries.length = 4 ∧
      ∃ row, c.store.db.accounts.find? "acc" = some row ∧ row.balance - 10000 = ledgerNet entries "acc" := by
  have hplay : ((scheduleOf NothingLost).play sampleRefused
      ⟨.init (.of [sampleAccount] []) 0, fun i => (sampleTransferring i).program⟩).any fun c =>
        c.Ended 1 (.error (payoutProviderException "refused")) ∧ c.store.db.ledgerEntries.length = 4 := by
    decide +kernel
  obtain ⟨c, hc, hended, hlength⟩ := System.play_seen _ hplay
  have hidle : ∀ i, c.pool i = (sampleTransferring i).program ∨ ∃ x, c.Ended i x := fun i => by
    by_cases hi : i = 1
    · exact .inr ⟨_, hi ▸ hended⟩
    · exact .inl (System.pool_of_play _ (by simp [sampleRefused, System.calls, System.Move.isCallOf, Ne.symm hi]) hc)
  obtain ⟨entries, hentries, hnet⟩ := balance_change_is_ledger_net sampleTransferring (.of [sampleAccount] []) 0
    (System.reach_of_play _ hc) hidle
  refine ⟨c, entries, hended, ?_, hnet "acc" (by decide) sampleAccount (by decide)⟩
  rw [← hlength, hentries]
  rfl

end Kudi
