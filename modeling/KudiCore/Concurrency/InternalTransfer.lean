import KudiCore.Concurrency.AccountWriters

/-!
# What an internal transfer stages

`moveFunds` stages two account rows and one journal. `MovesFunds` is everything the rest needs to
know of them; that source and destination differ is not checked anywhere in the executor, it
follows from the two conditional updates: the second one found the version the destination had
when it was read, which the first one, on the same row, would have raised.
-/

namespace Kudi

open Interleave Protocol

/-! ## The journal -/

theorem feeLegs_net (fee : Money) (accountId : String) :
    PrismaLedgerRecorderService.legsNet (feeLegs fee) accountId =
      if accountId = SystemLedgerAccount.feeRevenue fee.currency then (fee.minorUnits : Int) else 0 := by
  unfold feeLegs
  by_cases hz : fee.isZero = true
  · have h0 : fee.minorUnits = 0 := by simpa [Money.isZero] using hz
    simp [hz, h0, PrismaLedgerRecorderService.legsNet]
  · simp [hz, PrismaLedgerRecorderService.legsNet, eq_comm]

theorem feeLegs_length (fee : Money) : (feeLegs fee).length = if fee.minorUnits = 0 then 0 else 1 := by
  unfold feeLegs
  by_cases hz : fee.minorUnits = 0 <;> simp [Money.isZero, hz]

theorem internalLegs_net (source destination : String) (sourceBalance destinationBalance totalDebit amount fee : Money)
    (accountId : String) :
    PrismaLedgerRecorderService.legsNet
        (internalLegs source sourceBalance destination destinationBalance totalDebit amount fee) accountId =
      (if accountId = source then -(totalDebit.minorUnits : Int) else 0) +
        (if accountId = destination then (amount.minorUnits : Int) else 0) +
          if accountId = SystemLedgerAccount.feeRevenue fee.currency then (fee.minorUnits : Int) else 0 := by
  rw [← feeLegs_net fee accountId]
  simp only [internalLegs, PrismaLedgerRecorderService.legsNet, List.map_append, List.map_cons, List.map_nil,
    List.sum_append, List.sum_cons, List.sum_nil, add_zero, eq_comm (a := accountId)]

/-! ## The staged writes -/

structure MovesFunds (params : InternalTransferParams) (source destination : AccountRecord)
    (sourceEvents destinationEvents : List AccountEvent) (journal : List LedgerEntryRecord) : Prop where
  source_id : source.id = params.sourceAccountId
  destination_id : destination.id = params.destinationAccountId
  distinct : source.id ≠ destination.id
  debited : netOfEvents sourceEvents = -((params.amount.minorUnits : Int) + params.fee.minorUnits)
  credited : netOfEvents destinationEvents = params.amount.minorUnits
  oneJournal : ∃ journalId, ∀ e ∈ journal, e.journalId = journalId
  net : ∀ accountId, ledgerNet journal accountId =
    (if accountId = params.sourceAccountId then -((params.amount.minorUnits : Int) + params.fee.minorUnits) else 0) +
      (if accountId = params.destinationAccountId then (params.amount.minorUnits : Int) else 0) +
        if accountId = SystemLedgerAccount.feeRevenue params.fee.currency then (params.fee.minorUnits : Int) else 0
  legs : journal.length = if params.fee.minorUnits = 0 then 2 else 3

/-- The writes of a transaction that is about to commit. -/
inductive TransferWrites (params : InternalTransferParams) : List Write → Prop
  | intro {source destination sourceEvents destinationEvents journal} (transfer : TransferRecord)
      (h : MovesFunds params source destination sourceEvents destinationEvents journal) :
      TransferWrites params [.account source sourceEvents, .account destination destinationEvents,
        .ledgerEntries journal, .transfer transfer]

variable {pol : Policy} {i : PId} {α β : Type}

/-! ## Call by call -/

theorem requireRecord_bind {id : String} {f : AccountRecord → Handler β} {Q : Copies → Except Err β → Prop}
    {st : Copies}
    (hok : ∀ r, r.id = id → (∀ old ∈ st.seen, old.id = id → old.version ≤ r.version) →
      (accountProtocol pol).Obeys i Q (f r) (st.see r))
    (herr : ∀ st' e, SameTx st st' → Q st' (.error e)) :
    (accountProtocol pol).Obeys i Q (PrismaInternalTransferExecutor.requireRecord id >>= f) st := by
  refine ⟨trivial, fun r hr => ?_⟩
  rcases r with e | (_ | row)
  · exact herr st e (.refl st)
  · exact herr st _ (.refl st)
  · exact hok row hr.1 hr.2

/-- The conditional update inside the transaction. -/
theorem updateTx_bind {a : Account} {f : Unit → Handler β} {Q : Copies → Except Err β → Prop} {st : Copies}
    {r : AccountRecord} (hr : r ∈ st.seen) (hm : Mutates r (AccountMapper.toPersistence a) a.domainEvents)
    (hok : (∀ old ∈ st.seen, old.id = a.id → old.version ≤ r.version) →
      (accountProtocol pol).Obeys i Q (f ())
        ((st.stage (.account (AccountMapper.toPersistence a) a.domainEvents)).see (AccountMapper.toPersistence a)))
    (herr : ∀ st' e, SameTx st st' → Q st' (.error e)) :
    (accountProtocol pol).Obeys i Q (PrismaAccountRepository.update a .tx >>= f) st := by
  have hver : a.version = r.version + 1 := hm.version
  have hprev : (AccountMapper.toPersistence a).version - 1 = r.version := by
    show a.version - 1 = r.version
    omega
  refine ⟨⟨nofun, r, hr, hprev, hm⟩, fun x hx => ?_⟩
  rcases x with e | (_ | n)
  · exact herr st e (.refl st)
  · exact herr st _ (.refl st)
  · exact hok fun old ho hid => hprev ▸ hx (Nat.succ_ne_zero n) old ho hid

/-- What `post` stages inside the transaction. -/
theorem postTx_bind {posting : LedgerPosting} {f : Unit → Handler β} {Q : Copies → Except Err β → Prop}
    {st : Copies}
    (hok : ∀ journalId data, PrismaLedgerRecorderService.RowsOf posting journalId posting.legs data →
      (accountProtocol pol).Obeys i Q (f ())
        (st.stage (.ledgerEntries (data.map fun d => { d with createdAt := 0 }))))
    (herr : ∀ e, Q st (.error e)) :
    (accountProtocol pol).Obeys i Q (PrismaLedgerRecorderService.post posting .tx >>= f) st := by
  unfold PrismaLedgerRecorderService.post
  simp only [Prog.bind_assoc]
  refine .ofExcept_bind (fun _ _ => ?_) fun e _ => herr e
  refine .await_bind trivial (fun journalId _ => ?_) fun e _ => herr e
  refine outside_returns_bind (PrismaLedgerRecorderService.rows_calls (fun _ => trivial) posting.legs)
    (PrismaLedgerRecorderService.rows_returns posting.legs) (fun data hdata => ?_) herr
  refine .await_bind trivial (fun _ _ => ?_) fun e _ => herr e
  have hstage := hok journalId data hdata
  have hund : (Write.ledgerEntries (data.map fun d => { d with createdAt := 0 })).undated =
      .ledgerEntries (data.map fun d => { d with createdAt := 0 }) := undated_ledgerEntries data 0
  show (accountProtocol pol).Obeys i Q (f ()) (st.stage (Write.undated (.ledgerEntries _)))
  rwa [hund]

/-! ## The transaction -/

/-- The transaction is still open; what has been staged since `st`, if all of it has. -/
def FundsMoved (params : InternalTransferParams) (st st' : Copies) (done : Prop) : Prop :=
  st'.committed = st.committed ∧ (done → ∃ source destination sourceEvents destinationEvents journal,
    MovesFunds params source destination sourceEvents destinationEvents journal ∧
      st'.pending = st.pending ++ [.account source sourceEvents, .account destination destinationEvents,
        .ledgerEntries journal])

theorem moveFunds_obeys (params : InternalTransferParams) (transfer : Transfer) (st : Copies) :
    (accountProtocol pol).Obeys i (fun st' x => FundsMoved params st st' (∃ accounts, x = .ok accounts))
      (PrismaInternalTransferExecutor.moveFunds params transfer) st := by
  have failed : ∀ {st' : Copies} {e : Err}, st'.committed = st.committed →
      FundsMoved params st st' (∃ accounts : Account × Account, (.error e : Except Err _) = .ok accounts) :=
    fun h => ⟨h, fun ⟨_, h'⟩ => nomatch h'⟩
  refine requireRecord_bind (fun source hsid _ => ?_) fun st' e h => failed h.committed
  refine requireRecord_bind (fun destination hdid hread => ?_) fun st' e h => failed h.committed
  refine .ofExcept_bind (fun sourceAccount hs => ?_) fun e _ => failed rfl
  refine .ofExcept_bind (fun destinationAccount hd => ?_) fun e _ => failed rfl
  split
  · exact failed rfl
  refine .ofExcept_bind (fun totalDebit ht => ?_) fun e _ => failed rfl
  refine .ofExcept_bind (fun debited hdeb => ?_) fun e _ => failed rfl
  refine outside_bind (MaxBalanceGuardService.assertWithinLimit_calls (outside_kyc _) _ _) (fun _ => ?_)
    fun e => failed rfl
  refine .ofExcept_bind (fun credited hcred => ?_) fun e _ => failed rfl
  have hmd := mutates_debit hs hdeb
  have hmc := mutates_credit hd hcred
  refine updateTx_bind (r := source) (List.mem_cons_of_mem _ List.mem_cons_self) hmd (fun hle1 => ?_)
    fun st' e h => failed h.committed
  refine updateTx_bind (r := destination) (List.mem_cons_of_mem _ List.mem_cons_self) hmc (fun hle2 => ?_)
    fun st' e h => failed h.committed
  refine postTx_bind (fun journalId data hrows => ?_) fun e => failed rfl
  have htotal : totalDebit.minorUnits = params.amount.minorUnits + params.fee.minorUnits := by
    obtain ⟨-, rfl⟩ := Money.add_ok.1 ht
    rfl
  have hdebid : debited.id = params.sourceAccountId := (show debited.id = source.id from hmd.id).trans hsid
  have hcredid : credited.id = params.destinationAccountId :=
    (show credited.id = destination.id from hmc.id).trans hdid
  refine ⟨rfl, fun _ => ⟨AccountMapper.toPersistence debited, AccountMapper.toPersistence credited,
    debited.domainEvents, credited.domainEvents, data.map fun d => { d with createdAt := 0 }, ?_, ?_⟩⟩
  · refine ⟨hdebid, hcredid, fun heq => ?_, ?_, net_credit hd hcred, ⟨journalId, ?_⟩, fun accountId => ?_, ?_⟩
    · -- One row: the second update would have had to find the version the first one has raised.
      have heq : debited.id = credited.id := heq
      have h1 : destination.version ≤ source.version :=
        hle1 destination List.mem_cons_self (by rw [hdid, ← hcredid, heq])
      have h2 : debited.version ≤ destination.version :=
        hle2 (AccountMapper.toPersistence debited) List.mem_cons_self heq
      have h3 : debited.version = source.version + 1 := hmd.version
      omega
    · rw [net_debit hs hdeb, htotal]
      push_cast
      ring
    · intro e he
      obtain ⟨d, hd, rfl⟩ := List.mem_map.1 he
      exact hrows.same_journal d hd
    · rw [hrows.net 0 accountId, internalLegs_net, htotal, hdebid, hcredid]
      push_cast
      rfl
    · rw [List.length_map, hrows.length]
      simp only [internalLegs, List.length_append, List.length_cons, List.length_nil, feeLegs_length]
      split <;> rfl
  · show ((st.pending ++ _) ++ _) ++ _ = _
    simp

/-- `$transaction`: what it takes to commit, and how it can end. -/
theorem transaction_obeys {ε : Type} {onBegin : Err → ε} {onCommit : α → Err → ε} {body : Program ε α}
    {R Q : Copies → Except ε α → Prop} {st : Copies} (hbody : (accountProtocol pol).Obeys i R body st)
    (hbegin : ∀ e, Q st (.error (onBegin e)))
    (hthrow : ∀ st' e, R st' (.error e) → Q (.settled st'.committed) (.error e))
    (hcommit : ∀ st' a, R st' (.ok a) → pol.commit i st' ∧ Q (.settled true) (.ok a) ∧
      ∀ e, Q (.settled st'.committed) (.error (onCommit a e))) :
    (accountProtocol pol).Obeys i Q (transaction onBegin onCommit body) st := by
  refine ⟨trivial, fun r _ => ?_⟩
  rcases r with e | ⟨⟩
  · exact hbegin e
  have hcatch : (accountProtocol pol).Obeys i
      (fun st' x => (∀ a, x = .ok a → R st' (.ok a)) ∧ ∀ e, x = .error e → Q st' (.error e))
      (body.tryCatch fun e => do
        (Prog.await (Op.transaction .rollback)).mapError onBegin
        Prog.throw e) st := by
    refine hbody.tryCatch (fun st' a h => ⟨fun a' ha => ?_, nofun⟩) fun st' e h => ⟨trivial, fun r hr => ?_⟩
    · cases ha
      exact h
    · rcases r with e' | ⟨⟩
      · exact absurd hr id
      · refine ⟨nofun, fun e' he => ?_⟩
        cases he
        exact hthrow st' e h
  refine hcatch.bind (fun st' a h => ?_) fun st' e h => h.2 e rfl
  obtain ⟨hpol, hok, herr⟩ := hcommit st' a (h.1 a rfl)
  refine ⟨hpol, fun r _ => ?_⟩
  rcases r with e | ⟨⟩
  · exact herr e
  · exact hok

namespace PrismaInternalTransferExecutor

/-- All the writes of the transaction are staged. -/
def Staged (params : InternalTransferParams) (st st' : Copies) : Prop :=
  ∃ ws, TransferWrites params ws ∧ st'.pending = st.pending ++ ws

theorem body_obeys (params : InternalTransferParams) (transfer : Transfer) (st : Copies) :
    (accountProtocol pol).Obeys i
      (fun st' x => st'.committed = st.committed ∧ ∀ a, x = .ok a → Staged params st st')
      (body params transfer) st := by
  have hmove : (accountProtocol pol).Obeys i
      (fun st' x => FundsMoved params st st' (∃ accounts, x = .ok accounts))
      (during transfer (moveFunds params transfer)) st := by
    refine .mapError ((moveFunds_obeys params transfer st).mono fun st' x h => ⟨h.1, fun ⟨a, ha⟩ => ?_⟩)
    cases x with
    | ok a' => exact h.2 ⟨a', rfl⟩
    | error e => exact nomatch ha
  unfold body
  refine hmove.bind (fun st' accounts h => ?_) fun st' e h => ⟨h.1, fun _ he => nomatch he⟩
  have hmark : (during transfer (Prog.ofExcept transfer.markSuccessful)).Calls (Outside pol) :=
    calls_during (.ofExcept _)
  refine outside_bind hmark (fun completed => ?_) fun e => ⟨h.1, fun _ he => nomatch he⟩
  refine ⟨trivial, fun r _ => ?_⟩
  rcases r with e | ⟨⟩
  · exact ⟨h.1, fun _ he => nomatch he⟩
  · refine ⟨h.1, fun _ _ => ?_⟩
    obtain ⟨source, destination, sourceEvents, destinationEvents, journal, hm, hp⟩ := h.2 ⟨accounts, rfl⟩
    refine ⟨_, .intro (TransferMapper.toPersistence completed) hm, ?_⟩
    show st'.pending ++ [.transfer (TransferMapper.toPersistence completed)] = _
    rw [hp, List.append_assoc]
    rfl

/-- The `catch` block rethrows, whatever becomes of the FAILED row. -/
theorem recordFailure_obeys (error : Err) (transfer : Transfer) (st : Copies) :
    (accountProtocol pol).Obeys i (fun st' (x : Except Err α) => st' = st ∧ ∀ a, x ≠ .ok a)
      (recordFailure error transfer) st :=
  .ofExcept_bind (fun _ _ => outside_bind (saveTransfer_outside _) (fun _ => ⟨rfl, nofun⟩) fun _ =>
    ⟨rfl, nofun⟩)
    fun _ _ => ⟨rfl, nofun⟩

/-- **A run that returns has committed, a run that throws has not.** -/
theorem execute_obeys {params : InternalTransferParams} {st : Copies}
    (hcommit : ∀ st', st'.committed = st.committed → Staged params st st' → pol.commit i st') :
    (accountProtocol pol).Obeys i
      (fun st' x => (∀ a, x = .ok a → st'.committed = true) ∧ ∀ e, x = .error e →
        st'.committed = st.committed)
      (execute params) st := by
  unfold execute
  refine outside_bind (draw_outside _) (fun transfer => ?_) fun e => ⟨fun _ he => (nomatch he), fun _ _ => rfl⟩
  have hmoved : (accountProtocol pol).Obeys i
      (fun st' x => (∀ a, x = .ok a → st'.committed = true) ∧ ∀ e, x = .error e →
        st'.committed = st.committed)
      (moved params transfer) st := by
    refine transaction_obeys (body_obeys params transfer st) (fun e => ⟨fun _ he => (nomatch he), fun _ _ => rfl⟩)
      (fun st' e h => ⟨fun _ he => (nomatch he), fun _ _ => h.1⟩) fun st' a h =>
        ⟨hcommit st' h.1 (h.2 a rfl), ?_, fun e => ?_⟩
    · exact ⟨fun _ _ => rfl, fun _ he => nomatch he⟩
    · exact ⟨fun _ he => (nomatch he), fun _ _ => h.1⟩
  have hcaught : (accountProtocol pol).Obeys i
      (fun st' (x : Except Err (Transfer × List DomainEvent)) =>
        (∀ a, x = .ok a → st'.committed = true) ∧ ∀ e, x = .error e → st'.committed = st.committed)
      ((moved params transfer).tryCatch fun thrown => recordFailure thrown.1 thrown.2) st := by
    refine hmoved.tryCatch (fun st' a h => ⟨fun _ _ => h.1 a rfl, fun _ he => (nomatch he)⟩) fun st' thrown h => ?_
    refine (recordFailure_obeys thrown.1 thrown.2 st').mono fun st'' x hx => ⟨fun a ha => absurd ha (hx.2 a), ?_⟩
    intro e _
    rw [hx.1]
    exact h.2 thrown rfl
  exact hcaught.bind (fun st' a h => ⟨fun _ _ => h.1 a rfl, fun _ he => (nomatch he)⟩)
    fun st' e h => ⟨fun _ he => (nomatch he), fun _ _ => h.2 e rfl⟩

end PrismaInternalTransferExecutor

/-- Where anything may be committed, the handler obeys too. -/
theorem initiateInternal_obeys (hc : ∀ st, pol.commit i st) (fuel : Nat)
    (command : InitiateInternalTransferCommand) (st : Copies) :
    Writes pol i (InitiateInternalTransferHandler.execute fuel command) st := by
  refine run_obeys rehydrateTransfer_outside ?_ _ _ _ _
  show Writes pol i (InitiateInternalTransferHandler.doExecute command) st
  unfold InitiateInternalTransferHandler.doExecute
  split
  · trivial
  refine findById_bind (fun st' account _ _ => ?_) fun _ _ _ => trivial
  cases account with
  | none => trivial
  | some account =>
    dsimp only
    split
    · trivial
    refine Writes.ofExcept_bind fun amount _ => ?_
    refine outside_bind (assertWithinLimits_outside _ _ _) (fun _ => ?_) fun _ => trivial
    refine Writes.ofExcept_bind fun fee _ => ?_
    have hlast : ∀ (result : InternalTransferExecutionResult) (st' : Copies), Writes pol i (do
        publishAll result.events
        return (result.transfer.id, TransferResponseDto.fromDomain result.transfer)) st' := fun result st' =>
      outside_bind (publishAll_outside _) (fun _ => trivial) fun _ => trivial
    have hexec : ∀ params, Writes pol i (PrismaInternalTransferExecutor.execute params) st' := fun params =>
      (PrismaInternalTransferExecutor.execute_obeys fun st'' _ _ => hc st'').mono fun _ _ _ => trivial
    exact Writes.bind (hexec _) fun st'' result => hlast result st''

end Kudi
