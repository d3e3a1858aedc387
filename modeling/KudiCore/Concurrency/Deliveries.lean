import KudiCore.Transfers.LateFailure

/-!
# Many deliveries of one payout's outcome

| here | there |
| --- | --- |
| `Write.refunds` | the credit of the late-failure branch, by its reference `reversal:…` (`:115`) |
| `RefundedOnce`  | "must never double-compensate" in the header comment of `ConfirmExternalTransferHandler` |

The terminal-status check reads a row that is loaded first, and the account is credited before that row is saved
again. The version check of the transfer stops the second of two deliveries, but only after its credit; the version
check of the account stops only a delivery that has loaded the account before the other's credit. Between its
credit and its save of the transfer a delivery **owes** that save. As long as nobody credits, or saves the transfer,
while another delivery owes (`RefundsInTurn`), there is one refund, and the transfer is REVERSED.
-/

namespace Kudi

open Interleave Protocol

/-! ## What has been committed -/

def AccountEvent.refunds (r : TransferRecord) : AccountEvent → Bool
  | .credited _ _ reference _ => reference == s!"reversal:{r.reference}"
  | _ => false

namespace Write

/-- The write credits the source account of transfer `r` back. -/
def refunds (r : TransferRecord) (w : Write) : Bool := w.account?.any fun saved => saved.2.any (·.refunds r)

/-- The write is a save of transfer `r`. -/
def saves (r : TransferRecord) (w : Write) : Bool := w.transfer?.any fun data => data.id == r.id

end Write

namespace Store

/-- The programs that have committed a write of kind `f`, once for each such write. -/
def authors (s : Store) (f : Write → Bool) : List PId :=
  s.wal.flatMap fun entry => (entry.2.filter f).map fun _ => entry.1

def refunders (s : Store) (r : TransferRecord) : List PId := s.authors (Write.refunds r)

def savers (s : Store) (r : TransferRecord) : List PId := s.authors (Write.saves r)

/-- Program `i` has credited, and has not saved the transfer since. -/
def Owes (s : Store) (r : TransferRecord) (i : PId) : Prop := i ∈ s.refunders r ∧ i ∉ s.savers r

instance (s : Store) (r : TransferRecord) (i : PId) : Decidable (s.Owes r i) := inferInstanceAs (Decidable (_ ∧ _))

/-- No program but `i` owes. -/
def OthersEven (s : Store) (r : TransferRecord) (i : PId) : Prop := ∀ j ∈ s.refunders r, j ∈ s.savers r ∨ j = i

instance (s : Store) (r : TransferRecord) (i : PId) : Decidable (s.OthersEven r i) :=
  inferInstanceAs (Decidable (∀ j ∈ s.refunders r, j ∈ s.savers r ∨ j = i))

def transferStatus? (s : Store) (id : String) : Option TransactionStatus := (s.db.transfers.find? id).map (·.status)

variable {s s' : Store} {i : PId} {w : Write} {f : Write → Bool}

theorem SameRows.authors (h : s.SameRows s') : s'.authors f = s.authors f := by simp [Store.authors, h.wal]

theorem authors_write (h : f w = true) : (s.write i .prisma w).authors f = s.authors f ++ [i] := by
  simp [authors, h]

theorem authors_write_other (h : f w = false) : (s.write i .prisma w).authors f = s.authors f := by
  simp [authors, h]

end Store

/-! ## The schedules -/

/-- The call credits the source account of transfer `r` back. -/
def Op.refunds (r : TransferRecord) : Op → Bool
  | .account _ (.updateMany _ _ events) => events.any (·.refunds r)
  | _ => false

/-- A credit, or a save of the transfer, goes through only while no other delivery owes; the credit only while the
transfer is PROCESSING; and a delivery that owes is not rejected. -/
def RefundsInTurn (r : TransferRecord) (s : Store) (i : PId) (a : Ans) (op : Op) : Prop :=
  (lands s i a op → op.refunds r = true ∨ op.savedTransfer? = some r.id → s.OthersEven r i) ∧
  (lands s i a op → op.refunds r = true → s.transferStatus? r.id = some .PROCESSING) ∧
  (s.Owes r i → a.isFail = false)

instance (r : TransferRecord) (s : Store) (i : PId) (a : Ans) (op : Op) :
    Decidable ((scheduleOf (RefundsInTurn r)).allow s i a op) :=
  inferInstanceAs (Decidable ((_ → _ ∨ _ → _) ∧ (_ → _ → _ = _) ∧ (_ → _ = _)))

/-! ## The protocol -/

/-- How far a delivery has come. -/
inductive Progress where
  | idle
  /-- It has loaded the transfer, PROCESSING. -/
  | holding
  /-- It has credited the account. -/
  | owing
  /-- It has saved the transfer. -/
  | finished
deriving DecidableEq

/-- `data` is the row `r`, settled or reversed; the settled row is made before any credit. -/
structure Concludes (r : TransferRecord) (st : Progress) (data : TransferRecord) : Prop where
  id : data.id = r.id
  version : data.version = r.version + 1
  providerReference : data.providerReference = r.providerReference
  status : data.status = .REVERSED ∧ (st = .holding ∨ st = .owing) ∨ data.status = .SUCCESSFUL ∧ st = .holding

def deliveryProtocol (ref : String) (r : TransferRecord) : Protocol Op.Res Err where
  State := Progress
  ok _ st op := match op with
    | .transfer .prisma (.findFirst providerReference) => st = .idle ∧ providerReference = ref
    | .transfer .prisma (.findUnique id) => id = r.id
    | .transfer .prisma (.updateMany version data) => version = r.version ∧ Concludes r st data
    | .account .prisma (.findUnique _) => True
    | .account .prisma (.updateMany _ _ events) => st = .holding ∧ events.any (·.refunds r) = true
    | .ledgerEntry .prisma _ | .randomUUID | .publish _ => True
    | _ => False
  yields _ st op x := (st = .owing → ∃ res, x = .ok res) ∧ match op, x with
    | .transfer .prisma (.findFirst _), .ok (some row) => row = r ∨ row.status.isTerminal = true
    | .transfer .prisma (.findUnique _), .ok none => False
    | .transfer .prisma (.updateMany ..), .ok n => st = .owing → n ≠ 0
    | _, _ => True
  next _ st op x := match op, x with
    | .transfer .prisma (.findFirst _), .ok (some row) => if row = r then .holding else st
    | .transfer .prisma (.updateMany ..), .ok n => if n = 0 then st else .finished
    | .account .prisma (.updateMany ..), .ok n => if n = 0 then st else .owing
    | _, _ => st

/-! ## The programs obey -/

section
variable {ref : String} {r : TransferRecord} {i : PId} {ε α β : Type} {st : Progress} {t : Transfer}

/-- The calls that the protocol does not look at. -/
def Incidental : Op → Prop
  | .account .prisma (.findUnique _) | .ledgerEntry .prisma _ | .randomUUID | .publish _ => True
  | _ => False

theorem incidental_quiet {op : Op} (h : Incidental op) : (deliveryProtocol ref r).Quiet i op := by
  intro st
  cases op with
  | account c q =>
    cases c with
    | tx => exact absurd h (by cases q <;> exact id)
    | prisma =>
      cases q with
      | findUnique id => exact ⟨trivial, fun x => by rcases x with e | x <;> rfl⟩
      | _ => exact absurd h id
  | ledgerEntry c q =>
    cases c with
    | tx => exact absurd h id
    | prisma => exact ⟨trivial, fun x => by rcases x with e | x <;> rfl⟩
  | randomUUID => exact ⟨trivial, fun x => by rcases x with e | x <;> rfl⟩
  | publish e => exact ⟨trivial, fun x => by rcases x with e | x <;> rfl⟩
  | _ => exact absurd h id

theorem incidental_obeys {p : Program ε α} (hp : p.Calls Incidental) (hst : st ≠ .owing) :
    (deliveryProtocol ref r).Obeys i (fun st' _ => st' ≠ .owing) p st :=
  (Obeys.quiet (P := deliveryProtocol ref r) (hp.mono fun _ => incidental_quiet) p.returns_true st).mono
    fun _ _ h => h.1 ▸ hst

/-- A delivery that owes is not rejected on the way. -/
theorem owing_obeys {p : Program ε α} (hp : p.Calls Incidental) (hu : p.Unfailing) :
    (deliveryProtocol ref r).Obeys i (fun st' x => st' = .owing ∧ ∃ a, x = .ok a) p .owing := by
  refine Obeys.of_calls_unfailing (P := deliveryProtocol ref r) (K := (· = .owing)) (fun st op hst hT => ?_) hp hu rfl
  subst hst
  have hquiet : (deliveryProtocol ref r).Quiet i op := incidental_quiet hT
  exact ⟨(hquiet .owing).1, fun x hx => ⟨(hquiet .owing).2 x, hx.1 rfl⟩⟩

theorem publishAll_incidental (events : List DomainEvent) : (publishAll events).Calls Incidental :=
  publishAll_calls (fun _ => trivial) events

theorem postTransferJournal_incidental (t : Transfer) (narration : String) (legs : List LedgerPostingLeg) :
    (postTransferJournal t narration legs).Calls Incidental :=
  postTransferJournal_calls trivial (fun _ => trivial) t narration legs

/-- The save of the transfer, settled or reversed, is made, or nothing is; whoever owes makes it. -/
theorem saveConcluded_obeys {t' : Transfer} (hloads : TransferMapper.Loads r t) (hid : t'.id = t.id)
    (hv : t'.version = t.version + 1) (href : t'.providerReference = t.providerReference)
    (hs : t'.status = .REVERSED ∧ (st = .holding ∨ st = .owing) ∨ t'.status = .SUCCESSFUL ∧ st = .holding) :
    (deliveryProtocol ref r).Obeys i (fun st' _ => st' ≠ .owing) (PrismaTransferRepository.save t') st := by
  have hversion : t'.version = r.version + 1 := hv.trans (congrArg (· + 1) hloads.version)
  have h : Concludes r st (TransferMapper.toPersistence t') :=
    ⟨hid.trans hloads.id, hversion, href.trans hloads.providerReference, hs⟩
  unfold PrismaTransferRepository.save
  rw [if_neg (by omega)]
  refine .await_bind ⟨?_, h⟩ (fun n hn => ?_) fun e he hst => ?_
  · show t'.version - 1 = r.version
    omega
  · by_cases hzero : n = 0
    · have hst : st ≠ .owing := fun hst => hn.2 hst hzero
      subst hzero
      refine .await_bind h.id (fun existing hy => ?_) fun e _ => hst
      cases existing with
      | none => exact hy.2.elim
      | some row => exact hst
    · simp only [if_neg hzero]
      simp only [deliveryProtocol, if_neg hzero]
      exact fun hst => Progress.noConfusion hst
  · obtain ⟨_, hok⟩ := he.1 hst
    cases hok

/-- The compensation: the account is credited to the end, or not at all. -/
theorem compensate_delivers {total : Except Err Money} {narration : String} (href : t.reference.value = r.reference) :
    (deliveryProtocol ref r).Obeys i (fun st' x => st' = .holding ∨ st' = .owing ∧ ∃ a, x = .ok a)
      (compensate t total narration) .holding := by
  refine Obeys.bind (P := deliveryProtocol ref r) (R := fun st' _ => st' = .holding)
    ((Obeys.quiet (P := deliveryProtocol ref r) ((PrismaAccountRepository.findById_calls (T := Incidental)
      (fun _ => trivial) _).mono fun _ => incidental_quiet) (Prog.returns_true _) .holding).mono fun _ _ h => h.1)
    (fun st' account hst => ?_) fun _ _ h => .inl h
  subst hst
  cases account with
  | none => exact .inl rfl
  | some account =>
    refine .ofExcept_bind (fun totalDebit _ => ?_) fun _ _ => .inl rfl
    refine .ofExcept_bind (fun credited hcredit => ?_) fun _ _ => .inl rfl
    obtain ⟨-, -, -, rfl⟩ := Account.credit_ok.1 hcredit
    refine Obeys.bind (P := deliveryProtocol ref r)
      (R := fun st' x => (st' = .holding ∧ ∃ e, x = .error e) ∨ st' = .owing ∧ ∃ a, x = .ok a) ?_
      (fun st' _ hst => ?_) fun st' e hst => ?_
    · unfold PrismaAccountRepository.save
      rw [if_neg (Nat.succ_ne_zero _)]
      refine .await_bind ⟨rfl, ?_⟩ (fun n _ => ?_) fun e _ => .inl ⟨rfl, e, rfl⟩
      · simp [AccountEvent.refunds, href]
      · by_cases hzero : n = 0
        · subst hzero
          exact .inl ⟨rfl, _, rfl⟩
        · simp only [if_neg hzero]
          simp only [deliveryProtocol, if_neg hzero]
          exact .inr ⟨rfl, _, rfl⟩
    · obtain rfl : st' = .owing := by
        rcases hst with ⟨-, e, he⟩ | ⟨h, -⟩
        · cases he
        · exact h
      refine Obeys.bind (P := deliveryProtocol ref r) (owing_obeys (postTransferJournal_incidental _ _ _)
        (PrismaLedgerRecorderService.post_unfailing ?_)) (fun st'' _ h => ?_) fun st'' e h => ?_
      · exact PrismaLedgerRecorderService.assertBalanced_of (PrismaLedgerRecorderService.net_reversalLegs _ _ _)
      · exact .inr ⟨h.1, _, rfl⟩
      · obtain ⟨-, a, ha⟩ := h
        cases ha
    · rcases hst with ⟨h, -⟩ | ⟨-, a, ha⟩
      · exact .inl h
      · cases ha

theorem reverse_delivers {reason : Option String} (hloads : TransferMapper.Loads r t)
    (hopen : t.status.isTerminal = false) :
    (deliveryProtocol ref r).Obeys i (fun st' _ => st' ≠ .owing) (ConfirmExternalTransferHandler.reverse reason t)
      .holding := by
  refine Obeys.bind (P := deliveryProtocol ref r) (compensate_delivers hloads.reference)
    (fun st' accountEvents hst => ?_) fun st' e hst howing => ?_
  · have hst : st' = .holding ∨ st' = .owing := hst.imp_right (·.1)
    refine .ofExcept_bind (fun reversed hreversed => ?_) fun e he => ?_
    · rw [Transfer.markReversed_of hopen] at hreversed
      cases hreversed
      exact Obeys.bind (P := deliveryProtocol ref r) (saveConcluded_obeys hloads rfl rfl rfl (.inl ⟨rfl, hst⟩))
        (fun st'' _ h => incidental_obeys (publishAll_incidental _) h) fun _ _ h => h
    · rw [Transfer.markReversed_of hopen] at he
      cases he
  · rcases hst with hst | ⟨-, a, ha⟩
    · exact absurd (hst.symm.trans howing) (fun h => Progress.noConfusion h)
    · cases ha

theorem settle_delivers (hloads : TransferMapper.Loads r t) (hopen : t.status.isTerminal = false) :
    (deliveryProtocol ref r).Obeys i (fun st' _ => st' ≠ .owing) (ConfirmExternalTransferHandler.settle t)
      .holding := by
  refine .ofExcept_bind (fun settled hsettled => ?_) fun e _ howing => Progress.noConfusion howing
  rw [Transfer.markSuccessful_of hopen] at hsettled
  cases hsettled
  refine Obeys.bind (P := deliveryProtocol ref r) (saveConcluded_obeys hloads rfl rfl rfl (.inr ⟨rfl, rfl⟩))
    (fun st'' _ h => ?_) fun _ _ h => h
  exact incidental_obeys (.bind (.ofExcept _) fun _ => .bind (postTransferJournal_incidental _ _ _) fun _ =>
    publishAll_incidental _) h

/-- **A delivery acts on the transfer as it was PROCESSING, or not at all**, and never ends owing. -/
theorem execute_delivers {command : ConfirmExternalTransferCommand} (href : command.providerReference = ref) :
    (deliveryProtocol ref r).Obeys i (fun st' _ => st' ≠ .owing) (ConfirmExternalTransferHandler.execute command)
      .idle := by
  have hidle : Progress.idle ≠ .owing := fun h => Progress.noConfusion h
  refine Obeys.bind (P := deliveryProtocol ref r)
    (R := fun st' x => st' ≠ .owing ∧ ∀ o, x = .ok o → ∀ t, o = some t →
      t.status.isTerminal = true ∨ st' = .holding ∧ TransferMapper.Loads r t)
    ?_ (fun st' found h => ?_) fun _ _ h => h.1
  · refine .await_bind ⟨rfl, href⟩ (fun found hfound => ?_) fun e _ => ⟨hidle, fun _ ho => by cases ho⟩
    cases found with
    | none => exact ⟨hidle, fun o ho t ht => by cases ho; cases ht⟩
    | some row =>
      have hst : (deliveryProtocol ref r).next i .idle (.transfer .prisma (.findFirst command.providerReference))
          (.ok (some row)) ≠ .owing := by
        by_cases hrow : row = r
        · exact fun h => Progress.noConfusion ((if_pos hrow).symm.trans h)
        · exact fun h => Progress.noConfusion ((if_neg hrow).symm.trans h)
      refine Obeys.ofExcept_bind (x := TransferMapper.toDomain row) (fun t ht => ⟨hst, fun o ho t' ht' => ?_⟩)
        fun e _ => ⟨hst, fun _ ho => by cases ho⟩
      cases ho
      cases ht'
      have hloads := TransferMapper.toDomain_ok ht
      rcases hfound.2 with rfl | hterminal
      · exact .inr ⟨if_pos rfl, hloads⟩
      · exact .inl (by rw [hloads.status, hterminal])
  · cases found with
    | none => exact h.1
    | some t =>
      dsimp only
      split
      · exact h.1
      · rename_i hopen
        rcases h.2 _ rfl t rfl with hterminal | ⟨rfl, hloads⟩
        · exact absurd hterminal hopen
        · simp only [Bool.not_eq_true] at hopen
          split
          · exact settle_delivers hloads hopen
          · exact reverse_delivers hloads hopen

end

/-! ## The invariant -/

/-- The deliveries' progress is what has been committed, and `cur` is the transfer's row: as it was, or concluded
once. There is at most one refund, and its transfer is still to be saved, or REVERSED. -/
structure DeliveriesInv (ref : String) (r : TransferRecord) (s : Store) (sts : PId → Progress)
    (cur : TransferRecord) :
    Prop where
  found : s.db.transfers.rows.find? (fun row => row.providerReference = some ref) = some cur
  id : cur.id = r.id
  current : cur = r ∨ cur.status.isTerminal = true ∧ cur.version = r.version + 1
  finished : ∀ i, sts i = .finished ↔ i ∈ s.savers r
  owing : ∀ i, sts i = .owing → i ∈ s.refunders r
  refunded : s.refunders r = [] ∨
    ∃ i, s.refunders r = [i] ∧ (sts i = .owing ∧ cur = r ∨ sts i = .finished ∧ cur.status = .REVERSED)

namespace DeliveriesInv

section
variable {ref : String} {r cur : TransferRecord} {s s' : Store} {sts : PId → Progress} {i : PId}

theorem stored (h : DeliveriesInv ref r s sts cur) : s.db.transfers.find? r.id = some cur :=
  h.id ▸ Table.find?_of_mem (List.mem_of_find?_eq_some h.found)

theorem kept (h : DeliveriesInv ref r s sts cur) (ht : s'.db.transfers = s.db.transfers)
    (hrefunders : s'.refunders r = s.refunders r) (hsavers : s'.savers r = s.savers r) :
    DeliveriesInv ref r s' sts cur where
  found := ht ▸ h.found
  id := h.id
  current := h.current
  finished i := by rw [h.finished, hsavers]
  owing i hi := hrefunders ▸ h.owing i hi
  refunded := hrefunders ▸ h.refunded

theorem same (h : DeliveriesInv ref r s sts cur) (hs : s.SameRows s') : DeliveriesInv ref r s' sts cur :=
  h.kept (by rw [hs.db]) hs.authors hs.authors

/-- Whoever owes is the only one to have credited, and the transfer is as it was. -/
theorem owes_alone (h : DeliveriesInv ref r s sts cur) (hi : sts i = .owing) : s.refunders r = [i] ∧ cur = r := by
  have hmem := h.owing i hi
  rcases h.refunded with hnil | ⟨j, hj, hstands⟩
  · rw [hnil] at hmem
    exact absurd hmem List.not_mem_nil
  · rw [hj, List.mem_singleton] at hmem
    subst hmem
    rcases hstands with ⟨-, hcur⟩ | ⟨hfinished, -⟩
    · exact ⟨hj, hcur⟩
    · exact absurd (hi.symm.trans hfinished) fun h => Progress.noConfusion h

theorem owes (h : DeliveriesInv ref r s sts cur) (hi : sts i = .owing) : s.Owes r i := by
  refine ⟨h.owing i hi, fun hsaved => ?_⟩
  exact absurd (hi.symm.trans ((h.finished i).2 hsaved)) fun h => Progress.noConfusion h

/-- A delivery has loaded the transfer. -/
theorem loaded (h : DeliveriesInv ref r s sts cur) (hi : sts i = .idle) :
    DeliveriesInv ref r s (Function.update sts i .holding) cur := by
  have hfinished : ∀ j, Function.update sts i .holding j = .finished ↔ sts j = .finished := by
    intro j
    rcases update_or sts i j Progress.holding with ⟨rfl, hj⟩ | ⟨-, hj⟩
    · rw [hj, hi]
      exact ⟨fun h => Progress.noConfusion h, fun h => Progress.noConfusion h⟩
    · rw [hj]
  have howing : ∀ j, Function.update sts i .holding j = .owing ↔ sts j = .owing := by
    intro j
    rcases update_or sts i j Progress.holding with ⟨rfl, hj⟩ | ⟨-, hj⟩
    · rw [hj, hi]
      exact ⟨fun h => Progress.noConfusion h, fun h => Progress.noConfusion h⟩
    · rw [hj]
  refine ⟨h.found, h.id, h.current, fun j => (hfinished j).trans (h.finished j),
    fun j hj => h.owing j ((howing j).1 hj), ?_⟩
  refine h.refunded.imp_right fun ⟨j, hj, hstands⟩ => ⟨j, hj, ?_⟩
  rwa [howing, hfinished]

/-- A delivery has credited the account, while nobody owed and the transfer was PROCESSING. -/
theorem credited (h : DeliveriesInv ref r s sts cur) (hi : sts i = .holding) (heven : s.OthersEven r i)
    (hp : s.transferStatus? r.id = some .PROCESSING) {data : AccountRecord} {events : List AccountEvent}
    (hevents : events.any (·.refunds r) = true) :
    DeliveriesInv ref r (s.write i .prisma (.account data events)) (Function.update sts i .owing) cur := by
  have hstatus : cur.status = .PROCESSING := by simpa [Store.transferStatus?, h.stored] using hp
  have hcur : cur = r := by
    rcases h.current with hcur | ⟨hterminal, -⟩
    · exact hcur
    · rw [hstatus] at hterminal
      cases hterminal
  have hnone : s.refunders r = [] := by
    rcases h.refunded with hnil | ⟨j, hj, ⟨howing, -⟩ | ⟨-, hreversed⟩⟩
    · exact hnil
    · have hmem : j ∈ s.refunders r := hj ▸ List.mem_singleton_self j
      rcases heven j hmem with hsaved | rfl
      · exact absurd hsaved (h.owes howing).2
      · exact absurd (hi.symm.trans howing) fun h => Progress.noConfusion h
    · rw [hstatus] at hreversed
      cases hreversed
  have hrefunders : (s.write i .prisma (.account data events)).refunders r = [i] := by
    rw [Store.refunders, Store.authors_write hevents, ← Store.refunders, hnone, List.nil_append]
  have hsavers : (s.write i .prisma (.account data events)).savers r = s.savers r := Store.authors_write_other rfl
  refine ⟨h.found, h.id, h.current, fun j => ?_, fun j hj => ?_,
    .inr ⟨i, hrefunders, .inl ⟨Function.update_self .., hcur⟩⟩⟩
  · rw [hsavers, ← h.finished]
    rcases update_or sts i j Progress.owing with ⟨rfl, hj⟩ | ⟨-, hj⟩
    · rw [hj, hi]
      exact ⟨fun h => Progress.noConfusion h, fun h => Progress.noConfusion h⟩
    · rw [hj]
  · rw [hrefunders, List.mem_singleton]
    rcases update_or sts i j Progress.owing with ⟨hji, -⟩ | ⟨-, hj'⟩
    · exact hji
    · have hmem := h.owing j (hj'.symm.trans hj)
      rw [hnone] at hmem
      exact absurd hmem List.not_mem_nil

/-- A delivery has saved the transfer, while no other owed. -/
theorem concluded (h : DeliveriesInv ref r s sts cur) (hr : r.providerReference = some ref)
    (hp : r.status = .PROCESSING) (heven : s.OthersEven r i) {data : TransferRecord}
    (hdata : Concludes r (sts i) data) (hcur : cur = r) :
    DeliveriesInv ref r (s.write i .prisma (.transfer data)) (Function.update sts i .finished) data := by
  have hsaves : (Write.transfer data).saves r = true := by simp [Write.saves, Write.transfer?, hdata.id]
  have hrefunders : (s.write i .prisma (.transfer data)).refunders r = s.refunders r := Store.authors_write_other rfl
  have hsavers : (s.write i .prisma (.transfer data)).savers r = s.savers r ++ [i] := Store.authors_write hsaves
  have howing : ∀ j, Function.update sts i .finished j = .owing → j ≠ i ∧ sts j = .owing := by
    intro j hj
    rcases update_or sts i j Progress.finished with ⟨-, hj'⟩ | ⟨hne, hj'⟩
    · exact absurd (hj'.symm.trans hj) fun h => Progress.noConfusion h
    · exact ⟨hne, hj'.symm.trans hj⟩
  have hterminal : data.status.isTerminal = true := by
    rcases hdata.status with ⟨hs, -⟩ | ⟨hs, -⟩ <;> rw [hs] <;> rfl
  subst hcur
  refine ⟨?_, hdata.id, .inr ⟨hterminal, hdata.version⟩, fun j => ?_, fun j hj => ?_, ?_⟩
  · refine Table.find?_put_where ?_ h.found ?_
    · rw [hdata.id]
      exact h.stored
    · rw [hdata.providerReference, hr]
      exact decide_eq_true rfl
  · rw [hsavers, List.mem_append, List.mem_singleton, ← h.finished]
    rcases update_or sts i j Progress.finished with ⟨rfl, hj⟩ | ⟨hne, hj⟩
    · rw [hj]
      exact ⟨fun _ => .inr rfl, fun _ => rfl⟩
    · rw [hj, or_iff_left hne]
  · rw [hrefunders]
    exact h.owing j (howing j hj).2
  · rw [hrefunders]
    refine h.refunded.imp_right fun ⟨j, hj, hstands⟩ => ⟨j, hj, .inr ?_⟩
    rcases hstands with ⟨hjowing, -⟩ | ⟨-, hreversed⟩
    · have hmem : j ∈ s.refunders cur := hj ▸ List.mem_singleton_self j
      obtain rfl : j = i := (heven j hmem).resolve_left (h.owes hjowing).2
      refine ⟨Function.update_self .., ?_⟩
      rcases hdata.status with ⟨hs, -⟩ | ⟨-, hholding⟩
      · exact hs
      · exact absurd (hjowing.symm.trans hholding) fun h => Progress.noConfusion h
    · rw [hp] at hreversed
      cases hreversed

/-- A call of a delivery that owes is answered. -/
theorem answered (h : DeliveriesInv ref r s sts cur) {a : Ans} {op : Op} {x : Except Err op.Res}
    (hop : op.constrained = false) (ha : RefundsInTurn r s i a op) (hx : exec i a op s = some (x, s')) :
    sts i = .owing → ∃ res, x = .ok res := by
  intro howing
  cases x with
  | ok res => exact ⟨res, rfl⟩
  | error e =>
    have hfail := isFail_of_error hop hx
    rw [ha.2.2 (h.owes howing)] at hfail
    cases hfail

/-- A save of the transfer. -/
theorem saved (h : DeliveriesInv ref r s sts cur) (hr : r.providerReference = some ref) (hp : r.status = .PROCESSING)
    {a : Ans} {version : Nat} {data : TransferRecord} {x : Except Err Nat} (hversion : version = r.version)
    (hdata : Concludes r (sts i) data) (ha : RefundsInTurn r s i a (.transfer .prisma (.updateMany version data)))
    (hx : exec i a (.transfer .prisma (.updateMany version data)) s = some (x, s')) :
    (deliveryProtocol ref r).yields i (sts i) (.transfer .prisma (.updateMany version data)) x ∧
      ∃ cur', DeliveriesInv ref r s' (Function.update sts i
        ((deliveryProtocol ref r).next i (sts i) (.transfer .prisma (.updateMany version data)) x)) cur' := by
  have hanswered := h.answered rfl ha hx
  rcases x with e | n
  · have hsame := (exec_error hx).resolve_right fun h => by cases h.1
    refine ⟨⟨hanswered, trivial⟩, cur, ?_⟩
    show DeliveriesInv ref r s' (Function.update sts i (sts i)) cur
    rw [Function.update_eq_self]
    exact h.same hsame
  · have hstored : s.db.transfers.find? data.id = some cur := hdata.id ▸ h.stored
    rcases exec_transfer_updateMany hx with ⟨rfl, rfl⟩ | ⟨rfl, rfl, -, db, row, hv, hrow, hrowv⟩
    · refine ⟨⟨hanswered, fun howing _ => ?_⟩, cur, ?_⟩
      · refine exec_transfer_missed hx Store.view_prisma hstored ?_
        rw [(h.owes_alone howing).2, hversion]
      · show DeliveriesInv ref r s' (Function.update sts i (sts i)) cur
        rwa [Function.update_eq_self]
    · rw [Store.view_prisma, Option.some.injEq] at hv
      subst hv
      rw [hstored, Option.some.injEq] at hrow
      subst hrow
      have hcur : cur = r := by
        rcases h.current with hcur | ⟨-, hnext⟩
        · exact hcur
        · omega
      have heven := ha.1 (lands_of_write hx) (.inr (congrArg some hdata.id))
      exact ⟨⟨hanswered, fun _ => Nat.one_ne_zero⟩, data, h.concluded hr hp heven hdata hcur⟩

/-- A credit. -/
theorem saved_account (h : DeliveriesInv ref r s sts cur) {a : Ans} {version : Nat} {data : AccountRecord}
    {events : List AccountEvent} {x : Except Err Nat} (hi : sts i = .holding)
    (hevents : events.any (·.refunds r) = true)
    (ha : RefundsInTurn r s i a (.account .prisma (.updateMany version data events)))
    (hx : exec i a (.account .prisma (.updateMany version data events)) s = some (x, s')) :
    (deliveryProtocol ref r).yields i (sts i) (.account .prisma (.updateMany version data events)) x ∧
      ∃ cur', DeliveriesInv ref r s' (Function.update sts i
        ((deliveryProtocol ref r).next i (sts i) (.account .prisma (.updateMany version data events)) x)) cur' := by
  refine ⟨⟨h.answered rfl ha hx, trivial⟩, cur, ?_⟩
  rcases x with e | n
  · have hsame := (exec_error hx).resolve_right fun h => by cases h.1
    show DeliveriesInv ref r s' (Function.update sts i (sts i)) cur
    rw [Function.update_eq_self]
    exact h.same hsame
  · rcases exec_account_updateMany hx with ⟨rfl, rfl⟩ | ⟨rfl, rfl, -⟩
    · show DeliveriesInv ref r s' (Function.update sts i (sts i)) cur
      rwa [Function.update_eq_self]
    · have hland := lands_of_write hx
      exact h.credited hi (ha.1 hland (.inl hevents)) (ha.2.1 hland hevents) hevents

/-- **One call of one delivery keeps the invariant**, in a schedule that takes the refunds in turn. -/
theorem step (h : DeliveriesInv ref r s sts cur) (hr : r.providerReference = some ref) (hp : r.status = .PROCESSING)
    {a : Ans} {op : Op} {x : Except Err op.Res} (hok : (deliveryProtocol ref r).ok i (sts i) op)
    (ha : RefundsInTurn r s i a op) (hx : exec i a op s = some (x, s')) :
    (deliveryProtocol ref r).yields i (sts i) op x ∧
      ∃ cur', DeliveriesInv ref r s' (Function.update sts i ((deliveryProtocol ref r).next i (sts i) op x)) cur' := by
  have hkeeps : ∀ {op' : Op} {x' : Except Err op'.Res}, (deliveryProtocol ref r).next i (sts i) op' x' = sts i →
      DeliveriesInv ref r s' sts cur → ∃ cur', DeliveriesInv ref r s'
        (Function.update sts i ((deliveryProtocol ref r).next i (sts i) op' x')) cur' := by
    intro op' x' hnext h'
    rw [hnext, Function.update_eq_self]
    exact ⟨cur, h'⟩
  cases op with
  | account c q =>
    cases c with
    | tx => exact absurd hok (by cases q <;> exact not_false)
    | prisma =>
      cases q with
      | findUnique id =>
        refine ⟨⟨h.answered rfl ha hx, by rcases x with e | x <;> trivial⟩,
          hkeeps (by rcases x with e | x <;> rfl) ?_⟩
        exact h.same (exec_read rfl hx)
      | updateMany version data events => exact h.saved_account hok.1 hok.2 ha hx
      | _ => exact absurd hok not_false
  | transfer c q =>
    cases c with
    | tx => exact absurd hok (by cases q <;> exact not_false)
    | prisma =>
      cases q with
      | findFirst providerReference =>
        obtain ⟨hi, rfl⟩ := hok
        have hsame := h.same (exec_read rfl hx)
        have hanswered := h.answered rfl ha hx
        rcases x with e | (_ | row)
        · exact ⟨⟨hanswered, trivial⟩, hkeeps rfl hsame⟩
        · exact ⟨⟨hanswered, trivial⟩, hkeeps rfl hsame⟩
        · obtain ⟨db, hv, hrow, -⟩ := exec_transfer_findFirst hx
          rw [Store.view_prisma, Option.some.injEq] at hv
          subst hv
          rw [h.found, Option.some.injEq] at hrow
          subst hrow
          refine ⟨⟨hanswered, h.current.imp_right (·.1)⟩, ?_⟩
          by_cases hcur : row = r
          · have hnext : (deliveryProtocol providerReference r).next i (sts i)
                (.transfer .prisma (.findFirst providerReference)) (.ok (some row)) = .holding := if_pos hcur
            rw [hnext]
            exact ⟨row, hsame.loaded hi⟩
          · exact hkeeps (if_neg hcur) hsame
      | findUnique id =>
        have hok : id = r.id := hok
        subst hok
        have hsame := h.same (exec_read rfl hx)
        have hanswered := h.answered rfl ha hx
        rcases x with e | (_ | row)
        · exact ⟨⟨hanswered, trivial⟩, hkeeps rfl hsame⟩
        · obtain ⟨db, hv, hrow, -⟩ := exec_transfer_find hx
          rw [Store.view_prisma, Option.some.injEq] at hv
          subst hv
          rw [h.stored] at hrow
          cases hrow
        · exact ⟨⟨hanswered, trivial⟩, hkeeps rfl hsame⟩
      | updateMany version data => exact h.saved hr hp hok.1 hok.2 ha hx
      | _ => exact absurd hok not_false
  | ledgerEntry c q =>
    cases c with
    | tx => exact absurd hok not_false
    | prisma =>
      refine ⟨⟨h.answered rfl ha hx, by rcases x with e | x <;> trivial⟩,
        hkeeps (by rcases x with e | x <;> rfl) ?_⟩
      rcases exec_performs (fun _ e => by cases e) hx with hs | ⟨c, w, rfl, hw⟩
      · exact h.same hs
      · cases q with
        | findFirst id => exact absurd hw not_false
        | createMany data =>
          obtain ⟨rfl, n, rfl⟩ := hw
          exact h.kept rfl (Store.authors_write_other rfl) (Store.authors_write_other rfl)
  | randomUUID =>
    refine ⟨⟨h.answered rfl ha hx, by rcases x with e | x <;> trivial⟩,
      hkeeps (by rcases x with e | x <;> rfl) ?_⟩
    exact h.same (exec_read rfl hx)
  | publish e =>
    refine ⟨⟨h.answered rfl ha hx, by rcases x with e | x <;> trivial⟩,
      hkeeps (by rcases x with e | x <;> rfl) ?_⟩
    exact h.same (exec_read rfl hx)
  | _ => exact absurd hok not_false

end

end DeliveriesInv

theorem deliveries_preserves {ref : String} {r : TransferRecord} (hr : r.providerReference = some ref)
    (hp : r.status = .PROCESSING) : (deliveryProtocol ref r).Preserves (scheduleOf (RefundsInTurn r))
      fun s sts => ∃ cur, DeliveriesInv ref r s sts cur where
  call h hok ha hx := by
    obtain ⟨cur, h⟩ := h
    exact h.step hr hp hok ha hx
  act x h := by
    obtain ⟨cur, h⟩ := h
    exact ⟨cur, h.kept rfl rfl rfl⟩

/-! ## Every run -/

/-- Every delivery has come to its end, or has not begun. -/
def AtRest (deliveries : PId → ConfirmExternalTransferCommand) (c : Config Op.Res Err Store Err Unit) : Prop :=
  ∀ i, (∃ x, c.Ended i x) ∨ c.pool i = ConfirmExternalTransferHandler.execute (deliveries i)

/-- The source account of transfer `r` is credited back at most once, never beside a SUCCESSFUL transfer, and in the
end only if the transfer is REVERSED. -/
structure RefundedOnce (r : TransferRecord) (deliveries : PId → ConfirmExternalTransferCommand)
    (c : Config Op.Res Err Store Err Unit) : Prop where
  once : (c.store.refunders r).length ≤ 1
  unsettled : c.store.refunders r ≠ [] → c.store.transferStatus? r.id ≠ some .SUCCESSFUL
  reversed : AtRest deliveries c → c.store.refunders r ≠ [] → c.store.transferStatus? r.id = some .REVERSED

/-- **A PROCESSING transfer is refunded at most once, and only if it ends REVERSED**, over any number of deliveries
of its outcome and any order of their steps, as long as the refunds are taken in turn. -/
theorem refunded_in_turn (deliveries : PId → ConfirmExternalTransferCommand) {ref : String}
    (href : ∀ i, (deliveries i).providerReference = ref) {db0 : Db} {r : TransferRecord}
    (hfound : db0.transfers.rows.find? (fun row => row.providerReference = some ref) = some r)
    (hp : r.status = .PROCESSING) (clock : Nat) {c : Config Op.Res Err Store Err Unit}
    (hc : (scheduleOf (RefundsInTurn r)).Reach
      ⟨.init db0 clock, fun i => ConfirmExternalTransferHandler.execute (deliveries i)⟩ c) :
    RefundedOnce r deliveries c := by
  have hr : r.providerReference = some ref := by simpa using List.find?_some hfound
  have hinit : DeliveriesInv ref r (.init db0 clock) (fun _ => .idle) r :=
    { found := hfound
      id := rfl
      current := .inl rfl
      finished := fun _ => ⟨fun h => Progress.noConfusion h, fun h => absurd h List.not_mem_nil⟩
      owing := fun _ h => Progress.noConfusion h
      refunded := .inl rfl }
  have htracks : (deliveryProtocol ref r).Tracks (fun s sts => ∃ cur, DeliveriesInv ref r s sts cur)
      (fun _ st _ => st ≠ .owing)
        (⟨.init db0 clock, fun i => ConfirmExternalTransferHandler.execute (deliveries i)⟩ :
        Config Op.Res Err Store Err Unit) fun _ => .idle :=
    ⟨⟨r, hinit⟩, fun i => execute_delivers (href i)⟩
  obtain ⟨sts, hend, hunmoved⟩ := reach_unmoved (deliveries_preserves hr hp) htracks hc
  obtain ⟨cur, hinv⟩ := hend.1
  have hstatus : c.store.transferStatus? r.id = some cur.status := by
    rw [Store.transferStatus?, hinv.stored, Option.map_some]
  rcases hinv.refunded with hnil | ⟨i, hi, hstands⟩
  · exact ⟨by rw [hnil]; exact Nat.zero_le 1, fun h => absurd hnil h, fun _ h => absurd hnil h⟩
  · refine ⟨by rw [hi]; exact le_rfl, fun _ => ?_, fun hrest _ => ?_⟩
    · rw [hstatus, ne_eq, Option.some.injEq]
      rcases hstands with ⟨-, rfl⟩ | ⟨-, hreversed⟩
      · rw [hp]
        exact fun h => TransactionStatus.noConfusion h
      · rw [hreversed]
        exact fun h => TransactionStatus.noConfusion h
    · rcases hstands with ⟨howing, -⟩ | ⟨-, hreversed⟩
      · rcases hrest i with ⟨x, hx⟩ | hunbegun
        · exact absurd howing (hend.ended hx)
        · exact absurd ((hunmoved i hunbegun).symm.trans howing) fun h => Progress.noConfusion h
      · rw [hstatus, hreversed]

/-- The programs make their calls in turns. -/
def inTurns (turns : List (PId × List Ans)) : List (System.Move Ans Nat) :=
  turns.flatMap fun turn => System.calls turn.1 turn.2

/-- Delivery 0 reports success, all others failure. -/
def sampleDeliveries (i : PId) : ConfirmExternalTransferCommand := ⟨"7", i == 0, none⟩

/-- ... of the payout in flight. -/
def sampleDelivered : Config Op.Res Err Store Err Unit :=
  ⟨sampleLate sampleEmptied, fun i => ConfirmExternalTransferHandler.execute (sampleDeliveries i)⟩

/-- Two deliveries of the failure load the transfer and the account, and the second's credit misses. -/
def sampleInTurn : List (PId × List Ans) :=
  [(1, [.ok]), (2, [.ok, .ok]), (1, [.ok, .ok, .uuid "j", .ok, .ok, .ok, .ok, .ok]), (2, [.ok])]

theorem refunded_in_turn_sample : ∃ c, (scheduleOf (RefundsInTurn sampleInFlight)).Reach sampleDelivered c ∧
    c.store.refunders sampleInFlight = [1] ∧ RefundedOnce sampleInFlight sampleDeliveries c := by
  have hplay : ((scheduleOf (RefundsInTurn sampleInFlight)).play (inTurns sampleInTurn) sampleDelivered).any fun c =>
      c.store.refunders sampleInFlight = [1] := by
    decide +kernel
  obtain ⟨c, hc, hrefunders⟩ := System.play_seen _ hplay
  have hc := (scheduleOf (RefundsInTurn sampleInFlight)).reach_of_play hc
  have href : ∀ i, (sampleDeliveries i).providerReference = "7" := fun _ => rfl
  exact ⟨c, hc, hrefunders, refunded_in_turn sampleDeliveries href rfl rfl 0 hc⟩

/-- Three deliveries load the PROCESSING transfer; both failures credit the account, then the success is saved. -/
def sampleOutOfTurn : List (PId × List Ans) :=
  [(0, [.ok]), (1, [.ok]), (2, [.ok]), (1, [.ok, .ok, .uuid "j", .ok, .ok]), (2, [.ok, .ok, .uuid "k", .ok, .ok]),
    (0, [.ok, .uuid "l", .ok, .ok, .ok, .ok, .ok]), (1, [.ok, .ok]), (2, [.ok, .ok])]

/-- The ₦60.00 are credited twice, for a transfer that is SUCCESSFUL in the end. -/
theorem settled_transfer_refunded_twice : ∃ c, anySchedule.Reach sampleDelivered c ∧ AtRest sampleDeliveries c ∧
    c.store.refunders sampleInFlight = [1, 2] ∧ c.store.transferStatus? "t" = some .SUCCESSFUL ∧
    ((c.store.db.accounts.find? "acc").map (·.balance)) = some 12000 ∧
    ¬ RefundedOnce sampleInFlight sampleDeliveries c := by
  have hplay : (anySchedule.play (inTurns sampleOutOfTurn) sampleDelivered).any fun c =>
      (c.store.refunders sampleInFlight = [1, 2] ∧ c.store.transferStatus? "t" = some .SUCCESSFUL ∧
        ((c.store.db.accounts.find? "acc").map (·.balance)) = some 12000) ∧ c.Ended 0 (.ok ()) ∧
        c.Ended 1 (.error (concurrentModification "Transfer" "t")) ∧
        c.Ended 2 (.error (concurrentModification "Transfer" "t")) := by
    decide +kernel
  obtain ⟨c, hc, ⟨hrefunders, hstatus, hbalance⟩, h0, h1, h2⟩ := anySchedule.play_seen hplay
  refine ⟨c, anySchedule.reach_of_play hc, fun i => ?_, hrefunders, hstatus, hbalance, fun h => ?_⟩
  · rcases i with _ | _ | _ | i
    · exact .inl ⟨_, h0⟩
    · exact .inl ⟨_, h1⟩
    · exact .inl ⟨_, h2⟩
    · exact .inr (System.pool_of_play _ (by simp [inTurns, sampleOutOfTurn, System.calls, System.Move.isCallOf]) hc)
  · have honce := h.once
    rw [hrefunders] at honce
    exact absurd honce (by decide)

end Kudi
