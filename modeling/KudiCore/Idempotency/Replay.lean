import KudiCore.Idempotency.KeyCalls
import KudiCore.Transfers.ExternalTransfer

/-!
# What a replay answers

| here | there |
| --- | --- |
| `InitiateRequest` | `InitiateInternalTransferHandler` and `InitiateExternalTransferHandler` |
| `TransferTerms`   | the columns of `model Transfer` that say what was asked for |

The row of a key names a transfer, not the request it was made for. `run` answers a key that has been
completed from that transfer, whatever this request asks for; so a response is about the request
exactly as long as whoever sends the key asks for the same (`replays_answer_the_request`).
`drawer` says which program drew a random id: `randomUUID` gives none twice.
-/

namespace Kudi

open Interleave Protocol

/-! ## Terms -/

/-- No handler changes these. -/
structure TransferTerms where
  sourceAccountId : String
  destinationAccountId : Option String
  recipientBankCode : Option String
  recipientAccountNumber : Option String
  recipientAccountName : Option String
  amountMinorUnits : Int
  currency : Currency
deriving DecidableEq, Repr

namespace TransferTerms

def of (sourceAccountId : String) (destinationAccountId : Option String) (recipient : Option ExternalRecipient)
    (amount : Money) : TransferTerms :=
  ⟨sourceAccountId, destinationAccountId, recipient.map (·.bankCode), recipient.map (·.accountNumber),
    recipient.bind (·.accountName), amount.minorUnits, amount.currency⟩

end TransferTerms

def TransferRecord.terms (r : TransferRecord) : TransferTerms :=
  ⟨r.sourceAccountId, r.destinationAccountId, r.recipientBankCode, r.recipientAccountNumber, r.recipientAccountName,
    r.amountMinorUnits, r.currency⟩

def Transfer.terms (t : Transfer) : TransferTerms :=
  .of t.sourceAccountId t.destinationAccountId t.externalRecipient t.amount

/-- A response says this much of them. -/
structure TransferResponseDto.Describes (dto : TransferResponseDto) (terms : TransferTerms) : Prop where
  sourceAccountId : dto.sourceAccountId = terms.sourceAccountId
  destinationAccountId : dto.destinationAccountId = terms.destinationAccountId
  recipientBankCode : dto.recipientBankCode = terms.recipientBankCode
  recipientAccountNumber : dto.recipientAccountNumber = terms.recipientAccountNumber
  amount : dto.amount = Money.toMajorUnitsString ⟨terms.amountMinorUnits.toNat, terms.currency⟩
  currency : dto.currency = terms.currency

theorem describes_fromDomain (t : Transfer) : (TransferResponseDto.fromDomain t).Describes t.terms :=
  ⟨rfl, rfl, rfl, rfl, by simp [TransferResponseDto.fromDomain, Transfer.terms, TransferTerms.of], rfl⟩

/-- A stored transfer loads with the terms it was stored with. -/
theorem terms_of_toDomain {r : TransferRecord} {t : Transfer} {sourceAccountId : String}
    {destinationAccountId : Option String} {recipient : Option ExternalRecipient} {amount : Money}
    (hr : r.terms = .of sourceAccountId destinationAccountId recipient amount) (h : TransferMapper.toDomain r = .ok t) :
    t.terms = r.terms := by
  obtain ⟨hsource, hdestination, hbank, hnumber, hname, hamount, hcurrency⟩ := TransferTerms.mk.inj hr
  have hrecipient : TransferMapper.recipientOf r = .ok recipient :=
    TransferMapper.recipientOf_written hbank hnumber hname
  have hmoney : Money.fromMinorUnits r.amountMinorUnits r.currency = .ok amount := by
    rw [hamount, hcurrency, Money.fromMinorUnits_cast]
  unfold TransferMapper.toDomain at h
  simp only [hrecipient, hmoney, bind, Except.bind] at h
  split at h
  · cases h
  · split at h
    · cases h
    · cases h
      rw [hr, ← hsource, ← hdestination]
      rfl

/-! ## Requests -/

inductive InitiateRequest where
  | internal (fuel : Nat) (command : InitiateInternalTransferCommand)
  | external (fuel : Nat) (command : InitiateExternalTransferCommand)

/-- The row that `run` goes by, if it goes by one. -/
def claimOf (userId scope : String) : Option String → Option ClaimKey
  | none | some "" => none
  | some key => some ⟨userId, scope, key⟩

theorem claimOf_some {userId scope key : String} (hkey : key ≠ "") :
    claimOf userId scope (some key) = some ⟨userId, scope, key⟩ := by
  unfold claimOf
  split
  · contradiction
  · simp_all
  · simp_all

namespace InitiateRequest

def program : InitiateRequest → Handler TransferResponseDto
  | .internal fuel command => InitiateInternalTransferHandler.execute fuel command
  | .external fuel command => InitiateExternalTransferHandler.execute fuel command

def claim : InitiateRequest → Option ClaimKey
  | .internal _ command => claimOf command.initiatorUserId "transfer.internal" command.idempotencyKey
  | .external _ command => claimOf command.initiatorUserId "transfer.external" command.idempotencyKey

/-- What the command asks for, of a source account that is kept in `currency`. -/
def asked (currency : Currency) : InitiateRequest → Except Err TransferTerms
  | .internal _ command => do
    let amount ← Money.fromDecimalString command.amount currency
    return .of command.sourceAccountId (some command.destinationAccountId) none amount
  | .external _ command => do
    let amount ← Money.fromDecimalString command.amount currency
    let recipient ← ExternalRecipient.create command.bankCode command.recipientAccountNumber
      (some command.recipientAccountName)
    return .of command.sourceAccountId none (some recipient) amount

/-- The response is about a transfer that the command asks for. -/
def AnsweredBy (request : InitiateRequest) (dto : TransferResponseDto) : Prop :=
  ∃ terms, request.asked dto.currency = .ok terms ∧ dto.Describes terms

/-- `id` is a stored transfer that the command asks for. -/
def Recorded (request : InitiateRequest) (transfers : Table TransferRecord.id) (id : String) : Prop :=
  ∃ row, transfers.find? id = some row ∧ request.asked row.currency = .ok row.terms

theorem asked_internal {fuel : Nat} {command : InitiateInternalTransferCommand} {currency : Currency} {amount : Money}
    (h : Money.fromDecimalString command.amount currency = .ok amount) : (internal fuel command).asked currency =
      .ok (.of command.sourceAccountId (some command.destinationAccountId) none amount) := by
  simp only [asked, h]
  rfl

theorem asked_external {fuel : Nat} {command : InitiateExternalTransferCommand} {currency : Currency} {amount : Money}
    {recipient : ExternalRecipient} (h : Money.fromDecimalString command.amount currency = .ok amount)
    (hr : ExternalRecipient.create command.bankCode command.recipientAccountNumber (some command.recipientAccountName) =
      .ok recipient) :
    (external fuel command).asked currency = .ok (.of command.sourceAccountId none (some recipient) amount) := by
  simp only [asked, h, hr]
  rfl

theorem asked_ok {request : InitiateRequest} {currency : Currency} {terms : TransferTerms}
    (h : request.asked currency = .ok terms) : ∃ sourceAccountId destinationAccountId recipient amount,
      terms = .of sourceAccountId destinationAccountId recipient amount := by
  cases request with
  | internal fuel command =>
    cases ha : Money.fromDecimalString command.amount currency with
    | error e =>
      simp only [asked, ha] at h
      cases h
    | ok amount =>
      rw [asked_internal ha] at h
      cases h
      exact ⟨_, _, _, _, rfl⟩
  | external fuel command =>
    cases ha : Money.fromDecimalString command.amount currency with
    | error e =>
      simp only [asked, ha] at h
      cases h
    | ok amount =>
      cases hr : ExternalRecipient.create command.bankCode command.recipientAccountNumber
          (some command.recipientAccountName) with
      | error e =>
        simp only [asked, ha, hr] at h
        cases h
      | ok recipient =>
        rw [asked_external ha hr] at h
        cases h
        exact ⟨_, _, _, _, rfl⟩

/-- What is answered from a stored transfer. -/
theorem answeredBy_of_toDomain {request : InitiateRequest} {row : TransferRecord} {t : Transfer}
    (h : request.asked row.currency = .ok row.terms) (ht : TransferMapper.toDomain row = .ok t) :
    request.AnsweredBy (.fromDomain t) := by
  obtain ⟨sourceAccountId, destinationAccountId, recipient, amount, hof⟩ := asked_ok h
  have hterms := terms_of_toDomain hof ht
  have hcurrency : (TransferResponseDto.fromDomain t).currency = row.currency := congrArg TransferTerms.currency hterms
  exact ⟨row.terms, hcurrency ▸ h, hterms ▸ describes_fromDomain t⟩

end InitiateRequest

/-! ## The protocol -/

/-- A program's own transfer. -/
inductive Draft where
  | blank
  | inTransaction (r : TransferRecord)
  | inTable (r : TransferRecord)

namespace Draft

/-- What the program may save outside a transaction. -/
def Allows : Draft → TransferRecord → Prop
  | .blank, _ => True
  | .inTransaction _, _ => False
  | .inTable r, data => data.id = r.id ∧ data.terms = r.terms

def committed : Draft → Draft
  | .inTransaction r => .inTable r
  | d => d

def discarded : Draft → Draft
  | .inTransaction _ => .blank
  | d => d

theorem discarded_eq_inTable {d : Draft} {r : TransferRecord} (h : d.discarded = .inTable r) : d = .inTable r := by
  cases d <;> cases h
  rfl

theorem discarded_ne_inTransaction {d : Draft} {r : TransferRecord} : d.discarded ≠ .inTransaction r := by
  cases d <;> nofun

end Draft

namespace Draft

/-- What it may save, and how. -/
def Permits (d : Draft) : Op → Prop
  | .transfer .prisma (.create data) | .transfer .prisma (.updateMany _ data) => d.Allows data
  | .transfer .tx (.create _) => d = .blank
  | .transfer .tx (.updateMany ..) => False
  | _ => True

/-- What becomes of it, as a call returns or throws. -/
def after (d : Draft) (returns : Bool) : Op → Draft
  | .transfer .prisma (.create data) => if returns then .inTable data else d
  | .transfer .tx (.create data) => if returns then .inTransaction data else d
  | .transaction .commit => if returns then d.committed else d.discarded
  | .transaction .rollback => d.discarded
  | _ => d

end Draft

/-- A program's own transfer, and the transfers that its key has been seen completed with. -/
structure Replaying where
  draft : Draft
  seen : List String

namespace Replaying

def init : Replaying := ⟨.blank, []⟩

/-- The program completes its key with its own transfer, which is what it asked for. -/
def Completes (request : InitiateRequest) (st : Replaying) : Op → Prop
  | .idempotencyKey (.findUnique claim) => request.claim = some claim
  | .idempotencyKey (.complete claim resourceId) => request.claim = some claim ∧
    ∃ r, st.draft = .inTable r ∧ r.id = resourceId ∧ request.asked r.currency = .ok r.terms
  | _ => True

def sees (seen : List String) : (op : Op) → Except Err op.Res → List String
  | .idempotencyKey (.findUnique _), .ok (some row) =>
    if row.status = .COMPLETED then row.resourceId.getD "" :: seen else seen
  | _, _ => seen

/-- A transfer seen in a completed row is what was asked for. -/
def Finds (request : InitiateRequest) (st : Replaying) : (op : Op) → Except Err op.Res → Prop
  | .transfer .prisma (.findUnique id), .ok (some row) =>
    row.id = id ∧ (id ∈ st.seen → request.asked row.currency = .ok row.terms)
  | _, _ => True

end Replaying

def Draws (drawer : String → Option PId) (i : PId) : (op : Op) → Except Err op.Res → Prop
  | .randomUUID, .ok id => drawer id = some i
  | _, _ => True

def replayProtocol (requests : PId → InitiateRequest) (drawer : String → Option PId) : Protocol Op.Res Err where
  State := Replaying
  ok i st op := (∀ id, op.savedTransfer? = some id → drawer id = some i) ∧ st.draft.Permits op ∧
    st.Completes (requests i) op
  yields i st op r := Draws drawer i op r ∧ st.Finds (requests i) op r
  next _ st op r := ⟨st.draft.after r.isOk op, Replaying.sees st.seen op r⟩

/-! ## The transfers -/

/-- Every stored transfer stays stored, with its terms. -/
def TermsKept (t t' : Table TransferRecord.id) : Prop :=
  ∀ id row, t.find? id = some row → ∃ row', t'.find? id = some row' ∧ row'.terms = row.terms

theorem TermsKept.refl (t : Table TransferRecord.id) : TermsKept t t := fun _ row h => ⟨row, h, rfl⟩

theorem TermsKept.put {t : Table TransferRecord.id} {data : TransferRecord}
    (h : ∀ row, t.find? data.id = some row → data.terms = row.terms) : TermsKept t (t.put data) := by
  intro id row hrow
  by_cases hid : data.id = id
  · subst hid
    exact ⟨data, t.find?_put_self data, h row hrow⟩
  · exact ⟨row, (t.find?_put_ne hid).trans hrow, rfl⟩

theorem InitiateRequest.Recorded.kept {request : InitiateRequest} {t t' : Table TransferRecord.id} {id : String}
    (h : request.Recorded t id) (hk : TermsKept t t') : request.Recorded t' id := by
  obtain ⟨row, hrow, hasked⟩ := h
  obtain ⟨row', hrow', hterms⟩ := hk id row hrow
  have hcurrency : row'.currency = row.currency := congrArg TransferTerms.currency hterms
  exact ⟨row', hrow', by rw [hcurrency, hterms, hasked]⟩

structure DraftsInv (drawer : String → Option PId) (s : Store) (sts : PId → Replaying) : Prop where
  staged : ∀ i, ∀ w ∈ s.staged i, ∀ data, w.transfer? = some data → (sts i).draft = .inTransaction data
  pending : ∀ i r, (sts i).draft = .inTransaction r → drawer r.id = some i ∧ Write.transfer r ∈ s.staged i
  stored : ∀ i r, (sts i).draft = .inTable r → drawer r.id = some i ∧
    ∃ row, s.db.transfers.find? r.id = some row ∧ row.terms = r.terms
  authored : ∀ row ∈ s.db.transfers.rows, ∀ i, drawer row.id = some i →
    ∃ r, (sts i).draft = .inTable r ∧ r.id = row.id

/-- A transaction that saves no transfer. -/
theorem applyAll_transfers_of_none (ws : List Write) (db : Db) (h : ∀ w ∈ ws, w.transfer? = none) :
    (db.applyAll ws).transfers = db.transfers := by
  induction ws generalizing db with
  | nil => rfl
  | cons w ws ih =>
    rw [Db.applyAll_cons, ih _ fun w' hw' => h w' (List.mem_cons_of_mem _ hw'),
      Db.apply_transfers_of_none (h w List.mem_cons_self)]

/-- A transaction that saves one transfer. -/
theorem applyAll_transfers_of_one {r : TransferRecord} (ws : List Write) (db : Db)
    (h : ∀ w ∈ ws, ∀ data, w.transfer? = some data → data = r) :
    (db.applyAll ws).transfers = db.transfers ∧ (∀ w ∈ ws, w.transfer? = none) ∨
      (db.applyAll ws).transfers = db.transfers.put r := by
  induction ws generalizing db with
  | nil => exact .inl ⟨rfl, fun w hw => absurd hw List.not_mem_nil⟩
  | cons w ws ih =>
    have hrest := ih (db.apply w) fun w' hw' => h w' (List.mem_cons_of_mem _ hw')
    rw [Db.applyAll_cons]
    cases hw : w.transfer? with
    | none =>
      rw [Db.apply_transfers_of_none hw] at hrest
      refine hrest.imp_left fun hrest => ⟨hrest.1, fun w' hw' => ?_⟩
      rcases List.mem_cons.1 hw' with rfl | hw'
      · exact hw
      · exact hrest.2 w' hw'
    | some data =>
      obtain rfl : data = r := h w List.mem_cons_self data hw
      have happly : (db.apply w).transfers = db.transfers.put data := by
        cases w <;> cases hw
        rfl
      rw [happly, Table.put_put _ rfl] at hrest
      exact .inr (hrest.elim (·.1) id)

namespace DraftsInv

variable {drawer : String → Option PId} {s s' : Store} {sts sts' : PId → Replaying} {i : PId}

/-- Nothing that this is about has moved. -/
theorem of_same (h : DraftsInv drawer s sts) (ht : s'.db.transfers = s.db.transfers)
    (hs : ∀ j w data, w.transfer? = some data → (w ∈ s'.staged j ↔ w ∈ s.staged j))
    (hd : ∀ j, (sts' j).draft = (sts j).draft) : DraftsInv drawer s' sts' where
  staged j w hw data hdata := (hd j).trans (h.staged j w ((hs j w data hdata).1 hw) data hdata)
  pending j r hr := by
    obtain ⟨hdrawn, hmem⟩ := h.pending j r ((hd j).symm.trans hr)
    exact ⟨hdrawn, (hs j _ r rfl).2 hmem⟩
  stored j r hr := ht ▸ h.stored j r ((hd j).symm.trans hr)
  authored row hrow j hj := by
    obtain ⟨r, hr, hid⟩ := h.authored row (ht ▸ hrow) j hj
    exact ⟨r, (hd j).trans hr, hid⟩

/-- Program `i` saves its transfer in the table. -/
theorem put (h : DraftsInv drawer s sts) {data r0 : TransferRecord} {st : Replaying} (hdrawn : drawer data.id = some i)
    (hst : st.draft = .inTable r0) (hid0 : r0.id = data.id) (hterms0 : r0.terms = data.terms)
    (hterms : ∀ row, s.db.transfers.find? data.id = some row → data.terms = row.terms)
    (hid : ∀ r, (sts i).draft = .inTable r → r.id = data.id)
    (ht : s'.db.transfers = s.db.transfers.put data) (hs : ∀ j, j ≠ i → s'.staged j = s.staged j)
    (hi : ∀ w ∈ s'.staged i, w.transfer? = none) :
    DraftsInv drawer s' (Function.update sts i st) ∧ TermsKept s.db.transfers s'.db.transfers := by
  have hkept : TermsKept s.db.transfers s'.db.transfers := ht ▸ TermsKept.put hterms
  refine ⟨⟨fun j w hw d hd => ?_, fun j r hr => ?_, fun j r hr => ?_, fun row hrow j hj => ?_⟩, hkept⟩
  all_goals rcases update_or sts i j st with ⟨rfl, hu⟩ | ⟨hne, hu⟩
  · rw [hi w hw] at hd
    cases hd
  · rw [hs j hne] at hw
    rw [hu]
    exact h.staged j w hw d hd
  · rw [hu, hst] at hr
    cases hr
  · rw [hu] at hr
    rw [hs j hne]
    exact h.pending j r hr
  · rw [hu, hst] at hr
    cases hr
    exact ⟨hid0 ▸ hdrawn, data, by rw [ht, hid0, Table.find?_put_self], hterms0.symm⟩
  · rw [hu] at hr
    obtain ⟨hd, row, hrow, hrterms⟩ := h.stored j r hr
    obtain ⟨row', hrow', hterms'⟩ := hkept r.id row hrow
    exact ⟨hd, row', hrow', hterms'.trans hrterms⟩
  · rw [hu]
    refine ⟨r0, hst, ?_⟩
    rw [ht, Table.mem_put] at hrow
    rcases hrow with rfl | ⟨hrow, -⟩
    · exact hid0
    · obtain ⟨r, hr, hrid⟩ := h.authored row hrow j hj
      rw [hid0, ← hid r hr, hrid]
  · rw [hu]
    rw [ht, Table.mem_put] at hrow
    rcases hrow with rfl | ⟨hrow, -⟩
    · rw [hdrawn, Option.some.injEq] at hj
      exact absurd hj.symm hne
    · exact h.authored row hrow j hj

/-- Program `i` saves its transfer in its transaction. -/
theorem stage (h : DraftsInv drawer s sts) {data : TransferRecord} {st : Replaying} (hdrawn : drawer data.id = some i)
    (hblank : (sts i).draft = .blank) (hst : st.draft = .inTransaction data) (ht : s'.db.transfers = s.db.transfers)
    (hs : ∀ j, s'.staged j = if i = j then s.staged i ++ [.transfer data] else s.staged j) :
    DraftsInv drawer s' (Function.update sts i st) := by
  refine ⟨fun j w hw d hd => ?_, fun j r hr => ?_, fun j r hr => ?_, fun row hrow j hj => ?_⟩
  all_goals rcases update_or sts i j st with ⟨rfl, hu⟩ | ⟨hne, hu⟩
  · rw [hs, if_pos rfl] at hw
    rcases List.mem_append.1 hw with hw | hw
    · have hold := h.staged j w hw d hd
      rw [hblank] at hold
      cases hold
    · rw [List.mem_singleton.1 hw] at hd
      cases hd
      rw [hu]
      exact hst
  · rw [hs, if_neg hne.symm] at hw
    rw [hu]
    exact h.staged j w hw d hd
  · rw [hu, hst] at hr
    cases hr
    rw [hs, if_pos rfl]
    exact ⟨hdrawn, List.mem_append_right _ List.mem_cons_self⟩
  · rw [hu] at hr
    rw [hs, if_neg hne.symm]
    exact h.pending j r hr
  · rw [hu, hst] at hr
    cases hr
  · rw [hu] at hr
    rw [ht]
    exact h.stored j r hr
  · obtain ⟨r, hr, -⟩ := h.authored row (ht ▸ hrow) j hj
    rw [hblank] at hr
    cases hr
  · rw [hu]
    exact h.authored row (ht ▸ hrow) j hj

/-- The transaction of program `i` is over without effect. -/
theorem discard (h : DraftsInv drawer s sts) {st : Replaying} (hst : st.draft = (sts i).draft.discarded)
    (ht : s'.db.transfers = s.db.transfers) (hs : ∀ j, s'.staged j = if i = j then [] else s.staged j) :
    DraftsInv drawer s' (Function.update sts i st) := by
  refine ⟨fun j w hw d hd => ?_, fun j r hr => ?_, fun j r hr => ?_, fun row hrow j hj => ?_⟩
  all_goals rcases update_or sts i j st with ⟨rfl, hu⟩ | ⟨hne, hu⟩
  · rw [hs, if_pos rfl] at hw
    exact absurd hw List.not_mem_nil
  · rw [hs, if_neg hne.symm] at hw
    rw [hu]
    exact h.staged j w hw d hd
  · rw [hu, hst] at hr
    exact absurd hr Draft.discarded_ne_inTransaction
  · rw [hu] at hr
    rw [hs, if_neg hne.symm]
    exact h.pending j r hr
  · rw [hu, hst] at hr
    rw [ht]
    exact h.stored j r (Draft.discarded_eq_inTable hr)
  · rw [hu] at hr
    rw [ht]
    exact h.stored j r hr
  · obtain ⟨r, hr, hid⟩ := h.authored row (ht ▸ hrow) j hj
    refine ⟨r, ?_, hid⟩
    rw [hu, hst, hr]
    rfl
  · rw [hu]
    exact h.authored row (ht ▸ hrow) j hj

/-- The transaction of program `i` is committed. -/
theorem commit (h : DraftsInv drawer s sts) {st : Replaying} (hst : st.draft = (sts i).draft.committed) :
    DraftsInv drawer (s.commit i) (Function.update sts i st) ∧
      TermsKept s.db.transfers (s.commit i).db.transfers := by
  have hs : ∀ j, (s.commit i).staged j = if i = j then [] else s.staged j := fun j => Store.staged_commit
  have nothing : (∀ r, (sts i).draft ≠ .inTransaction r) → (s.commit i).db.transfers = s.db.transfers ∧
      (sts i).draft.committed = (sts i).draft.discarded := by
    intro hno
    refine ⟨?_, ?_⟩
    · refine applyAll_transfers_of_none _ _ fun w hw => ?_
      cases hd : w.transfer? with
      | none => rfl
      | some data => exact absurd (h.staged i w hw data hd) (hno data)
    · cases hd : (sts i).draft with
      | inTransaction r => exact absurd hd (hno r)
      | _ => rfl
  cases hd : (sts i).draft with
  | inTransaction data =>
    obtain ⟨hdrawn, hmem⟩ := h.pending i data hd
    have hone := applyAll_transfers_of_one (r := data) (s.staged i) s.db fun w hw d hwd => by
      have hdraft := h.staged i w hw d hwd
      rw [hd] at hdraft
      cases hdraft
      rfl
    have hput : (s.commit i).db.transfers = s.db.transfers.put data :=
      hone.resolve_left fun hnone => nomatch hnone.2 _ hmem
    have hnew : st.draft = .inTable data := by
      rw [hst, hd]
      rfl
    refine h.put hdrawn hnew rfl rfl (fun row hrow => ?_) (fun r hr => ?_) hput (fun j hj => ?_) fun w hw => ?_
    · obtain ⟨r, hr, -⟩ := h.authored row (Table.mem_of_find? hrow) i (Table.key_of_find? hrow ▸ hdrawn)
      rw [hd] at hr
      cases hr
    · rw [hd] at hr
      cases hr
    · rw [hs, if_neg hj.symm]
    · rw [hs, if_pos rfl] at hw
      exact absurd hw List.not_mem_nil
  | blank =>
    obtain ⟨ht, hc⟩ := nothing fun r hr => by rw [hd] at hr; cases hr
    exact ⟨h.discard (hst.trans hc) ht hs, ht ▸ .refl _⟩
  | inTable r =>
    obtain ⟨ht, hc⟩ := nothing fun r hr => by rw [hd] at hr; cases hr
    exact ⟨h.discard (hst.trans hc) ht hs, ht ▸ .refl _⟩

variable {a : Ans} {op : Op} {r : Except Err op.Res}

/-- **What a program saves keeps the terms of what is stored.** -/
theorem step (h : DraftsInv drawer s sts) (hdrawn : ∀ id, op.savedTransfer? = some id → drawer id = some i)
    (hp : (sts i).draft.Permits op) (hx : exec i a op s = some (r, s')) {st : Replaying}
    (hst : st.draft = (sts i).draft.after r.isOk op) :
    DraftsInv drawer s' (Function.update sts i st) ∧ TermsKept s.db.transfers s'.db.transfers := by
  have same : st.draft = (sts i).draft → s'.db.transfers = s.db.transfers →
      (∀ j w data, w.transfer? = some data → (w ∈ s'.staged j ↔ w ∈ s.staged j)) →
      DraftsInv drawer s' (Function.update sts i st) ∧ TermsKept s.db.transfers s'.db.transfers := by
    intro hd ht hs
    refine ⟨h.of_same ht hs fun j => ?_, ht ▸ .refl _⟩
    rcases update_or sts i j st with ⟨rfl, hu⟩ | ⟨-, hu⟩ <;> rw [hu]
    exact hd
  have of_rows : st.draft = (sts i).draft → s.SameRows s' →
      DraftsInv drawer s' (Function.update sts i st) ∧ TermsKept s.db.transfers s'.db.transfers := fun hd hs =>
    same hd (congrArg Db.transfers hs.db) fun j w data _ => by rw [hs.staged]
  by_cases ht : ∃ q, op = .transaction q
  · obtain ⟨q, rfl⟩ := ht
    cases q with
    | begin =>
      rcases r with e | x
      · exact of_rows hst ((exec_error hx).resolve_right nofun)
      · obtain ⟨hs, rfl⟩ := exec_begin hx
        refine same hst rfl fun j w data _ => ?_
        rw [Store.staged_begin hs]
    | commit =>
      rcases r with e | x
      · obtain rfl := exec_commit_error hx
        exact ⟨h.discard hst rfl fun j => Store.staged_rollback, .refl _⟩
      · obtain rfl := exec_commit hx
        exact h.commit hst
    | rollback =>
      rcases r with e | x
      · exact absurd hx exec_rollback_error
      · obtain rfl := exec_rollback hx
        exact ⟨h.discard hst rfl fun j => Store.staged_rollback, .refl _⟩
  · have ht : ∀ q, op ≠ .transaction q := fun q e => ht ⟨q, e⟩
    have other : op.savedTransfer? = none → st.draft = (sts i).draft →
        DraftsInv drawer s' (Function.update sts i st) ∧ TermsKept s.db.transfers s'.db.transfers := fun hop hd =>
      same hd (exec_transfers ht hop hx) fun j w data hw => exec_staged_transfers ht hop hx hw
    cases op with
    | transfer c q =>
      cases q with
      | create data =>
        have hdata := hdrawn data.id rfl
        rcases r with e | x
        · refine of_rows (hst.trans ?_) ((exec_error hx).resolve_right nofun)
          cases c <;> rfl
        · obtain ⟨rfl, -, db, hv, hfree⟩ := exec_transfer_create hx
          cases c with
          | prisma =>
            rw [Store.view_prisma, Option.some.injEq] at hv
            subst hv
            have hno : ∀ r, (sts i).draft ≠ .inTransaction r := fun r hr => by
              rw [show (sts i).draft = _ from hr] at hp
              exact hp
            refine h.put hdata hst rfl rfl (fun row hrow => ?_) (fun r hr => ?_) rfl (fun j _ => rfl) fun w hw => ?_
            · rw [hfree] at hrow
              cases hrow
            · rw [show (sts i).draft = _ from hr] at hp
              exact hp.1.symm
            · cases hwd : w.transfer? with
              | none => rfl
              | some d => exact absurd (h.staged i w hw d hwd) (hno d)
          | tx => exact ⟨h.stage hdata hp hst rfl fun j => Store.staged_write_tx, .refl _⟩
      | updateMany version data =>
        cases c with
        | tx => exact hp.elim
        | prisma =>
          rcases r with e | n
          · exact of_rows hst ((exec_error hx).resolve_right nofun)
          · rcases exec_transfer_updateMany hx with ⟨-, rfl⟩ | ⟨-, rfl, -, db, row, hv, hrow, -⟩
            · exact of_rows hst (.refl _)
            · rw [Store.view_prisma, Option.some.injEq] at hv
              subst hv
              have hdata := hdrawn data.id rfl
              obtain ⟨r0, hr0, hid0⟩ :=
                h.authored row (Table.mem_of_find? hrow) i (Table.key_of_find? hrow ▸ hdata)
              rw [Table.key_of_find? hrow] at hid0
              have hallow : (sts i).draft.Allows data := hp
              rw [hr0] at hallow
              obtain ⟨-, row', hrow', hterms'⟩ := h.stored i r0 hr0
              refine h.put hdata (hst.trans hr0) hid0 hallow.2.symm (fun row'' hrow'' => ?_) (fun r hr => ?_) rfl
                (fun j _ => rfl) fun w hw => ?_
              · rw [hid0, hrow'', Option.some.injEq] at hrow'
                rw [hallow.2, hrow', hterms']
              · rw [hr0] at hr
                cases hr
                exact hid0
              · cases hwd : w.transfer? with
                | none => rfl
                | some d =>
                  have hstaged := h.staged i w hw d hwd
                  rw [hr0] at hstaged
                  cases hstaged
      | _ => exact other rfl (hst.trans (by cases c <;> rfl))
    | transaction q => exact absurd rfl (ht q)
    | _ => exact other rfl hst

end DraftsInv

/-! ## The keys -/

/-- Program `i` is given the ids that it draws. -/
def DrawnBy (drawer : String → Option PId) (_ : Store) (i : PId) (a : Ans) (_ : Op) : Prop :=
  ∀ id, a = .uuid id → drawer id = some i

instance (drawer : String → Option PId) (s : Store) (i : PId) (a : Ans) (op : Op) :
    Decidable ((scheduleOf (DrawnBy drawer)).allow s i a op) :=
  match a with
  | .uuid id => decidable_of_iff (drawer id = some i) ⟨fun h id' e => by cases e; exact h, fun h => h id rfl⟩
  | .ok | .pick _ | .fail _ | .payout _ | .reference _ => isTrue fun _ e => by cases e

/-- Whoever sends a key asks for the same. -/
def SameRequest (requests : PId → InitiateRequest) : Prop :=
  ∀ i j claim, (requests i).claim = some claim → (requests j).claim = some claim → ∀ currency terms,
    (requests i).asked currency = .ok terms → (requests j).asked currency = .ok terms

theorem exec_idempotencyKey_staged {s s' : Store} {i j : PId} {a : Ans} {q : IdempotencyCall} {r : Except Err q.Res}
    (h : exec i a (.idempotencyKey q) s = some (r, s')) : s'.staged j = s.staged j := by
  rcases r with e | x
  · rw [(exec_idempotencyKey_error h).1]
  · rcases exec_idempotencyKey_write h with rfl | ⟨w, rfl, -⟩ <;> rfl

structure ReplayInv (requests : PId → InitiateRequest) (drawer : String → Option PId) (s : Store)
    (sts : PId → Replaying) : Prop where
  drafts : DraftsInv drawer s sts
  direct : s.KeysDirect
  seen : ∀ i, ∀ id ∈ (sts i).seen, (requests i).Recorded s.db.transfers id
  recorded : ∀ i claim row, (requests i).claim = some claim → s.db.idempotencyKeys.find? claim = some row →
    row.status = .COMPLETED → (requests i).Recorded s.db.transfers (row.resourceId.getD "")

namespace ReplayInv

variable {requests : PId → InitiateRequest} {drawer : String → Option PId} {s s' : Store} {sts : PId → Replaying}
  {i : PId} {a : Ans} {op : Op} {r : Except Err op.Res}

/-- What program `i` sees completed is recorded. -/
theorem sees (h : ReplayInv requests drawer s sts) (hc : (sts i).Completes (requests i) op)
    (hx : exec i a op s = some (r, s')) :
    ∀ id ∈ Replaying.sees (sts i).seen op r, (requests i).Recorded s.db.transfers id := by
  have unseen : Replaying.sees (sts i).seen op r = (sts i).seen →
      ∀ id ∈ Replaying.sees (sts i).seen op r, (requests i).Recorded s.db.transfers id := fun e id hid =>
    h.seen i id (e ▸ hid)
  cases op with
  | idempotencyKey q =>
    cases q with
    | findUnique claim =>
      rcases r with e | (_ | row)
      · exact unseen rfl
      · exact unseen rfl
      · obtain ⟨hrow, -⟩ := exec_findUnique_ok hx
        by_cases hstatus : row.status = .COMPLETED
        · have hsees : Replaying.sees (sts i).seen (.idempotencyKey (.findUnique claim)) (.ok (some row)) =
              row.resourceId.getD "" :: (sts i).seen := if_pos hstatus
          intro id hid
          rw [hsees] at hid
          rcases List.mem_cons.1 hid with rfl | hid
          · exact h.recorded i claim row hc hrow.symm hstatus
          · exact h.seen i id hid
        · exact unseen (if_neg hstatus)
    | _ => exact unseen rfl
  | _ => exact unseen rfl

/-- The rows of the keys, after a call on one of them. -/
theorem records (h : ReplayInv requests drawer s sts) (hsame : SameRequest requests) {q : IdempotencyCall}
    {r : Except Err q.Res}
    (hc : (sts i).Completes (requests i) (.idempotencyKey q)) (hx : exec i a (.idempotencyKey q) s = some (r, s')) :
    ∀ j claim row, (requests j).claim = some claim → s'.db.idempotencyKeys.find? claim = some row →
      row.status = .COMPLETED → (requests j).Recorded s.db.transfers (row.resourceId.getD "") := by
  intro j claim row hj hrow hstatus
  have unmoved : s' = s → (requests j).Recorded s.db.transfers (row.resourceId.getD "") := by
    rintro rfl
    exact h.recorded j claim row hj hrow hstatus
  rcases r with e | x
  · exact unmoved (exec_idempotencyKey_error hx).1
  cases q with
  | create claim' =>
    obtain ⟨-, rfl⟩ := exec_create_ok hx
    have hfind : (s.db.idempotencyKeys.create claim' s.clock).find? claim = some row := hrow
    rw [IdempotencyKeys.find?_create] at hfind
    split at hfind
    · cases hfind
      cases hstatus
    · exact h.recorded j claim row hj hfind hstatus
  | findUnique claim' => exact unmoved (exec_findUnique_ok hx).2
  | touch id status updatedAt =>
    rcases exec_touch_ok hx with ⟨-, rfl⟩ | ⟨-, old, hold, rfl, rfl⟩
    · exact unmoved rfl
    · have hfind : (s.db.idempotencyKeys.update old.claim old.status old.resourceId updatedAt).find? claim =
        some row :=
        hrow
      rw [IdempotencyKeys.find?_update] at hfind
      split at hfind
      · rename_i hclaim
        have hstored := (IdempotencyKeys.find?_of_byId? hold).2
        rw [hstored] at hfind
        cases hfind
        exact h.recorded j claim old hj (hclaim ▸ hstored) hstatus
      · exact h.recorded j claim row hj hfind hstatus
  | complete claim' resourceId =>
    obtain ⟨⟨old, hold⟩, rfl⟩ := exec_complete_ok hx
    have hfind : (s.db.idempotencyKeys.update claim' .COMPLETED (some resourceId) s.clock).find? claim =
      some row := hrow
    rw [IdempotencyKeys.find?_update] at hfind
    split at hfind
    · rename_i hclaim
      subst hclaim
      rw [hold] at hfind
      cases hfind
      obtain ⟨hi, r, hdraft, rfl, hasked⟩ := hc
      obtain ⟨-, row, hrow, hterms⟩ := h.drafts.stored i r hdraft
      have hcurrency : row.currency = r.currency := congrArg TransferTerms.currency hterms
      refine ⟨row, hrow, ?_⟩
      rw [hcurrency, hterms]
      exact hsame i j claim' hi hj r.currency r.terms hasked
    · exact h.recorded j claim row hj hfind hstatus
  | deleteMany claim' =>
    obtain rfl := exec_deleteMany_ok hx
    have hfind : (s.db.idempotencyKeys.erase claim').find? claim = some row := hrow
    rw [IdempotencyKeys.find?_erase] at hfind
    split at hfind
    · cases hfind
    · exact h.recorded j claim row hj hfind hstatus

/-- **Every permitted call keeps the records.** -/
theorem step (h : ReplayInv requests drawer s sts) (hsame : SameRequest requests)
    (hok : (replayProtocol requests drawer).ok i (sts i) op) (ha : DrawnBy drawer s i a op)
    (hx : exec i a op s = some (r, s')) : (replayProtocol requests drawer).yields i (sts i) op r ∧
      ReplayInv requests drawer s' (Function.update sts i ((replayProtocol requests drawer).next i (sts i) op r)) := by
  obtain ⟨hdrawn, hpermits, hcompletes⟩ := hok
  have hnext : ((replayProtocol requests drawer).next i (sts i) op r).draft =
      (sts i).draft.after r.isOk op := rfl
  obtain ⟨hdrafts, hkept⟩ := h.drafts.step hdrawn hpermits hx hnext
  have hseen : ∀ j, ∀ id ∈ (Function.update sts i ((replayProtocol requests drawer).next i (sts i) op r) j).seen,
      (requests j).Recorded s'.db.transfers id := by
    intro j id hid
    rcases update_or sts i j ((replayProtocol requests drawer).next i (sts i) op r) with ⟨rfl, hu⟩ | ⟨-, hu⟩
    · rw [hu] at hid
      exact (h.sees hcompletes hx id hid).kept hkept
    · rw [hu] at hid
      exact (h.seen j id hid).kept hkept
  have unmoved : s'.db.idempotencyKeys = s.db.idempotencyKeys → ∀ j claim row, (requests j).claim = some claim →
      s'.db.idempotencyKeys.find? claim = some row → row.status = .COMPLETED →
        (requests j).Recorded s'.db.transfers (row.resourceId.getD "") := fun hk j claim row hj hrow hstatus =>
    (h.recorded j claim row hj (hk ▸ hrow) hstatus).kept hkept
  have aside : NoKey op → ReplayInv requests drawer s'
    (Function.update sts i ((replayProtocol requests drawer).next i (sts i) op r)) :=
    fun hop =>
      have hkeys := exec_noKey hop h.direct hx
      ⟨hdrafts, hkeys.direct, hseen, unmoved hkeys.keys⟩
  refine ⟨⟨?_, ?_⟩, ?_⟩
  · cases op with
    | randomUUID =>
      rcases r with e | id
      · trivial
      · exact ha id (exec_randomUUID hx)
    | _ => trivial
  · cases op with
    | transfer c q =>
      cases c with
      | tx => trivial
      | prisma =>
        cases q with
        | findUnique id =>
          rcases r with e | (_ | row)
          · trivial
          · trivial
          · obtain ⟨db, hv, hrow, -⟩ := exec_transfer_find hx
            rw [Store.view_prisma, Option.some.injEq] at hv
            subst hv
            refine ⟨Table.key_of_find? hrow.symm, fun hid => ?_⟩
            obtain ⟨row', hrow', hasked⟩ := h.seen i id hid
            rw [hrow', Option.some.injEq] at hrow
            rw [hrow]
            exact hasked
        | _ => trivial
    | _ => trivial
  · cases op with
    | idempotencyKey q =>
      refine ⟨hdrafts, fun j w hw => ?_, hseen, fun j claim row hj hrow hstatus => ?_⟩
      · rw [exec_idempotencyKey_staged hx] at hw
        exact h.direct j w hw
      · exact (h.records hsame hcompletes hx j claim row hj hrow hstatus).kept hkept
    | mark m =>
      obtain ⟨-, rfl⟩ := exec_mark hx
      exact ⟨hdrafts, h.direct, hseen, unmoved rfl⟩
    | _ => exact aside trivial

end ReplayInv

theorem replay_preserves {requests : PId → InitiateRequest} {drawer : String → Option PId}
    (hsame : SameRequest requests) :
    (replayProtocol requests drawer).Preserves (scheduleOf (DrawnBy drawer)) (ReplayInv requests drawer) where
  call h hok ha hx := h.step hsame hok ha hx
  act _ h := ⟨h.drafts.of_same rfl (fun _ _ _ _ => Iff.rfl) fun _ => rfl, h.direct, h.seen, h.recorded⟩

/-! ## The programs obey -/

/-- Calls that neither save a transfer nor look at a key. -/
def Elsewhere : Op → Prop
  | .transfer _ (.create _) | .transfer _ (.updateMany ..) | .transaction _ => False
  | .idempotencyKey (.findUnique _) | .idempotencyKey (.complete ..) => False
  | _ => True

/-- `t` is the transfer `id`, with these terms. -/
structure Transfer.Is (t : Transfer) (id : String) (terms : TransferTerms) : Prop where
  id : t.id = id
  terms : t.terms = terms

namespace Transfer

variable {t t' : Transfer} {id : String} {terms : TransferTerms}

theorem Is.markSuccessful (h : t.Is id terms) (ht : t.markSuccessful = .ok t') : t'.Is id terms := by
  unfold Transfer.markSuccessful at ht
  cases ha : t.assertNotTerminal "mark as successful" <;> rw [ha] at ht <;> cases ht
  exact ⟨h.id, h.terms⟩

theorem Is.markProcessing {providerReference : String} (h : t.Is id terms)
    (ht : t.markProcessing providerReference = .ok t') : t'.Is id terms := by
  unfold Transfer.markProcessing at ht
  cases ha : t.assertNotTerminal "mark as processing" <;> rw [ha] at ht <;> cases ht
  by_cases hp : providerReference = ""
  · rw [if_pos hp]
    exact ⟨h.id, h.terms⟩
  · rw [if_neg hp]
    exact ⟨h.id, h.terms⟩

theorem Is.markReversed {reason : String} (h : t.Is id terms) (ht : t.markReversed reason = .ok t') :
    t'.Is id terms := by
  unfold Transfer.markReversed at ht
  cases ha : t.assertNotTerminal "mark as reversed" <;> rw [ha] at ht <;> cases ht
  exact ⟨h.id, h.terms⟩

theorem Is.markFailed {reason : String} (h : t.Is id terms) (ht : t.markFailed reason = .ok t') : t'.Is id terms := by
  unfold Transfer.markFailed at ht
  cases ha : t.assertNotTerminal "mark as failed" <;> rw [ha] at ht <;> cases ht
  exact ⟨h.id, h.terms⟩

end Transfer

/-- Transfer `id` is the program's own, and stored with these terms. -/
structure Owns (drawer : String → Option PId) (i : PId) (st : Replaying) (id : String)
    (terms : TransferTerms) : Prop where
  drawn : drawer id = some i
  stored : ∃ r, st.draft = .inTable r ∧ r.id = id ∧ r.terms = terms

section
variable {requests : PId → InitiateRequest} {drawer : String → Option PId} {i : PId} {ε α β : Type}
  {st : Replaying}
  {id : String} {terms : TransferTerms} {t : Transfer}

theorem elsewhere_quiet {op : Op} (h : Elsewhere op) : (replayProtocol requests drawer).Quiet i op := by
  intro st
  cases op with
  | transfer c q =>
    cases q with
    | create data => exact h.elim
    | updateMany version data => exact h.elim
    | _ => cases c <;> exact ⟨⟨nofun, trivial, trivial⟩, fun r => rfl⟩
  | transaction q => exact h.elim
  | idempotencyKey q =>
    cases q with
    | findUnique claim => exact h.elim
    | complete claim resourceId => exact h.elim
    | _ => exact ⟨⟨nofun, trivial, trivial⟩, fun r => rfl⟩
  | _ => exact ⟨⟨nofun, trivial, trivial⟩, fun r => rfl⟩

theorem elsewhere_bind {p : Program ε α} {f : α → Program ε β} {Q : Replaying → Except ε β → Prop}
    (hp : p.Calls Elsewhere) (hok : ∀ a, (replayProtocol requests drawer).Obeys i Q (f a) st)
    (herr : ∀ e, Q st (.error e)) :
    (replayProtocol requests drawer).Obeys i Q (p >>= f) st :=
  Obeys.quiet_bind (P := replayProtocol requests drawer) (hp.mono fun _ => elsewhere_quiet) hok herr

/-- A program that ends elsewhere. -/
theorem obeys_elsewhere {p : Program ε α} {Q : Replaying → Except ε α → Prop} (hp : p.Calls Elsewhere)
    (hQ : ∀ x, Q st x) : (replayProtocol requests drawer).Obeys i Q p st :=
  (Obeys.quiet (P := replayProtocol requests drawer) (hp.mono fun _ => elsewhere_quiet) p.returns_true st).mono
    fun _ x h => h.1 ▸ hQ x

/-- The id that `draw` starts a transfer with is the program's. -/
theorem draw_obeys (initiate : Nat → TransferReference → String → α) :
    (replayProtocol requests drawer).Obeys i (fun st' x => st' = st ∧ ∀ a, x = .ok a →
      ∃ now reference id, a = initiate now reference id ∧ drawer id = some i) (draw initiate) st := by
  refine Obeys.await_bind (P := replayProtocol requests drawer) ⟨nofun, trivial, trivial⟩ (fun now _ => ?_)
    fun _ _ => ⟨rfl, fun _ h => by cases h⟩
  refine Obeys.await_bind (P := replayProtocol requests drawer) ⟨nofun, trivial, trivial⟩ (fun id hid => ?_)
    fun _ _ => ⟨rfl, fun _ h => by cases h⟩
  refine Obeys.await_bind (P := replayProtocol requests drawer) ⟨nofun, trivial, trivial⟩ (fun reference _ => ?_)
    fun _ _ => ⟨rfl, fun _ h => by cases h⟩
  refine ⟨rfl, fun a h => ?_⟩
  cases h
  exact ⟨now, reference, id, rfl, hid.1⟩

/-- A save of the program's own transfer. -/
theorem saveDraft_obeys (hdrawn : drawer t.id = some i) (hallows : st.draft.Allows (TransferMapper.toPersistence t)) :
    (replayProtocol requests drawer).Obeys i (fun st' x =>
      (st'.draft = st.draft ∨ st'.draft = .inTable (TransferMapper.toPersistence t)) ∧
      (t.version = 0 → x = .ok () → st'.draft = .inTable (TransferMapper.toPersistence t)))
      (PrismaTransferRepository.save t) st := by
  have hid : ∀ id, some (TransferMapper.toPersistence t).id = some id → drawer id = some i := fun id h => by
    cases h
    exact hdrawn
  unfold PrismaTransferRepository.save
  split
  · refine Obeys.await (P := replayProtocol requests drawer) ⟨hid, hallows, trivial⟩ fun r _ => ?_
    rcases r with e | x
    · exact ⟨.inl rfl, fun _ h => by cases h⟩
    · exact ⟨.inr rfl, fun _ _ => rfl⟩
  · rename_i hv
    refine Obeys.await_bind (P := replayProtocol requests drawer) ⟨hid, hallows, trivial⟩ (fun count _ => ?_)
      fun e _ => ⟨.inl rfl, fun h => absurd h hv⟩
    split
    · refine Obeys.await_bind (P := replayProtocol requests drawer) ⟨nofun, trivial, trivial⟩
        (fun existing _ => ?_)
        fun e _ => ⟨.inl rfl, fun h => absurd h hv⟩
      cases existing with
      | none =>
        refine Obeys.await (P := replayProtocol requests drawer) ⟨hid, hallows, trivial⟩ fun r _ => ?_
        rcases r with e | x
        · exact ⟨.inl rfl, fun h => absurd h hv⟩
        · exact ⟨.inr rfl, fun h => absurd h hv⟩
      | some row => exact ⟨.inl rfl, fun h => absurd h hv⟩
    · exact ⟨.inl rfl, fun h => absurd h hv⟩

theorem saveOwned_obeys (hst : Owns drawer i st id terms) (ht : t.Is id terms) :
    (replayProtocol requests drawer).Obeys i (fun st' _ => Owns drawer i st' id terms)
      (PrismaTransferRepository.save t) st := by
  obtain ⟨hdrawn, r, hr, hid, hterms⟩ := hst
  have hallows : st.draft.Allows (TransferMapper.toPersistence t) := by
    rw [hr]
    exact ⟨ht.id.trans hid.symm, ht.terms.trans hterms.symm⟩
  refine (saveDraft_obeys (ht.id ▸ hdrawn) hallows).mono fun st' _ h => ⟨hdrawn, ?_⟩
  rcases h.1 with h | h
  · exact ⟨r, h.trans hr, hid, hterms⟩
  · exact ⟨_, h, ht.id, ht.terms⟩

theorem publishAll_elsewhere (events : List DomainEvent) : (publishAll events).Calls Elsewhere :=
  publishAll_calls (fun _ => trivial) events

theorem postTransferJournal_elsewhere (t : Transfer) (narration : String) (legs : List LedgerPostingLeg) :
    (postTransferJournal t narration legs).Calls Elsewhere :=
  postTransferJournal_calls trivial (fun _ => trivial) t narration legs

/-- A block ends with the program's own transfer, returned or handed on to the `catch`. -/
def Hands (drawer : String → Option PId) (i : PId) (id : String) (terms : TransferTerms) (result : α → Transfer)
    (st : Replaying) : Except (Err × Transfer) α → Prop
  | .ok a => Owns drawer i st id terms ∧ (result a).Is id terms
  | .error thrown => Owns drawer i st id terms ∧ thrown.2.Is id terms

theorem during_obeys {p : Handler α} {Q : Replaying → Except (Err × Transfer) α → Prop}
    (hp : (replayProtocol requests drawer).Obeys i (fun st' x => Q st' (x.mapError fun e => (e, t))) p st) :
    (replayProtocol requests drawer).Obeys i Q (during t p) st :=
  Obeys.mapError (P := replayProtocol requests drawer) hp

theorem during_elsewhere_bind {p : Handler α} {f : α → Program (Err × Transfer) β}
    {Q : Replaying → Except (Err × Transfer) β → Prop} (hp : p.Calls Elsewhere)
    (hok : ∀ a, (replayProtocol requests drawer).Obeys i Q (f a) st) (herr : ∀ e, Q st (.error (e, t))) :
    (replayProtocol requests drawer).Obeys i Q (during t p >>= f) st := by
  refine Obeys.bind (P := replayProtocol requests drawer) (R := fun st' x => st' = st ∧
    ∀ thrown, x = .error thrown →
    ∃ e, thrown = (e, t)) (during_obeys (obeys_elsewhere hp fun x => ⟨rfl, fun thrown h => ?_⟩))
      (fun st' a h => ?_)
    fun st' thrown h => ?_
  · cases x <;> cases h
    exact ⟨_, rfl⟩
  · exact h.1 ▸ hok a
  · obtain ⟨e, rfl⟩ := h.2 thrown rfl
    exact h.1 ▸ herr e

theorem during_ofExcept_bind {x : Except Err α} {f : α → Program (Err × Transfer) β}
    {Q : Replaying → Except (Err × Transfer) β → Prop}
    (hok : ∀ a, x = .ok a → (replayProtocol requests drawer).Obeys i Q (f a) st)
    (herr : ∀ e, Q st (.error (e, t))) :
    (replayProtocol requests drawer).Obeys i Q (during t (Prog.ofExcept x) >>= f) st := by
  cases x with
  | ok a => exact hok a rfl
  | error e => exact herr e

/-! ### External transfers -/

namespace InitiateExternalTransferHandler

/-- What is held is what was asked for. -/
theorem hold_returns (command : InitiateExternalTransferCommand) : (hold command).Returns fun held =>
    ∃ currency, Money.fromDecimalString command.amount currency = .ok held.2.2.1 ∧
      ExternalRecipient.create command.bankCode command.recipientAccountNumber (some command.recipientAccountName) =
        .ok held.2.1 := by
  refine .bind (Prog.returns_true _) fun account _ => ?_
  cases account with
  | none => trivial
  | some account =>
    dsimp only
    split
    · trivial
    · refine .bind (Prog.Returns.ofExcept fun _ h => h) fun amount hamount => ?_
      refine .bind (Prog.returns_true _) fun _ _ => .bind (Prog.returns_true _) fun fee _ => ?_
      refine .bind (Prog.returns_true _) fun totalDebit _ => ?_
      refine .bind (Prog.Returns.ofExcept fun _ h => h) fun recipient hrecipient => ?_
      refine .bind (Prog.returns_true _) fun debited _ => .bind (Prog.returns_true _) fun _ _ => ?_
      exact ⟨account.currency, hamount, hrecipient⟩

theorem record_obeys_replay (command : InitiateExternalTransferCommand) (sourceAccount : Account)
    (recipient : ExternalRecipient) (amount fee totalDebit : Money) (hst : st.draft = .blank) :
    (replayProtocol requests drawer).Obeys i (fun st' x => ∀ t, x = .ok t →
      Owns drawer i st' t.id t.terms ∧ t.terms = .of command.sourceAccountId none (some recipient) amount)
      (record command sourceAccount recipient amount fee totalDebit) st := by
  refine Obeys.bind (P := replayProtocol requests drawer) (draw_obeys _) (fun st' t h => ?_) fun _ _ _ _ h => by cases h
  obtain ⟨rfl, hdraw⟩ := h
  obtain ⟨now, reference, id, rfl, hdrawn⟩ := hdraw t rfl
  refine Obeys.bind (P := replayProtocol requests drawer)
    (saveDraft_obeys hdrawn (by rw [hst]; trivial)) (fun st'' _ hsaved => ?_) fun _ _ _ _ h => by cases h
  refine elsewhere_bind (postTransferJournal_elsewhere _ _ _) (fun _ t' h => ?_) fun _ _ h => by cases h
  cases h
  exact ⟨⟨hdrawn, _, hsaved.2 rfl rfl, rfl, rfl⟩, rfl⟩

theorem markAccepted_obeys_replay (command : InitiateExternalTransferCommand) (totalDebit : Money)
    (payoutResult : PayoutInitiationResult) (hst : Owns drawer i st id terms) (ht : t.Is id terms) :
    (replayProtocol requests drawer).Obeys i (Hands drawer i id terms fun a => a)
      (markAccepted command totalDebit t payoutResult) st := by
  unfold markAccepted
  split
  · refine during_ofExcept_bind (fun settled h => ?_) fun e => ⟨hst, ht⟩
    exact during_elsewhere_bind (postTransferJournal_elsewhere _ _ _) (fun _ => ⟨hst, ht.markSuccessful h⟩)
      fun e => ⟨hst, ht.markSuccessful h⟩
  · refine during_obeys (Obeys.ofExcept (P := replayProtocol requests drawer) ?_)
    cases h : t.markProcessing payoutResult.providerReference with
    | ok t' => exact ⟨hst, ht.markProcessing h⟩
    | error e => exact ⟨hst, ht⟩

theorem accepted_obeys_replay (command : InitiateExternalTransferCommand) (totalDebit : Money)
    (events : List DomainEvent)
    (payoutResult : PayoutInitiationResult) (hst : Owns drawer i st id terms) (ht : t.Is id terms) :
    (replayProtocol requests drawer).Obeys i (Hands drawer i id terms fun a => a)
      (accepted command totalDebit events t payoutResult) st := by
  refine Obeys.bind (P := replayProtocol requests drawer)
    (markAccepted_obeys_replay command totalDebit payoutResult hst ht)
    (fun st' marked h => ?_) fun _ _ h => h
  obtain ⟨hst', hmarked⟩ := h
  have hpulled : marked.pullDomainEvents.2.Is id terms := ⟨hmarked.id, hmarked.terms⟩
  refine Obeys.bind (P := replayProtocol requests drawer) (R := Hands drawer i id terms fun _ => marked)
    (during_obeys ((saveOwned_obeys hst' hmarked).mono fun st'' x h => ?_)) (fun st'' _ h => ?_) fun _ _ h => h
  · cases x <;> exact ⟨h, hmarked⟩
  · exact during_elsewhere_bind (publishAll_elsewhere _) (fun _ => ⟨h.1, hpulled⟩) fun e => ⟨h.1, hpulled⟩

theorem reverse_obeys_replay (command : InitiateExternalTransferCommand) (totalDebit : Money)
    (events : List DomainEvent)
    (payoutError : Err) {Q : Replaying → Except Err α → Prop} (hQ : ∀ st' e, Q st' (.error e))
    (hst : Owns drawer i st id terms) (ht : t.Is id terms) :
    (replayProtocol requests drawer).Obeys i Q (reverse command totalDebit events payoutError t : Handler α) st := by
  refine elsewhere_bind (compensate_calls (fun _ => trivial) trivial (fun _ => trivial) _ _ _) (fun accountEvents => ?_)
    fun e => hQ _ e
  refine Obeys.ofExcept_bind (fun t' h => ?_) fun e _ => hQ _ e
  refine Obeys.bind (P := replayProtocol requests drawer) (saveOwned_obeys hst (ht.markReversed h)) (fun st' _ _ => ?_)
    fun _ e _ => hQ _ e
  exact elsewhere_bind (publishAll_elsewhere _) (fun _ => hQ _ _) fun e => hQ _ e

theorem payOut_obeys_replay (command : InitiateExternalTransferCommand) (recipient : ExternalRecipient)
    (totalDebit : Money) (events : List DomainEvent) (hst : Owns drawer i st id terms) (ht : t.Is id terms) :
    (replayProtocol requests drawer).Obeys i (fun st' x => ∀ t', x = .ok t' →
      Owns drawer i st' id terms ∧ t'.Is id terms) (payOut command recipient totalDebit events t) st := by
  refine Obeys.tryCatch (P := replayProtocol requests drawer) (R := Hands drawer i id terms fun a => a) ?_
    (fun st' t' h _ e => ?_) fun st' thrown h => ?_
  · exact during_elsewhere_bind (FlutterwavePayoutProvider.initiatePayout_calls (fun _ => trivial) _ _ _ _)
      (fun payoutResult => accepted_obeys_replay command totalDebit events payoutResult hst ht) fun e => ⟨hst, ht⟩
  · cases e
    exact h
  · exact reverse_obeys_replay command totalDebit events thrown.1 (fun _ _ _ e => by cases e) h.1 h.2

end InitiateExternalTransferHandler

/-- What `execute()` has done when it returns. -/
def Executed (drawer : String → Option PId) (i : PId) (request : InitiateRequest) (st : Replaying)
    (result : String × TransferResponseDto) : Prop :=
  ∃ terms, Owns drawer i st result.1 terms ∧ request.asked terms.currency = .ok terms ∧ result.2.id = result.1 ∧
    result.2.Describes terms

theorem InitiateExternalTransferHandler.doExecute_obeys_replay (fuel : Nat) (command : InitiateExternalTransferCommand)
    (hst : st.draft = .blank) : (replayProtocol requests drawer).Obeys i (fun st' x => ∀ result, x = .ok result →
      Executed drawer i (.external fuel command) st' result) (doExecute command) st := by
  refine Obeys.quiet_returns_bind (P := replayProtocol requests drawer)
    ((hold_calls (fun _ => trivial) (fun _ => trivial) trivial (fun _ _ _ => trivial) command).mono
      fun _ => elsewhere_quiet)
    (hold_returns command) (fun held hheld => ?_) fun _ _ h => by cases h
  obtain ⟨sourceAccount, recipient, amount, fee, totalDebit⟩ := held
  obtain ⟨currency, hamount, hrecipient⟩ := hheld
  refine Obeys.bind (P := replayProtocol requests drawer)
    (record_obeys_replay command sourceAccount recipient amount fee totalDebit hst) (fun st' t h => ?_)
    fun _ _ _ _ h => by cases h
  obtain ⟨howns, hterms⟩ := h t rfl
  have hpulled : t.pullDomainEvents.2.Is t.id t.terms := ⟨rfl, rfl⟩
  refine Obeys.bind (P := replayProtocol requests drawer)
    (payOut_obeys_replay command recipient totalDebit _ howns hpulled) (fun st'' t' h => ?_) fun _ _ _ _ h => by cases h
  obtain ⟨howns', his⟩ := h t' rfl
  intro result hresult
  cases hresult
  refine ⟨t.terms, his.id ▸ howns', ?_, rfl, his.terms ▸ describes_fromDomain t'⟩
  have hcurrency : t.terms.currency = currency := by
    rw [hterms]
    exact Money.fromDecimalString_currency hamount
  rw [hcurrency, InitiateRequest.asked_external hamount hrecipient, hterms]

/-! ### Internal transfers -/

namespace PrismaInternalTransferExecutor

theorem body_obeys_replay (params : InternalTransferParams) (hst : st.draft = .blank) (hdrawn : drawer id = some i)
    (ht : t.Is id terms) : (replayProtocol requests drawer).Obeys i (fun st' x => match x with
      | .ok result => st'.draft = .inTransaction (TransferMapper.toPersistence result.1) ∧ result.1.Is id terms
      | .error thrown => st'.draft.discarded = .blank ∧ thrown.2.Is id terms) (body params t) st := by
  have hblank : st.draft.discarded = .blank := by
    rw [hst]
    rfl
  have hmoveFunds : (moveFunds params t).Calls Elsewhere :=
    moveFunds_calls (fun _ => trivial) (fun _ => trivial) trivial (fun _ => trivial) params t
  refine during_elsewhere_bind hmoveFunds (fun accounts => ?_) fun e => ⟨hblank, ht⟩
  refine during_ofExcept_bind (fun completed h => ?_) fun e => ⟨hblank, ht⟩
  have hcompleted := ht.markSuccessful h
  have hid : ∀ id', some (TransferMapper.toPersistence completed).id = some id' → drawer id' = some i :=
    fun id' h => by
    cases h
    have hid : completed.id = id := hcompleted.id
    show drawer completed.id = some i
    rw [hid, hdrawn]
  refine Obeys.bind (P := replayProtocol requests drawer) (R := fun st' x => match x with
      | .ok _ => st'.draft = .inTransaction (TransferMapper.toPersistence completed)
      | .error thrown => st'.draft.discarded = .blank ∧ thrown.2.Is id terms)
    (during_obeys (Obeys.await (P := replayProtocol requests drawer) ⟨hid, hst, trivial⟩ fun r _ => ?_))
    (fun st' _ h => ⟨h, hcompleted⟩) fun _ _ h => h
  rcases r with e | x
  · exact ⟨hblank, hcompleted⟩
  · rfl

theorem moved_obeys_replay (params : InternalTransferParams) (hst : st.draft = .blank) (hdrawn : drawer id = some i)
    (ht : t.Is id terms) : (replayProtocol requests drawer).Obeys i (fun st' x => match x with
      | .ok result => Owns drawer i st' id terms ∧ result.1.Is id terms
      | .error thrown => st'.draft = .blank ∧ thrown.2.Is id terms) (moved params t) st := by
  refine Obeys.bind (P := replayProtocol requests drawer) (R := fun st' x => st'.draft = .blank ∧
    ∀ thrown, x = .error thrown → thrown.2.Is id terms) (Obeys.mapError (P := replayProtocol requests drawer)
      (Obeys.await (P := replayProtocol requests drawer) ⟨nofun, trivial, trivial⟩ fun r _ =>
        ⟨hst, fun thrown h => ?_⟩))
    (fun st' _ h => ?_) fun st' thrown h => ⟨h.1, h.2 thrown rfl⟩
  · rcases r with e | x <;> cases h
    exact ht
  refine Obeys.bind (P := replayProtocol requests drawer) (R := fun st' x => match x with
      | .ok result => st'.draft = .inTransaction (TransferMapper.toPersistence result.1) ∧ result.1.Is id terms
      | .error thrown => st'.draft = .blank ∧ thrown.2.Is id terms)
    (Obeys.tryCatch (P := replayProtocol requests drawer) (body_obeys_replay params h.1 hdrawn ht) (fun _ _ h => h)
      fun st'' thrown h => ?_) (fun st'' result h => ?_) fun _ _ h => h
  · refine Obeys.bind (P := replayProtocol requests drawer) (R := fun st' x => st'.draft = .blank ∧
      ∀ thrown, x = .error thrown → thrown.2.Is id terms) (Obeys.mapError (P := replayProtocol requests drawer)
        (Obeys.await (P := replayProtocol requests drawer) ⟨nofun, trivial, trivial⟩ fun r _ =>
          ⟨h.1, fun thrown h => ?_⟩))
      (fun st' _ h' => ⟨h'.1, h.2⟩) fun st' thrown h => ⟨h.1, h.2 thrown rfl⟩
    rcases r with e | x <;> cases h
    exact ht
  · obtain ⟨hdraft, his⟩ := h
    refine Obeys.bind (P := replayProtocol requests drawer) (R := fun st' x => match x with
        | .ok _ => Owns drawer i st' id terms
        | .error thrown =>
          st'.draft = .blank ∧ thrown.2.Is id terms) (Obeys.mapError (P := replayProtocol requests drawer)
      (Obeys.await (P := replayProtocol requests drawer) ⟨nofun, trivial, trivial⟩ fun r _ => ?_))
      (fun st' _ h => ⟨h, his⟩) fun _ _ h => h
    rcases r with e | x
    · refine ⟨?_, his⟩
      show st''.draft.discarded = .blank
      rw [hdraft]
      rfl
    · refine ⟨hdrawn, TransferMapper.toPersistence result.1, ?_, his.id, his.terms⟩
      show st''.draft.committed = _
      rw [hdraft]
      rfl

theorem execute_obeys_replay (params : InternalTransferParams) (hst : st.draft = .blank) :
    (replayProtocol requests drawer).Obeys i (fun st' x => ∀ result, x = .ok result →
      Owns drawer i st' result.transfer.id result.transfer.terms ∧
        result.transfer.terms = .of params.sourceAccountId (some params.destinationAccountId) none params.amount)
      (execute params) st := by
  refine Obeys.bind (P := replayProtocol requests drawer) (draw_obeys _) (fun st' t h => ?_) fun _ _ _ _ h => by cases h
  obtain ⟨rfl, hdraw⟩ := h
  obtain ⟨now, reference, id, rfl, hdrawn⟩ := hdraw t rfl
  refine Obeys.bind (P := replayProtocol requests drawer) (R := fun st' x => ∀ result, x = .ok result →
      Owns drawer i st' id (.of params.sourceAccountId (some params.destinationAccountId) none params.amount) ∧
        result.1.Is id (.of params.sourceAccountId (some params.destinationAccountId) none params.amount))
    (Obeys.tryCatch (P := replayProtocol requests drawer) (moved_obeys_replay params hst hdrawn ⟨rfl, rfl⟩)
      (fun st'' result h _ e => by cases e; exact h) fun st'' thrown h => ?_) (fun st'' result h => ?_)
    fun _ _ _ _ h => by cases h
  · refine Obeys.ofExcept_bind (fun failed hfailed => ?_) fun _ _ _ e => by cases e
    have his := h.2.markFailed hfailed
    refine Obeys.bind (P := replayProtocol requests drawer)
      (saveDraft_obeys (t := failed) (his.id ▸ hdrawn) (by rw [h.1]; trivial)) (fun _ _ _ _ e => by cases e)
      fun _ _ _ _ e => by cases e
  · obtain ⟨howns, his⟩ := h result rfl
    intro result' e
    cases e
    have hid : result.1.pullDomainEvents.2.id = id := his.id
    have hterms : result.1.pullDomainEvents.2.terms = _ := his.terms
    exact ⟨by rw [hid, hterms]; exact howns, hterms⟩

end PrismaInternalTransferExecutor

theorem InitiateInternalTransferHandler.doExecute_obeys_replay (fuel : Nat) (command : InitiateInternalTransferCommand)
    (hst : st.draft = .blank) : (replayProtocol requests drawer).Obeys i (fun st' x => ∀ result, x = .ok result →
      Executed drawer i (.internal fuel command) st' result) (doExecute command) st := by
  unfold doExecute
  split
  · exact fun _ h => by cases h
  · refine elsewhere_bind (PrismaAccountRepository.findById_calls (fun _ => trivial) _) (fun sourceAccount => ?_)
      fun _ _ h => by cases h
    cases sourceAccount with
    | none => exact fun _ h => by cases h
    | some sourceAccount =>
      dsimp only
      split
      · exact fun _ h => by cases h
      · refine Obeys.ofExcept_bind (fun amount hamount => ?_) fun _ _ _ h => by cases h
        refine elsewhere_bind (KycTransferLimitCheckerService.assertWithinLimits_calls (fun _ => trivial) trivial
          (fun _ _ _ => trivial) _ _ _) (fun _ => ?_) fun _ _ h => by cases h
        refine Obeys.ofExcept_bind (fun fee _ => ?_) fun _ _ _ h => by cases h
        refine Obeys.bind (P := replayProtocol requests drawer)
          (PrismaInternalTransferExecutor.execute_obeys_replay _ hst) (fun st' result h => ?_)
            fun _ _ _ _ h => by cases h
        obtain ⟨howns, hterms⟩ := h result rfl
        refine elsewhere_bind (publishAll_elsewhere _) (fun _ result' h => ?_) fun _ _ h => by cases h
        cases h
        refine ⟨result.transfer.terms, howns, ?_, rfl, describes_fromDomain _⟩
        have hcurrency : result.transfer.terms.currency = sourceAccount.currency := by
          rw [hterms]
          exact Money.fromDecimalString_currency hamount
        rw [hcurrency, InitiateRequest.asked_internal hamount, hterms]

/-! ### The guard -/

/-- A request is answered with its own transfer, or with one that its key has been seen completed with. -/
def Answered (requests : PId → InitiateRequest) (drawer : String → Option PId) (i : PId) (st : Replaying)
    (x : Except Err TransferResponseDto) : Prop :=
  ∀ dto, x = .ok dto → (requests i).AnsweredBy dto ∧
    ((∃ terms, Owns drawer i st dto.id terms ∧ (requests i).asked terms.currency = .ok terms) ∨
      dto.id ∈ st.seen)

theorem Executed.answered {result : String × TransferResponseDto} (h : Executed drawer i (requests i) st result) :
    Answered requests drawer i st (.ok result.2) := by
  obtain ⟨terms, howns, hasked, hid, hdescribes⟩ := h
  intro dto e
  cases e
  exact ⟨⟨terms, hdescribes.currency ▸ hasked, hdescribes⟩, .inl ⟨terms, hid ▸ howns, hasked⟩⟩

theorem tryAcquire_obeys_replay {claim : ClaimKey} (hclaim : (requests i).claim = some claim) (fuel : Nat) :
    ∀ st, (replayProtocol requests drawer).Obeys i (fun st' x => st'.draft = st.draft ∧
      ∀ resourceId, x = .ok (.COMPLETED resourceId) → resourceId.getD "" ∈ st'.seen)
      (PrismaIdempotencyKeyRepository.tryAcquire claim fuel) st := by
  induction fuel with
  | zero => exact fun _ => trivial
  | succ fuel ih =>
    intro st
    have hcreate : (replayProtocol requests drawer).Quiet i (.idempotencyKey (.create claim)) := elsewhere_quiet trivial
    refine ⟨(hcreate st).1, fun r _ => ?_⟩
    rw [(hcreate st).2 r]
    rcases r with error | ⟨⟩
    · dsimp only
      split
      · exact ⟨rfl, fun _ h => by cases h⟩
      · refine Obeys.await_bind (P := replayProtocol requests drawer) ⟨nofun, trivial, hclaim⟩
          (fun existing _ => ?_)
          fun _ _ => ⟨rfl, fun _ h => by cases h⟩
        cases existing with
        | none => exact ih st
        | some existing =>
          by_cases hstatus : existing.status = .COMPLETED
          · simp only [hstatus, ↓reduceIte]
            refine ⟨rfl, fun resourceId h => ?_⟩
            cases h
            show _ ∈ Replaying.sees st.seen (.idempotencyKey (.findUnique claim)) (.ok (some existing))
            rw [show Replaying.sees st.seen (.idempotencyKey (.findUnique claim)) (.ok (some existing)) =
              existing.resourceId.getD "" :: st.seen from if_pos hstatus]
            exact List.mem_cons_self
          · simp only [hstatus, ↓reduceIte]
            refine elsewhere_bind (.await trivial) (fun now => ?_) fun _ => ⟨rfl, fun _ h => by cases h⟩
            split
            · exact ⟨rfl, fun _ h => by cases h⟩
            · refine elsewhere_bind (.await trivial) (fun _ => ?_) fun _ => ⟨rfl, fun _ h => by cases h⟩
              refine elsewhere_bind (.await trivial) (fun reclaimed => ?_) fun _ => ⟨rfl, fun _ h => by cases h⟩
              split
              · exact ih ((replayProtocol requests drawer).next i st (.idempotencyKey (.findUnique claim))
                  (.ok (some existing)))
              · exact ⟨rfl, fun _ h => by cases h⟩
    · exact ⟨rfl, fun _ h => by cases h⟩

theorem rehydrate_obeys_replay {resourceId : Option String} (h : resourceId.getD "" ∈ st.seen) :
    (replayProtocol requests drawer).Obeys i (Answered requests drawer i) (rehydrateTransfer resourceId) st := by
  refine Obeys.bind (P := replayProtocol requests drawer) (R := fun st' x => st' = st ∧ ∀ t, x = .ok (some t) →
    (requests i).AnsweredBy (.fromDomain t) ∧ t.id = resourceId.getD "") ?_ (fun st' found hfound => ?_)
    fun _ _ _ _ e => by cases e
  · refine Obeys.await_bind (P := replayProtocol requests drawer) ⟨nofun, trivial, trivial⟩ (fun existing hy => ?_)
      fun _ _ => ⟨rfl, fun _ e => by cases e⟩
    cases existing with
    | none => exact ⟨rfl, fun _ e => by cases e⟩
    | some row =>
      obtain ⟨-, hid, hasked⟩ := hy
      refine Obeys.ofExcept_bind (x := TransferMapper.toDomain row) (fun t ht => ⟨rfl, fun t' e => ?_⟩)
        fun _ _ => ⟨rfl, fun _ e => by cases e⟩
      cases e
      exact ⟨InitiateRequest.answeredBy_of_toDomain (hasked h) ht, (TransferMapper.toDomain_ok ht).id.trans hid⟩
  · obtain ⟨rfl, hfound⟩ := hfound
    cases found with
    | none => exact fun _ e => by cases e
    | some t =>
      obtain ⟨hanswered, hid⟩ := hfound t rfl
      intro dto e
      cases e
      have hdto : (TransferResponseDto.fromDomain t).id = resourceId.getD "" := hid
      exact ⟨hanswered, .inr (by rw [hdto]; exact h)⟩

theorem run_obeys_replay {userId scope : String} {key : Option String}
    {execute : Handler (String × TransferResponseDto)}
    (hclaim : (requests i).claim = claimOf userId scope key) (fuel : Nat)
    (hexecute : ∀ st, st.draft = .blank →
      (replayProtocol requests drawer).Obeys i (fun st' x => ∀ result, x = .ok result →
      Executed drawer i (requests i) st' result) execute st) (hst : st.draft = .blank) :
    (replayProtocol requests drawer).Obeys i (Answered requests drawer i)
      (IdempotencyGuardService.run userId scope key fuel ⟨execute, rehydrateTransfer⟩) st := by
  have unguarded : (replayProtocol requests drawer).Obeys i (Answered requests drawer i)
      (do return (← execute).2 : Handler TransferResponseDto) st :=
    Obeys.bind (P := replayProtocol requests drawer) (hexecute st hst) (fun _ result h => (h result rfl).answered)
      fun _ _ _ _ e => by cases e
  unfold IdempotencyGuardService.run
  split
  · exact unguarded
  · exact unguarded
  · rename_i key hkey
    have hkey : key ≠ "" := fun e => hkey (e ▸ rfl)
    have hmine : (requests i).claim = some ⟨userId, scope, key⟩ := by rw [hclaim, claimOf_some hkey]
    refine Obeys.bind (P := replayProtocol requests drawer) (tryAcquire_obeys_replay hmine fuel st)
      (fun st' acquisition h => ?_) fun _ _ _ _ e => by cases e
    obtain ⟨hdraft, hseen⟩ := h
    cases acquisition with
    | COMPLETED resourceId => exact rehydrate_obeys_replay (hseen resourceId rfl)
    | IN_PROGRESS => exact fun _ e => by cases e
    | ACQUIRED =>
      refine Obeys.tryCatch (P := replayProtocol requests drawer) (R := Answered requests drawer i) ?_ (fun _ _ h => h)
        fun _ error _ => elsewhere_bind (.await trivial) (fun _ _ e => by cases e) fun _ _ e => by cases e
      refine Obeys.bind (P := replayProtocol requests drawer) (R := fun st' x => ∀ result, x = .ok result →
        Executed drawer i (requests i) st' result) ?_ (fun st'' result h => ?_) fun _ _ _ _ e => by cases e
      · refine elsewhere_bind (.await trivial) (fun _ => ?_) fun _ _ e => by cases e
        refine Obeys.bind (P := replayProtocol requests drawer) (R := fun st' x => ∀ result, x = .ok result →
          Executed drawer i (requests i) st' result) ?_ (fun st'' result h => ?_) fun _ _ _ _ e => by cases e
        · exact Obeys.tryCatch (P := replayProtocol requests drawer) (hexecute st' (hdraft.trans hst)) (fun _ _ h => h)
            fun _ _ _ => elsewhere_bind (.await trivial) (fun _ _ e => by cases e) fun _ _ e => by cases e
        · refine elsewhere_bind (.await trivial) (fun _ result' e => ?_) fun _ _ e => by cases e
          cases e
          exact h result rfl
      · have hresult := h result rfl
        obtain ⟨terms, howns, hasked, hid, hdescribes⟩ := hresult
        obtain ⟨r, hr, hrid, hterms⟩ := howns.stored
        have hcurrency : r.currency = terms.currency := congrArg TransferTerms.currency hterms
        have hcomplete : (replayProtocol requests drawer).ok i st''
            (.idempotencyKey (.complete ⟨userId, scope, key⟩ result.1)) :=
          ⟨nofun, trivial, hmine, r, hr, hrid, by rw [hcurrency, hterms, hasked]⟩
        exact Obeys.await_bind (P := replayProtocol requests drawer) hcomplete
          (fun _ _ => show Answered requests drawer i st'' (.ok result.2) from
            Executed.answered ⟨terms, ⟨howns.drawn, r, hr, hrid, hterms⟩, hasked, hid, hdescribes⟩)
          fun _ _ _ e => by cases e

theorem InitiateRequest.program_obeys (hst : st.draft = .blank) :
    (replayProtocol requests drawer).Obeys i (Answered requests drawer i) (requests i).program st := by
  cases hrequest : requests i with
  | internal fuel command =>
    refine run_obeys_replay (by rw [hrequest]; rfl) fuel (fun st' hst' => ?_) hst
    rw [hrequest]
    exact InitiateInternalTransferHandler.doExecute_obeys_replay fuel command hst'
  | external fuel command =>
    refine run_obeys_replay (by rw [hrequest]; rfl) fuel (fun st' hst' => ?_) hst
    rw [hrequest]
    exact InitiateExternalTransferHandler.doExecute_obeys_replay fuel command hst'

end

/-! ## The pool -/

/-- **A replay answers the request.** Over any schedule: if whoever sends a key asks for the same, then a command that
returns describes a transfer that it asked for, and the one it names is such a transfer. -/
theorem replays_answer_the_request {drawer : String → Option PId} {requests : PId → InitiateRequest}
    (hsame : SameRequest requests) (db0 : Db) (clock : Nat)
    (hnew : ∀ row ∈ db0.transfers.rows, drawer row.id = none)
    (hunused : ∀ i claim, (requests i).claim = some claim → db0.idempotencyKeys.find? claim = none)
    {c : Config Op.Res Err Store Err TransferResponseDto}
    (hr : (scheduleOf (DrawnBy drawer)).Reach ⟨.init db0 clock, fun i => (requests i).program⟩ c) (i : PId)
    (dto : TransferResponseDto) (hend : c.Ended i (.ok dto)) :
    (requests i).AnsweredBy dto ∧ (requests i).Recorded c.store.db.transfers dto.id := by
  have hinit : ReplayInv requests drawer (.init db0 clock) fun _ => .init := by
    refine ⟨⟨fun j w hw => ?_, fun j r hr => (by cases hr), fun j r hr => (by cases hr), fun row hrow j hj => ?_⟩,
      fun j w hw => ?_, fun j id hid => absurd hid List.not_mem_nil, fun j claim row hj hrow => ?_⟩
    · rw [Store.staged_init] at hw
      exact absurd hw List.not_mem_nil
    · rw [hnew row hrow] at hj
      cases hj
    · rw [Store.staged_init] at hw
      exact absurd hw List.not_mem_nil
    · have hnone : (Store.init db0 clock).db.idempotencyKeys.find? claim = none := hunused j claim hj
      rw [hnone] at hrow
      cases hrow
  have htracks : (replayProtocol requests drawer).Tracks (ReplayInv requests drawer) (Answered requests drawer)
      (⟨.init db0 clock, fun i => (requests i).program⟩ : Config Op.Res Err Store Err TransferResponseDto)
      fun _ => Replaying.init :=
    ⟨hinit, fun i => InitiateRequest.program_obeys rfl⟩
  obtain ⟨sts, hc⟩ := reach (replay_preserves hsame) htracks hr
  obtain ⟨hanswered, howned | hseen⟩ := hc.ended hend dto rfl
  · obtain ⟨terms, howns, hasked⟩ := howned
    obtain ⟨r, hdraft, hid, hterms⟩ := howns.stored
    obtain ⟨-, row, hrow, hrow_terms⟩ := hc.1.drafts.stored i r hdraft
    have hcurrency : row.currency = terms.currency := congrArg TransferTerms.currency (hrow_terms.trans hterms)
    exact ⟨hanswered, row, hid ▸ hrow, by rw [hcurrency, hrow_terms, hterms, hasked]⟩
  · exact ⟨hanswered, hc.1.seen i dto.id hseen⟩

/-! ### A key that is sent again -/

def sampleDrawer (id : String) : Option PId := if id = "t" ∨ id = "j" then some 0 else none

/-- Command 0 sends ₦50.00, the others `amount`, all under one key. -/
def sampleResends (amount : String) (i : PId) : InitiateRequest :=
  .internal 1 ⟨"user", "acc", "acc2", if i = 0 then "50.00" else amount, "rent", some "key"⟩

def sampleResendsDb : Db :=
  .of [sampleAccount, { sampleAccount with id := "acc2", accountNumber := "0123456780" }] []

/-- Command 0 is executed; then command 1 is answered. -/
def sampleResent : List (System.Move Ans Nat) :=
  System.calls 0 [Ans.ok, .ok, .ok, .ok, .ok, .ok, .ok, .ok, .uuid "t", .reference sampleReference, .ok, .ok,
    .ok, .ok, .ok,
    .ok, .ok, .uuid "j", .ok, .ok, .ok, .ok, .ok, .ok, .ok, .ok, .ok] ++
  System.calls 1 [Ans.ok, .ok, .ok]

def sampleResentDto : TransferResponseDto :=
  { id := "t", reference := sampleReference.value, type := .INTERNAL, sourceAccountId := "acc",
    destinationAccountId := some "acc2", recipientBankCode := none, recipientAccountNumber := none, amount := "50.00",
    fee := "0.00", currency := .NGN, narration := "rent", status := .SUCCESSFUL, failureReason := none }

theorem sampleResends_asked {amount : String} (currency : Currency) (i : PId)
    (h : Money.fromDecimalString amount currency = .ok ⟨5000, currency⟩) :
    (sampleResends amount i).asked currency = .ok (.of "acc" (some "acc2") none ⟨5000, currency⟩) := by
  unfold sampleResends
  by_cases hi : i = 0
  · rw [if_pos hi]
    have hfifty : Money.fromDecimalString "50.00" currency = .ok ⟨5000, currency⟩ := by cases currency <;> rfl
    exact InitiateRequest.asked_internal hfifty
  · rw [if_neg hi]
    exact InitiateRequest.asked_internal h

/-- The amount may be spelt otherwise. -/
theorem replays_answer_the_request_sample : ∃ c : Config Op.Res Err Store Err TransferResponseDto,
    c.Ended 1 (.ok sampleResentDto) ∧ (sampleResends "50.0" 1).AnsweredBy sampleResentDto ∧
      (sampleResends "50.0" 1).Recorded c.store.db.transfers "t" := by
  have hplay : ((scheduleOf (DrawnBy sampleDrawer)).play sampleResent
      ⟨.init sampleResendsDb 0, fun i => (sampleResends "50.0" i).program⟩).any fun c =>
        c.Ended 1 (.ok sampleResentDto) := by decide +kernel
  obtain ⟨c, hc, hend⟩ := System.play_seen _ hplay
  have hsame : SameRequest (sampleResends "50.0") := by
    intro i j claim _ _ currency terms hi
    have hamount : Money.fromDecimalString "50.0" currency = .ok ⟨5000, currency⟩ := by cases currency <;> rfl
    rw [sampleResends_asked currency i hamount] at hi
    rw [sampleResends_asked currency j hamount, hi]
  exact ⟨c, hend, replays_answer_the_request hsame sampleResendsDb 0 (fun row hrow => absurd hrow List.not_mem_nil)
    (fun _ _ _ => rfl) (System.reach_of_play _ hc) 1 sampleResentDto hend⟩

/-- ₦70.00 are asked for, and the response is about the ₦50.00 that the key was used for before. -/
theorem replay_of_another_amount : ∃ c : Config Op.Res Err Store Err TransferResponseDto,
    (scheduleOf (DrawnBy sampleDrawer)).Reach
      ⟨.init sampleResendsDb 0, fun i => (sampleResends "70.00" i).program⟩ c ∧
    c.Ended 1 (.ok sampleResentDto) ∧ sampleResentDto.amount = "50.00" ∧
    ¬ (sampleResends "70.00" 1).AnsweredBy sampleResentDto := by
  have hplay : ((scheduleOf (DrawnBy sampleDrawer)).play sampleResent
      ⟨.init sampleResendsDb 0, fun i => (sampleResends "70.00" i).program⟩).any fun c =>
        c.Ended 1 (.ok sampleResentDto) := by decide +kernel
  obtain ⟨c, hc, hend⟩ := System.play_seen _ hplay
  refine ⟨c, System.reach_of_play _ hc, hend, rfl, fun ⟨terms, hasked, hdescribes⟩ => ?_⟩
  have hparsed : Money.fromDecimalString "70.00" .NGN = .ok ⟨7000, .NGN⟩ := rfl
  have hseventy : (sampleResends "70.00" 1).asked .NGN = .ok (.of "acc" (some "acc2") none ⟨7000, .NGN⟩) :=
    InitiateRequest.asked_internal hparsed
  have hterms : Except.ok (.of "acc" (some "acc2") none ⟨7000, .NGN⟩) = (.ok terms : Except Err TransferTerms) :=
    hseventy.symm.trans hasked
  cases hterms
  exact absurd hdescribes.amount (by decide)

end Kudi
