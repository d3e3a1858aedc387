import KudiCore.Concurrency.LostUpdates
import KudiCore.Ledger.DoubleEntry
import KudiCore.Ledger.RunningBalance
import KudiCore.Transfers.Clearing

/-!
# What is entered in the ledger

| here | there |
| --- | --- |
| `LedgerRequest`   | every handler that moves money, and every posting on its own |
| `postingProtocol` | what the six places that call `post` hand it |

Two things are followed at once: each posting balances, and its amounts come from a transfer's. An amount is `Sized`
if it is positive, or if amounts of zero are about (`zeros`), and then nothing is said.
-/

namespace Kudi

open Interleave Protocol

/-! ## Every write -/

/-- The tables are what the writes have made of `db0`, and all writes are of one kind. -/
structure Store.Meets (db0 : Db) (W : Write → Prop) (s : Store) : Prop where
  replayed : s.db = db0.applyAll s.writes
  committed : ∀ w ∈ s.writes, W w
  staged : ∀ i, ∀ w ∈ s.staged i, W w

namespace Store.Meets

variable {db0 : Db} {W : Write → Prop} {s s' : Store} {i : PId} {a : Ans} {op : Op} {r : Except Err op.Res}

theorem init (db : Db) (clock : Nat) (W : Write → Prop) : (Store.init db clock).Meets db W :=
  ⟨rfl, fun _ h => absurd h List.not_mem_nil, fun i w h => by simp at h⟩

theorem sameRows (h : s.Meets db0 W) (hs : s.SameRows s') : s'.Meets db0 W :=
  ⟨by
    rw [hs.db, hs.writes, h.replayed], fun w hw => h.committed w (hs.writes ▸ hw), fun i w hw =>
    h.staged i w (hs.staged ▸ hw)⟩

theorem rollback (h : s.Meets db0 W) : (s.rollback i).Meets db0 W where
  replayed := h.replayed
  committed := h.committed
  staged j w hw := by
    rw [Store.staged_rollback] at hw
    split at hw
    · cases hw
    · exact h.staged j w hw

theorem commit (h : s.Meets db0 W) : (s.commit i).Meets db0 W where
  replayed := by rw [Store.db_commit, Store.writes_commit, Db.applyAll_append, h.replayed]
  committed w hw := by
    rw [Store.writes_commit, List.mem_append] at hw
    exact hw.elim (h.committed w) (h.staged i w)
  staged j w hw := by
    rw [Store.staged_commit] at hw
    split at hw
    · cases hw
    · exact h.staged j w hw

theorem write {c : Client} {w : Write} (h : s.Meets db0 W) (hw : W w) : (s.write i c w).Meets db0 W := by
  cases c with
  | prisma =>
    refine ⟨?_, fun w' hw' => ?_, h.staged⟩
    · rw [Store.db_write_prisma, Store.writes_write_prisma, Db.applyAll_append, h.replayed]
      rfl
    · rw [Store.writes_write_prisma, List.mem_append, List.mem_singleton] at hw'
      rcases hw' with hw' | rfl
      · exact h.committed w' hw'
      · exact hw
  | tx =>
    refine ⟨h.replayed, h.committed, fun j w' hw' => ?_⟩
    rw [Store.staged_write_tx] at hw'
    split at hw'
    · rw [List.mem_append, List.mem_singleton] at hw'
      rcases hw' with hw' | rfl
      · exact h.staged i w' hw'
      · exact hw
    · exact h.staged j w' hw'

/-- **A call that performs a write of the kind, if any, keeps them all of the kind.** -/
theorem step (h : s.Meets db0 W) (hop : ∀ c w, op.Performs c w → W w) (hx : exec i a op s = some (r, s')) :
    s'.Meets db0 W := by
  by_cases ht : ∃ q, op = .transaction q
  · obtain ⟨q, rfl⟩ := ht
    rcases r with e | x
    · rcases exec_error hx with hs | ⟨-, rfl⟩
      · exact h.sameRows hs
      · exact h.rollback
    · cases q with
      | begin =>
        obtain ⟨hnone, rfl⟩ := exec_begin hx
        refine ⟨h.replayed, h.committed, fun j w hw => h.staged j w ?_⟩
        rwa [Store.staged_begin hnone] at hw
      | commit =>
        obtain rfl := exec_commit hx
        exact h.commit
      | rollback =>
        obtain rfl := exec_rollback hx
        exact h.rollback
  · rcases exec_performs (fun q e => ht ⟨q, e⟩) hx with hs | ⟨c, w, rfl, hw⟩
    · exact h.sameRows hs
    · exact h.write (hop c w hw)

end Store.Meets

/-- A transfer's row is one of those at the beginning, or has been written. -/
theorem Db.applyAll_transfers : ∀ (ws : List Write) (db : Db) {row : TransferRecord}, row ∈
    (db.applyAll ws).transfers.rows →
    row ∈ db.transfers.rows ∨ ∃ w ∈ ws, w.transfer? = some row
  | [], _, _, h => .inl h
  | w :: ws, db, row, h => by
    rcases applyAll_transfers ws (db.apply w) h with h | ⟨w', hw', h⟩
    · cases hw : w.transfer? with
      | none =>
        rw [Db.apply_transfers_of_none hw] at h
        exact .inl h
      | some data =>
        cases w with
        | transfer d =>
          cases hw
          rcases (Table.mem_put _ _ _).1 h with rfl | ⟨h, -⟩
          · exact .inr ⟨_, List.mem_cons_self, rfl⟩
          · exact .inl h
        | _ => cases hw
    · exact .inr ⟨w', List.mem_cons_of_mem _ hw', h⟩

/-! ## The protocol -/

/-- A positive amount, unless amounts of zero are about. -/
def Sized (zeros : Prop) (n : Int) : Prop := 0 < n ∨ zeros

structure EntersSoundly (zeros : Prop) (rows : List LedgerEntryRecord) : Prop where
  nets : NetsToZero rows
  sized : ∀ row ∈ rows, Sized zeros row.amountMinorUnits

def postingProtocol (zeros : Prop) : Protocol Op.Res Err where
  State := Unit
  ok _ _ op := match op with
    | .ledgerEntry _ (.createMany data) => ∀ n, EntersSoundly zeros (data.map fun d => { d with createdAt := n })
    | .transfer _ (.create data) | .transfer _ (.updateMany _ data) => Sized zeros data.amountMinorUnits
    | _ => True
  yields _ _ op r := match op, r with
    | .transfer _ (.findUnique _), .ok found | .transfer _ (.findFirst _), .ok found =>
      ∀ row, found = some row → Sized zeros row.amountMinorUnits
    | _, _ => True
  next _ _ _ _ := ()

/-- What may be written. -/
structure SoundWrite (zeros : Prop) (w : Write) : Prop where
  rows : EntersSoundly zeros w.ledgerRows
  transfer : ∀ data, w.transfer? = some data → Sized zeros data.amountMinorUnits

theorem EntersSoundly.nil {zeros : Prop} : EntersSoundly zeros [] := ⟨.nil, fun _ h => absurd h List.not_mem_nil⟩

structure PostingInv (zeros : Prop) (db0 : Db) (s : Store) : Prop where
  writes : s.Meets db0 (SoundWrite zeros)
  transfers : ∀ row ∈ db0.transfers.rows, Sized zeros row.amountMinorUnits

section
variable {zeros : Prop} {db0 : Db} {s s' : Store} {i : PId} {a : Ans} {op : Op} {r : Except Err op.Res}

theorem soundWrite_of_ok {c : Client} {w : Write} (hok : (postingProtocol zeros).ok i () op) (hp : op.Performs c w) :
    SoundWrite zeros w := by
  cases op with
  | account c' q =>
    cases q <;> first
      | exact hp.elim
      | (obtain ⟨-, rfl⟩ := hp
         exact ⟨.nil, fun _ h => by cases h⟩)
  | transfer c' q =>
    cases q <;> first
      | exact hp.elim
      | (obtain ⟨-, rfl⟩ := hp
         refine ⟨.nil, fun _ h => ?_⟩
         cases h
         exact hok)
  | ledgerEntry c' q =>
    cases q with
    | findFirst id => exact hp.elim
    | createMany data =>
      obtain ⟨-, n, rfl⟩ := hp
      exact ⟨hok n, fun _ h => by cases h⟩
  | idempotencyKey q =>
    obtain ⟨-, -, ht, hl⟩ := hp
    exact ⟨hl ▸ .nil, fun _ h => by rw [ht] at h; cases h⟩
  | _ => exact hp.elim

/-- The transfers in sight are sized. -/
theorem PostingInv.view (h : PostingInv zeros db0 s) {c : Client} {db : Db} (hv : s.view i c = some db)
    {row : TransferRecord} (hrow : row ∈ db.transfers.rows) : Sized zeros row.amountMinorUnits := by
  have hseen : ∃ ws, db = db0.applyAll ws ∧ ∀ w ∈ ws, SoundWrite zeros w := by
    cases c with
    | prisma =>
      cases hv
      exact ⟨s.writes, h.writes.replayed, h.writes.committed⟩
    | tx =>
      refine ⟨s.writes ++ s.staged i, ?_, fun w hw => (List.mem_append.1 hw).elim (h.writes.committed w)
        (h.writes.staged i w)⟩
      rw [Store.view_tx hv, Db.applyAll_append, h.writes.replayed]
  obtain ⟨ws, rfl, hws⟩ := hseen
  rcases Db.applyAll_transfers ws db0 hrow with hrow | ⟨w, hw, hrow⟩
  · exact h.transfers row hrow
  · exact (hws w hw).transfer row hrow

theorem posting_preserves (zeros : Prop) (db0 : Db) :
    (postingProtocol zeros).Preserves anySchedule fun s _ => PostingInv zeros db0 s where
  call {s sts i a op r s'} h hok _ hx := by
    refine ⟨?_, h.writes.step (fun c w hp => soundWrite_of_ok (i := i) hok hp) hx, h.transfers⟩
    cases op with
    | transfer c q =>
      cases q with
      | findUnique id =>
        rcases r with e | found
        · trivial
        · obtain ⟨db, hv, rfl, -⟩ := exec_transfer_find hx
          exact fun row hrow => h.view hv (Table.mem_of_find? hrow)
      | findFirst ref =>
        rcases r with e | found
        · trivial
        · obtain ⟨db, hv, rfl, -⟩ := exec_transfer_findFirst hx
          exact fun row hrow => h.view hv (List.mem_of_find?_eq_some hrow)
      | _ => rcases r with e | x <;> trivial
    | _ => rcases r with e | x <;> trivial
  act ms h := ⟨h.writes.sameRows ⟨rfl, rfl, rfl⟩, h.transfers⟩

end

/-! ## The legs -/

section
variable {zeros : Prop}

theorem Sized.add {amount fee total : Money} (h : Sized zeros amount.minorUnits) (hadd : amount.add fee = .ok total) :
    Sized zeros total.minorUnits := by
  obtain ⟨-, rfl⟩ := Money.add_ok.1 hadd
  refine h.imp_left fun hpos => ?_
  push_cast
  omega

/-- The amounts of all legs. -/
def SizedLegs (zeros : Prop) (legs : List LedgerPostingLeg) : Prop :=
  ∀ leg ∈ legs, Sized zeros leg.amount.minorUnits

/-- `if (!fee.isZero())`. -/
theorem feeLegs_sized (fee : Money) : SizedLegs zeros (feeLegs fee) := by
  intro leg hleg
  unfold feeLegs at hleg
  split at hleg
  · cases hleg
  · rename_i hfee
    rw [List.mem_singleton] at hleg
    subst hleg
    rw [Money.isZero, beq_iff_eq] at hfee
    exact .inl (by exact_mod_cast Nat.pos_of_ne_zero hfee)

theorem twoLegs_sized {first second : LedgerPostingLeg} (h : Sized zeros first.amount.minorUnits)
    (h' : Sized zeros second.amount.minorUnits) : SizedLegs zeros [first, second] := by
  intro leg hleg
  rcases List.mem_cons.1 hleg with rfl | hleg
  · exact h
  · rw [List.mem_singleton] at hleg
    exact hleg ▸ h'

theorem SizedLegs.append {legs legs' : List LedgerPostingLeg} (h : SizedLegs zeros legs) (h' : SizedLegs zeros legs') :
    SizedLegs zeros (legs ++ legs') := fun leg hleg => (List.mem_append.1 hleg).elim (h leg) (h' leg)

theorem holdLegs_sized {total : Money} (h : Sized zeros total.minorUnits) (account : String) (balance : Money) :
    SizedLegs zeros (holdLegs account balance total) := twoLegs_sized h h

theorem reversalLegs_sized {total : Money} (h : Sized zeros total.minorUnits) (account : String) (balance : Money) :
    SizedLegs zeros (reversalLegs account balance total) := twoLegs_sized h h

theorem settlementLegs_sized {total amount : Money} (h : Sized zeros total.minorUnits)
    (h' : Sized zeros amount.minorUnits)
    (fee : Money) : SizedLegs zeros (settlementLegs total amount fee) := (twoLegs_sized h h').append (feeLegs_sized fee)

theorem internalLegs_sized {total amount : Money} (h : Sized zeros total.minorUnits)
    (h' : Sized zeros amount.minorUnits)
    (source destination : String) (balance balance' fee : Money) :
    SizedLegs zeros (internalLegs source balance destination balance' total amount fee) :=
  (twoLegs_sized h h').append (feeLegs_sized fee)

end

/-! ## The programs obey -/

section
variable {zeros : Prop} {i : PId} {ε α β : Type}

/-- `p` enters sound postings only, and ends in `Q`. -/
abbrev Posts (zeros : Prop) (i : PId) (p : Program ε α) (Q : Except ε α → Prop) : Prop :=
  (postingProtocol zeros).Obeys i (fun _ x => Q x) p ()

def EntersNothing : Op → Prop
  | .transfer _ (.create _) | .transfer _ (.updateMany ..) | .ledgerEntry _ (.createMany _) => False
  | _ => True

theorem entersNothing_quiet {op : Op} (h : EntersNothing op) : (postingProtocol zeros).Quiet i op := by
  refine fun st => ⟨?_, fun _ => rfl⟩
  cases op with
  | transfer c q => cases q <;> trivial
  | ledgerEntry c q => cases q <;> trivial
  | _ => trivial

theorem Posts.aside {p : Program ε α} {Q : α → Prop} (hp : p.Calls EntersNothing) (hr : p.Returns Q) :
    Posts zeros i p fun x => ∀ a, x = .ok a → Q a :=
  (Obeys.quiet (P := postingProtocol zeros) (hp.mono fun _ => entersNothing_quiet) hr ()).mono fun _ _ h => h.2

theorem Posts.of_calls {p : Program ε α} (hp : p.Calls EntersNothing) : Posts zeros i p fun _ => True :=
  (Posts.aside hp p.returns_true).mono fun _ _ _ => trivial

theorem Posts.bind {p : Program ε α} {f : α → Program ε β} {R : Except ε α → Prop}
    {Q : Except ε β → Prop}
    (hp : Posts zeros i p R) (hf : ∀ a, R (.ok a) → Posts zeros i (f a) Q)
    (he : ∀ e, R (.error e) → Q (.error e)) :
    Posts zeros i (p >>= f) Q :=
  Obeys.bind (P := postingProtocol zeros) hp (fun _ a h => hf a h) fun _ e h => he e h

theorem Posts.aside_bind {p : Program ε α} {f : α → Program ε β} {Q : Except ε β → Prop}
    (hp : p.Calls EntersNothing)
    (hf : ∀ a, Posts zeros i (f a) Q) (he : ∀ e, Q (.error e)) : Posts zeros i (p >>= f) Q :=
  (Posts.of_calls hp).bind (fun a _ => hf a) fun e _ => he e

theorem Posts.ofExcept_bind {x : Except ε α} {f : α → Program ε β} {Q : Except ε β → Prop}
    (hf : ∀ a, x = .ok a → Posts zeros i (f a) Q) (he : ∀ e, Q (.error e)) :
    Posts zeros i (Prog.ofExcept x >>= f) Q :=
  Obeys.ofExcept_bind (P := postingProtocol zeros) hf fun e _ => he e

theorem Posts.tryCatch {ε' : Type} {p : Program ε α} {h : ε → Program ε' α} {R : Except ε α → Prop}
    {Q : Except ε' α → Prop} (hp : Posts zeros i p R) (hok : ∀ a, R (.ok a) → Q (.ok a))
    (hh : ∀ e, R (.error e) → Posts zeros i (h e) Q) : Posts zeros i (p.tryCatch h) Q :=
  Obeys.tryCatch (P := postingProtocol zeros) hp (fun _ a h => hok a h) fun _ e h => hh e h

/-- **A posting**: what gets as far as being written balances. -/
theorem PrismaLedgerRecorderService.post_posts {posting : LedgerPosting} (h : SizedLegs zeros posting.legs)
    (client : Client) :
    Posts zeros i (post posting client) fun _ => True := by
  refine .ofExcept_bind (fun _ hbalanced => ?_) fun _ => trivial
  refine .aside_bind (.await trivial) (fun u => ?_) fun _ => trivial
  refine Posts.bind (Posts.aside (rows_calls (fun _ => trivial) _) (rows_returns _)) (fun data hdata => ?_)
    fun _ _ => trivial
  refine Obeys.await (P := postingProtocol zeros) (fun n => ⟨?_, fun row hrow => ?_⟩) fun _ _ => trivial
  · exact (hdata data rfl).netsToZero ((assertBalanced_iff posting).1 hbalanced) n
  · obtain ⟨d, hd, rfl⟩ := List.mem_map.1 hrow
    obtain ⟨leg, hleg, hamount⟩ := (hdata data rfl).leg hd
    show Sized zeros d.amountMinorUnits
    rw [hamount]
    exact h leg hleg

theorem Posts.during_bind {σ : Type} {a : σ} {p : Handler α} {f : α → Program (Err × σ) β}
    {Q : Except (Err × σ) β → Prop} (hp : Posts zeros i p fun _ => True) (hf : ∀ b, Posts zeros i (f b) Q)
    (he : ∀ e, Q (.error (e, a))) : Posts zeros i (during a p >>= f) Q := by
  refine Posts.bind (R := fun x => ∀ e, x = .error e → e.2 = a) (Posts.tryCatch hp (fun _ _ => nofun) fun e _ => ?_)
    (fun b _ => hf b) fun e h => ?_
  · intro e' he'
    cases he'
    rfl
  · obtain ⟨error, t⟩ := e
    obtain rfl : t = a := h _ rfl
    exact he error

theorem Posts.during_ofExcept_bind {σ : Type} {a : σ} {x : Except Err α} {f : α → Program (Err × σ) β}
    {Q : Except (Err × σ) β → Prop} (hf : ∀ b, x = .ok b → Posts zeros i (f b) Q)
    (he : ∀ e, Q (.error (e, a))) :
    Posts zeros i (during a (Prog.ofExcept x) >>= f) Q := by
  cases x with
  | ok b => exact hf b rfl
  | error e => exact he e

theorem transaction_posts {onBegin : Err → ε} {onCommit : α → Err → ε} {body : Program ε α}
    {Q : Except ε α → Prop}
    (hbody : Posts zeros i body Q) (hbegin : ∀ e, Q (.error (onBegin e)))
    (hcommit : ∀ a e, Q (.ok a) → Q (.error (onCommit a e))) :
    Posts zeros i (transaction onBegin onCommit body) Q := by
  have statement : ∀ (q : TransactionCall), Posts zeros i (Prog.await (Op.transaction q) : Handler Unit)
    fun _ => True :=
    fun q => Posts.of_calls (.await trivial)
  refine Posts.bind (R := fun x => ∀ e, x = .error e → ∃ e', e = onBegin e')
    (Posts.tryCatch (statement .begin) (fun _ _ => nofun) fun e _ e' he' => ?_) (fun _ _ => ?_) fun e h => ?_
  · cases he'
    exact ⟨e, rfl⟩
  · refine Posts.bind (R := Q) (Posts.tryCatch hbody (fun _ h => h) fun e he => ?_) (fun a ha => ?_) fun _ h => h
    · exact Posts.bind (R := fun x => ∀ e, x = .error e → ∃ e', e = onBegin e')
        (Posts.tryCatch (statement .rollback) (fun _ _ => nofun) fun e _ e' he' => by cases he'; exact ⟨e, rfl⟩)
        (fun _ _ => he) fun e' h => by obtain ⟨e'', rfl⟩ := h e' rfl; exact hbegin e''
    · exact Posts.bind (R := fun x => ∀ e, x = .error e → ∃ e', e = onCommit a e')
        (Posts.tryCatch (statement .commit) (fun _ _ => nofun) fun e _ e' he' => by cases he'; exact ⟨e, rfl⟩)
        (fun _ _ => ha) fun e' h => by obtain ⟨e'', rfl⟩ := h e' rfl; exact hcommit a e'' ha
  · obtain ⟨e', rfl⟩ := h e rfl
    exact hbegin e'

/-! ### Transfers -/

namespace Transfer
variable {t t' : Transfer}

theorem markSuccessful_amount (h : t.markSuccessful = .ok t') : t'.amount = t.amount := by
  unfold markSuccessful at h
  cases ha : t.assertNotTerminal "mark as successful" <;> rw [ha] at h <;> cases h
  rfl

theorem markReversed_amount {reason : String} (h : t.markReversed reason = .ok t') : t'.amount = t.amount := by
  unfold markReversed at h
  cases ha : t.assertNotTerminal "mark as reversed" <;> rw [ha] at h <;> cases h
  rfl

theorem markFailed_amount {reason : String} (h : t.markFailed reason = .ok t') : t'.amount = t.amount := by
  unfold markFailed at h
  cases ha : t.assertNotTerminal "mark as failed" <;> rw [ha] at h <;> cases h
  rfl

theorem markProcessing_amount {providerReference : String} (h : t.markProcessing providerReference = .ok t') :
    t'.amount = t.amount := by
  unfold markProcessing at h
  cases ha : t.assertNotTerminal "mark as processing" <;> rw [ha] at h <;> cases h
  show (if providerReference = "" then _ else _ : Transfer).amount = _
  split <;> rfl

end Transfer

/-- A transfer whose amount is sized. -/
def SizedTransfer (zeros : Prop) (t : Transfer) : Prop := Sized zeros t.amount.minorUnits

/-- Whichever way a block ends, the transfer it ends with. -/
def Carries (zeros : Prop) : Except (Err × Transfer) Transfer → Prop
  | .ok t => SizedTransfer zeros t
  | .error e => SizedTransfer zeros e.2

section
variable {t : Transfer}

theorem save_posts (h : SizedTransfer zeros t) : Posts zeros i (PrismaTransferRepository.save t) fun _ => True := by
  unfold PrismaTransferRepository.save
  dsimp only
  split
  · exact Obeys.await (P := postingProtocol zeros) h fun _ _ => trivial
  · refine Obeys.await_bind (P := postingProtocol zeros) h (fun count _ => ?_) fun _ _ => trivial
    split
    · refine Obeys.await_bind (P := postingProtocol zeros) trivial (fun existing _ => ?_) fun _ _ => trivial
      cases existing with
      | none => exact Obeys.await (P := postingProtocol zeros) h fun _ _ => trivial
      | some row => trivial
    · trivial

theorem postTransferJournal_posts {legs : List LedgerPostingLeg} (h : SizedLegs zeros legs) (narration : String) :
    Posts zeros i (postTransferJournal t narration legs) fun _ => True :=
  PrismaLedgerRecorderService.post_posts h .prisma

theorem publishAll_posts (events : List DomainEvent) : Posts zeros i (publishAll events) fun _ => True :=
  .of_calls (publishAll_calls (fun _ => trivial) events)

theorem saveAccount_posts (account : Account) : Posts zeros i (PrismaAccountRepository.save account) fun _ => True :=
  .of_calls (PrismaAccountRepository.save_calls (fun _ => trivial) account)

theorem compensate_posts {totalDebit : Except Err Money}
    (h : ∀ total, totalDebit = .ok total → Sized zeros total.minorUnits)
    (narration : String) : Posts zeros i (compensate t totalDebit narration) fun _ => True := by
  refine .aside_bind (PrismaAccountRepository.findById_calls (fun _ => trivial) _) (fun account => ?_) fun _ => trivial
  cases account with
  | none => trivial
  | some account =>
    refine .ofExcept_bind (fun total htotal => ?_) fun _ => trivial
    refine .ofExcept_bind (fun credited _ => ?_) fun _ => trivial
    refine Posts.bind (saveAccount_posts credited) (fun _ _ => ?_) fun _ _ => trivial
    exact Posts.bind (postTransferJournal_posts (reversalLegs_sized (h total htotal) _ _) narration)
      (fun _ _ => trivial)
      fun _ _ => trivial

/-- The stored transfer that a webhook is about. -/
theorem findByProviderReference_posts (providerReference : String) :
    Posts zeros i (PrismaTransferRepository.findByProviderReference providerReference)
      fun x => ∀ t, x = .ok (some t) → SizedTransfer zeros t := by
  refine Obeys.await_bind (P := postingProtocol zeros) trivial (fun found hfound => ?_) fun _ _ _ h => by cases h
  cases found with
  | none => exact fun _ h => by cases h
  | some row =>
    have hrow : Sized zeros row.amountMinorUnits := hfound row rfl
    refine Posts.ofExcept_bind (x := TransferMapper.toDomain row) (fun t ht => ?_) fun _ _ h => by cases h
    intro t' ht'
    cases ht'
    obtain ⟨hamount, -⟩ := TransferMapper.toDomain_amounts ht
    show Sized zeros (t.amount.minorUnits : Int)
    rw [hamount]
    exact hrow

end

/-! ### External transfers -/

theorem ConfirmExternalTransferHandler.execute_posts (command : ConfirmExternalTransferCommand) :
    Posts zeros i (execute command) fun _ => True := by
  refine Posts.bind (findByProviderReference_posts _) (fun found hfound => ?_) fun _ _ => trivial
  cases found with
  | none => trivial
  | some t =>
    have ht : SizedTransfer zeros t := hfound t rfl
    dsimp only
    split
    · trivial
    split
    · refine .ofExcept_bind (fun settled hsettled => ?_) fun _ => trivial
      have hsized : SizedTransfer zeros settled := by
        rw [SizedTransfer, Transfer.markSuccessful_amount hsettled]
        exact ht
      refine Posts.bind (save_posts hsized) (fun _ _ => ?_) fun _ _ => trivial
      refine .ofExcept_bind (fun total htotal => ?_) fun _ => trivial
      exact Posts.bind (postTransferJournal_posts (settlementLegs_sized (hsized.add htotal) hsized _) _)
        (fun _ _ => publishAll_posts _) fun _ _ => trivial
    · refine Posts.bind (compensate_posts (fun total htotal => ht.add htotal) _) (fun events _ => ?_)
        fun _ _ => trivial
      refine .ofExcept_bind (fun reversed hreversed => ?_) fun _ => trivial
      have hsized : SizedTransfer zeros reversed := by
        rw [SizedTransfer, Transfer.markReversed_amount hreversed]
        exact ht
      exact Posts.bind (save_posts hsized) (fun _ _ => publishAll_posts _) fun _ _ => trivial

/-- What a command asks for is not zero, unless zeros are about. -/
def AsksFor (zeros : Prop) (amount : String) : Prop :=
  ∀ currency m, Money.fromDecimalString amount currency = .ok m → Sized zeros m.minorUnits

namespace InitiateExternalTransferHandler

/-- The amount that is held, and the total. -/
def SizedHold (zeros : Prop) (held : Account × ExternalRecipient × Money × Money × Money) : Prop :=
  Sized zeros held.2.2.1.minorUnits ∧ Sized zeros held.2.2.2.2.minorUnits

theorem hold_sized {command : InitiateExternalTransferCommand} (h : AsksFor zeros command.amount) :
    (hold command).Returns (SizedHold zeros) := by
  refine .bind (Prog.returns_true _) fun account _ => ?_
  cases account with
  | none => trivial
  | some account =>
    dsimp only
    split
    · trivial
    refine .bind (.ofExcept fun amount hamount => h _ _ hamount) fun amount hamount => ?_
    refine .bind (Prog.returns_true _) fun _ _ => .bind (Prog.returns_true _) fun fee _ => ?_
    refine .bind (.ofExcept fun total htotal => hamount.add htotal) fun total htotal => ?_
    exact .bind (Prog.returns_true _) fun _ _ => .bind (Prog.returns_true _) fun _ _ =>
      .bind (Prog.returns_true _) fun _ _ => ⟨hamount, htotal⟩

theorem record_posts (command : InitiateExternalTransferCommand) (sourceAccount : Account)
    (recipient : ExternalRecipient)
    {amount totalDebit : Money} (fee : Money) (h : Sized zeros amount.minorUnits)
    (h' : Sized zeros totalDebit.minorUnits) :
    Posts zeros i (record command sourceAccount recipient amount fee totalDebit)
      fun x => ∀ t, x = .ok t → SizedTransfer zeros t := by
  refine Posts.bind (Posts.aside (draw_calls trivial trivial trivial _) (draw_returns _)) (fun t ht => ?_)
    fun _ _ _ h => by cases h
  obtain ⟨now, reference, id, rfl⟩ := ht t rfl
  refine Posts.bind (save_posts h) (fun _ _ => ?_) fun _ _ _ h => by cases h
  refine Posts.bind (postTransferJournal_posts (holdLegs_sized h' _ _) _) (fun _ _ => ?_) fun _ _ _ h => by cases h
  intro t ht
  cases ht
  exact h

theorem markAccepted_posts (command : InitiateExternalTransferCommand) {totalDebit : Money} {t : Transfer}
    (ht : SizedTransfer zeros t) (h : Sized zeros totalDebit.minorUnits) (payoutResult : PayoutInitiationResult) :
    Posts zeros i (markAccepted command totalDebit t payoutResult) (Carries zeros) := by
  unfold markAccepted
  split
  · refine .during_ofExcept_bind (fun settled hmark => ?_) fun _ => ht
    have hsettled : SizedTransfer zeros settled := by
      rw [SizedTransfer, Transfer.markSuccessful_amount hmark]
      exact ht
    exact .during_bind (postTransferJournal_posts (settlementLegs_sized h ht _) _) (fun _ => hsettled) fun _ => hsettled
  · cases hmark : t.markProcessing payoutResult.providerReference with
    | error e => exact ht
    | ok t' =>
      show SizedTransfer zeros t'
      rw [SizedTransfer, Transfer.markProcessing_amount hmark]
      exact ht

theorem payOut_posts (command : InitiateExternalTransferCommand) (recipient : ExternalRecipient) {totalDebit : Money}
    (events : List DomainEvent) {t : Transfer} (ht : SizedTransfer zeros t) (h : Sized zeros totalDebit.minorUnits) :
    Posts zeros i (payOut command recipient totalDebit events t) fun _ => True := by
  refine Posts.tryCatch (R := Carries zeros) ?_ (fun _ _ => trivial) fun thrown hthrown => ?_
  · refine .during_bind (.of_calls (FlutterwavePayoutProvider.initiatePayout_calls (fun _ => trivial) _ _ _ _))
      (fun payoutResult => ?_) fun _ => ht
    refine Posts.bind (markAccepted_posts command ht h payoutResult) (fun marked hmarked => ?_) fun _ h => h
    refine .during_bind (save_posts hmarked) (fun _ => ?_) fun _ => hmarked
    exact .during_bind (publishAll_posts _) (fun _ => hmarked) fun _ => hmarked
  · refine Posts.bind (compensate_posts (fun total htotal => by cases htotal; exact h) _) (fun _ _ => ?_)
      fun _ _ => trivial
    refine .ofExcept_bind (fun reversed hreversed => ?_) fun _ => trivial
    have hsized : SizedTransfer zeros reversed := by
      rw [SizedTransfer, Transfer.markReversed_amount hreversed]
      exact hthrown
    exact Posts.bind (save_posts hsized) (fun _ _ => Posts.bind (publishAll_posts _) (fun _ _ => trivial)
      fun _ _ => trivial)
      fun _ _ => trivial

theorem doExecute_posts {command : InitiateExternalTransferCommand} (h : AsksFor zeros command.amount) :
    Posts zeros i (doExecute command) fun _ => True := by
  have hhold : (hold command).Calls EntersNothing :=
    hold_calls (fun _ => trivial) (fun _ => trivial) trivial (fun _ _ _ => trivial) command
  refine Posts.bind (Posts.aside hhold (hold_sized h)) (fun held hheld => ?_) fun _ _ => trivial
  obtain ⟨hamount, htotal⟩ := hheld held rfl
  refine Posts.bind (record_posts command _ _ _ hamount htotal) (fun t ht => ?_) fun _ _ => trivial
  exact Posts.bind (payOut_posts command _ _ (ht t rfl) htotal) (fun _ _ => trivial) fun _ _ => trivial

end InitiateExternalTransferHandler

/-! ### Internal transfers -/

namespace PrismaInternalTransferExecutor

/-- Whichever way the transaction ends, the transfer it ends with. -/
def CarriesTransfer (zeros : Prop) : Except (Err × Transfer) (Transfer × List DomainEvent) → Prop
  | .ok result => SizedTransfer zeros result.1
  | .error e => SizedTransfer zeros e.2

theorem moveFunds_posts {params : InternalTransferParams} (h : Sized zeros params.amount.minorUnits) (t : Transfer) :
    Posts zeros i (moveFunds params t) fun _ => True := by
  have required : ∀ id, (requireRecord id).Calls EntersNothing := fun id =>
    .bind (.await trivial) fun record => by cases record <;> trivial
  refine .aside_bind (required _) (fun _ => .aside_bind (required _) (fun _ => ?_) fun _ => trivial) fun _ => trivial
  refine .ofExcept_bind (fun source _ => .ofExcept_bind (fun destination _ => ?_) fun _ => trivial) fun _ => trivial
  split
  · trivial
  refine .ofExcept_bind (fun total htotal => .ofExcept_bind (fun debited _ => ?_) fun _ => trivial) fun _ => trivial
  refine .aside_bind (MaxBalanceGuardService.assertWithinLimit_calls (fun _ => trivial) _ _) (fun _ => ?_)
    fun _ => trivial
  refine .ofExcept_bind (fun credited _ => ?_) fun _ => trivial
  refine .aside_bind (PrismaAccountRepository.update_calls (fun _ => trivial) _) (fun _ => ?_) fun _ => trivial
  refine .aside_bind (PrismaAccountRepository.update_calls (fun _ => trivial) _) (fun _ => ?_) fun _ => trivial
  exact Posts.bind (PrismaLedgerRecorderService.post_posts (internalLegs_sized (h.add htotal) h _ _ _ _ _) .tx)
    (fun _ _ => trivial) fun _ _ => trivial

theorem body_posts {params : InternalTransferParams} (h : Sized zeros params.amount.minorUnits) {t : Transfer}
    (ht : SizedTransfer zeros t) : Posts zeros i (body params t) (CarriesTransfer zeros) := by
  refine .during_bind (moveFunds_posts h t) (fun accounts => ?_) fun _ => ht
  refine .during_ofExcept_bind (fun completed hmark => ?_) fun _ => ht
  have hcompleted : SizedTransfer zeros completed := by
    rw [SizedTransfer, Transfer.markSuccessful_amount hmark]
    exact ht
  exact .during_bind (Obeys.await (P := postingProtocol zeros) hcompleted fun _ _ => trivial) (fun _ => hcompleted)
    fun _ => hcompleted

theorem execute_posts {params : InternalTransferParams} (h : Sized zeros params.amount.minorUnits) :
    Posts zeros i (execute params) fun _ => True := by
  refine Posts.bind (Posts.aside (draw_calls trivial trivial trivial _) (draw_returns _)) (fun t ht => ?_)
    fun _ _ => trivial
  obtain ⟨now, reference, id, rfl⟩ := ht t rfl
  refine Posts.bind (R := fun _ => True) (Posts.tryCatch (R := CarriesTransfer zeros)
    (transaction_posts (body_posts h h) (fun _ => h) fun _ _ hr => hr) (fun _ _ => trivial) fun thrown hthrown => ?_)
    (fun _ _ => trivial) fun _ _ => trivial
  refine .ofExcept_bind (fun failed hfailed => ?_) fun _ => trivial
  have hsized : SizedTransfer zeros failed := by
    rw [SizedTransfer, Transfer.markFailed_amount hfailed]
    exact hthrown
  exact Posts.bind (save_posts hsized) (fun _ _ => trivial) fun _ _ => trivial

end PrismaInternalTransferExecutor

theorem InitiateInternalTransferHandler.doExecute_posts {command : InitiateInternalTransferCommand}
    (h : AsksFor zeros command.amount) : Posts zeros i (doExecute command) fun _ => True := by
  unfold doExecute
  split
  · trivial
  refine .aside_bind (PrismaAccountRepository.findById_calls (fun _ => trivial) _) (fun account => ?_) fun _ => trivial
  cases account with
  | none => trivial
  | some account =>
    dsimp only
    split
    · trivial
    refine .ofExcept_bind (fun amount hamount => ?_) fun _ => trivial
    refine .aside_bind (KycTransferLimitCheckerService.assertWithinLimits_calls (fun _ => trivial) trivial
      (fun _ _ _ => trivial) _ _ _) (fun _ => ?_) fun _ => trivial
    refine .ofExcept_bind (fun fee _ => ?_) fun _ => trivial
    exact Posts.bind (PrismaInternalTransferExecutor.execute_posts (h _ _ hamount))
      (fun _ _ => Posts.bind (publishAll_posts _) (fun _ _ => trivial) fun _ _ => trivial) fun _ _ => trivial

theorem run_posts {o : Operation α} (he : Posts zeros i o.execute fun _ => True)
    (hr : ∀ resourceId, (o.rehydrate resourceId).Calls EntersNothing) (userId scope : String) (key : Option String)
    (fuel : Nat) : Posts zeros i (IdempotencyGuardService.run userId scope key fuel o) fun _ => True :=
  IdempotencyGuardService.run_obeys_of (P := postingProtocol zeros) (K := fun _ => True)
    (fun _ => entersNothing_quiet trivial) (entersNothing_quiet trivial) (fun _ => entersNothing_quiet trivial) trivial
    he (fun resourceId => Posts.of_calls (hr resourceId)) userId scope key fuel

/-! ### All of them -/

theorem mutateAccount_posts {mutate : Account → Handler Account}
    (h : ∀ account, (mutate account).Calls EntersNothing)
    (id : String) : Posts zeros i (forget (mutateAccount id mutate)) fun _ => True := by
  refine .of_calls (.bind (.bind (PrismaAccountRepository.findById_calls (fun _ => trivial) _)
    fun account => ?_) fun _ => trivial)
  cases account with
  | none => trivial
  | some account =>
    exact .bind (h account) fun saved => .bind (PrismaAccountRepository.save_calls (fun _ => trivial) saved) fun _ =>
      .bind (publishAll_calls (fun _ => trivial) _) fun _ => trivial

/-- What a request says of its amount. -/
def Request.Asks (zeros : Prop) : Request → Prop
  | .internalExecution params => Sized zeros params.amount.minorUnits
  | .internalTransfer _ command => AsksFor zeros command.amount
  | .externalTransfer _ command => AsksFor zeros command.amount
  | _ => True

theorem Request.posts {request : Request} (h : request.Asks zeros) : Posts zeros i request.program fun _ => True := by
  have forget_posts : ∀ {γ : Type} {p : Handler γ}, Posts zeros i p (fun _ => True) →
      Posts zeros i (forget p) fun _ => True := fun hp => Posts.bind hp (fun _ _ => trivial) fun _ _ => trivial
  have mutate_posts : ∀ (f : Account → Account) (id : String),
      Posts zeros i (forget (mutateAccount id fun account => return f account)) fun _ => True := fun f id =>
    have hreturn : ∀ account, (return f account : Handler Account).Calls EntersNothing := fun _ => trivial
    mutateAccount_posts hreturn id
  cases request with
  | credit command =>
    exact mutateAccount_posts (fun _ => .bind (.ofExcept _) fun _ => .bind
      (MaxBalanceGuardService.assertWithinLimit_calls (fun _ => trivial) _ _) fun _ => .ofExcept _) _
  | debit command => exact mutateAccount_posts (fun _ => .bind (.ofExcept _) fun _ => .ofExcept _) _
  | freeze command => exact mutate_posts _ _
  | unfreeze command => exact mutate_posts _ _
  | close command => exact mutateAccount_posts (fun _ => .ofExcept _) _
  | activate command => exact mutate_posts _ _
  | internalExecution params => exact forget_posts (PrismaInternalTransferExecutor.execute_posts h)
  | internalTransfer fuel command =>
    exact forget_posts (run_posts (InitiateInternalTransferHandler.doExecute_posts h)
      (fun _ => rehydrateTransfer_calls (fun _ => trivial) _) _ _ _ _)
  | externalTransfer fuel command =>
    exact forget_posts (run_posts (InitiateExternalTransferHandler.doExecute_posts h)
      (fun _ => rehydrateTransfer_calls (fun _ => trivial) _) _ _ _ _)
  | externalConfirmation command => exact ConfirmExternalTransferHandler.execute_posts command

/-- A handler, or a posting of any legs. -/
inductive LedgerRequest where
  | handler (request : Request)
  | posting (request : PostRequest)

namespace LedgerRequest

def program : LedgerRequest → Handler Unit
  | .handler request => request.program
  | .posting request => request.program

def Asks (zeros : Prop) : LedgerRequest → Prop
  | .handler request => request.Asks zeros
  | .posting request => SizedLegs zeros request.posting.legs

theorem posts {request : LedgerRequest} (h : request.Asks zeros) : Posts zeros i request.program fun _ => True := by
  cases request with
  | handler request => exact request.posts h
  | posting request =>
    cases request with
    | own posting => exact PrismaLedgerRecorderService.post_posts h .prisma
    | inTransaction posting =>
      exact transaction_posts (PrismaLedgerRecorderService.post_posts h .tx) (fun _ => trivial) fun _ _ _ => trivial

end LedgerRequest

end

/-! ## Every schedule -/

/-- **Every row that is ever written belongs to a sound posting.** -/
theorem entries_sound {zeros : Prop} {requests : PId → LedgerRequest} {db0 : Db} {clock : Nat}
    (hasks : ∀ i, (requests i).Asks zeros) (h0 : ∀ row ∈ db0.transfers.rows, Sized zeros row.amountMinorUnits)
    {c : Config Op.Res Err Store Err Unit}
    (hr : anySchedule.Reach ⟨.init db0 clock, fun i => (requests i).program⟩ c) :
    ∃ entries, c.store.db.ledgerEntries = db0.ledgerEntries ++ entries ∧ EntersSoundly zeros entries := by
  have htracks : (postingProtocol zeros).Tracks (fun s _ => PostingInv zeros db0 s) (fun _ _ _ => True)
      (⟨.init db0 clock, fun i => (requests i).program⟩ : Config Op.Res Err Store Err Unit) fun _ => () :=
    ⟨⟨.init db0 clock _, h0⟩, fun i => LedgerRequest.posts (hasks i)⟩
  obtain ⟨sts, hinv, -⟩ := reach (posting_preserves zeros db0) htracks hr
  refine ⟨c.store.writes.flatMap Write.ledgerRows, ?_, ?_⟩
  · rw [← Db.applyAll_ledgerEntries, ← hinv.writes.replayed]
  · have hsound : ∀ ws : List Write, (∀ w ∈ ws, SoundWrite zeros w) →
      EntersSoundly zeros (ws.flatMap Write.ledgerRows) := by
      intro ws hws
      induction ws with
      | nil => exact .nil
      | cons w ws ih =>
        have hw := (hws w List.mem_cons_self).rows
        have ih := ih fun w' hw' => hws w' (List.mem_cons_of_mem _ hw')
        rw [List.flatMap_cons]
        exact ⟨hw.nets.append ih.nets, fun row hrow => (List.mem_append.1 hrow).elim (hw.sized row) (ih.sized row)⟩
    exact hsound _ hinv.writes.committed

/-- **Double entry.** A posting throws before it writes exactly when some currency does not balance; a balanced one
enters a row for each leg, in order, under the journal id that it draws, or nothing if a call of it is refused. So
whatever handlers and postings run, in any order of their calls, each journal nets to zero in every currency, and so
does the ledger. -/
theorem journals_net_to_zero :
    (∀ posting client, PrismaLedgerRecorderService.post posting client =
        .throw (unbalancedLedgerPosting posting.reference) ↔
      ∃ currency, PrismaLedgerRecorderService.netByCurrency posting.legs currency ≠ 0) ∧
    (∀ posting client, (∀ currency, PrismaLedgerRecorderService.netByCurrency posting.legs currency = 0) →
      ∀ i s tr x s', Run anySchedule TimePasses i (PrismaLedgerRecorderService.post posting client) s tr x s' →
        (x = .ok () ∧ ∃ u data n,
          (∃ s1 s2 rest, tr = ⟨.randomUUID, .ok u, s1, s2⟩ :: rest ∧ ∀ e ∈ rest, e.op ≠ .randomUUID) ∧
          PrismaLedgerRecorderService.RowsOf posting u posting.legs data ∧
          (s.write i client (.ledgerEntries (data.map fun d => { d with createdAt := n }))).SameRows s') ∨
        ((∃ e, x = .error e) ∧ (∃ e ∈ tr, e.rejected = true) ∧ s.SameRows s')) ∧
    ∀ (requests : PId → LedgerRequest) (db0 : Db) (clock : Nat), NetsToZero db0.ledgerEntries →
      ∀ c : Config Op.Res Err Store Err Unit,
        anySchedule.Reach ⟨.init db0 clock, fun i => (requests i).program⟩ c →
          NetsToZero c.store.db.ledgerEntries := by
  refine ⟨fun _ _ => PrismaLedgerRecorderService.post_throws_iff,
    fun _ _ hnet _ _ _ _ _ h => PrismaLedgerRecorderService.post_run hnet h, fun requests db0 clock h0 c hr => ?_⟩
  have hall : ∀ n : Int, Sized True n := fun _ => .inr trivial
  have hasks : ∀ i, (requests i).Asks True := by
    intro i
    cases requests i with
    | handler request => cases request <;> first | trivial | exact hall _ | exact fun _ _ _ => hall _
    | posting request => exact fun _ _ => hall _
  obtain ⟨entries, hentries, hsound⟩ := entries_sound hasks (fun _ _ => hall _) hr
  rw [hentries]
  exact h0.append hsound.nets

/-- A fee on its own, and ₦50.00 to another bank. -/
def sampleEntering : PId → LedgerRequest
  | 0 => .posting (sampleFee "ref")
  | _ => .handler samplePayout

def sampleEntered : List (System.Move Ans Nat) :=
  System.calls 0 [Ans.uuid "f"] ++ System.calls 1 samplePayoutAnswers ++ System.calls 0 [Ans.ok, .ok]

/-- The fee is entered while the payout is on its way; two more rows are the payout's. -/
theorem journals_net_to_zero_sample :
    (∃ s' : Store, s'.db.ledgerEntries.map (·.journalId) = ["f", "f"] ∧
      ∃ u data n, PrismaLedgerRecorderService.RowsOf (sampleFee "ref").posting u
        (sampleFee "ref").posting.legs data ∧
        ((Store.init .empty 0).write 0 .prisma
          (.ledgerEntries (data.map fun d => { d with createdAt := n }))).SameRows s') ∧
    ∃ c : Config Op.Res Err Store Err Unit, c.store.db.ledgerEntries.map (·.journalId) = ["j", "j", "f", "f"] ∧
      NetsToZero c.store.db.ledgerEntries := by
  obtain ⟨-, hpost, hledger⟩ := journals_net_to_zero
  constructor
  · have hplay : (playRun anySchedule 0 [.uuid "f", .ok, .ok]
        (PrismaLedgerRecorderService.post (sampleFee "ref").posting .prisma) (.init .empty 0)).any fun r =>
          r.2.1 = .ok () ∧ r.2.2.db.ledgerEntries.map (·.journalId) = ["f", "f"] := by decide +kernel
    obtain ⟨tr, x, s', hrun, rfl, hrows⟩ := playRun_seen
      (Q := fun _ x (s : Store) => x = .ok () ∧ s.db.ledgerEntries.map (·.journalId) = ["f", "f"]) hplay
    have hat : ∀ s : Store, TimePasses s s := fun s => ⟨0, rfl⟩
    have hrun := run_of_play hat hrun
    have hbalanced : ∀ currency, PrismaLedgerRecorderService.netByCurrency
      (sampleFee "ref").posting.legs currency = 0 := by
      intro currency
      cases currency <;> decide
    rcases hpost _ .prisma hbalanced 0 _ tr _ s' hrun with ⟨-, u, data, n, -, hdata, hsame⟩ | ⟨⟨e, he⟩, -⟩
    · exact ⟨s', hrows, u, data, n, hdata, hsame⟩
    · cases he
  · have hplay : (anySchedule.play sampleEntered ⟨.init (.of [sampleAccount] []) 0,
      fun i => (sampleEntering i).program⟩).any
        fun c => c.store.db.ledgerEntries.map (·.journalId) = ["j", "j", "f", "f"] := by decide +kernel
    obtain ⟨c, hc, hrows⟩ := System.play_seen _ hplay
    exact ⟨c, hrows, hledger sampleEntering (.of [sampleAccount] []) 0 .nil c (System.reach_of_play _ hc)⟩

/-! ## Amounts of zero -/

/-- `/^\d+(\.\d{1,2})?$/` matches, and the amount is nothing. -/
def AsksForZero (amount : String) : Prop :=
  ∃ currency m, Money.fromDecimalString amount currency = .ok m ∧ m.isZero = true

def Request.AsksForZero : Request → Prop
  | .internalExecution params => params.amount.isZero = true
  | .internalTransfer _ command => Kudi.AsksForZero command.amount
  | .externalTransfer _ command => Kudi.AsksForZero command.amount
  | _ => False

theorem Request.asks_of_not_zero {request : Request} (h : ¬ request.AsksForZero) : request.Asks False := by
  have positive : ∀ m : Money, m.isZero ≠ true → Sized False m.minorUnits := fun m hm => by
    rw [Money.isZero, ne_eq, beq_iff_eq] at hm
    exact .inl (by exact_mod_cast Nat.pos_of_ne_zero hm)
  have asks : ∀ amount, ¬ Kudi.AsksForZero amount → AsksFor False amount := fun amount hzero currency m hm =>
    positive m fun hz => hzero ⟨currency, m, hm, hz⟩
  cases request with
  | internalExecution params => exact positive params.amount h
  | internalTransfer fuel command => exact asks command.amount h
  | externalTransfer fuel command => exact asks command.amount h
  | _ => trivial

/-- **Direction alone carries the sign**, as long as no transfer of nothing is asked for: whatever handlers run, in any
order of their calls, every row they enter has a positive amount. -/
theorem entries_are_positive (requests : PId → Request) (db0 : Db) (clock : Nat)
    (hzero : ∀ i, ¬ (requests i).AsksForZero) (h0 : ∀ row ∈ db0.transfers.rows, 0 < row.amountMinorUnits)
    {c : Config Op.Res Err Store Err Unit}
    (hr : anySchedule.Reach ⟨.init db0 clock, fun i => (requests i).program⟩ c) :
    ∃ entries, c.store.db.ledgerEntries = db0.ledgerEntries ++ entries ∧
      ∀ row ∈ entries, 0 < row.amountMinorUnits := by
  have hasks : ∀ i, (LedgerRequest.handler (requests i)).Asks False := fun i => Request.asks_of_not_zero (hzero i)
  obtain ⟨entries, hentries, hsound⟩ := entries_sound hasks (fun row hrow => .inl (h0 row hrow)) hr
  exact ⟨entries, hentries, fun row hrow => (hsound.sized row hrow).resolve_right id⟩

theorem entries_are_positive_sample : ∃ c : Config Op.Res Err Store Err Unit,
    c.store.db.ledgerEntries.length = 2 ∧ ∀ row ∈ c.store.db.ledgerEntries, 0 < row.amountMinorUnits := by
  have hplay : (anySchedule.play (System.calls 1 samplePayoutAnswers)
      ⟨.init (.of [sampleAccount] []) 0, fun _ => samplePayout.program⟩).any fun c =>
        c.store.db.ledgerEntries.length = 2 := by decide +kernel
  obtain ⟨c, hc, hlength⟩ := System.play_seen _ hplay
  obtain ⟨entries, hentries, hpositive⟩ := entries_are_positive (fun _ => samplePayout) (.of [sampleAccount] []) 0
    (fun _ ⟨currency, m, hm, hz⟩ => by cases currency <;> cases hm <;> cases hz) (by decide)
      (System.reach_of_play _ hc)
  refine ⟨c, hlength, ?_⟩
  rw [hentries]
  exact hpositive

/-- ₦0.00, to oneself under another number. -/
def sampleNothing : Request := .internalTransfer 0 ⟨"user", "acc", "acc2", "0.00", "nothing", none⟩

/-- The transfer is SUCCESSFUL, and both of its rows say 0. -/
theorem entries_of_zero : ∃ c : Config Op.Res Err Store Err Unit,
    anySchedule.Reach
      ⟨.init (.of [sampleAccount, { sampleAccount with id := "acc2", accountNumber := "0123456780" }] []) 0,
      fun _ => sampleNothing.program⟩ c ∧
    c.Ended 0 (.ok ()) ∧ c.store.db.ledgerEntries.map (·.amountMinorUnits) = [0, 0] ∧
    ¬ ∀ row ∈ c.store.db.ledgerEntries, 0 < row.amountMinorUnits := by
  have hplay : (anySchedule.play (System.calls 0 [.ok, .ok, .ok, .ok, .ok, .ok, .uuid "t",
    .reference sampleReference, .ok,
      .ok, .ok, .ok, .ok, .ok, .ok, .uuid "j", .ok, .ok, .ok, .ok, .ok, .ok, .ok])
      ⟨.init (.of [sampleAccount, { sampleAccount with id := "acc2", accountNumber := "0123456780" }] []) 0,
        fun _ => sampleNothing.program⟩).any fun c =>
          c.Ended 0 (.ok ()) ∧ c.store.db.ledgerEntries.map (·.amountMinorUnits) = [0, 0] := by
    decide +kernel
  obtain ⟨c, hc, hended, hrows⟩ := System.play_seen _ hplay
  refine ⟨c, System.reach_of_play _ hc, hended, hrows, fun hpositive => ?_⟩
  have hzero : (0 : Int) ∈ c.store.db.ledgerEntries.map (·.amountMinorUnits) := by simp [hrows]
  obtain ⟨row, hrow, hamount⟩ := List.mem_map.1 hzero
  exact absurd hamount (hpositive row hrow).ne'

end Kudi
