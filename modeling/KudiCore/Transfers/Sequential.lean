import KudiCore.Interleave.Triple
import KudiCore.Execution
import KudiCore.Transfers.ExternalTransfer

/-!
# Handlers, one at a time

| here | there |
| --- | --- |
| `OnlyPayoutsRefused` | nothing fails but payouts; what a constraint refuses, it refuses |
| `TimePasses`         | all that happens between two calls |

One triple for each repository and service method: which rows are there when it has returned, in terms of those that
were there before. `db` is what the method finds.
-/

namespace Kudi

open Interleave

def Op.isPayout : Op → Bool
  | .payout _ => true
  | _ => false

/-- No call is rejected by the outside world, a payout apart, and no random id is one of a stored transfer. -/
def OnlyPayoutsRefused (s : Store) (_ : PId) (a : Ans) (op : Op) : Prop :=
  match a with
  | .fail _ => op.isPayout = true
  | .uuid u => s.db.transfers.find? u = none
  | _ => True

instance (s : Store) (i : PId) (a : Ans) (op : Op) : Decidable ((scheduleOf OnlyPayoutsRefused).allow s i a op) := by
  show Decidable (OnlyPayoutsRefused s i a op)
  unfold OnlyPayoutsRefused
  split <;> infer_instance

def TimePasses (s s' : Store) : Prop := ∃ ms, s' = tick ms s

abbrev Alone (i : PId) {ε α : Type} (K : Store → Prop) (p : Program ε α) (Q : α → Store → Prop)
    (R : ε → Store → Prop) :
    Prop := Triple (scheduleOf OnlyPayoutsRefused) TimePasses i K p Q R

def At (db : Db) (s : Store) : Prop := s.db = db

/-- In its transaction, having written `ws`. -/
def InTx (i : PId) (db : Db) (ws : List Write) (s : Store) : Prop := s.db = db ∧ s.staged i = ws

/-- It says nothing about the clock and the marks. -/
def OfRows (K : Store → Prop) : Prop := ∀ {s s'}, s.SameRows s' → K s → K s'

theorem At.write {db : Db} {s : Store} (h : At db s) (i : PId) (w : Write) : At (db.apply w) (s.write i .prisma w) := by
  rw [At, Store.db_write_prisma, h]

theorem InTx.write {i : PId} {db : Db} {ws : List Write} {s : Store} (h : InTx i db ws s) (w : Write) :
    InTx i db (ws ++ [w]) (s.write i .tx w) := ⟨h.1, by rw [Store.staged_write_tx, if_pos rfl, h.2]⟩

section
variable {i : PId} {ε α β : Type} {K : Store → Prop} {db : Db} {ws : List Write}

theorem at_ofRows : OfRows (At db) := fun hs h => hs.db.trans h

theorem inTx_ofRows : OfRows (InTx i db ws) := fun hs h => ⟨hs.db.trans h.1, hs.staged.trans h.2⟩

theorem OfRows.passes (hK : OfRows K) {s s' : Store} (h : TimePasses s s') (hs : K s) : K s' := by
  obtain ⟨ms, rfl⟩ := h
  have hsame : s.SameRows (tick ms s) := ⟨rfl, rfl, rfl⟩
  exact hK hsame hs

/-- Calls that write nothing and are not refused. -/
structure Inert (op : Op) : Prop where
  reads : op.mutates = false
  unconstrained : op.constrained = false
  noPayout : op.isPayout = false

theorem not_refused {s s' : Store} {a : Ans} {op : Op} {e : Err} (hc : op.constrained = false)
    (hp : op.isPayout = false)
    (ha : OnlyPayoutsRefused s i a op) : exec i a op s ≠ some (.error e, s') := fun hx => by
  have hfail := isFail_of_error hc hx
  cases a with
  | fail e => exact absurd (show op.isPayout = true from ha) (by simp [hp])
  | _ => cases hfail

namespace Alone

theorem unfailing {p : Program ε α} {P : α → Prop} (hK : OfRows K) (hp : p.Calls Inert) (hu : p.Unfailing)
    (hr : p.Returns P) : Alone i K p (fun a s => P a ∧ K s) fun _ _ => False :=
  .of_calls_unfailing hp hu hr hK.passes fun {_ _ _ r _} h hop ha hx => by
    refine ⟨hK (exec_read hop.reads hx) h, ?_⟩
    rcases r with e | v
    · exact absurd hx (not_refused hop.unconstrained hop.noPayout ha)
    · exact ⟨v, rfl⟩

theorem reads {p : Program ε α} {P : α → Prop} (hK : OfRows K) (hp : p.Calls fun op => op.mutates = false)
    (hr : p.Returns P) : Alone i K p (fun a s => P a ∧ K s) fun _ => K :=
  .of_calls_returns hp hr hK.passes fun h hop _ hx => hK (exec_read hop hx) h

theorem reads_bind {p : Program ε α} {f : α → Program ε β} {P : α → Prop} {Q : β → Store → Prop}
    {R : ε → Store → Prop}
    (hK : OfRows K) (hp : p.Calls fun op => op.mutates = false) (hr : p.Returns P)
    (hf : ∀ a, P a → Alone i K (f a) Q R)
    (herr : ∀ e s, K s → R e s) : Alone i K (p >>= f) Q R :=
  .bind ((reads hK hp hr).mono (fun _ h => h) (fun _ _ h => h) herr) fun a => .of_and (hf a)

theorem during {σ : Type} {a : σ} {p : Handler α} {Q : α → Store → Prop} {R : Err × σ → Store → Prop}
    (hp : Alone i K p Q fun e => R (e, a)) : Alone i K (during a p) Q R := .mapError hp

end Alone

theorem publishAll_unfailing : ∀ events, (publishAll events).Unfailing
  | [] => trivial
  | _ :: events => .bind (.await _) fun _ => publishAll_unfailing events

theorem publishAll_alone (hK : OfRows K) (events : List DomainEvent) :
    Alone i K (publishAll events) (fun _ => K) fun _ _ => False :=
  (Alone.unfailing hK (publishAll_calls (T := Inert) (fun _ => ⟨rfl, rfl, rfl⟩) events)
    (publishAll_unfailing events)
    (Prog.returns_true _)).mono (fun _ h => h) (fun _ _ h => h.2) fun _ _ h => h

/-! ## Accounts -/

namespace PrismaAccountRepository

theorem findById_alone (id : String) :
    Alone i (At db) (findById id)
      (fun o s => (match o with
        | none => db.accounts.find? id = none
        | some a => ∃ row, db.accounts.find? id = some row ∧ AccountMapper.toDomain row = .ok a) ∧ At db s)
      fun _ => At db := by
  refine .bind (M := fun found s => found = db.accounts.find? id ∧ At db s)
    (.await at_ofRows.passes (fun h _ hx => ?_)
    fun h _ hx => at_ofRows (exec_read rfl hx) h) fun found => .of_and fun hfound => ?_
  · obtain ⟨db', hv, rfl, rfl⟩ := exec_account_findUnique hx
    cases hv
    exact ⟨by rw [h], h⟩
  · cases found with
    | none => exact .pure fun _ h => ⟨hfound.symm, h⟩
    | some row =>
      exact .ofExcept_bind (fun a ha => .pure fun _ h => ⟨⟨row, hfound.symm, ha⟩, h⟩) fun _ _ _ h => h

theorem findById_alone_bind {id : String} {f : Option Account → Handler β} {Q : β → Store → Prop}
    {R : Err → Store → Prop}
    (hnone : db.accounts.find? id = none → Alone i (At db) (f none) Q R)
    (hsome : ∀ a row, db.accounts.find? id = some row → AccountMapper.toDomain row = .ok a →
      Alone i (At db) (f (some a)) Q R)
    (herr : ∀ e s, At db s → R e s) : Alone i (At db) (findById id >>= f) Q R := by
  refine .bind ((findById_alone id).mono (fun _ h => h) (fun _ _ h => h) herr) fun o => .of_and fun ho => ?_
  cases o with
  | none => exact hnone ho
  | some a =>
    obtain ⟨row, hrow, ha⟩ := ho
    exact hsome a row hrow ha

theorem update_alone (a : Account) :
    Alone i (At db) (update a .prisma)
      (fun _ => At (db.apply (.account (AccountMapper.toPersistence a) a.domainEvents)))
      fun _ => At db := by
  refine .bind (M := fun n s => if n = 0 then At db s
      else At (db.apply (.account (AccountMapper.toPersistence a) a.domainEvents)) s)
    (.await at_ofRows.passes (fun h _ hx => ?_) fun h _ hx => ?_) fun n => ?_
  · rcases exec_account_updateMany hx with ⟨rfl, rfl⟩ | ⟨rfl, rfl, -⟩
    · exact h
    · exact h.write i _
  · exact at_ofRows ((exec_error hx).resolve_right nofun) h
  · by_cases hn : n = 0
    · subst hn
      exact .throw fun _ h => h
    · rw [if_neg hn]
      exact .pure fun _ h => by simpa only [if_neg hn] using h

theorem save_alone (a : Account) :
    Alone i (At db) (save a) (fun _ s => ∃ events, At (db.apply (.account (AccountMapper.toPersistence a) events)) s)
      fun _ => At db := by
  unfold save
  split
  · refine .await at_ofRows.passes (fun h _ hx => ?_) fun h _ hx => ?_
    · obtain ⟨rfl, -⟩ := exec_account_create hx
      exact ⟨[], h.write i _⟩
    · exact at_ofRows ((exec_error hx).resolve_right nofun) h
  · exact (update_alone a).mono (fun _ h => h) (fun _ _ h => ⟨_, h⟩) fun _ _ h => h

end PrismaAccountRepository

/-! ## The ledger -/

namespace PrismaLedgerRecorderService

theorem rows_inert (posting : LedgerPosting) (c : Client) (journalId : String) (legs : List LedgerPostingLeg) :
    (rows posting c journalId legs).Calls Inert :=
  rows_calls (T := Inert) (fun _ => ⟨rfl, rfl, rfl⟩) legs

/-- The rows that a posting has made of its legs. -/
theorem rows_alone (hK : OfRows K) (posting : LedgerPosting) (c : Client) :
    Alone i K (do rows posting c (← Prog.await Op.randomUUID) posting.legs)
      (fun data s => (∃ journalId, RowsOf posting journalId posting.legs data) ∧ K s) fun _ _ => False := by
  refine .unfailing hK (.bind (.await ⟨rfl, rfl, rfl⟩) fun journalId => rows_inert posting c journalId _)
    (.bind (.await _) fun _ => rows_unfailing _) ?_
  exact .bind (Prog.returns_true _) fun journalId _ => (rows_returns posting.legs).mono fun _ h => ⟨journalId, h⟩

theorem post_alone {posting : LedgerPosting} (hbalanced : assertBalanced posting = .ok ()) :
    Alone i (At db) (post posting .prisma)
      (fun _ s => ∃ rows, (∀ id, ledgerNet rows id = legsNet posting.legs id) ∧
        At (db.apply (.ledgerEntries rows)) s)
      fun _ _ => False := by
  refine .ofExcept_bind (fun _ _ => ?_) fun e _ he => nomatch hbalanced.symm.trans he
  rw [← Prog.bind_assoc]
  refine .bind (rows_alone at_ofRows posting .prisma) fun data => .of_and fun ⟨journalId, hrows⟩ => ?_
  refine .await at_ofRows.passes (fun {s _ _ _} h _ hx => ?_) fun _ ha hx => not_refused rfl rfl ha hx
  obtain ⟨rfl, -⟩ := exec_ledger_createMany hx
  exact ⟨_, hrows.net s.clock, h.write i _⟩

theorem post_staged (posting : LedgerPosting) :
    Alone i (InTx i db ws) (post posting .tx)
      (fun _ s => ∃ rows, (∀ id, ledgerNet rows id = legsNet posting.legs id) ∧
        InTx i db (ws ++ [.ledgerEntries rows]) s) fun _ => At db := by
  refine .ofExcept_bind (fun _ _ => ?_) fun _ _ _ h => h.1
  rw [← Prog.bind_assoc]
  refine .bind ((rows_alone inTx_ofRows posting .tx).mono (fun _ h => h) (fun _ _ h => h) fun _ _ h => h.elim)
    fun data => .of_and fun ⟨journalId, hrows⟩ => ?_
  refine .await inTx_ofRows.passes (fun {s _ _ _} h _ hx => ?_) fun _ ha hx => absurd hx (not_refused rfl rfl ha)
  obtain ⟨rfl, -⟩ := exec_ledger_createMany hx
  exact ⟨_, hrows.net s.clock, h.write _⟩

end PrismaLedgerRecorderService

theorem postTransferJournal_alone {legs : List LedgerPostingLeg}
    (hlegs : ∀ currency, PrismaLedgerRecorderService.netByCurrency legs currency = 0) (transfer : Transfer)
    (narration : String) :
    Alone i (At db) (postTransferJournal transfer narration legs)
      (fun _ s => ∃ rows, (∀ id, ledgerNet rows id = PrismaLedgerRecorderService.legsNet legs id) ∧
        At (db.apply (.ledgerEntries rows)) s) fun _ _ => False :=
  PrismaLedgerRecorderService.post_alone (PrismaLedgerRecorderService.assertBalanced_of hlegs)

/-! ## Transfers -/

namespace PrismaTransferRepository

/-- What a lookup has found is stored. -/
def LoadedFrom (db : Db) : Option Transfer → Prop
  | none => True
  | some t => ∃ r, db.transfers.find? r.id = some r ∧ TransferMapper.toDomain r = .ok t

theorem findByProviderReference_alone (providerReference : String) :
    Alone i (At db) (findByProviderReference providerReference) (fun o s => LoadedFrom db o ∧ At db s)
      fun _ => At db := by
  refine .bind (M := fun found s => (∀ r, found = some r → db.transfers.find? r.id = some r) ∧ At db s)
    (.await at_ofRows.passes (fun h _ hx => ?_) fun h _ hx => at_ofRows (exec_read rfl hx) h)
    fun found => .of_and fun hfound => ?_
  · obtain ⟨db', hv, rfl, rfl⟩ := exec_transfer_findFirst hx
    cases hv
    refine ⟨fun r hr => ?_, h⟩
    have hmem := Table.find?_of_mem (List.mem_of_find?_eq_some hr)
    rwa [h] at hmem
  · cases found with
    | none => exact .pure fun _ h => ⟨trivial, h⟩
    | some r => exact .ofExcept_bind (fun t ht => .pure fun _ h => ⟨⟨r, hfound r rfl, ht⟩, h⟩) fun _ _ _ h => h

/-- Its row goes from the version that was loaded to the next. -/
theorem save_stored {t : Transfer} {old : TransferRecord} (hold : db.transfers.find? t.id = some old)
    (hv : t.version = old.version + 1) :
    Alone i (At db) (save t) (fun _ => At (db.apply (.transfer (TransferMapper.toPersistence t)))) fun _ _ =>
      False := by
  unfold save
  rw [if_neg (by omega)]
  refine .bind (M := fun n s => n ≠ 0 ∧ At (db.apply (.transfer (TransferMapper.toPersistence t))) s)
    (.await at_ofRows.passes (fun h _ hx => ?_) fun _ ha hx => not_refused rfl rfl ha hx)
    fun n => .of_and fun hn => ?_
  · rcases exec_transfer_updateMany hx with ⟨rfl, rfl⟩ | ⟨rfl, rfl, -⟩
    · rw [← h] at hold
      refine absurd ?_ (exec_transfer_missed hx Store.view_prisma hold)
      show old.version = t.version - 1
      omega
    · exact ⟨Nat.one_ne_zero, h.write i _⟩
  · rw [if_neg hn]
    exact .pure fun _ h => h

theorem create_alone (data : TransferRecord) :
    Alone i (At db) (Prog.await (Op.transfer .prisma (.create data)))
      (fun _ s => db.transfers.find? data.id = none ∧ At (db.apply (.transfer data)) s) fun _ => At db := by
  refine .await at_ofRows.passes (fun h _ hx => ?_) fun h _ hx => at_ofRows ((exec_error hx).resolve_right nofun) h
  obtain ⟨rfl, -, db', hv, hnone⟩ := exec_transfer_create hx
  cases hv
  exact ⟨h ▸ hnone, h.write i _⟩

/-- A transfer that has no row yet, touched or not. -/
theorem save_new {t : Transfer} (hnew : db.transfers.find? t.id = none) :
    Alone i (At db) (save t) (fun _ => At (db.apply (.transfer (TransferMapper.toPersistence t)))) fun _ => At db := by
  have hcreate : Alone i (At db) (Prog.await (Op.transfer .prisma (.create (TransferMapper.toPersistence t))))
      (fun _ => At (db.apply (.transfer (TransferMapper.toPersistence t)))) fun _ => At db :=
    (create_alone _).mono (fun _ h => h) (fun _ _ h => h.2) fun _ _ h => h
  unfold save
  split
  · exact hcreate
  refine .bind (M := fun n s => n = 0 ∧ At db s)
    (.await at_ofRows.passes (fun h _ hx => ?_) fun h _ hx => at_ofRows ((exec_error hx).resolve_right nofun) h)
    fun n => .of_and fun hn => ?_
  · rcases exec_transfer_updateMany hx with ⟨rfl, rfl⟩ | ⟨rfl, rfl, -, db', row, hview, hrow, -⟩
    · exact ⟨rfl, h⟩
    · cases hview
      rw [h] at hrow
      exact absurd (hrow.symm.trans hnew) nofun
  · rw [if_pos hn]
    refine .bind (M := fun found s => found = none ∧ At db s)
      (.await at_ofRows.passes (fun h _ hx => ?_) fun h _ hx => at_ofRows (exec_read rfl hx) h)
      fun found => .of_and fun hfound => ?_
    · obtain ⟨db', hv, rfl, rfl⟩ := exec_transfer_find hx
      cases hv
      rw [h]
      exact ⟨hnew, h⟩
    · subst hfound
      exact hcreate

end PrismaTransferRepository

/-- A transfer starts with an id that no stored one has. -/
theorem draw_alone {α : Type} (initiate : Nat → TransferReference → String → α) :
    Alone i (At db) (draw initiate)
      (fun a s => (∃ now reference id, a = initiate now reference id ∧ db.transfers.find? id = none) ∧ At db s)
      fun _ _ => False := by
  refine .bind (M := fun _ => At db) (.await at_ofRows.passes (fun h _ hx => at_ofRows (exec_read rfl hx) h)
    fun _ ha hx => not_refused rfl rfl ha hx) fun now => ?_
  refine .bind (M := fun id s => db.transfers.find? id = none ∧ At db s) (.await at_ofRows.passes
    (fun h ha hx => ⟨?_, at_ofRows (exec_read rfl hx) h⟩) fun _ ha hx => not_refused rfl rfl ha hx)
    fun id => .of_and fun hid => ?_
  · obtain rfl := exec_randomUUID hx
    rw [← h]
    exact ha
  refine .bind (M := fun _ => At db) (.await at_ofRows.passes (fun h _ hx => at_ofRows (exec_read rfl hx) h)
    fun _ ha hx => not_refused rfl rfl ha hx) fun reference => ?_
  exact .pure fun _ h => ⟨⟨now, reference, id, rfl, hid⟩, h⟩

/-! ## Transactions -/

/-- What the body has written is there when the transaction has returned, and nothing of it when it has thrown. -/
theorem transaction_alone {onBegin : Err → ε} {onCommit : α → Err → ε} {body : Program ε α}
    {W : α → List Write → Prop}
    {P : ε → Prop} (hbody : Alone i (InTx i db []) body (fun a s => ∃ ws, W a ws ∧ InTx i db ws s)
      fun e s => P e ∧ At db s) :
    Alone i (At db) (transaction onBegin onCommit body) (fun a s => ∃ ws, W a ws ∧ At (db.applyAll ws) s)
      fun e s => P e ∧ At db s := by
  refine .bind (M := fun _ => InTx i db []) (.mapError (.await at_ofRows.passes (fun h _ hx => ?_)
    fun _ ha hx => absurd hx (not_refused rfl rfl ha))) fun _ => ?_
  · obtain ⟨hnone, rfl⟩ := exec_begin hx
    exact ⟨h, (Store.staged_begin hnone i).trans hnone⟩
  refine .bind (M := fun a s => ∃ ws, W a ws ∧ InTx i db ws s) (.tryCatch hbody fun e => .of_and fun he => ?_)
    fun a => .of_exists fun ws => .of_and fun hws => ?_
  · refine .bind (M := fun _ => At db) (.mapError (.await at_ofRows.passes (fun h _ hx => ?_)
      fun _ _ hx => absurd hx exec_rollback_error)) fun _ => .throw fun _ h => ⟨he, h⟩
    obtain rfl := exec_rollback hx
    exact h
  · refine .bind (M := fun _ => At (db.applyAll ws)) (.mapError (.await inTx_ofRows.passes (fun h _ hx => ?_)
      fun _ ha hx => absurd hx (not_refused rfl rfl ha))) fun _ => .pure fun _ h => ⟨ws, hws, h⟩
    obtain rfl := exec_commit hx
    rw [At, Store.db_commit, h.1, h.2]

end

end Kudi
