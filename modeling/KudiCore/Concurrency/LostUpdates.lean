import KudiCore.Concurrency.InternalTransfer

/-!
# No lost update

Any number of the repository's operations on accounts run at once, in any order of their calls,
with any of those calls failing. Of every account that existed at the start, the stored balance is
the initial one plus what committed writes have credited and minus what they have debited.
-/

namespace Kudi

open Interleave Protocol Table

/-- The operations that write accounts. -/
inductive Request where
  | credit (command : CreditAccountCommand)
  | debit (command : DebitAccountCommand)
  | freeze (command : FreezeAccountCommand)
  | unfreeze (command : UnfreezeAccountCommand)
  | close (command : CloseAccountCommand)
  | activate (command : ActivateAccountCommand)
  | internalExecution (params : InternalTransferParams)
  | internalTransfer (fuel : Nat) (command : InitiateInternalTransferCommand)
  | externalTransfer (fuel : Nat) (command : InitiateExternalTransferCommand)
  | externalConfirmation (command : ConfirmExternalTransferCommand)

def Request.program : Request → Handler Unit
  | .credit command => forget (CreditAccountHandler.execute command)
  | .debit command => forget (DebitAccountHandler.execute command)
  | .freeze command => forget (FreezeAccountHandler.execute command)
  | .unfreeze command => forget (UnfreezeAccountHandler.execute command)
  | .close command => forget (CloseAccountHandler.execute command)
  | .activate command => forget (ActivateAccountHandler.execute command)
  | .internalExecution params => forget (PrismaInternalTransferExecutor.execute params)
  | .internalTransfer fuel command => forget (InitiateInternalTransferHandler.execute fuel command)
  | .externalTransfer fuel command => forget (InitiateExternalTransferHandler.execute fuel command)
  | .externalConfirmation command => ConfirmExternalTransferHandler.execute command

theorem Request.obeys (r : Request) (i : PId) (st : Copies) : Writes Policy.free i r.program st := by
  have hd : Policy.free.direct := trivial
  have forget_obeys : ∀ {α : Type} {p : Handler α}, Writes Policy.free i p st →
    Writes Policy.free i (forget p) st :=
    fun hp => Writes.bind hp fun _ _ => trivial
  cases r with
  | credit command => exact forget_obeys (creditHandler_obeys hd command st)
  | debit command => exact forget_obeys (debitHandler_obeys hd command st)
  | freeze command => exact forget_obeys (freezeHandler_obeys hd command st)
  | unfreeze command => exact forget_obeys (unfreezeHandler_obeys hd command st)
  | close command => exact forget_obeys (closeHandler_obeys hd command st)
  | activate command => exact forget_obeys (activateHandler_obeys hd command st)
  | internalExecution params =>
    have hp : Writes Policy.free i (PrismaInternalTransferExecutor.execute params) st :=
      (PrismaInternalTransferExecutor.execute_obeys fun _ _ _ => trivial).mono fun _ _ _ => trivial
    exact forget_obeys hp
  | internalTransfer fuel command => exact forget_obeys (initiateInternal_obeys (fun _ => trivial) fuel command st)
  | externalTransfer fuel command => exact forget_obeys (initiateExternal_obeys hd fuel command st)
  | externalConfirmation command => exact confirmExternal_obeys hd command st

/-! ## What has been committed -/

namespace Store

/-- The committed writes to account `id`. -/
def accountWrites (s : Store) (id : String) : List Write := writesTo accountRow AccountRecord.id id s.writes

/-- What the saved aggregates had recorded. -/
def accountEvents (s : Store) (id : String) : List AccountEvent :=
  (s.accountWrites id).flatMap fun w => (w.account?.map (·.2)).getD []

def committedCredits (s : Store) (id : String) : Nat := ((s.accountEvents id).map AccountEvent.creditedAmount).sum
def committedDebits (s : Store) (id : String) : Nat := ((s.accountEvents id).map AccountEvent.debitedAmount).sum

end Store

theorem netOfEvents_append (l l' : List AccountEvent) : netOfEvents (l ++ l') = netOfEvents l + netOfEvents l' := by
  simp [netOfEvents]

theorem netOfEvents_eq (l : List AccountEvent) :
    netOfEvents l = ((l.map AccountEvent.creditedAmount).sum : Nat) -
      ((l.map AccountEvent.debitedAmount).sum : Nat) := by
  induction l with
  | nil => rfl
  | cons e l ih =>
    simp only [netOfEvents, List.map_cons, List.sum_cons] at ih ⊢
    rw [ih]
    push_cast
    ring

/-- A chain of mutations adds up. -/
theorem AccountsInv.row {db0 : Db} {s : Store} {sts : PId → Copies} (h : AccountsInv db0 s sts) {id : String}
    {row0 : AccountRecord} (h0 : db0.accounts.find? id = some row0) :
    ∃ row, s.db.accounts.find? id = some row ∧
      row.balance = row0.balance + netOfEvents (s.accountEvents id) ∧
      (0 ≤ row0.balance → 0 ≤ row.balance) ∧ row.version = row0.version + (s.accountWrites id).length := by
  let events : List Write → List AccountEvent := fun ws => ws.flatMap fun w => (w.account?.map (·.2)).getD []
  let M : List Write → AccountRecord → Prop := fun ws r =>
    r.balance = row0.balance + netOfEvents (events ws) ∧ (0 ≤ row0.balance → 0 ≤ r.balance) ∧
      r.version = row0.version + ws.length
  have hM : ∀ ws r w r', M ws r → accountRow w = some r' → MutatesBy r w → M (ws ++ [w]) r' := by
    rintro ws r w r' ⟨hb, -, hv⟩ hr' hmut
    obtain ⟨⟨data, ev⟩, ha, rfl⟩ := Option.map_eq_some_iff.1 hr'
    have hm := hmut data ev ha
    refine ⟨?_, fun _ => hm.nonneg, ?_⟩
    · have hev : events (ws ++ [w]) = events ws ++ ev := by simp [events, ha]
      rw [hm.balance, hb, hev, netOfEvents_append]
      ring
    · rw [hm.version, hv, List.length_append, List.length_singleton]
      ring
  have hinit : M [] row0 := by
    refine ⟨?_, fun h => h, rfl⟩
    simp [events, netOfEvents]
  obtain ⟨row, hrow, hb, hn, hv⟩ := h.history.invariant hM h0 hinit
  exact ⟨row, by rw [h.replayed]; exact hrow, hb, hn, hv⟩

/-- **Lost-update freedom.** Whatever runs, in whatever order, and whatever fails: the stored
balance is the initial balance plus the committed credits minus the committed debits, it has not
become negative, and the version counts the committed writes. -/
theorem balance_is_sum_of_committed (requests : PId → Request) (db0 : Db) (clock : Nat)
    {c : Config Op.Res Err Store Err Unit}
    (hr : anySchedule.Reach ⟨.init db0 clock, fun i => (requests i).program⟩ c) (id : String)
    {row0 : AccountRecord} (h0 : db0.accounts.find? id = some row0) :
    ∃ row, c.store.db.accounts.find? id = some row ∧
      row.balance = row0.balance + c.store.committedCredits id - c.store.committedDebits id ∧
      (0 ≤ row0.balance → 0 ≤ row.balance) ∧
        row.version = row0.version + (c.store.accountWrites id).length := by
  have htracks : (accountProtocol .free).Tracks (AccountsInv db0) (fun _ _ _ => True)
      (⟨.init db0 clock, fun i => (requests i).program⟩ : Config Op.Res Err Store Err Unit) fun _ => .init :=
    ⟨.init db0 clock, fun i => (requests i).obeys i .init⟩
  obtain ⟨sts, hinv, -⟩ := reach (AccountsInv.preserves .free db0) htracks hr
  obtain ⟨row, hrow, hb, hn, hv⟩ := hinv.row h0
  refine ⟨row, hrow, ?_, hn, hv⟩
  rw [hb, netOfEvents_eq]
  simp only [Store.committedCredits, Store.committedDebits]
  ring

/-- Every odd program debits ₦10.00, every even one credits ₦25.00. -/
def sampleRequests (i : PId) : Request :=
  if i % 2 = 1 then .debit ⟨"acc", "10.00", .NGN, "debit"⟩ else .credit ⟨"acc", "25.00", .NGN, "credit"⟩

/-- Program 0 loads the account, programs 1 and 2 load and save theirs, program 0 comes too late. -/
def sampleSchedule : List (System.Move Ans Nat) :=
  System.calls 0 [Ans.ok, .ok, .ok] ++ System.calls 1 [Ans.ok, .ok] ++ System.calls 2 [Ans.ok, .ok, .ok, .ok] ++
    System.calls 0 [Ans.ok]

theorem balance_is_sum_of_committed_sample :
    ∃ c, anySchedule.Reach ⟨.init (.of [sampleAccount] []) 0, fun i => (sampleRequests i).program⟩ c ∧
      ∃ row, c.store.db.accounts.find? "acc" = some row ∧
        row.balance = 10000 + c.store.committedCredits "acc" - c.store.committedDebits "acc" ∧
        ((0 : Int) ≤ 10000 → 0 ≤ row.balance) ∧ row.version = 3 + (c.store.accountWrites "acc").length := by
  have hplay : (anySchedule.play sampleSchedule
      ⟨.init (.of [sampleAccount] []) 0, fun i => (sampleRequests i).program⟩).isSome := by decide +kernel
  have hreach := anySchedule.reach_play hplay
  have h0 : (Db.of [sampleAccount] []).accounts.find? "acc" = some sampleAccount := by decide
  exact ⟨_, hreach, balance_is_sum_of_committed sampleRequests _ 0 hreach "acc" h0⟩

end Kudi
