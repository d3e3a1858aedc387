import KudiCore.Concurrency.InternalTransfer

/-!
# Internal transfers conserve money

Any number of internal transfers run at once. Each commits as a whole or not at all, so the accounts
and the ledger are at any moment those of the start after some list of whole transfers: the runs
that have committed, in commit order (`Commits`).
-/

namespace Kudi

open Interleave Protocol Table

/-! ## The effect of one transfer -/

def balanceOf (db : Db) (id : String) : Int := ((db.accounts.find? id).map (·.balance)).getD 0

/-- The sum of all account balances. -/
def totalBalance (db : Db) : Int := db.accounts.sum (·.balance)

/-- `db'` has the accounts and the ledger of `db` after the internal transfer `params`. -/
structure TransferEffect (params : InternalTransferParams) (db db' : Db) : Prop where
  distinct : params.sourceAccountId ≠ params.destinationAccountId
  source : ∃ r r', db.accounts.find? params.sourceAccountId = some r ∧
    db'.accounts.find? params.sourceAccountId = some r' ∧
      r'.balance = r.balance - (params.amount.minorUnits + params.fee.minorUnits)
  destination : ∃ r r', db.accounts.find? params.destinationAccountId = some r ∧
    db'.accounts.find? params.destinationAccountId = some r' ∧ r'.balance = r.balance + params.amount.minorUnits
  others : ∀ id, id ≠ params.sourceAccountId → id ≠ params.destinationAccountId →
    db'.accounts.find? id = db.accounts.find? id
  journal : ∃ entries, db'.ledgerEntries = db.ledgerEntries ++ entries ∧
    (∃ journalId, ∀ e ∈ entries, e.journalId = journalId) ∧
    entries.length = (if params.fee.minorUnits = 0 then 2 else 3) ∧
    ∀ id, ledgerNet entries id = balanceOf db' id - balanceOf db id +
      if id = SystemLedgerAccount.feeRevenue params.fee.currency then (params.fee.minorUnits : Int) else 0
  total : totalBalance db' = totalBalance db - params.fee.minorUnits

/-- The accounts and the ledger of the second database are those of the first after the transfers
of the runs listed, in that order, and nothing else. -/
inductive Commits (params : PId → InternalTransferParams) (db : Db) : List PId → Db → Prop
  | same {db'} (accounts : db'.accounts = db.accounts) (ledger : db'.ledgerEntries = db.ledgerEntries) :
    Commits params db [] db'
  | commit {order i mid db'} (before : Commits params db order mid) (effect : TransferEffect (params i) mid db') :
    Commits params db (order ++ [i]) db'

section
variable {params : PId → InternalTransferParams} {db mid db' : Db} {order : List PId}

theorem TransferEffect.congr {p : InternalTransferParams} (h : TransferEffect p db mid)
    (ha : db'.accounts = mid.accounts) (hl : db'.ledgerEntries = mid.ledgerEntries) : TransferEffect p db db' := by
  have hb : ∀ id, balanceOf db' id = balanceOf mid id := fun id => by rw [balanceOf, ha, balanceOf]
  refine ⟨h.distinct, ha ▸ h.source, ha ▸ h.destination, ha ▸ h.others, ?_, ?_⟩
  · simp only [hl, hb]
    exact h.journal
  · rw [totalBalance, ha]
    exact h.total

theorem Commits.congr (h : Commits params db order mid) (ha : db'.accounts = mid.accounts)
    (hl : db'.ledgerEntries = mid.ledgerEntries) : Commits params db order db' := by
  cases h with
  | same accounts ledger => exact .same (ha.trans accounts) (hl.trans ledger)
  | commit before effect => exact .commit before (effect.congr ha hl)

/-- The balances lost the fees, and nothing else. -/
theorem Commits.total (h : Commits params db order db') :
    totalBalance db' + (order.map fun i => ((params i).fee.minorUnits : Int)).sum = totalBalance db := by
  induction h with
  | same accounts ledger =>
    rw [totalBalance, accounts]
    simp [totalBalance]
  | commit before effect ih =>
    rw [effect.total, List.map_append, List.sum_append, ← ih]
    simp only [List.map_cons, List.map_nil, List.sum_cons, List.sum_nil]
    ring

end

/-! ## From the staged writes to the effect -/

theorem undated_account {w : Write} {data : AccountRecord} {events : List AccountEvent}
    (h : w.undated = .account data events) : w = .account data events := by
  cases w <;> simp_all [Write.undated]

theorem undated_transfer {w : Write} {data : TransferRecord} (h : w.undated = .transfer data) :
    w = .transfer data := by
  cases w <;> simp_all [Write.undated]

theorem undated_ledger {w : Write} {journal : List LedgerEntryRecord} (h : w.undated = .ledgerEntries journal) :
    ∃ entries : List LedgerEntryRecord, w = .ledgerEntries entries ∧
      journal = entries.map fun e => { e with createdAt := 0 } := by
  cases w <;> simp_all [Write.undated]

theorem ledgerNet_undated (entries : List LedgerEntryRecord) (id : String) :
    ledgerNet (entries.map fun e => { e with createdAt := 0 }) id = ledgerNet entries id := by
  simp [ledgerNet, Function.comp_def, LedgerEntryData.signed]

/-- The four writes a committing run has staged, as the store holds them. -/
theorem staged_of_pending {params : InternalTransferParams} {ws : List Write}
    (h : TransferWrites params (ws.map Write.undated)) :
    ∃ source destination sourceEvents destinationEvents entries transfer,
      ws = [.account source sourceEvents, .account destination destinationEvents, .ledgerEntries entries,
        .transfer transfer] ∧
      MovesFunds params source destination sourceEvents destinationEvents
        (entries.map fun e => { e with createdAt := 0 }) := by
  generalize hu : ws.map Write.undated = us at h
  obtain ⟨transfer, hm⟩ := h
  obtain ⟨w1, ws1, rfl, h1, hu⟩ := List.map_eq_cons_iff.1 hu
  obtain ⟨w2, ws2, rfl, h2, hu⟩ := List.map_eq_cons_iff.1 hu
  obtain ⟨w3, ws3, rfl, h3, hu⟩ := List.map_eq_cons_iff.1 hu
  obtain ⟨w4, ws4, rfl, h4, hu⟩ := List.map_eq_cons_iff.1 hu
  obtain rfl := List.map_eq_nil_iff.1 hu
  obtain ⟨entries, rfl, rfl⟩ := undated_ledger h3
  obtain rfl := undated_account h1
  obtain rfl := undated_account h2
  obtain rfl := undated_transfer h4
  exact ⟨_, _, _, _, entries, transfer, rfl, hm⟩

theorem transferEffect_of_staged {params : InternalTransferParams} {db : Db} {ws : List Write}
    (hc : AccountsChained db.accounts ws) (h : TransferWrites params (ws.map Write.undated)) :
    TransferEffect params db (db.applyAll ws) := by
  obtain ⟨source, destination, sourceEvents, destinationEvents, entries, transfer, rfl, hm⟩ := staged_of_pending h
  have hsrc : source.id = params.sourceAccountId := hm.source_id
  have hdst : destination.id = params.destinationAccountId := hm.destination_id
  have hne : params.sourceAccountId ≠ params.destinationAccountId := hsrc ▸ hdst ▸ hm.distinct
  obtain ⟨s, hs, hsm⟩ := hc.1 source rfl
  obtain ⟨d, hd, hdm⟩ := hc.2.1 destination rfl
  have hsm : Mutates s source sourceEvents := hsm _ _ rfl
  have hdm : Mutates d destination destinationEvents := hdm _ _ rfl
  have hd : (db.accounts.put source).find? destination.id = some d := hd
  have hd' : db.accounts.find? destination.id = some d := by rwa [find?_put_ne _ hm.distinct] at hd
  have haccounts : (db.applyAll [.account source sourceEvents, .account destination destinationEvents,
      .ledgerEntries entries, .transfer transfer]).accounts = (db.accounts.put source).put destination := rfl
  have hledger : (db.applyAll [.account source sourceEvents, .account destination destinationEvents,
      .ledgerEntries entries, .transfer transfer]).ledgerEntries = db.ledgerEntries ++ entries := rfl
  have hsb : source.balance = s.balance - (params.amount.minorUnits + params.fee.minorUnits) := by
    rw [hsm.balance, hm.debited]
    ring
  have hdb : destination.balance = d.balance + params.amount.minorUnits := by
    rw [hdm.balance, hm.credited]
  have hfs : ((db.accounts.put source).put destination).find? params.sourceAccountId = some source := by
    rw [← hsrc, find?_put_ne _ (Ne.symm hm.distinct), find?_put_self]
  have hfd : ((db.accounts.put source).put destination).find? params.destinationAccountId = some destination := by
    rw [← hdst, find?_put_self]
  have hothers : ∀ id, id ≠ params.sourceAccountId → id ≠ params.destinationAccountId →
      ((db.accounts.put source).put destination).find? id = db.accounts.find? id := by
    intro id h1 h2
    rw [find?_put_ne _ (fun e => h2 (e.symm.trans hdst)), find?_put_ne _ (fun e => h1 (e.symm.trans hsrc))]
  refine ⟨hne, ⟨s, source, hsrc ▸ hs, hfs, hsb⟩, ⟨d, destination, hdst ▸ hd', hfd, hdb⟩, hothers,
    ?_, ?_⟩
  · refine ⟨entries, hledger, ?_, ?_, fun id => ?_⟩
    · obtain ⟨journalId, hj⟩ := hm.oneJournal
      exact ⟨journalId, fun e he => hj { e with createdAt := 0 } (List.mem_map.2 ⟨e, he, rfl⟩)⟩
    · rw [← hm.legs, List.length_map]
    · have hnet := hm.net id
      rw [ledgerNet_undated] at hnet
      rw [hnet, balanceOf, balanceOf, haccounts]
      congr 1
      by_cases h1 : id = params.sourceAccountId
      · have h2 : id ≠ params.destinationAccountId := h1 ▸ hne
        rw [if_pos h1, if_neg h2, h1, hfs, ← hsrc, hs]
        simp only [Option.map_some, Option.getD_some, hsb]
        ring
      · by_cases h2 : id = params.destinationAccountId
        · rw [if_neg h1, if_pos h2, h2, hfd, ← hdst, hd']
          simp only [Option.map_some, Option.getD_some, hdb]
          ring
        · rw [if_neg h1, if_neg h2, hothers id h1 h2]
          ring
  · rw [totalBalance, haccounts, sum_put _ hd, totalBalance, sum_put _ hs, hsb, hdb]
    ring

/-! ## The pool -/

/-- Accounts and the ledger change by a commit only, once for each run, and as a whole transfer. -/
def Policy.conserving (params : PId → InternalTransferParams) : Policy where
  direct := False
  commit i st := st.committed = false ∧ TransferWrites (params i) st.pending

structure ConservationInv (params : PId → InternalTransferParams) (db0 : Db) (s : Store) (sts : PId → Copies)
    (order : List PId) : Prop where
  nodup : order.Nodup
  committed : ∀ i, (sts i).committed = true ↔ i ∈ order
  commits : Commits params db0 order s.db
  others : ∀ e ∈ s.wal, e.1 ∉ order → accountWrites e.2 = [] ∧ e.2.flatMap Write.ledgerRows = []

section
variable {params : PId → InternalTransferParams} {db0 : Db} {s s' : Store} {sts : PId → Copies} {order : List PId}
  {i : PId} {a : Ans}

theorem ConservationInv.of_eq (h : ConservationInv params db0 s sts order) {st : Copies}
    (hst : st.committed = (sts i).committed) (ha : s'.db.accounts = s.db.accounts)
    (hl : s'.db.ledgerEntries = s.db.ledgerEntries)
    (hw : ∀ e ∈ s'.wal, e ∈ s.wal ∨ accountWrites e.2 = [] ∧ e.2.flatMap Write.ledgerRows = []) :
    ConservationInv params db0 s' (Function.update sts i st) order where
  nodup := h.nodup
  committed j := by
    by_cases hj : j = i
    · rw [hj, Function.update_self, hst]
      exact h.committed i
    · rw [Function.update_of_ne hj]
      exact h.committed j
  commits := h.commits.congr ha hl
  others e he hj := by
    rcases hw e he with he | he
    · exact h.others e he hj
    · exact he

/-- A call that neither commits nor is forbidden leaves the accounts and the ledger alone. -/
theorem conserving_write {op : Op} {c : Client} {w : Write} (hp : op.Performs c w)
    (hok : (accountProtocol (.conserving params)).ok i (sts i) op) :
    c = .tx ∨ c = .prisma ∧ w.account? = none ∧ w.ledgerRows = [] := by
  cases c with
  | tx => exact .inl rfl
  | prisma =>
    refine .inr ⟨rfl, ?_⟩
    cases op with
    | account c q =>
      cases q with
      | create data => exact absurd hok id
      | updateMany version data events => exact absurd (hok.1 hp.1) id
      | _ => exact absurd hp id
    | transfer c q =>
      cases q with
      | create data => exact hp.2 ▸ ⟨rfl, rfl⟩
      | updateMany version data => exact hp.2 ▸ ⟨rfl, rfl⟩
      | _ => exact absurd hp id
    | ledgerEntry c q =>
      cases q with
      | findFirst key => exact absurd hp id
      | createMany data =>
        obtain ⟨rfl, -⟩ := hp
        exact absurd hok id
    | idempotencyKey q => exact ⟨hp.2.1, hp.2.2.2⟩
    | _ => exact absurd hp id

theorem next_committed {pol : Policy} {st : Copies} {op : Op} {r : Except Err op.Res}
    (h : ∀ q, op ≠ .transaction q) : ((accountProtocol pol).next i st op r).committed = st.committed := by
  have hwrote : ∀ c w, (st.wrote c w).committed = st.committed := fun c w => by cases c <;> rfl
  cases op with
  | account c q =>
    cases q with
    | findUnique id => rcases r with e | (_ | row) <;> rfl
    | updateMany version data events =>
      rcases r with e | (_ | n)
      · rfl
      · rfl
      · exact hwrote c _
    | _ => rcases r with e | x <;> rfl
  | transfer c q =>
    cases q with
    | create data =>
      rcases r with e | x
      · rfl
      · exact hwrote c _
    | updateMany version data =>
      rcases r with e | (_ | n)
      · rfl
      · rfl
      · exact hwrote c _
    | _ => rcases r with e | x <;> rfl
  | ledgerEntry c q =>
    cases q with
    | findFirst id => rcases r with e | x <;> rfl
    | createMany data =>
      rcases r with e | x
      · rfl
      · exact hwrote c _
  | transaction q => exact absurd rfl (h q)
  | _ => rcases r with e | x <;> rfl

theorem ConservationInv.commit (h : ConservationInv params db0 s sts order) (hi : AccountsInv db0 s sts)
    (hpol : (Policy.conserving params).commit i (sts i)) :
    ConservationInv params db0 (s.commit i) (Function.update sts i (.settled true)) (order ++ [i]) := by
  obtain ⟨hfresh, hwrites⟩ := hpol
  have hi_notin : i ∉ order := fun hm => by
    rw [(h.committed i).2 hm] at hfresh
    cases hfresh
  rw [← hi.pending i] at hwrites
  refine ⟨?_, fun j => ?_, ?_, fun e he hj => ?_⟩
  · exact List.nodup_append.2 ⟨h.nodup, by simp, fun x hx y hy hxy => by
      rw [List.mem_singleton.1 hy] at hxy
      exact hi_notin (hxy ▸ hx)⟩
  · by_cases hj : j = i
    · rw [hj, Function.update_self]
      simp [Copies.settled]
    · rw [Function.update_of_ne hj, h.committed j]
      simp [hj]
  · exact .commit h.commits (transferEffect_of_staged (hi.staged i) hwrites)
  · rcases List.mem_append.1 he with he | he
    · exact h.others e he fun hm => hj (List.mem_append_left _ hm)
    · obtain rfl := List.mem_singleton.1 he
      exact absurd (List.mem_append_right _ (List.mem_singleton_self i)) hj

theorem ConservationInv.step (h : ConservationInv params db0 s sts order) (hi : AccountsInv db0 s sts) {op : Op}
    {r : Except Err op.Res} (hok : (accountProtocol (.conserving params)).ok i (sts i) op)
    (hx : exec i a op s = some (r, s')) :
    ∃ order', ConservationInv params db0 s'
      (Function.update sts i ((accountProtocol (.conserving params)).next i (sts i) op r)) order' := by
  by_cases ht : ∃ q, op = .transaction q
  · obtain ⟨q, rfl⟩ := ht
    cases q with
    | begin =>
      rcases r with e | x
      · have hs : s.SameRows s' := (exec_error hx).resolve_right nofun
        exact ⟨order, h.of_eq rfl (by rw [hs.db]) (by rw [hs.db]) fun e he => .inl (hs.wal ▸ he)⟩
      · obtain ⟨-, rfl⟩ := exec_begin hx
        exact ⟨order, h.of_eq rfl rfl rfl fun e he => .inl he⟩
    | commit =>
      rcases r with e | x
      · rw [exec_commit_error hx]
        exact ⟨order, h.of_eq rfl rfl rfl fun e he => .inl he⟩
      · rw [exec_commit hx]
        exact ⟨order ++ [i], h.commit hi hok⟩
    | rollback =>
      rcases r with e | x
      · exact absurd hx exec_rollback_error
      · rw [exec_rollback hx]
        exact ⟨order, h.of_eq rfl rfl rfl fun e he => .inl he⟩
  · have ht : ∀ q, op ≠ .transaction q := fun q e => ht ⟨q, e⟩
    refine ⟨order, ?_⟩
    rcases exec_performs ht hx with hs | ⟨c, w, rfl, hp⟩
    · exact h.of_eq (next_committed ht) (by rw [hs.db]) (by rw [hs.db]) fun e he => .inl (hs.wal ▸ he)
    · rcases conserving_write hp hok with rfl | ⟨rfl, hwa, hwl⟩
      · exact h.of_eq (next_committed ht) rfl rfl fun e he => .inl he
      · refine h.of_eq (next_committed ht) ?_ ?_ fun e he => ?_
        · exact Db.apply_accounts_of_none hwa s.db
        · rw [Store.db_write_prisma, Db.apply_ledgerEntries, hwl, List.append_nil]
        · rcases List.mem_append.1 he with he | he
          · exact .inl he
          · obtain rfl := List.mem_singleton.1 he
            exact .inr ⟨by simp [accountWrites, hwa], by simp [hwl]⟩

theorem conservation_preserves (params : PId → InternalTransferParams) (db0 : Db) :
    (accountProtocol (.conserving params)).Preserves anySchedule
      (fun s sts => AccountsInv db0 s sts ∧ ∃ order, ConservationInv params db0 s sts order) where
  call h hok _ hx := by
    obtain ⟨hi, order, ho⟩ := h
    obtain ⟨hy, hi'⟩ := hi.step hok hx
    exact ⟨hy, hi', ho.step hi hok hx⟩
  act x h := by
    obtain ⟨hi, order, ho⟩ := h
    exact ⟨hi.of_eq rfl rfl fun _ => rfl, order, ho.nodup, ho.committed, ho.commits, ho.others⟩

end

/-- **Every internal transfer happens as a whole or not at all.** The runs that have committed, in
commit order, account for every change to an account or to the ledger; a run that has returned is
among them, one that has thrown is not and has written neither an account nor the ledger. The sum
of all balances plus their fees is what it was. -/
theorem internal_transfers_conserve (params : PId → InternalTransferParams) (db0 : Db) (clock : Nat)
    {c : Config Op.Res Err Store Err InternalTransferExecutionResult}
    (hr : anySchedule.Reach ⟨.init db0 clock, fun i => PrismaInternalTransferExecutor.execute (params i)⟩ c) :
    ∃ order : List PId, order.Nodup ∧ Commits params db0 order c.store.db ∧
      (∀ i result, c.Ended i (.ok result) → i ∈ order) ∧
      (∀ i e, c.Ended i (.error e) → i ∉ order ∧ ∀ ws, (i, ws) ∈ c.store.wal →
        accountWrites ws = [] ∧ ws.flatMap Write.ledgerRows = []) ∧
      totalBalance c.store.db + (order.map fun i => ((params i).fee.minorUnits : Int)).sum = totalBalance db0 := by
  have htracks : (accountProtocol (.conserving params)).Tracks
      (fun s sts => AccountsInv db0 s sts ∧ ∃ order, ConservationInv params db0 s sts order)
      (fun _ st x => (∀ a, x = .ok a → st.committed = true) ∧ ∀ e, x = .error e → st.committed = false)
      (⟨.init db0 clock, fun i => PrismaInternalTransferExecutor.execute (params i)⟩ :
        Config Op.Res Err Store Err InternalTransferExecutionResult) fun _ => .init := by
    refine ⟨⟨.init db0 clock, [], List.nodup_nil, ?_, .same rfl rfl, ?_⟩, fun i => ?_⟩
    · simp [Copies.init]
    · simp [Store.init]
    · refine PrismaInternalTransferExecutor.execute_obeys fun st' hc hs => ⟨hc, ?_⟩
      obtain ⟨ws, hw, hp⟩ := hs
      rw [hp]
      exact hw
  obtain ⟨sts, htracks⟩ := reach (conservation_preserves params db0) htracks hr
  obtain ⟨-, order, ho⟩ := htracks.1
  refine ⟨order, ho.nodup, ho.commits, fun i result hx => ?_, fun i e hx => ?_, ho.commits.total⟩
  · exact (ho.committed i).1 ((htracks.ended hx).1 result rfl)
  · have hnot : i ∉ order := fun hm => by
      have hf := (htracks.ended hx).2 e rfl
      rw [(ho.committed i).2 hm] at hf
      cases hf
    exact ⟨hnot, fun ws hw => ho.others _ hw hnot⟩

def sampleDestination : AccountRecord := ⟨"acc2", "user2", "0123456780", .NGN, 500, .ACTIVE, 0⟩

/-- Program 0 moves ₦20.00 for a fee of ₦1.00; the others try to transfer from an account to itself. -/
def sampleTransfers (i : PId) : InternalTransferParams :=
  { initiatorUserId := "user", sourceAccountId := "acc", destinationAccountId := if i = 0 then "acc2" else "acc",
    amount := ⟨2000, .NGN⟩, fee := ⟨100, .NGN⟩, narration := "" }

/-- Program 1 is rolled back after its first update, then program 0 goes through. -/
def sampleTransferSchedule : List (System.Move Ans Nat) :=
  System.calls 1 [Ans.ok, .uuid "t1", .reference sampleReference, .ok, .ok, .ok, .ok, .ok, .ok, .ok, .ok] ++
    System.calls 0 [Ans.ok, .uuid "t0", .reference sampleReference, .ok, .ok, .ok, .ok, .ok, .ok, .ok, .uuid "j",
      .ok, .ok, .ok, .ok]

theorem internal_transfers_conserve_sample :
    ∃ c, anySchedule.Reach ⟨.init (.of [sampleAccount, sampleDestination] []) 0,
        fun i => PrismaInternalTransferExecutor.execute (sampleTransfers i)⟩ c ∧
      ∃ order : List PId, order.Nodup ∧
        Commits sampleTransfers (.of [sampleAccount, sampleDestination] []) order c.store.db ∧
        (∀ i result, c.Ended i (.ok result) → i ∈ order) ∧
        (∀ i e, c.Ended i (.error e) → i ∉ order ∧ ∀ ws, (i, ws) ∈ c.store.wal →
          accountWrites ws = [] ∧ ws.flatMap Write.ledgerRows = []) ∧
        totalBalance c.store.db + (order.map fun i => ((sampleTransfers i).fee.minorUnits : Int)).sum =
          totalBalance (.of [sampleAccount, sampleDestination] []) := by
  have hplay : (anySchedule.play sampleTransferSchedule ⟨.init (.of [sampleAccount, sampleDestination] []) 0,
      fun i => PrismaInternalTransferExecutor.execute (sampleTransfers i)⟩).isSome := by decide +kernel
  have hreach := anySchedule.reach_play hplay
  exact ⟨_, hreach, internal_transfers_conserve sampleTransfers _ 0 hreach⟩

end Kudi
