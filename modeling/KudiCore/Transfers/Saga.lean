import Mathlib.Logic.Relation
import KudiCore.Accounts.Lifecycle
import KudiCore.Transfers.Outages

/-!
# The saga, step by step

| here | there |
| --- | --- |
| `Meanwhile` | time passes, and others commit lifecycle operations (activate, freeze, unfreeze, close) |
| `Holds`     | the source account, as the saga finds it again |
| `Intact`    | no account's money and no transfer has changed |

What each part of `InitiateExternalTransferHandler.doExecute` leaves behind, whichever of its calls are rejected.
-/

namespace Kudi

open Interleave

/-! ## Meanwhile -/

inductive Intervenes : Store → Store → Prop
  | time {s : Store} (ms : Nat) : Intervenes s (tick ms s)
  | lifecycle {s : Store} {j : PId} {op : AccountOperation} {row : AccountRecord} {a b : Account}
      (hop : op.assigns.isSome = true) (hrow : s.db.accounts.find? row.id = some row)
      (hload : AccountMapper.toDomain row = .ok a) (happly : op.apply a = .ok b) :
      Intervenes s (s.write j .prisma (.account (AccountMapper.toPersistence b) b.domainEvents))

def Meanwhile : Store → Store → Prop := Relation.ReflTransGen Intervenes

/-- A row after a lifecycle operation. -/
structure Touched (r r' : AccountRecord) : Prop where
  balance : r'.balance = r.balance
  currency : r'.currency = r.currency
  version : r'.version = r.version + 1
  loads : ∃ b, AccountMapper.toDomain r' = .ok b

theorem touched_of_apply {op : AccountOperation} {r : AccountRecord} {a b : Account} (hop : op.assigns.isSome = true)
    (hload : AccountMapper.toDomain r = .ok a) (happly : op.apply a = .ok b) :
    Touched r (AccountMapper.toPersistence b) ∧ b.id = r.id := by
  obtain ⟨rfl, hcurrency, -⟩ := AccountMapper.toDomain_ok hload
  have hb : b.id = a.id ∧ b.currency = a.currency ∧ b.balance = a.balance ∧ b.version = a.version + 1 := by
    cases op with
    | credit amount reference => cases hop
    | debit amount reference => cases hop
    | close =>
      simp only [AccountOperation.apply, Account.close] at happly
      split at happly
      · cases happly
      · cases happly
        exact ⟨rfl, rfl, rfl, rfl⟩
    | activate | freeze reason | unfreeze =>
      cases happly
      exact ⟨rfl, rfl, rfl, rfl⟩
  obtain ⟨hid, hbc, hbalance, hversion⟩ := hb
  refine ⟨⟨?_, hbc, hversion, _, AccountMapper.toDomain_toPersistence ?_⟩, hid⟩
  · exact congrArg (fun m : Money => (m.minorUnits : Int)) hbalance
  · rw [hbalance, hbc, hcurrency]

/-- What a lifecycle operation leaves alone, and what it does to a row. -/
theorem Intervenes.spec {s s' : Store} (h : Intervenes s s') : s'.db.transfers = s.db.transfers ∧
    ∀ id, s'.db.accounts.find? id = s.db.accounts.find? id ∨
      ∃ r r', s.db.accounts.find? id = some r ∧ s'.db.accounts.find? id = some r' ∧ Touched r r' := by
  cases h with
  | time ms => exact ⟨rfl, fun id => .inl rfl⟩
  | @lifecycle j op row a b hop hrow hload happly =>
    obtain ⟨htouched, hid⟩ := touched_of_apply hop hload happly
    have hbid : (AccountMapper.toPersistence b).id = row.id := hid
    refine ⟨rfl, fun id => ?_⟩
    show (s.db.accounts.put (AccountMapper.toPersistence b)).find? id = _ ∨ _
    by_cases h : (AccountMapper.toPersistence b).id = id
    · refine .inr ⟨row, AccountMapper.toPersistence b, ?_, ?_, htouched⟩
      · rw [← h, hbid]
        exact hrow
      · show (s.db.accounts.put (AccountMapper.toPersistence b)).find? id = _
        rw [← h]
        exact Table.find?_put_self _ _
    · exact .inl (Table.find?_put_ne _ h)

/-- A row stays what it is or gets another version. -/
theorem Meanwhile.row {s s' : Store} (h : Meanwhile s s') {id : String} {r : AccountRecord}
    (hr : s.db.accounts.find? id = some r) :
    ∃ r', s'.db.accounts.find? id = some r' ∧ (r' = r ∨ r.version < r'.version) := by
  induction h with
  | refl => exact ⟨r, hr, .inl rfl⟩
  | tail _ hstep ih =>
    obtain ⟨r1, hr1, hsince⟩ := ih
    rcases hstep.spec.2 id with hsame | ⟨r2, r3, hr2, hr3, ht⟩
    · exact ⟨r1, hsame.trans hr1, hsince⟩
    · obtain rfl := Option.some.inj (hr1.symm.trans hr2)
      have hversion := ht.version
      refine ⟨r3, hr3, .inr ?_⟩
      rcases hsince with rfl | hlt
      · omega
      · omega

/-! ## What stays as it was -/

/-- The money on an account. -/
def Store.funds (s : Store) (id : String) : Option (Int × Currency) :=
  (s.db.accounts.find? id).map fun r => (r.balance, r.currency)

/-- The row of account `id` loads, with this balance. -/
def Holds (id : String) (balance : Money) (s : Store) : Prop :=
  ∃ a : Account, s.db.accounts.find? id = some (AccountMapper.toPersistence a) ∧
    a.balance.currency = a.currency ∧ a.balance = balance

theorem Holds.funds {id : String} {balance : Money} {s : Store} (h : Holds id balance s) :
    s.funds id = some ((balance.minorUnits : Int), balance.currency) := by
  obtain ⟨a, hrow, hcurrency, rfl⟩ := h
  simp only [Store.funds, hrow, Option.map_some, AccountMapper.toPersistence, hcurrency]

/-- ... and these are all transfers. -/
def HoldsWith (id : String) (balance : Money) (transfers : Table TransferRecord.id) (s : Store) : Prop :=
  Holds id balance s ∧ s.db.transfers = transfers

theorem Holds.write {id : String} {balance : Money} {s : Store} (h : Holds id balance s) (i : PId) {w : Write}
    (hw : w.account? = none) : Holds id balance (s.write i .prisma w) := by
  rwa [Holds, Store.db_write_prisma, Db.apply_accounts_of_none hw]

/-- Between `s` and `s'` there may have been lifecycle operations, but nothing else. -/
structure Intact (s s' : Store) : Prop where
  transfers : s'.db.transfers = s.db.transfers
  funds : ∀ id, s'.funds id = s.funds id
  holds : ∀ id balance, Holds id balance s → Holds id balance s'

namespace Intact

variable {s s' s'' : Store}

theorem refl (s : Store) : Intact s s := ⟨rfl, fun _ => rfl, fun _ _ h => h⟩

theorem trans (h : Intact s s') (h' : Intact s' s'') : Intact s s'' :=
  ⟨h'.transfers.trans h.transfers, fun id => (h'.funds id).trans (h.funds id),
    fun id balance hs => h'.holds id balance (h.holds id balance hs)⟩

theorem of_tables (ha : s'.db.accounts = s.db.accounts) (ht : s'.db.transfers = s.db.transfers) : Intact s s' :=
  ⟨ht, fun id => by rw [Store.funds, ha, Store.funds], fun id balance h => by rwa [Holds, ha]⟩

theorem of_sameRows (h : s.SameRows s') : Intact s s' := of_tables (by rw [h.db]) (by rw [h.db])

theorem of_intervenes (h : Intervenes s s') : Intact s s' := by
  obtain ⟨htransfers, hrows⟩ := h.spec
  refine ⟨htransfers, fun id => ?_, fun id balance hs => ?_⟩
  · rcases hrows id with hsame | ⟨r, r', hr, hr', ht⟩
    · rw [Store.funds, hsame, Store.funds]
    · rw [Store.funds, Store.funds, hr, hr', Option.map_some, Option.map_some, ht.balance, ht.currency]
  · obtain ⟨a, hrow, hcurrency, rfl⟩ := hs
    rcases hrows id with hsame | ⟨r, r', hr, hr', ht⟩
    · exact ⟨a, hsame.trans hrow, hcurrency, rfl⟩
    · obtain ⟨b, hb⟩ := ht.loads
      obtain ⟨rfl, hbcurrency, -⟩ := AccountMapper.toDomain_ok hb
      obtain rfl : AccountMapper.toPersistence a = r := Option.some.inj (hrow.symm.trans hr)
      have hunits : (b.balance.minorUnits : Int) = a.balance.minorUnits := ht.balance
      have hcur : b.currency = a.currency := ht.currency
      refine ⟨b, hr', hbcurrency, ?_⟩
      rw [Money.mk.injEq]
      exact ⟨Int.ofNat.inj hunits, hbcurrency.trans (hcur.trans hcurrency.symm)⟩

theorem of_meanwhile (h : Meanwhile s s') : Intact s s' := by
  induction h with
  | refl => exact refl s
  | tail _ hstep ih => exact ih.trans (of_intervenes hstep)

end Intact

theorem holdsWith_stable (id : String) (balance : Money) (transfers : Table TransferRecord.id) :
    Stable Meanwhile (HoldsWith id balance transfers) :=
  ⟨fun hs h => ⟨(Intact.of_meanwhile hs).holds _ _ h.1, (Intact.of_meanwhile hs).transfers.trans h.2⟩,
    fun hs h => ⟨(Intact.of_sameRows hs).holds _ _ h.1, (Intact.of_sameRows hs).transfers.trans h.2⟩⟩

/-- The calls that save no account and no transfer. -/
structure Sideline (op : Op) : Prop where
  noTransaction : ∀ q, op ≠ .transaction q
  noAccount : op.savedAccount? = none
  noTransfer : op.savedTransfer? = none

theorem Sideline.intact {i : PId} {a : Ans} {op : Op} {r : Except Err op.Res} {s s' : Store} (h : Sideline op)
    (hx : exec i a op s = some (r, s')) : Intact s s' :=
  .of_tables (exec_accounts h.noTransaction h.noAccount hx) (exec_transfers h.noTransaction h.noTransfer hx)

/-- A program of such calls. -/
theorem sideline_run {i : PId} {ε α : Type} {p : Program ε α} {s s' : Store} {tr : List (Event Op.Res Err Store)}
    {x : Except ε α} (h : Run anySchedule Meanwhile i p s tr x s') (hp : p.Calls Sideline) :
    Intact s s' ∧ ∀ e ∈ tr, Intact e.before e.after :=
  ⟨h.keeps hp .refl .trans .of_meanwhile Sideline.intact, h.each hp Sideline.intact⟩

/-! ## The two calls on accounts -/

section
variable {i : PId} {s s' : Store} {tr : List (Event Op.Res Err Store)}

theorem PrismaAccountRepository.findById_ends {id : String} {x : Except Err (Option Account)}
    (h : Run anySchedule Meanwhile i (findById id) s tr x s') :
    ∃ load : Event Op.Res Err Store, tr = [load] ∧ Meanwhile s load.before ∧ s' = load.after ∧
      load.before.SameRows load.after ∧
      (load.rejected = true ∧ (∃ e, x = .error e) ∨
        load.rejected = false ∧ (load.before.db.accounts.find? id = none ∧ x = .ok none ∨
          ∃ row, load.before.db.accounts.find? id = some row ∧ x = (AccountMapper.toDomain row).map some)) := by
  have h : Run anySchedule Meanwhile i (Prog.await (Op.account .prisma (.findUnique id)) >>= _) s tr x s' := h
  obtain ⟨s1, a, r, s2, rest, hs, -, hx, rfl, hrest⟩ := h.await_bind
  have hsame := exec_read rfl hx
  rcases hrest with ⟨found, rfl, hrun⟩ | ⟨e, rfl, rfl, rfl, rfl⟩
  · obtain ⟨db, hview, rfl, rfl⟩ := exec_account_findUnique hx
    cases hview
    cases hfound : s2.db.accounts.find? id with
    | none =>
      rw [hfound] at hrun
      obtain ⟨rfl, rfl, rfl⟩ := hrun
      exact ⟨_, rfl, hs, rfl, hsame, .inr ⟨rfl, .inl ⟨hfound, rfl⟩⟩⟩
    | some row =>
      rw [hfound] at hrun
      rcases hrun.ofExcept_bind with ⟨account, haccount, rfl, rfl, rfl⟩ | ⟨e, he, rfl, rfl, rfl⟩
      · exact ⟨_, rfl, hs, rfl, hsame, .inr ⟨rfl, .inr ⟨row, hfound, by rw [haccount]; rfl⟩⟩⟩
      · exact ⟨_, rfl, hs, rfl, hsame, .inr ⟨rfl, .inr ⟨row, hfound, by rw [he]; rfl⟩⟩⟩
  · exact ⟨_, rfl, hs, rfl, hsame, .inl ⟨rfl, e, rfl⟩⟩

/-- One conditional update, which finds the version it expects or does nothing. -/
theorem PrismaAccountRepository.save_ends {a : Account} {x : Except Err Unit} (hv : a.version ≠ 0)
    (h : Run anySchedule Meanwhile i (save a) s tr x s') :
    ∃ update : Event Op.Res Err Store, tr = [update] ∧ Meanwhile s update.before ∧ s' = update.after ∧
      ((∃ e, x = .error e) ∧ update.before.SameRows update.after ∧
          (update.rejected = true ∨
            ∀ row, update.before.db.accounts.find? a.id = some row → row.version ≠ a.version - 1) ∨
        x = .ok () ∧ update.rejected = false ∧
          update.after = update.before.write i .prisma (.account (AccountMapper.toPersistence a) a.domainEvents) ∧
          ∃ row, update.before.db.accounts.find? a.id = some row ∧ row.version = a.version - 1) := by
  rw [save, if_neg hv] at h
  have h : Run anySchedule Meanwhile i (Prog.await (Op.account .prisma (.updateMany (a.version - 1)
    (AccountMapper.toPersistence a) a.domainEvents)) >>= _) s tr x s' := h
  obtain ⟨s1, ans, r, s2, rest, hs, -, hx, rfl, hrest⟩ := h.await_bind
  rcases hrest with ⟨n, rfl, hrun⟩ | ⟨e, rfl, rfl, rfl, rfl⟩
  · rcases exec_account_updateMany hx with ⟨rfl, rfl⟩ | ⟨rfl, rfl, -, db, row, hview, hrow, hver⟩
    · obtain ⟨rfl, rfl, rfl⟩ := hrun
      refine ⟨_, rfl, hs, rfl, .inl ⟨⟨_, rfl⟩, .refl _, .inr fun row hrow => ?_⟩⟩
      exact exec_account_missed hx Store.view_prisma hrow
    · cases hview
      obtain ⟨rfl, rfl, rfl⟩ := hrun
      exact ⟨_, rfl, hs, rfl, .inr ⟨rfl, rfl, rfl, row, hrow, hver⟩⟩
  · have hsame := (exec_error hx).resolve_right fun hc => nomatch hc.1
    exact ⟨_, rfl, hs, rfl, .inl ⟨⟨e, rfl⟩, hsame, .inl rfl⟩⟩

end

/-! ## The hold -/

/-- A call that moves money to or from account `id`. -/
def Moves (id : String) (e : Event Op.Res Err Store) : Prop := e.after.funds id ≠ e.before.funds id

theorem not_moves {id : String} {e : Event Op.Res Err Store} (h : Intact e.before e.after) : ¬ Moves id e :=
  not_not_intro (h.funds id)

theorem FlatRateFeeCalculator.calculate_external {amount fee : Money} (h : calculate amount .EXTERNAL = .ok fee) :
    0 < fee.minorUnits ∧ fee.currency = amount.currency := by
  have hflat : ∀ c, Money.fromDecimalString "10.00" c = .ok ⟨1000, c⟩ ∧
      Money.fromDecimalString "25.00" c = .ok ⟨2500, c⟩ ∧
        Money.fromDecimalString "50.00" c = .ok ⟨5000, c⟩ := by
    intro c
    cases c <;> decide
  obtain ⟨h10, h25, h50⟩ := hflat amount.currency
  simp only [calculate, reduceCtorEq, if_false, h10, h25, h50] at h
  split at h
  · cases h
    exact ⟨Nat.zero_lt_succ _, rfl⟩
  · split at h
    · cases h
      exact ⟨Nat.zero_lt_succ _, rfl⟩
    · cases h
      exact ⟨Nat.zero_lt_succ _, rfl⟩

namespace InitiateExternalTransferHandler

/-- What the command costs: `total` of the balance that it finds. -/
structure Charged (command : InitiateExternalTransferCommand) (s : Store) (balance amount fee total : Money) :
    Prop where
  funds : s.funds command.sourceAccountId = some ((balance.minorUnits : Int), balance.currency)
  parsed : Money.fromDecimalString command.amount balance.currency = .ok amount
  charged : FlatRateFeeCalculator.calculate amount .EXTERNAL = .ok fee
  summed : amount.add fee = .ok total

/-- ... and the hold has taken it. -/
structure Taken (command : InitiateExternalTransferCommand) (balance amount fee total : Money) (s s' : Store) : Prop
    extends Charged command s balance amount fee total where
  enough : total.minorUnits ≤ balance.minorUnits
  held : Holds command.sourceAccountId ⟨balance.minorUnits - total.minorUnits, balance.currency⟩ s'
  transfers : s'.db.transfers = s.db.transfers

variable {command : InitiateExternalTransferCommand} {i : PId} {s s' : Store} {tr : List (Event Op.Res Err Store)}

theorem Charged.positive {balance amount fee total : Money} (h : Charged command s balance amount fee total) :
    0 < total.minorUnits := by
  obtain ⟨-, htotal⟩ := Money.add_ok.1 h.summed
  rw [htotal]
  exact Nat.add_pos_right _ (FlatRateFeeCalculator.calculate_external h.charged).1

theorem Charged.currency {balance amount fee total : Money} (h : Charged command s balance amount fee total) :
    total.currency = balance.currency := by
  have hamount : amount.currency = balance.currency := Money.fromDecimalString_currency h.parsed
  obtain ⟨-, htotal⟩ := Money.add_ok.1 h.summed
  rw [htotal]
  exact hamount

theorem hold_ends {x : Except Err (Account × ExternalRecipient × Money × Money × Money)}
    (h : Run anySchedule Meanwhile i (hold command) s tr x s') :
    ((∃ e, x = .error e) ∧ Intact s s' ∧ ∀ e ∈ tr, ¬ Moves command.sourceAccountId e) ∨
      ∃ source recipient amount fee total balance, x = .ok (source, recipient, amount, fee, total) ∧
        Taken command balance amount fee total s s' ∧ ∃ e ∈ tr, Moves command.sourceAccountId e := by
  have h : Run anySchedule Meanwhile i (PrismaAccountRepository.findById command.sourceAccountId >>= _) s tr x s' := h
  have hfindCalls : (PrismaAccountRepository.findById command.sourceAccountId).Calls Sideline :=
    PrismaAccountRepository.findById_calls (fun _ => ⟨nofun, rfl, rfl⟩) _
  rcases h.bind with ⟨o, s1, tr1, tr2, h1, h2, rfl⟩ | ⟨e, rfl, h1⟩
  swap
  · obtain ⟨hintact, hevents⟩ := sideline_run h1 hfindCalls
    exact .inl ⟨⟨e, rfl⟩, hintact, fun e he => not_moves (hevents e he)⟩
  obtain ⟨hintact1, hevents1⟩ := sideline_run h1 hfindCalls
  obtain ⟨load, -, hload, -, -, ⟨-, e, he⟩ | ⟨-, hfound⟩⟩ := PrismaAccountRepository.findById_ends h1
  · cases he
  have hgiveUp : (∀ e ∈ tr1 ++ [], ¬ Moves command.sourceAccountId e) := fun e he =>
    not_moves (hevents1 e (by simpa using he))
  cases o with
  | none =>
    obtain ⟨rfl, rfl, rfl⟩ := h2
    exact .inl ⟨⟨_, rfl⟩, hintact1, hgiveUp⟩
  | some a =>
    obtain ⟨-, he⟩ | ⟨row, hrow, ha⟩ := hfound
    · cases he
    have ha : AccountMapper.toDomain row = .ok a := by
      cases hd : AccountMapper.toDomain row with
      | error e =>
        rw [hd] at ha
        cases ha
      | ok a' =>
        rw [hd] at ha
        cases ha
        rfl
    obtain ⟨rfl, hcurrency, -⟩ := AccountMapper.toDomain_ok ha
    have hid : a.id = command.sourceAccountId := Table.key_of_find? (r := AccountMapper.toPersistence a) hrow
    have hfunds : s.funds command.sourceAccountId = some ((a.balance.minorUnits : Int), a.balance.currency) := by
      rw [← (Intact.of_meanwhile hload).funds, Store.funds, hrow, hcurrency]
      rfl
    dsimp only at h2
    split at h2
    · obtain ⟨rfl, rfl, rfl⟩ := h2
      exact .inl ⟨⟨_, rfl⟩, hintact1, hgiveUp⟩
    rcases h2.ofExcept_bind with ⟨amount, hamount, h3⟩ | ⟨e, -, rfl, rfl, rfl⟩
    swap
    · exact .inl ⟨⟨_, rfl⟩, hintact1, hgiveUp⟩
    have hlimits : (KycTransferLimitCheckerService.assertWithinLimits command.initiatorUserId command.sourceAccountId
        amount).Calls Sideline :=
      KycTransferLimitCheckerService.assertWithinLimits_calls (fun _ => ⟨nofun, rfl, rfl⟩) ⟨nofun, rfl, rfl⟩
        (fun _ _ _ => ⟨nofun, rfl, rfl⟩) _ _ _
    rcases h3.bind with ⟨_, s2, tr3, tr4, h4, h5, rfl⟩ | ⟨e, rfl, h4⟩
    swap
    · obtain ⟨hintact, hevents⟩ := sideline_run h4 hlimits
      refine .inl ⟨⟨e, rfl⟩, hintact1.trans hintact, fun e he => not_moves ?_⟩
      exact (List.mem_append.1 he).elim (hevents1 e) (hevents e)
    obtain ⟨hintact4, hevents4⟩ := sideline_run h4 hlimits
    have hgiveUp : ∀ e ∈ tr1 ++ (tr3 ++ []), ¬ Moves command.sourceAccountId e := by
      intro e he
      rw [List.append_nil] at he
      exact not_moves ((List.mem_append.1 he).elim (hevents1 e) (hevents4 e))
    have hintact := hintact1.trans hintact4
    rcases h5.ofExcept_bind with ⟨fee, hfee, h6⟩ | ⟨e, -, rfl, rfl, rfl⟩
    swap
    · exact .inl ⟨⟨_, rfl⟩, hintact, hgiveUp⟩
    rcases h6.ofExcept_bind with ⟨total, htotal, h7⟩ | ⟨e, -, rfl, rfl, rfl⟩
    swap
    · exact .inl ⟨⟨_, rfl⟩, hintact, hgiveUp⟩
    rcases h7.ofExcept_bind with ⟨recipient, -, h8⟩ | ⟨e, -, rfl, rfl, rfl⟩
    swap
    · exact .inl ⟨⟨_, rfl⟩, hintact, hgiveUp⟩
    rcases h8.ofExcept_bind with ⟨debited, hdebited, h9⟩ | ⟨e, -, rfl, rfl, rfl⟩
    swap
    · exact .inl ⟨⟨_, rfl⟩, hintact, hgiveUp⟩
    obtain ⟨-, hsame, henough, hdebit⟩ := (Account.debit_ok hcurrency).1 hdebited
    have hdid : debited.id = command.sourceAccountId := (hdebit ▸ rfl : debited.id = a.id).trans hid
    have hdbalance : debited.balance = ⟨a.balance.minorUnits - total.minorUnits, a.balance.currency⟩ :=
      hdebit ▸ rfl
    have hdcurrency : debited.balance.currency = debited.currency := hdebit ▸ hcurrency
    have hversion : debited.version ≠ 0 := hdebit ▸ Nat.succ_ne_zero _
    rcases h9.bind with ⟨_, s3, tr5, tr6, hsave, ⟨rfl, rfl, rfl⟩, rfl⟩ | ⟨e, rfl, hsave⟩
    · obtain ⟨update, rfl, hmeanwhile, rfl, ⟨⟨e, he⟩, -⟩ | ⟨-, -, hafter, -⟩⟩ :=
        PrismaAccountRepository.save_ends hversion hsave
      · cases he
      have hbefore := hintact.trans (.of_meanwhile hmeanwhile)
      have hheld : Holds command.sourceAccountId
          ⟨a.balance.minorUnits - total.minorUnits, a.balance.currency⟩ update.after := by
        refine ⟨debited, ?_, hdcurrency, hdbalance⟩
        rw [hafter, ← hdid]
        exact Table.find?_put_self _ _
      have htaken : Taken command a.balance amount fee total s update.after := by
        refine ⟨⟨hfunds, hcurrency ▸ hamount, hfee, htotal⟩, henough, hheld, ?_⟩
        rw [hafter]
        exact hbefore.transfers
      refine .inr ⟨debited, recipient, amount, fee, total, a.balance, rfl, htaken, update, by simp, ?_⟩
      rw [Moves, hheld.funds, hbefore.funds, hfunds]
      have hpositive := htaken.positive
      simp only [ne_eq, Option.some.injEq, Prod.mk.injEq, and_true]
      omega
    · obtain ⟨update, rfl, hmeanwhile, rfl, ⟨-, hsame, -⟩ | ⟨he, -⟩⟩ :=
        PrismaAccountRepository.save_ends hversion hsave
      swap
      · cases he
      refine .inl ⟨⟨e, rfl⟩, hintact.trans ((Intact.of_meanwhile hmeanwhile).trans (.of_sameRows hsame)), ?_⟩
      intro event hevent
      rcases List.mem_append.1 hevent with hevent | hevent
      · exact not_moves (hevents1 event hevent)
      rcases List.mem_append.1 hevent with hevent | hevent
      · exact not_moves (hevents4 event hevent)
      obtain rfl := List.mem_singleton.1 hevent
      exact not_moves (.of_sameRows hsame)

/-! ## The record -/

/-- The journal of the hold, and every later one: the account holds what it held. -/
theorem postTransferJournal_keeps {transfer : Transfer} {narration : String} {legs : List LedgerPostingLeg}
    {id : String} {balance : Money} {transfers : Table TransferRecord.id} {P : Prop}
    (hlegs : ∀ currency, PrismaLedgerRecorderService.netByCurrency legs currency = 0) :
    Does Meanwhile i (HoldsWith id balance transfers) Op.onLedger P (postTransferJournal transfer narration legs)
      fun _ => HoldsWith id balance transfers :=
  PrismaLedgerRecorderService.post_does (holdsWith_stable _ _ _) hlegs fun _ _ h _ => ⟨h.1.write i rfl, h.2⟩

theorem record_ends {source : Account} {recipient : ExternalRecipient} {amount fee total balance : Money}
    {x : Except Err Transfer} (hheld : Holds command.sourceAccountId balance s)
    (h : Run anySchedule Meanwhile i (record command source recipient amount fee total) s tr x s') :
    Holds command.sourceAccountId balance s' ∧ ((∃ e, x = .error e) ∨ ∃ now reference id,
      x = .ok (Transfer.initiateExternal now reference id command.initiatorUserId command.sourceAccountId recipient
        amount fee command.narration) ∧ s.db.transfers.find? id = none ∧
      s'.db.transfers = s.db.transfers.put (TransferMapper.toPersistence (Transfer.initiateExternal now reference id
        command.initiatorUserId command.sourceAccountId recipient amount fee command.narration))) := by
  have hdraw : ∀ f : Nat → TransferReference → String → Transfer, (draw f).Calls Sideline := fun f =>
    draw_calls ⟨nofun, rfl, rfl⟩ ⟨nofun, rfl, rfl⟩ ⟨nofun, rfl, rfl⟩ f
  rcases h.bind with ⟨t, s1, tr1, tr2, h1, h2, rfl⟩ | ⟨e, rfl, h1⟩
  swap
  · exact ⟨(sideline_run h1 (hdraw _)).1.holds _ _ hheld, .inl ⟨e, rfl⟩⟩
  obtain ⟨hintact, -⟩ := sideline_run h1 (hdraw _)
  obtain ⟨now, reference, id, ht⟩ := h1.returns (draw_returns _)
  have hwith : HoldsWith command.sourceAccountId balance s.db.transfers s1 :=
    ⟨hintact.holds _ _ hheld, hintact.transfers⟩
  have hversion : t.version = 0 := ht ▸ rfl
  have hid : t.id = id := ht ▸ rfl
  have hcreate : Does Meanwhile i (HoldsWith command.sourceAccountId balance s.db.transfers)
      (· = .transfer .prisma (.create (TransferMapper.toPersistence t))) True (PrismaTransferRepository.save t)
      fun _ s2 => s.db.transfers.find? id = none ∧ HoldsWith command.sourceAccountId balance
        (s.db.transfers.put (TransferMapper.toPersistence t)) s2 := by
    refine PrismaTransferRepository.create_does (holdsWith_stable _ _ _) hversion fun s2 hs2 hnone => ?_
    refine ⟨hid ▸ hs2.2 ▸ hnone, hs2.1.write i rfl, ?_⟩
    rw [← hs2.2]
    rfl
  rcases h2.bind with ⟨_, s2, tr3, tr4, h3, h4, rfl⟩ | ⟨e, rfl, h3⟩
  swap
  · exact ⟨(hcreate.throws hwith h3).1.1, .inl ⟨e, rfl⟩⟩
  obtain ⟨-, hnone, hwith⟩ := hcreate.returns hwith h3
  have hpost : Does Meanwhile i (HoldsWith command.sourceAccountId balance
      (s.db.transfers.put (TransferMapper.toPersistence t))) Op.onLedger True
      (postTransferJournal t command.narration (holdLegs source.id source.balance total))
      fun _ => HoldsWith command.sourceAccountId balance (s.db.transfers.put (TransferMapper.toPersistence t)) :=
    postTransferJournal_keeps (PrismaLedgerRecorderService.net_holdLegs source.id source.balance total)
  rcases h4.bind with ⟨_, s3, tr5, tr6, h5, ⟨rfl, rfl, rfl⟩, rfl⟩ | ⟨e, rfl, h5⟩
  · obtain ⟨-, hwith⟩ := hpost.returns hwith h5
    subst ht
    exact ⟨hwith.1, .inr ⟨now, reference, id, rfl, hnone, hwith.2⟩⟩
  · exact ⟨(hpost.throws hwith h5).1.1, .inl ⟨e, rfl⟩⟩

end InitiateExternalTransferHandler

/-! ## The compensation -/

/-- The first two calls go through, and the account is ACTIVE at the first, and the same at the second. -/
def CreditsBack (id : String) (tr : List (Event Op.Res Err Store)) : Prop :=
  ∃ load update rest row, tr = load :: update :: rest ∧ load.rejected = false ∧ update.rejected = false ∧
    load.before.db.accounts.find? id = some row ∧ row.status = .ACTIVE ∧
      update.before.db.accounts.find? id = some row

theorem compensate_ends {i : PId} {s s' : Store} {tr : List (Event Op.Res Err Store)} {t : Transfer}
    {total balance : Money} {narration : String} {transfers : Table TransferRecord.id}
    {x : Except Err (List AccountEvent)} (hheld : HoldsWith t.sourceAccountId balance transfers s)
    (hcurrency : total.currency = balance.currency) (hpositive : 0 < total.minorUnits)
    (h : Run anySchedule Meanwhile i (compensate t (.ok total) narration) s tr x s') :
    ((∃ e, x = .error e) ∧ HoldsWith t.sourceAccountId balance transfers s' ∧
      (∀ e ∈ tr, Intact e.before e.after) ∧
        ∀ rest, ¬ CreditsBack t.sourceAccountId (tr ++ rest)) ∨
      ∃ load update journal, tr = load :: update :: journal ∧
        (∀ rest, CreditsBack t.sourceAccountId (tr ++ rest)) ∧
        Moves t.sourceAccountId update ∧
        HoldsWith t.sourceAccountId ⟨balance.minorUnits + total.minorUnits, balance.currency⟩ transfers s' ∧
        ((∃ events, x = .ok events) ∧ Through journal ∨ (∃ e, x = .error e) ∧
          Stopped Op.onLedger journal) := by
  have hstable := holdsWith_stable t.sourceAccountId balance transfers
  have h : Run anySchedule Meanwhile i (PrismaAccountRepository.findById t.sourceAccountId >>= _) s tr x s' := h
  rcases h.bind with ⟨o, s1, tr1, tr2, h1, h2, rfl⟩ | ⟨e, rfl, h1⟩
  swap
  · obtain ⟨load, rfl, hmeanwhile, rfl, hsame, hload⟩ := PrismaAccountRepository.findById_ends h1
    have hbefore := hstable.env hmeanwhile hheld
    refine .inl ⟨⟨e, rfl⟩, hstable.rows hsame hbefore, by simpa using Intact.of_sameRows hsame, fun rest => ?_⟩
    rintro ⟨load', update, rest', row, heq, hthrough, -⟩
    cases heq
    obtain ⟨⟨a, hrow, hsameCurrency, -⟩, -⟩ := hbefore
    rcases hload with ⟨hrejected, -⟩ | ⟨-, ⟨-, he⟩ | ⟨row', hrow', he⟩⟩
    · rw [hthrough] at hrejected
      cases hrejected
    · cases he
    · obtain rfl := Option.some.inj (hrow.symm.trans hrow')
      rw [AccountMapper.toDomain_toPersistence hsameCurrency] at he
      cases he
  obtain ⟨load, rfl, hmeanwhile, rfl, hsame, ⟨-, e, he⟩ | ⟨hthrough, hload⟩⟩ :=
    PrismaAccountRepository.findById_ends h1
  · cases he
  have hbefore := hstable.env hmeanwhile hheld
  have hafter := hstable.rows hsame hbefore
  obtain ⟨⟨a, hrow, hsameCurrency, rfl⟩, -⟩ := hbefore
  obtain ⟨hnone, -⟩ | ⟨row, hrow', ho⟩ := hload
  · rw [hrow] at hnone
    cases hnone
  obtain rfl := Option.some.inj (hrow.symm.trans hrow')
  rw [AccountMapper.toDomain_toPersistence hsameCurrency] at ho
  cases ho
  have h2 : Run anySchedule Meanwhile i (Prog.ofExcept (Account.credit { a with domainEvents := [] } total
    s!"reversal:{t.reference.value}") >>= _) load.after tr2 x s' := h2
  rcases h2.ofExcept_bind with ⟨credited, hcredited, h3⟩ | ⟨e, hrefused, rfl, rfl, rfl⟩
  swap
  · refine .inl ⟨⟨e, rfl⟩, hafter, by simpa using Intact.of_sameRows hsame, fun rest => ?_⟩
    rintro ⟨load', update, rest', row', heq, -, -, hrow', hactive, -⟩
    cases heq
    obtain rfl := Option.some.inj (hrow.symm.trans hrow')
    exact nomatch hrefused.symm.trans
      (Account.credit_ok.2 ⟨hactive, hcurrency.trans hsameCurrency, hcurrency.symm, rfl⟩)
  obtain ⟨hactive, -, -, hcredit⟩ := Account.credit_ok.1 hcredited
  have hactive : a.status = .ACTIVE := hactive
  have hid : credited.id = t.sourceAccountId := (show credited.id = a.id from hcredit ▸ rfl).trans
    (Table.key_of_find? (r := AccountMapper.toPersistence a) hrow)
  have hversion : credited.version = a.version + 1 := hcredit ▸ rfl
  have hcbalance : credited.balance = ⟨a.balance.minorUnits + total.minorUnits, a.balance.currency⟩ :=
    hcredit ▸ rfl
  have hccurrency : credited.balance.currency = credited.currency := hcredit ▸ hsameCurrency
  rcases h3.bind with ⟨_, s2, tr3, tr4, hsave, h4, rfl⟩ | ⟨e, rfl, hsave⟩
  · obtain ⟨update, rfl, hmeanwhile', rfl, ⟨⟨e, he⟩, -⟩ | ⟨-, hthrough', hwritten, row, hfound,
      hmatched⟩⟩ :=
      PrismaAccountRepository.save_ends (by omega) hsave
    · cases he
    have hunchanged : row = AccountMapper.toPersistence a := by
      have hloaded : load.after.db.accounts.find? t.sourceAccountId = some (AccountMapper.toPersistence a) := by
        rw [hsame.db]
        exact hrow
      obtain ⟨row', hrow', hsince⟩ := Meanwhile.row hmeanwhile' hloaded
      rw [hid] at hfound
      obtain rfl := Option.some.inj (hfound.symm.trans hrow')
      refine hsince.resolve_right fun hlt => ?_
      have hlt : a.version < row.version := hlt
      omega
    rw [hid, hunchanged] at hfound
    have hwith : HoldsWith t.sourceAccountId ⟨a.balance.minorUnits + total.minorUnits, a.balance.currency⟩ transfers
        update.after := by
      refine ⟨⟨credited, ?_, hccurrency, hcbalance⟩, ?_⟩
      · rw [hwritten, ← hid]
        exact Table.find?_put_self _ _
      · rw [hwritten]
        exact (hstable.env hmeanwhile' hafter).2
    have hpost : Does Meanwhile i (HoldsWith t.sourceAccountId
        ⟨a.balance.minorUnits + total.minorUnits, a.balance.currency⟩ transfers) Op.onLedger False
        (postTransferJournal t narration (reversalLegs credited.id credited.balance total)) fun _ =>
          HoldsWith t.sourceAccountId ⟨a.balance.minorUnits + total.minorUnits, a.balance.currency⟩ transfers :=
      InitiateExternalTransferHandler.postTransferJournal_keeps
        (PrismaLedgerRecorderService.net_reversalLegs credited.id credited.balance total)
    have hmoves : Moves t.sourceAccountId update := by
      rw [Moves, hwith.1.funds, (hstable.env hmeanwhile' hafter).1.funds]
      simp only [ne_eq, Option.some.injEq, Prod.mk.injEq, and_true]
      omega
    have hcredits : ∀ journal rest, CreditsBack t.sourceAccountId ([load] ++ ([update] ++ journal) ++ rest) :=
      fun journal rest => ⟨load, update, journal ++ rest, _, by simp, hthrough, hthrough', hrow, hactive, hfound⟩
    rcases h4.bind with ⟨_, s3, tr5, tr6, h5, ⟨rfl, rfl, rfl⟩, rfl⟩ | ⟨e, rfl, h5⟩
    · obtain ⟨hjournal, hwith⟩ := hpost.returns hwith h5
      exact .inr ⟨load, update, tr5 ++ [], rfl, hcredits _, hmoves, hwith,
        .inl ⟨⟨_, rfl⟩, hjournal.append .nil⟩⟩
    · obtain ⟨hwith, hjournal⟩ := hpost.throws hwith h5
      exact .inr ⟨load, update, tr4, rfl, hcredits _, hmoves, hwith,
        .inr ⟨⟨e, rfl⟩, hjournal.resolve_right fun h => h.1⟩⟩
  · obtain ⟨update, rfl, hmeanwhile', rfl, ⟨-, hsame', hmissed⟩ | ⟨he, -⟩⟩ :=
      PrismaAccountRepository.save_ends (by omega) hsave
    swap
    · cases he
    refine .inl ⟨⟨e, rfl⟩, hstable.rows hsame' (hstable.env hmeanwhile' hafter), ?_, fun rest => ?_⟩
    · simpa using ⟨Intact.of_sameRows hsame, Intact.of_sameRows hsame'⟩
    · rintro ⟨load', update', rest', row', heq, -, hthrough', hrow', -, hfound⟩
      cases heq
      obtain rfl := Option.some.inj (hrow.symm.trans hrow')
      rcases hmissed with hrejected | hmissed
      · rw [hthrough'] at hrejected
        cases hrejected
      · rw [hid] at hmissed
        have hversion' := hmissed _ hfound
        exact hversion' (by rw [hversion]; rfl)

/-- The calls on ledger and transfers. -/
def Op.onBooks : Op → Prop
  | .ledgerEntry .. | .transfer .. => True
  | _ => False

/-- ... and all that is entered in the books goes through. -/
def Compensable (id : String) (tr : List (Event Op.Res Err Store)) : Prop :=
  CreditsBack id tr ∧ ∀ e ∈ tr.drop 2, e.op.onBooks → e.rejected = false

theorem not_compensable {id : String} {load update : Event Op.Res Err Store}
    {rest rest' : List (Event Op.Res Err Store)} {T : Op → Prop} (h : Stopped T rest)
    (hT : ∀ op, T op → op.onBooks) :
    ¬ Compensable id (load :: update :: (rest ++ rest')) := by
  obtain ⟨before, last, rfl, -, hrejected, hop⟩ := h
  rintro ⟨-, hthrough⟩
  have hlast := hthrough last (by simp) (hT _ hop)
  rw [hrejected] at hlast
  cases hlast

namespace InitiateExternalTransferHandler

variable {command : InitiateExternalTransferCommand} {i : PId} {s s' : Store} {tr tail : List (Event Op.Res Err Store)}
  {events : List DomainEvent} {payoutError : Err} {t : Transfer} {total balance : Money}
  {transfers : Table TransferRecord.id} {α : Type}

/-- The `catch` block, and `tail`, which is no call on the books: all is undone, or the money is still held, or the
transfer is still open. -/
theorem reverse_ends {x : Except Err α} {old : TransferRecord} (hopen : t.status.isTerminal = false)
    (hold : transfers.find? t.id = some old) (hversion : old.version = t.version)
    (hheld : HoldsWith t.sourceAccountId balance transfers s) (hcurrency : total.currency = balance.currency)
    (hpositive : 0 < total.minorUnits)
    (h : Run anySchedule Meanwhile i (reverse command total events payoutError t : Handler α) s tr x s')
    (htail : ∀ e ∈ tail, ¬ e.op.onBooks) : (∃ e, x = .error e) ∧
    (Compensable t.sourceAccountId (tr ++ tail) ∧ (∃ row, row.id = t.id ∧ row.status = .REVERSED ∧
        HoldsWith t.sourceAccountId ⟨balance.minorUnits + total.minorUnits, balance.currency⟩
          (transfers.put row) s') ∨
      ¬ Compensable t.sourceAccountId (tr ++ tail) ∧ (Holds t.sourceAccountId balance s' ∨
        HoldsWith t.sourceAccountId ⟨balance.minorUnits + total.minorUnits, balance.currency⟩ transfers s')) := by
  rcases h.bind with ⟨accountEvents, s1, tr1, tr2, h1, h2, rfl⟩ | ⟨e, rfl, h1⟩
  swap
  · refine ⟨⟨e, rfl⟩, .inr ?_⟩
    rcases compensate_ends hheld hcurrency hpositive h1 with ⟨-, hs', -, hrefused⟩ |
      ⟨load, update, journal, rfl, -, -, hs', hpart⟩
    · exact ⟨fun hc => hrefused tail hc.1, .inl hs'.1⟩
    · rcases hpart with ⟨⟨events, he⟩, -⟩ | ⟨-, hstopped⟩
      · cases he
      · exact ⟨not_compensable hstopped fun op hop => by cases op <;> trivial, .inr hs'⟩
  rcases compensate_ends hheld hcurrency hpositive h1 with ⟨⟨e, he⟩, -⟩ |
    ⟨load, update, journal, rfl, hcredits, -, hs1, hpart⟩
  · cases he
  obtain ⟨-, hjournal⟩ | ⟨⟨e, he⟩, -⟩ := hpart
  swap
  · cases he
  rw [Transfer.markReversed_of hopen] at h2
  generalize hmarked : ({ t with
      status := .REVERSED
      failureReason := some (payoutError.messageOr "Payout provider error")
      version := t.version + 1
      domainEvents := t.domainEvents ++ [.reversed t.id t.reference.value] } : Transfer) = marked at h2
  have hmid : marked.id = t.id := hmarked ▸ rfl
  have hmversion : marked.version = t.version + 1 := hmarked ▸ rfl
  have hmstatus : marked.status = .REVERSED := hmarked ▸ rfl
  have hsave : Does Meanwhile i (HoldsWith t.sourceAccountId
      ⟨balance.minorUnits + total.minorUnits, balance.currency⟩ transfers)
      (· = .transfer .prisma (.updateMany (marked.version - 1) (TransferMapper.toPersistence marked))) False
      (PrismaTransferRepository.save marked) fun _ => HoldsWith t.sourceAccountId
        ⟨balance.minorUnits + total.minorUnits, balance.currency⟩
        (transfers.put (TransferMapper.toPersistence marked)) := by
    refine PrismaTransferRepository.save_does (holdsWith_stable _ _ _) (by omega) (fun s2 hs2 => ?_) fun s2 hs2 => ?_
    · exact ⟨old, by rw [hs2.2, hmid]; exact hold, by omega⟩
    · exact ⟨hs2.1.write i rfl, hs2.2 ▸ rfl⟩
  have h2 : Run anySchedule Meanwhile i (PrismaTransferRepository.save marked >>= _) s1 tr2 x s' := h2
  rcases h2.bind with ⟨_, s2, tr3, tr4, h3, h4, rfl⟩ | ⟨e, rfl, h3⟩
  swap
  · obtain ⟨hs2, hstopped⟩ := hsave.throws hs1 h3
    refine ⟨⟨e, rfl⟩, .inr ⟨?_, .inr hs2⟩⟩
    have hstopped := (hstopped.resolve_right fun h => h.1).append hjournal
    refine not_compensable hstopped fun op hop => ?_
    rw [hop]
    trivial
  obtain ⟨hthrough, hs2⟩ := hsave.returns hs1 h3
  have hthrown : ∃ e, x = .error e := by
    rcases h4.bind with ⟨_, s3, tr5, tr6, -, ⟨-, rfl, -⟩, -⟩ | ⟨e, rfl, -⟩
    · exact ⟨_, rfl⟩
    · exact ⟨e, rfl⟩
  have hpublish : ∀ e ∈ tr4, e.op.isPublish :=
    h4.calls (.bind (publishAll_calls (T := Op.isPublish) (fun _ => trivial) _) fun _ => trivial)
  have hsideline : Intact s2 s' :=
    (sideline_run h4 (.bind (publishAll_calls (fun _ => ⟨nofun, rfl, rfl⟩) _) fun _ => trivial)).1
  refine ⟨hthrown, .inl ⟨⟨?_, fun e he hbooks => ?_⟩, TransferMapper.toPersistence marked, hmid,
    hmstatus, ?_⟩⟩
  · rw [List.append_assoc]
    exact hcredits _
  · have he : e ∈ journal ++ (tr3 ++ tr4) ++ tail := by simpa using he
    simp only [List.mem_append] at he
    rcases he with (he | he | he) | he
    · exact hjournal e he
    · exact hthrough e he
    · have hop := hpublish e he
      cases hbook : e.op <;> rw [hbook] at hop hbooks <;> trivial
    · exact absurd hbooks (htail e he)
  · exact ⟨hsideline.holds _ _ hs2.1, hsideline.transfers.trans hs2.2⟩

end InitiateExternalTransferHandler

end Kudi
