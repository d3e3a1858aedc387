import KudiCore.Transfers.Sequential

/-!
# Double entry

| here | there |
| --- | --- |
| `NetsToZero` | "DEBITs and CREDITs must net to zero per currency", in `schema.prisma` |
| `netMap` | the `Map` that `assertBalanced` fills, leg after leg |

`assertBalanced` adds up the legs, and `post` writes rows: what the rows of a posting net to is what its legs do
(`RowsOf.currencyNet`), so a posting that passes the check keeps every journal, and the ledger, at zero.
-/

namespace Kudi

open Interleave

theorem Store.SameRows.trans {s s' s'' : Store} (h : s.SameRows s') (h' : s'.SameRows s'') : s.SameRows s'' :=
  ⟨h'.db.trans h.db, h'.txs.trans h.txs, h'.wal.trans h.wal⟩

/-- The same write to the same rows. -/
theorem Store.SameRows.write {s s' : Store} {i : PId} {c : Client} {w : Write} (h : s.SameRows s') :
    (s.write i c w).SameRows (s'.write i c w) := by
  obtain ⟨db, txs, wal⟩ := h
  cases c with
  | prisma => exact ⟨by simp [db], txs, by simp [wal]⟩
  | tx => exact ⟨db, by simp [Store.write, Store.staged, txs], wal⟩

theorem TimePasses.sameRows {s s' : Store} (h : TimePasses s s') : s.SameRows s' := by
  obtain ⟨ms, rfl⟩ := h
  exact ⟨rfl, rfl, rfl⟩

/-! ## Rows that net to zero -/

/-- Credits minus debits in `currency`. -/
def currencyNet (rows : List LedgerEntryRecord) (currency : Currency) : Int :=
  ((rows.filter fun e => e.currency = currency).map fun e => e.signed).sum

def journal (rows : List LedgerEntryRecord) (journalId : String) : List LedgerEntryRecord :=
  rows.filter fun e => e.journalId = journalId

/-- In every currency: all rows together, and those of each journal. -/
structure NetsToZero (rows : List LedgerEntryRecord) : Prop where
  all : ∀ currency, currencyNet rows currency = 0
  journals : ∀ journalId currency, currencyNet (journal rows journalId) currency = 0

section
variable {rows added : List LedgerEntryRecord}

theorem currencyNet_append (rows added : List LedgerEntryRecord) (currency : Currency) :
    currencyNet (rows ++ added) currency = currencyNet rows currency + currencyNet added currency := by
  simp [currencyNet]

theorem NetsToZero.nil : NetsToZero [] := ⟨fun _ => rfl, fun _ _ => rfl⟩

theorem NetsToZero.append (h : NetsToZero rows) (h' : NetsToZero added) : NetsToZero (rows ++ added) where
  all currency := by rw [currencyNet_append, h.all, h'.all, add_zero]
  journals journalId currency := by
    rw [journal, List.filter_append, currencyNet_append]
    exact (congrArg₂ (· + ·) (h.journals journalId currency) (h'.journals journalId currency)).trans (add_zero 0)

/-- The rows of one journal that nets to zero. -/
theorem NetsToZero.of_journal {u : String} (hrows : ∀ row ∈ rows, row.journalId = u)
    (hnet : ∀ currency, currencyNet rows currency = 0) : NetsToZero rows where
  all := hnet
  journals journalId currency := by
    by_cases hu : u = journalId
    · have hall : journal rows journalId = rows := List.filter_eq_self.2 fun row hrow => by simp [hrows row hrow, hu]
      rw [hall, hnet]
    · have hnone : journal rows journalId = [] :=
        List.filter_eq_nil_iff.2 fun row hrow => by simpa [hrows row hrow] using hu
      rw [hnone]
      rfl

end

namespace PrismaLedgerRecorderService

/-! ## The check -/

/-- `netByCurrency.set(currency, (netByCurrency.get(currency) ?? 0n) + signedAmount)`. -/
def addLeg (net : Currency → Option Int) (leg : LedgerPostingLeg) : Currency → Option Int :=
  Function.update net leg.amount.currency (some ((net leg.amount.currency).getD 0 + match leg.direction with
    | .DEBIT => (leg.amount.minorUnits : Int)
    | .CREDIT => -leg.amount.minorUnits))

def netMap (legs : List LedgerPostingLeg) : Currency → Option Int := legs.foldl addLeg fun _ => none

theorem netByCurrency_cons (leg : LedgerPostingLeg) (legs : List LedgerPostingLeg) (currency : Currency) :
    netByCurrency (leg :: legs) currency = (if leg.amount.currency = currency then match leg.direction with
      | .DEBIT => (leg.amount.minorUnits : Int)
      | .CREDIT => -leg.amount.minorUnits
    else 0) + netByCurrency legs currency := by
  by_cases h : leg.amount.currency = currency <;> cases hd : leg.direction <;> simp [netByCurrency, h, hd]

/-- The loop leaves in the map what the legs of each currency come to. -/
theorem netMap_eq (legs : List LedgerPostingLeg) (currency : Currency) :
    (netMap legs currency).getD 0 = netByCurrency legs currency := by
  have hfold : ∀ (legs : List LedgerPostingLeg) (net : Currency → Option Int),
      (legs.foldl addLeg net currency).getD 0 = (net currency).getD 0 + netByCurrency legs currency := by
    intro legs
    induction legs with
    | nil => exact fun net => (add_zero _).symm
    | cons leg legs ih =>
      intro net
      rw [List.foldl_cons, ih, netByCurrency_cons, ← add_assoc]
      congr 1
      by_cases h : leg.amount.currency = currency
      · subst h
        simp [addLeg]
      · simp [addLeg, h, Function.update_of_ne (Ne.symm h)]
  rw [netMap, hfold]
  exact zero_add _

/-- The check passes exactly when every currency nets to zero, those without a leg included. -/
theorem assertBalanced_iff (posting : LedgerPosting) :
    assertBalanced posting = .ok () ↔ ∀ currency, netByCurrency posting.legs currency = 0 := by
  refine ⟨fun h currency => ?_, assertBalanced_of⟩
  by_cases hleg : ∃ leg ∈ posting.legs, leg.amount.currency = currency
  · obtain ⟨leg, hmem, rfl⟩ := hleg
    unfold assertBalanced at h
    split at h
    · rename_i hall
      exact of_decide_eq_true (List.all_eq_true.1 hall leg hmem)
    · cases h
  · have hnone : posting.legs.filter (fun leg => leg.amount.currency = currency) = [] :=
      List.filter_eq_nil_iff.2 fun leg hmem hc => hleg ⟨leg, hmem, of_decide_eq_true hc⟩
    simp [netByCurrency, hnone]

theorem assertBalanced_error {posting : LedgerPosting} (h : ¬ ∀ currency, netByCurrency posting.legs currency = 0) :
    assertBalanced posting = .error (unbalancedLedgerPosting posting.reference) := by
  rw [← assertBalanced_iff] at h
  unfold assertBalanced at h ⊢
  split at h
  · exact absurd rfl h
  · rename_i hall
    exact if_neg hall

/-! ## The rows -/

section
variable {posting : LedgerPosting} {u : String} {data : List LedgerEntryData} {legs : List LedgerPostingLeg}

/-- **What the rows net to is what the legs net to.** -/
theorem RowsOf.currencyNet (h : RowsOf posting u legs data) (n : Nat) (currency : Currency) :
    Kudi.currencyNet (data.map fun d => { d with createdAt := n }) currency = -netByCurrency legs currency := by
  obtain ⟨balances, hlength, rfl⟩ := h
  induction legs generalizing balances with
  | nil => simp [Kudi.currencyNet, netByCurrency]
  | cons leg legs ih =>
    cases balances with
    | nil => simp at hlength
    | cons balance balances =>
      have ih := ih balances (by simpa using hlength)
      rw [netByCurrency_cons, neg_add, ← ih, List.zipWith_cons_cons, List.map_cons, ← List.singleton_append,
        currencyNet_append]
      congr 1
      by_cases hc : leg.amount.currency = currency
      · cases hd : leg.direction <;> simp [Kudi.currencyNet, row, hc, LedgerEntryData.signed, hd]
      · simp [Kudi.currencyNet, row, hc]

/-- A posting that passes the check nets to zero, in its journal and altogether. -/
theorem RowsOf.netsToZero (h : RowsOf posting u legs data) (hnet : ∀ currency, netByCurrency legs currency = 0)
    (n : Nat) : NetsToZero (data.map fun d => { d with createdAt := n }) :=
  .of_journal (u := u) (fun row hrow => by
    obtain ⟨d, hd, rfl⟩ := List.mem_map.1 hrow
    exact h.same_journal d hd) fun currency => by rw [h.currencyNet, hnet, neg_zero]

end

theorem RowsOf.leg {posting : LedgerPosting} {u : String} {data : List LedgerEntryData} {legs : List LedgerPostingLeg}
    (h : RowsOf posting u legs data) {d : LedgerEntryData} (hd : d ∈ data) :
    ∃ leg ∈ legs, d.amountMinorUnits = leg.amount.minorUnits := by
  obtain ⟨balances, -, rfl⟩ := h
  rw [← List.map_uncurry_zip_eq_zipWith] at hd
  obtain ⟨⟨leg, balance⟩, hmem, rfl⟩ := List.mem_map.1 hd
  exact ⟨leg, (List.of_mem_zip hmem).1, rfl⟩

/-! ## `post` -/

theorem rows_read {posting : LedgerPosting} {client : Client} {u : String} {legs : List LedgerPostingLeg} {i : PId}
    {s s' : Store} {tr : List (Event Op.Res Err Store)} {x : Except Err (List LedgerEntryData)}
    (h : Run anySchedule TimePasses i (rows posting client u legs) s tr x s') : s.SameRows s' :=
  h.keeps (rows_calls (T := fun op => op.mutates = false) (fun _ => rfl) legs) Store.SameRows.refl
    Store.SameRows.trans TimePasses.sameRows exec_read

section
variable {posting : LedgerPosting} {client : Client}

/-- It throws before its first call exactly when some currency does not net to zero. -/
theorem post_throws_iff : post posting client = .throw (unbalancedLedgerPosting posting.reference) ↔
    ∃ currency, netByCurrency posting.legs currency ≠ 0 := by
  have hpost : post posting client = Prog.ofExcept (assertBalanced posting) >>= fun _ =>
      Prog.await Op.randomUUID >>= fun journalId => rows posting client journalId posting.legs >>= fun rows =>
        Prog.await (Op.ledgerEntry client (.createMany rows)) := rfl
  rw [hpost]
  constructor
  · intro h
    by_contra hall
    rw [(assertBalanced_iff posting).2 fun currency => by_contra fun hc => hall ⟨currency, hc⟩] at h
    cases h
  · rintro ⟨currency, hc⟩
    rw [assertBalanced_error fun hall => hc (hall currency)]
    rfl

/-- **What a balanced posting does**: one row for each leg, in order, under the journal id it has drawn; or one of its
calls is refused, and it has entered nothing. -/
theorem post_run (hnet : ∀ currency, netByCurrency posting.legs currency = 0) {i : PId} {s s' : Store}
    {tr : List (Event Op.Res Err Store)} {x : Except Err Unit}
    (h : Run anySchedule TimePasses i (post posting client) s tr x s') :
    (x = .ok () ∧ ∃ u data n, (∃ s1 s2 rest, tr = ⟨.randomUUID, .ok u, s1, s2⟩ :: rest ∧
      ∀ e ∈ rest, e.op ≠ .randomUUID) ∧
      RowsOf posting u posting.legs data ∧
      (s.write i client (.ledgerEntries (data.map fun d => { d with createdAt := n }))).SameRows s') ∨
    ((∃ e, x = .error e) ∧ (∃ e ∈ tr, e.rejected = true) ∧ s.SameRows s') := by
  have hthrown : ∀ e, x = .error e → ∃ event ∈ tr, event.rejected = true := by
    rintro e rfl
    exact h.rejected (post_unfailing (assertBalanced_of hnet))
  have hpost : post posting client = Prog.await Op.randomUUID >>= fun journalId =>
      rows posting client journalId posting.legs >>= fun rows =>
        Prog.await (Op.ledgerEntry client (.createMany rows)) := by
    show Prog.ofExcept (assertBalanced posting) >>= _ = _
    rw [assertBalanced_of hnet]
    rfl
  rw [hpost] at h
  obtain ⟨s1, a, r, s2, rest, hs1, -, hx, rfl, ⟨u, rfl, hposts⟩ | ⟨e, rfl, -, rfl, rfl⟩⟩ := h.await_bind
  · have hdrawn : s.SameRows s2 := hs1.sameRows.trans (exec_read rfl hx)
    rcases hposts.bind with ⟨data, s3, tr1, tr2, hrows, hlast, rfl⟩ | ⟨e, rfl, hrows⟩
    · have hread : s.SameRows s3 := hdrawn.trans (rows_read hrows)
      obtain ⟨s4, a', hs4, -, hx', rfl⟩ := hlast.await
      have hread : s.SameRows s4 := hread.trans hs4.sameRows
      rcases x with e | ⟨⟩
      · refine .inr ⟨⟨e, rfl⟩, hthrown e rfl, hread.trans ?_⟩
        exact (exec_error hx').resolve_right fun hc => nomatch hc.1
      · obtain ⟨rfl, -, -⟩ := exec_ledger_createMany hx'
        refine .inl ⟨rfl, u, data, s4.clock, ⟨s1, s2, _, rfl, fun e he hop => ?_⟩,
          hrows.returns (rows_returns _), hread.write⟩
        rcases List.mem_append.1 he with he | he
        · have hcall := hrows.calls (rows_calls (T := fun op => op ≠ .randomUUID) (fun _ => by simp) _) e he
          exact hcall hop
        · rw [List.mem_singleton] at he
          subst he
          cases hop
    · exact .inr ⟨⟨e, rfl⟩, hthrown e rfl, hdrawn.trans (rows_read hrows)⟩
  · exact .inr ⟨⟨e, rfl⟩, hthrown e rfl, hs1.sameRows.trans (exec_read rfl hx)⟩

end

end PrismaLedgerRecorderService

end Kudi
