import KudiCore.Runtime

/-!
# The ledger

| here | there |
| --- | --- |
| `SystemLedgerAccount` | `shared/ledger/system-ledger-account.ts` |
| `LedgerPosting` | `shared/ledger/ledger-recorder.interface.ts` |
| `PrismaLedgerRecorderService` | `shared/ledger/prisma-ledger-recorder.service.ts` |

Each row's `sourceEventId`, a random value no one reads, is left out.
-/

namespace Kudi

open Interleave

namespace SystemLedgerAccount

def feeRevenue (currency : Currency) : String := s!"system:fee-revenue:{currency.value}"
def externalPayoutClearing (currency : Currency) : String := s!"system:external-payout-clearing:{currency.value}"
def externalPayoutSettled (currency : Currency) : String := s!"system:external-payout-settled:{currency.value}"

/-- Every system account. -/
def all : List String :=
  [Currency.NGN, .USD, .GBP, .EUR].flatMap fun currency =>
    [feeRevenue currency, externalPayoutClearing currency, externalPayoutSettled currency]

theorem mem_all (currency : Currency) :
    feeRevenue currency ∈ all ∧ externalPayoutClearing currency ∈ all ∧
      externalPayoutSettled currency ∈ all := by
  cases currency <;> simp [all]

end SystemLedgerAccount

structure LedgerPostingLeg where
  accountId : String
  direction : LedgerEntryDirection
  amount : Money
  balanceAfter : Option Money
deriving DecidableEq, Repr

structure LedgerPosting where
  reference : String
  narration : String
  userId : String
  entryType : LedgerEntryType
  legs : List LedgerPostingLeg
deriving DecidableEq, Repr

def unbalancedLedgerPosting (reference : String) : Err :=
  .exception "UnbalancedLedgerPostingException"
    (s!"Ledger posting for reference \"{reference}\" does not balance — " ++
      "debits must equal credits per currency")
    "UNBALANCED_LEDGER_POSTING"

namespace PrismaLedgerRecorderService

/-- `netByCurrency.get(currency)`: debits minus credits. -/
def netByCurrency (legs : List LedgerPostingLeg) (currency : Currency) : Int :=
  ((legs.filter fun leg => leg.amount.currency = currency).map fun leg =>
    match leg.direction with
    | .DEBIT => (leg.amount.minorUnits : Int)
    | .CREDIT => -leg.amount.minorUnits).sum

def assertBalanced (posting : LedgerPosting) : Except Err Unit :=
  if posting.legs.all fun leg => netByCurrency posting.legs leg.amount.currency = 0 then .ok ()
  else .error (unbalancedLedgerPosting posting.reference)

def computeRunningBalance (client : Client) (leg : LedgerPostingLeg) : Handler Int := do
  let previous ← Prog.await (Op.ledgerEntry client (.findFirst leg.accountId))
  let previousBalance := (previous.map (·.balanceAfterMinorUnits)).getD 0
  let delta : Int := match leg.direction with
    | .CREDIT => leg.amount.minorUnits
    | .DEBIT => -leg.amount.minorUnits
  return previousBalance + delta

def balanceAfterMinorUnits (client : Client) (leg : LedgerPostingLeg) : Handler Int :=
  match leg.balanceAfter with
  | some balanceAfter => return balanceAfter.minorUnits
  | none => computeRunningBalance client leg

def row (posting : LedgerPosting) (journalId : String) (leg : LedgerPostingLeg) (balanceAfterMinorUnits : Int) :
    LedgerEntryData :=
  { journalId, accountId := leg.accountId, userId := posting.userId, direction := leg.direction,
    amountMinorUnits := leg.amount.minorUnits, balanceAfterMinorUnits, currency := leg.amount.currency,
    entryType := posting.entryType, reference := posting.reference }

/-- The loop of `post`. -/
def rows (posting : LedgerPosting) (client : Client) (journalId : String) :
    List LedgerPostingLeg → Handler (List LedgerEntryData)
  | [] => return []
  | leg :: legs => do
    let balanceAfterMinorUnits ← balanceAfterMinorUnits client leg
    let rest ← rows posting client journalId legs
    return row posting journalId leg balanceAfterMinorUnits :: rest

/-- `post(posting, tx?)`. -/
def post (posting : LedgerPosting) (client : Client) : Handler Unit := do
  Prog.ofExcept (assertBalanced posting)
  let journalId ← Prog.await Op.randomUUID
  let rows ← rows posting client journalId posting.legs
  Prog.await (Op.ledgerEntry client (.createMany rows))

/-! ### What `post` writes -/

section
variable {T : Op → Prop} {posting : LedgerPosting} {client : Client} {journalId : String}

theorem balanceAfterMinorUnits_calls (h : ∀ id, T (.ledgerEntry client (.findFirst id))) (leg : LedgerPostingLeg) :
    (balanceAfterMinorUnits client leg).Calls T := by
  unfold balanceAfterMinorUnits
  split
  · trivial
  · exact .bind (.await (h _)) fun _ => trivial

theorem rows_calls (h : ∀ id, T (.ledgerEntry client (.findFirst id))) :
    ∀ legs, (rows posting client journalId legs).Calls T
  | [] => trivial
  | leg :: legs => .bind (balanceAfterMinorUnits_calls h leg) fun _ => .bind (rows_calls h legs) fun _ => trivial

theorem post_calls (hu : T .randomUUID) (hf : ∀ id, T (.ledgerEntry client (.findFirst id)))
    (hc : ∀ data, T (.ledgerEntry client (.createMany data))) : (post posting client).Calls T :=
  .bind (.ofExcept _) fun _ => .bind (.await hu) fun _ => .bind (rows_calls hf _) fun _ => .await (hc _)

theorem balanceAfterMinorUnits_unfailing (leg : LedgerPostingLeg) :
    (balanceAfterMinorUnits client leg).Unfailing := by
  unfold balanceAfterMinorUnits
  split
  · trivial
  · exact .bind (.await _) fun _ => trivial

theorem rows_unfailing : ∀ legs, (rows posting client journalId legs).Unfailing
  | [] => trivial
  | leg :: legs => .bind (balanceAfterMinorUnits_unfailing leg) fun _ => .bind (rows_unfailing legs) fun _ => trivial

theorem post_unfailing (h : assertBalanced posting = .ok ()) : (post posting client).Unfailing :=
  .bind (.ofExcept h) fun _ => .bind (.await _) fun _ => .bind (rows_unfailing _) fun _ => .await _

/-- One row for each leg, in order, all of one journal. -/
def RowsOf (posting : LedgerPosting) (journalId : String) (legs : List LedgerPostingLeg)
    (data : List LedgerEntryData) : Prop :=
  ∃ balances : List Int, balances.length = legs.length ∧ data = List.zipWith (row posting journalId) legs balances

theorem rows_returns : ∀ legs, (rows posting client journalId legs).Returns (RowsOf posting journalId legs)
  | [] => ⟨[], rfl, rfl⟩
  | leg :: legs => .bind (Prog.returns_true _) fun b _ => .bind (rows_returns legs) fun rest h => by
    obtain ⟨bs, hl, rfl⟩ := h
    exact ⟨b :: bs, by simp [hl], rfl⟩

end

/-- What the legs book on account `accountId`: credits minus debits. -/
def legsNet (legs : List LedgerPostingLeg) (accountId : String) : Int :=
  (legs.map fun leg => if leg.accountId = accountId then
    match leg.direction with
    | .CREDIT => (leg.amount.minorUnits : Int)
    | .DEBIT => -leg.amount.minorUnits
  else 0).sum

section
variable {posting : LedgerPosting} {journalId : String} {data : List LedgerEntryData}

theorem RowsOf.length {legs : List LedgerPostingLeg} (h : RowsOf posting journalId legs data) :
    data.length = legs.length := by
  obtain ⟨bs, hl, rfl⟩ := h
  simp [hl]

theorem RowsOf.same_journal {legs : List LedgerPostingLeg} (h : RowsOf posting journalId legs data) :
    ∀ d ∈ data, d.journalId = journalId := by
  obtain ⟨bs, -, rfl⟩ := h
  intro d hd
  obtain ⟨n, hn, rfl⟩ := List.mem_iff_getElem.1 hd
  simp [row]

theorem RowsOf.net (n : Nat) : ∀ {legs : List LedgerPostingLeg} {data : List LedgerEntryData},
    RowsOf posting journalId legs data → ∀ accountId,
      ledgerNet (data.map fun d => { d with createdAt := n }) accountId = legsNet legs accountId := by
  intro legs data ⟨bs, hl, hd⟩ accountId
  subst hd
  induction legs generalizing bs with
  | nil => simp [ledgerNet, legsNet]
  | cons leg legs ih =>
    cases bs with
    | nil => simp at hl
    | cons b bs =>
      have ih := ih bs (by simpa using hl)
      simp only [ledgerNet, legsNet, List.zipWith_cons_cons, List.map_cons, List.sum_cons] at ih ⊢
      rw [ih]
      congr 1

end

end PrismaLedgerRecorderService

/-! ## The journals of a transfer -/

/-- `hold`: the debited total sits in the clearing account (initiate-external-transfer.handler.ts:149). -/
def holdLegs (account : String) (balanceAfter totalDebit : Money) : List LedgerPostingLeg :=
  [⟨account, .DEBIT, totalDebit, some balanceAfter⟩,
   ⟨SystemLedgerAccount.externalPayoutClearing totalDebit.currency, .CREDIT, totalDebit, none⟩]

/-- `if (!fee.isZero()) legs.push(…)`. -/
def feeLegs (fee : Money) : List LedgerPostingLeg :=
  if fee.isZero then [] else [⟨SystemLedgerAccount.feeRevenue fee.currency, .CREDIT, fee, none⟩]

/-- `settlementLegs`, the same in both external-transfer handlers. -/
def settlementLegs (totalDebit amount fee : Money) : List LedgerPostingLeg :=
  [⟨SystemLedgerAccount.externalPayoutClearing totalDebit.currency, .DEBIT, totalDebit, none⟩,
   ⟨SystemLedgerAccount.externalPayoutSettled amount.currency, .CREDIT, amount, none⟩] ++ feeLegs fee

/-- The clearing account relieved back to the customer, the same in both external-transfer handlers. -/
def reversalLegs (account : String) (balanceAfter totalDebit : Money) : List LedgerPostingLeg :=
  [⟨SystemLedgerAccount.externalPayoutClearing totalDebit.currency, .DEBIT, totalDebit, none⟩,
   ⟨account, .CREDIT, totalDebit, some balanceAfter⟩]

/-- The legs of an internal transfer (prisma-internal-transfer-executor.service.ts:153). -/
def internalLegs (source : String) (sourceBalance : Money) (destination : String) (destinationBalance : Money)
    (totalDebit amount fee : Money) : List LedgerPostingLeg :=
  [⟨source, .DEBIT, totalDebit, some sourceBalance⟩,
   ⟨destination, .CREDIT, amount, some destinationBalance⟩] ++ feeLegs fee

/-! ## ... balance -/

namespace PrismaLedgerRecorderService

theorem assertBalanced_of {posting : LedgerPosting} (h : ∀ currency, netByCurrency posting.legs currency = 0) :
    assertBalanced posting = .ok () := by
  simp [assertBalanced, h]

theorem net_holdLegs (account : String) (balanceAfter totalDebit : Money) (currency : Currency) :
    netByCurrency (holdLegs account balanceAfter totalDebit) currency = 0 := by
  by_cases h : totalDebit.currency = currency <;> simp [netByCurrency, holdLegs, h]

theorem net_reversalLegs (account : String) (balanceAfter totalDebit : Money) (currency : Currency) :
    netByCurrency (reversalLegs account balanceAfter totalDebit) currency = 0 := by
  by_cases h : totalDebit.currency = currency <;> simp [netByCurrency, reversalLegs, h]

theorem net_settlementLegs {totalDebit amount fee : Money} (h : amount.add fee = .ok totalDebit) (currency : Currency) :
    netByCurrency (settlementLegs totalDebit amount fee) currency = 0 := by
  obtain ⟨hc, rfl⟩ := Money.add_ok.1 h
  unfold settlementLegs feeLegs
  by_cases hz : fee.minorUnits = 0
  · by_cases hcur : amount.currency = currency <;> simp [netByCurrency, Money.isZero, hz, hcur]
  · by_cases hcur : amount.currency = currency
    · have hfee : fee.currency = currency := hc ▸ hcur
      simp only [netByCurrency, Money.isZero, hz, hcur, hfee, beq_iff_eq, if_false, List.cons_append, List.nil_append,
        List.filter_cons, List.filter_nil, decide_true, if_true, List.map_cons, List.map_nil, List.sum_cons,
          List.sum_nil]
      push_cast
      ring
    · have hfee : fee.currency ≠ currency := hc ▸ hcur
      simp [netByCurrency, Money.isZero, hz, hcur, hfee]

end PrismaLedgerRecorderService

end Kudi
