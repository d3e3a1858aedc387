import KudiCore.Shared.Money

/-!
# The `Account` aggregate

| here | there |
| --- | --- |
| `AccountStatus` | `shared/enums/account-status.enum.ts` |
| `AccountNumber` | `modules/accounts/domain/value-objects/account-number.vo.ts` |
| `Account` | `modules/accounts/domain/entities/account.entity.ts` |
| `AccountEvent` | `modules/accounts/domain/events/*.ts` |
| `AccountRecord` | `model Account` in `schema.prisma`, the same columns |
| `AccountMapper` | `modules/accounts/infrastructure/mappers/account.mapper.ts` |

`accountType` and the two timestamps of an account are never read by the code below and are left out.

Every mutator bumps `version` exactly once. `Mutates r data events` is all that the rest of the
development needs to know about one mutator between a load of row `r` and a save of row `data`:
one version further, the balance moved by the recorded credits and debits, still not negative.
-/

namespace Kudi

inductive AccountStatus where
  | ACTIVE | DORMANT | FROZEN | CLOSED | PENDING_VERIFICATION
deriving DecidableEq, Repr

def AccountStatus.value : AccountStatus → String
  | .ACTIVE => "ACTIVE"
  | .DORMANT => "DORMANT"
  | .FROZEN => "FROZEN"
  | .CLOSED => "CLOSED"
  | .PENDING_VERIFICATION => "PENDING_VERIFICATION"

/-! ## Exceptions -/

def accountNotFound (identifier : String) : Err :=
  .exception "AccountNotFoundException" s!"Account not found: {identifier}" "ACCOUNT_NOT_FOUND"

def accountNotActive (accountId : String) (status : AccountStatus) : Err :=
  .exception "AccountNotActiveException"
    s!"Account {accountId} is not active (current status: {status.value})" "ACCOUNT_NOT_ACTIVE"

def accountCurrencyMismatch (accountCurrency amountCurrency : Currency) : Err :=
  .exception "CurrencyMismatchException"
    s!"Currency mismatch: account is {accountCurrency.value}, amount is {amountCurrency.value}"
    "CURRENCY_MISMATCH"

def accountClosureNotAllowed (accountId reason : String) : Err :=
  .exception "AccountClosureNotAllowedException" s!"Account {accountId} cannot be closed: {reason}"
    "ACCOUNT_CLOSURE_NOT_ALLOWED"

def insufficientFunds (accountId : String) : Err :=
  .exception "InsufficientFundsException" s!"Account {accountId} has insufficient funds"
    "INSUFFICIENT_FUNDS"

/-! ## `AccountNumber` -/

/-- `/^\d{10}$/`. -/
def isNuban (s : String) : Bool := s.toList.length == 10 && s.toList.all isDigit

structure AccountNumber where
  value : String
  valid : isNuban value = true
deriving DecidableEq

def AccountNumber.create (rawNumber : String) : Except Err AccountNumber :=
  if h : isNuban rawNumber = true then .ok ⟨rawNumber, h⟩
  else .error (domainException s!"Invalid account number, expected 10 digits (NUBAN): {rawNumber}"
    "INVALID_ACCOUNT_NUMBER")

def sampleNumber : AccountNumber := ⟨"0123456789", by decide⟩

theorem AccountNumber.create_value (n : AccountNumber) : AccountNumber.create n.value = .ok n := by
  simp [create, n.valid]

/-! ## The aggregate -/

inductive AccountEvent where
  | opened (accountId userId accountNumber : String) (currency : Currency)
  | credited (accountId : String) (amount : Money) (reference : String) (balanceAfter : Nat)
  | debited (accountId : String) (amount : Money) (reference : String) (balanceAfter : Nat)
  | frozen (accountId reason : String)
  | unfrozen (accountId : String)
  | activated (accountId : String)
  | closed (accountId : String)
deriving DecidableEq, Repr

structure Account where
  id : String
  userId : String
  accountNumber : AccountNumber
  currency : Currency
  balance : Money
  status : AccountStatus
  version : Nat
  domainEvents : List AccountEvent
deriving DecidableEq

namespace Account

/-- `Account.open`; `id` is the UUID it draws. -/
def opened (id userId : String) (accountNumber : AccountNumber) (currency : Currency) : Account :=
  { id, userId, accountNumber, currency, balance := .zero currency, status := .PENDING_VERIFICATION, version := 0,
    domainEvents := [.opened id userId accountNumber.value currency] }

def touch (a : Account) : Account := { a with version := a.version + 1 }

def addDomainEvent (a : Account) (e : AccountEvent) : Account :=
  { a with domainEvents := a.domainEvents ++ [e] }

/-- The events, and the aggregate with none left. -/
def pullDomainEvents (a : Account) : List AccountEvent × Account :=
  (a.domainEvents, { a with domainEvents := [] })

def activate (a : Account) : Account :=
  ({ a with status := .ACTIVE }.touch).addDomainEvent (.activated a.id)

def assertOperable (a : Account) : Except Err Unit :=
  if a.status ≠ .ACTIVE then .error (accountNotActive a.id a.status) else .ok ()

def assertCurrencyMatches (a : Account) (amount : Money) : Except Err Unit :=
  if amount.currency ≠ a.currency then .error (accountCurrencyMismatch a.currency amount.currency)
  else .ok ()

def credit (a : Account) (amount : Money) (reference : String) : Except Err Account := do
  a.assertOperable
  a.assertCurrencyMatches amount
  let balance ← a.balance.add amount
  let a := { a with balance := balance }.touch
  return a.addDomainEvent (.credited a.id amount reference a.balance.minorUnits)

def debit (a : Account) (amount : Money) (reference : String) : Except Err Account := do
  a.assertOperable
  a.assertCurrencyMatches amount
  if !(← a.balance.isGreaterThanOrEqualTo amount) then
    throw (insufficientFunds a.id)
  let balance ← a.balance.subtract amount
  let a := { a with balance := balance }.touch
  return a.addDomainEvent (.debited a.id amount reference a.balance.minorUnits)

def freeze (a : Account) (reason : String) : Account :=
  ({ a with status := .FROZEN }.touch).addDomainEvent (.frozen a.id reason)

def unfreeze (a : Account) : Account :=
  ({ a with status := .ACTIVE }.touch).addDomainEvent (.unfrozen a.id)

def close (a : Account) : Except Err Account :=
  if !a.balance.isZero then .error (accountClosureNotAllowed a.id "balance must be zero to close")
  else .ok (({ a with status := .CLOSED }.touch).addDomainEvent (.closed a.id))

end Account

/-! ## Rows -/

structure AccountRecord where
  id : String
  userId : String
  accountNumber : String
  currency : Currency
  balance : Int
  status : AccountStatus
  version : Nat
deriving DecidableEq, Repr

namespace AccountMapper

def toDomain (record : AccountRecord) : Except Err Account := do
  let accountNumber ← AccountNumber.create record.accountNumber
  let balance ← Money.fromMinorUnits record.balance record.currency
  return { id := record.id, userId := record.userId, accountNumber, currency := record.currency, balance,
           status := record.status, version := record.version, domainEvents := [] }

def toPersistence (account : Account) : AccountRecord :=
  { id := account.id, userId := account.userId, accountNumber := account.accountNumber.value,
    currency := account.currency, balance := account.balance.minorUnits, status := account.status,
    version := account.version }

theorem toDomain_ok {r : AccountRecord} {a : Account} (h : toDomain r = .ok a) :
    toPersistence a = r ∧ a.balance.currency = a.currency ∧ a.domainEvents = [] := by
  unfold toDomain at h
  cases hn : AccountNumber.create r.accountNumber with
  | error e => simp [hn, bind, Except.bind] at h
  | ok n =>
    cases hb : Money.fromMinorUnits r.balance r.currency with
    | error e => simp [hn, hb, bind, Except.bind] at h
    | ok b =>
      simp only [hn, hb, bind, Except.bind, pure, Except.pure, Except.ok.injEq] at h
      subst h
      obtain ⟨h0, rfl⟩ := Money.fromMinorUnits_ok.1 hb
      have hv : n.value = r.accountNumber := by
        unfold AccountNumber.create at hn
        split at hn
        · simp only [Except.ok.injEq] at hn
          exact hn ▸ rfl
        · cases hn
      refine ⟨?_, rfl, rfl⟩
      simp [toPersistence, hv, Int.toNat_of_nonneg h0]

/-- A saved aggregate loads again as itself, its events apart. -/
theorem toDomain_toPersistence {a : Account} (h : a.balance.currency = a.currency) :
    toDomain (toPersistence a) = .ok { a with domainEvents := [] } := by
  obtain ⟨id, uid, num, cur, ⟨n, cur'⟩, st, v, ev⟩ := a
  simp only at h
  subst h
  simp [toDomain, toPersistence, AccountNumber.create_value, Money.fromMinorUnits_cast, bind, Except.bind,
    pure, Except.pure]

end AccountMapper

/-! ## What one mutator does to a row -/

def AccountEvent.creditedAmount : AccountEvent → Nat
  | .credited _ amount _ _ => amount.minorUnits
  | _ => 0

def AccountEvent.debitedAmount : AccountEvent → Nat
  | .debited _ amount _ _ => amount.minorUnits
  | _ => 0

/-- Credits minus debits recorded in `events`. -/
def netOfEvents (events : List AccountEvent) : Int :=
  (events.map fun e => (e.creditedAmount : Int) - e.debitedAmount).sum

/-- Row `data` is row `r` after one mutator that recorded `events`. -/
structure Mutates (r data : AccountRecord) (events : List AccountEvent) : Prop where
  id : data.id = r.id
  version : data.version = r.version + 1
  balance : data.balance = r.balance + netOfEvents events
  nonneg : 0 ≤ data.balance

namespace Account

variable {a a' : Account} {amount : Money} {reference : String}

theorem credit_ok : a.credit amount reference = .ok a' ↔
    a.status = .ACTIVE ∧ amount.currency = a.currency ∧ a.balance.currency = amount.currency ∧
      a' = { a with
        balance := ⟨a.balance.minorUnits + amount.minorUnits, a.balance.currency⟩
        version := a.version + 1
        domainEvents := a.domainEvents ++
          [.credited a.id amount reference (a.balance.minorUnits + amount.minorUnits)] } := by
  by_cases hs : a.status = .ACTIVE
  · by_cases hc : amount.currency = a.currency
    · by_cases hb : a.balance.currency = amount.currency
      · have hadd : a.balance.add amount =
            .ok ⟨a.balance.minorUnits + amount.minorUnits, a.balance.currency⟩ := Money.add_ok.2 ⟨hb, rfl⟩
        simp only [credit, assertOperable, assertCurrencyMatches, hs, hc, hadd, ne_eq, not_true_eq_false,
          if_false, bind, Except.bind, pure, Except.pure, Except.ok.injEq, touch, addDomainEvent, hb, true_and]
        exact eq_comm
      · have hadd : ∃ e, a.balance.add amount = .error e := by
          cases h : a.balance.add amount with
          | error e => exact ⟨e, rfl⟩
          | ok r => exact absurd (Money.add_ok.1 h).1 hb
        obtain ⟨e, he⟩ := hadd
        have herr : a.credit amount reference = .error e := by
          simp [credit, assertOperable, assertCurrencyMatches, hs, hc, he, bind, Except.bind]
        rw [herr]
        exact ⟨nofun, fun h => absurd h.2.2.1 hb⟩
    · simp [credit, assertOperable, assertCurrencyMatches, hs, hc, bind, Except.bind]
  · simp [credit, assertOperable, hs, bind, Except.bind]

theorem debit_ok (hab : a.balance.currency = a.currency) : a.debit amount reference = .ok a' ↔
    a.status = .ACTIVE ∧ amount.currency = a.currency ∧ amount.minorUnits ≤ a.balance.minorUnits ∧
      a' = { a with
        balance := ⟨a.balance.minorUnits - amount.minorUnits, a.balance.currency⟩
        version := a.version + 1
        domainEvents := a.domainEvents ++
          [.debited a.id amount reference (a.balance.minorUnits - amount.minorUnits)] } := by
  by_cases hs : a.status = .ACTIVE
  · by_cases hc : amount.currency = a.currency
    · have hb : a.balance.currency = amount.currency := hab.trans hc.symm
      have hge : a.balance.isGreaterThanOrEqualTo amount =
          .ok (decide (amount.minorUnits ≤ a.balance.minorUnits)) := Money.isGreaterThanOrEqualTo_ok.2 ⟨hb, rfl⟩
      by_cases hle : amount.minorUnits ≤ a.balance.minorUnits
      · have hsub : a.balance.subtract amount =
            .ok ⟨a.balance.minorUnits - amount.minorUnits, a.balance.currency⟩ :=
          Money.subtract_ok.2 ⟨hb, hle, rfl⟩
        simp only [debit, assertOperable, assertCurrencyMatches, hs, hc, hge, hle, hsub, ne_eq,
          not_true_eq_false, if_false, bind, Except.bind, pure, Except.pure, Except.ok.injEq, touch,
          addDomainEvent, decide_true, Bool.not_true, Bool.false_eq_true, true_and]
        exact eq_comm
      · simp [debit, assertOperable, assertCurrencyMatches, hs, hc, hge, hle, bind, Except.bind, throw,
          throwThe, MonadExceptOf.throw]
    · simp [debit, assertOperable, assertCurrencyMatches, hs, hc, bind, Except.bind]
  · simp [debit, assertOperable, hs, bind, Except.bind]

end Account

section
variable {r : AccountRecord} {a a' : Account} {amount : Money} {reference : String}

theorem mutates_status (h : AccountMapper.toDomain r = .ok a) (status : AccountStatus) {e : AccountEvent}
    (he : e.creditedAmount = 0 ∧ e.debitedAmount = 0) :
    let a' := ({ a with status := status }.touch).addDomainEvent e
    Mutates r (AccountMapper.toPersistence a') a'.domainEvents := by
  obtain ⟨rfl, -, hev⟩ := AccountMapper.toDomain_ok h
  refine ⟨rfl, rfl, ?_, ?_⟩
  · simp [AccountMapper.toPersistence, Account.touch, Account.addDomainEvent, hev, netOfEvents, he.1, he.2]
  · simp [AccountMapper.toPersistence, Account.touch, Account.addDomainEvent]

theorem mutates_activate (h : AccountMapper.toDomain r = .ok a) :
    Mutates r (AccountMapper.toPersistence a.activate) a.activate.domainEvents :=
  mutates_status h .ACTIVE ⟨rfl, rfl⟩

theorem mutates_freeze (h : AccountMapper.toDomain r = .ok a) (reason : String) :
    Mutates r (AccountMapper.toPersistence (a.freeze reason)) (a.freeze reason).domainEvents :=
  mutates_status h .FROZEN ⟨rfl, rfl⟩

theorem mutates_unfreeze (h : AccountMapper.toDomain r = .ok a) :
    Mutates r (AccountMapper.toPersistence a.unfreeze) a.unfreeze.domainEvents :=
  mutates_status h .ACTIVE ⟨rfl, rfl⟩

theorem mutates_close (h : AccountMapper.toDomain r = .ok a) (hc : a.close = .ok a') :
    Mutates r (AccountMapper.toPersistence a') a'.domainEvents := by
  unfold Account.close at hc
  split at hc
  · cases hc
  · simp only [Except.ok.injEq] at hc
    exact hc ▸ mutates_status h .CLOSED ⟨rfl, rfl⟩

theorem mutates_credit (h : AccountMapper.toDomain r = .ok a) (hc : a.credit amount reference = .ok a') :
    Mutates r (AccountMapper.toPersistence a') a'.domainEvents := by
  obtain ⟨rfl, -, hev⟩ := AccountMapper.toDomain_ok h
  obtain ⟨-, -, -, rfl⟩ := Account.credit_ok.1 hc
  refine ⟨rfl, rfl, ?_, ?_⟩
  · simp [AccountMapper.toPersistence, hev, netOfEvents, AccountEvent.creditedAmount,
      AccountEvent.debitedAmount]
  · simp only [AccountMapper.toPersistence]
    omega

theorem mutates_debit (h : AccountMapper.toDomain r = .ok a) (hd : a.debit amount reference = .ok a') :
    Mutates r (AccountMapper.toPersistence a') a'.domainEvents := by
  obtain ⟨rfl, hab, hev⟩ := AccountMapper.toDomain_ok h
  obtain ⟨-, -, hle, rfl⟩ := (Account.debit_ok hab).1 hd
  refine ⟨rfl, rfl, ?_, ?_⟩
  · simp only [AccountMapper.toPersistence, hev, netOfEvents, List.nil_append, List.map_cons, List.map_nil,
      List.sum_cons, List.sum_nil, AccountEvent.creditedAmount, AccountEvent.debitedAmount]
    omega
  · simp only [AccountMapper.toPersistence]
    omega

theorem net_credit (h : AccountMapper.toDomain r = .ok a) (hc : a.credit amount reference = .ok a') :
    netOfEvents a'.domainEvents = amount.minorUnits := by
  obtain ⟨-, -, hev⟩ := AccountMapper.toDomain_ok h
  obtain ⟨-, -, -, rfl⟩ := Account.credit_ok.1 hc
  simp [hev, netOfEvents, AccountEvent.creditedAmount, AccountEvent.debitedAmount]

theorem net_debit (h : AccountMapper.toDomain r = .ok a) (hd : a.debit amount reference = .ok a') :
    netOfEvents a'.domainEvents = -amount.minorUnits := by
  obtain ⟨-, hab, hev⟩ := AccountMapper.toDomain_ok h
  obtain ⟨-, -, -, rfl⟩ := (Account.debit_ok hab).1 hd
  simp [hev, netOfEvents, AccountEvent.creditedAmount, AccountEvent.debitedAmount]

end

end Kudi
