import Mathlib.Data.Int.Notation
import Mathlib.Tactic.Ring

/-!
# Shared kernel: exceptions, currencies, `Money`

| here | there |
| --- | --- |
| `Err` | what a rejected promise carries |
| `Currency` | `shared/enums/currency.enum.ts` |
| `Money` | `shared/value-objects/money.vo.ts` |

A promise is rejected with a `DomainException` (`shared/exceptions/domain.exception.ts:14`) or one of its subclasses,
with a `Prisma.PrismaClientKnownRequestError`, with any other `Error`, or with a value that is none. Every factory of
`Money` rejects or cannot produce a negative amount, so `minorUnits` is a `Nat`.
-/

namespace Kudi

/-- A rejection. `name` is the exception's `this.name`. -/
inductive Err where
  | exception (name message code : String)
  | prismaKnown (code message : String)
  | error (message : String)
  | value
deriving DecidableEq, Repr

/-- `error instanceof Error ? error.message : fallback`. -/
def Err.messageOr (fallback : String) : Err → String
  | .exception _ message _ => message
  | .prismaKnown _ message => message
  | .error message => message
  | .value => fallback

/-- A plain `DomainException`. -/
def domainException (message code : String) : Err := .exception "DomainException" message code

inductive Currency where
  | NGN | USD | GBP | EUR
deriving DecidableEq, Repr

def Currency.value : Currency → String
  | .NGN => "NGN"
  | .USD => "USD"
  | .GBP => "GBP"
  | .EUR => "EUR"

/-! ## Decimal strings -/

def isDigit (c : Char) : Bool := '0' ≤ c && c ≤ '9'

/-- `BigInt(s)` on a string of digits. -/
def digitsToNat (cs : List Char) : Nat := cs.foldl (fun n c => n * 10 + (c.toNat - '0'.toNat)) 0

/-- `/^\d+(\.\d{1,2})?$/`, with the whole and the fractional part it splits into. -/
def decimalParts? (decimal : String) : Option (List Char × List Char) :=
  match decimal.toList.takeWhile isDigit, decimal.toList.dropWhile isDigit with
  | [], _ => none
  | whole, [] => some (whole, [])
  | whole, '.' :: fraction =>
    if (fraction.length = 1 ∨ fraction.length = 2) ∧ fraction.all isDigit then some (whole, fraction) else none
  | _, _ => none

/-- `fractionalPart.padEnd(2, '0')`. -/
def padEnd2 (cs : List Char) : List Char := cs ++ List.replicate (2 - cs.length) '0'

/-! ## `Money` -/

structure Money where
  minorUnits : Nat
  currency : Currency
deriving DecidableEq, Repr

namespace Money

def currencyMismatch (a b : Currency) : Err :=
  domainException s!"Currency mismatch: {a.value} vs {b.value}" "CURRENCY_MISMATCH"

def fromMinorUnits (minorUnits : Int) (currency : Currency) : Except Err Money :=
  if minorUnits < 0 then
    .error (domainException "Money amount cannot be negative" "INVALID_MONEY_AMOUNT")
  else .ok ⟨minorUnits.toNat, currency⟩

def zero (currency : Currency) : Money := ⟨0, currency⟩

def fromDecimalString (decimal : String) (currency : Currency) : Except Err Money :=
  match decimalParts? decimal with
  | none => .error (domainException s!"Invalid decimal amount: {decimal}" "INVALID_MONEY_AMOUNT")
  | some (whole, fraction) => .ok ⟨digitsToNat whole * 100 + digitsToNat (padEnd2 fraction), currency⟩

def assertSameCurrency (m other : Money) : Except Err Unit :=
  if m.currency ≠ other.currency then .error (currencyMismatch m.currency other.currency) else .ok ()

def add (m other : Money) : Except Err Money := do
  m.assertSameCurrency other
  return ⟨m.minorUnits + other.minorUnits, m.currency⟩

def subtract (m other : Money) : Except Err Money := do
  m.assertSameCurrency other
  if m.minorUnits < other.minorUnits then
    throw (domainException "Cannot subtract an amount greater than the available balance"
      "NEGATIVE_MONEY_RESULT")
  return ⟨m.minorUnits - other.minorUnits, m.currency⟩

def isGreaterThanOrEqualTo (m other : Money) : Except Err Bool := do
  m.assertSameCurrency other
  return decide (other.minorUnits ≤ m.minorUnits)

def isZero (m : Money) : Bool := m.minorUnits == 0

/-- `"1999.00"` for 199900 minor units. -/
def toMajorUnitsString (m : Money) : String :=
  let minor := toString (m.minorUnits % 100)
  s!"{m.minorUnits / 100}." ++ (if minor.length < 2 then "0" ++ minor else minor)

theorem fromMinorUnits_ok {n : Int} {c : Currency} {m : Money} :
    fromMinorUnits n c = .ok m ↔ 0 ≤ n ∧ m = ⟨n.toNat, c⟩ := by
  unfold fromMinorUnits
  by_cases h : n < 0
  · simp only [h, if_true, reduceCtorEq, false_iff, not_and]
    omega
  · simp only [h, if_false, Except.ok.injEq]
    exact ⟨fun e => ⟨by omega, e.symm⟩, fun e => e.2.symm⟩

theorem fromMinorUnits_cast (n : Nat) (c : Currency) : fromMinorUnits n c = .ok ⟨n, c⟩ := by
  simp [fromMinorUnits]

theorem fromDecimalString_currency {decimal : String} {c : Currency} {m : Money}
    (h : fromDecimalString decimal c = .ok m) : m.currency = c := by
  unfold fromDecimalString at h
  split at h <;> cases h
  rfl

theorem add_ok {m other r : Money} :
    m.add other = .ok r ↔ m.currency = other.currency ∧ r = ⟨m.minorUnits + other.minorUnits, m.currency⟩ := by
  by_cases h : m.currency = other.currency
  · have e : m.add other = .ok ⟨m.minorUnits + other.minorUnits, m.currency⟩ := by
      simp [add, assertSameCurrency, h, bind, Except.bind, pure, Except.pure]
    rw [e]
    simp only [Except.ok.injEq, h, true_and]
    exact eq_comm
  · simp [add, assertSameCurrency, h, bind, Except.bind]

theorem subtract_ok {m other r : Money} :
    m.subtract other = .ok r ↔ m.currency = other.currency ∧ other.minorUnits ≤ m.minorUnits ∧
      r = ⟨m.minorUnits - other.minorUnits, m.currency⟩ := by
  by_cases h : m.currency = other.currency
  · by_cases hlt : m.minorUnits < other.minorUnits
    · have e : ∃ x, m.subtract other = .error x := by
        simp [subtract, assertSameCurrency, h, hlt, bind, Except.bind, throw, throwThe, MonadExceptOf.throw]
      obtain ⟨x, hx⟩ := e
      simp only [hx, reduceCtorEq, h, true_and, false_iff, not_and]
      omega
    · have e : m.subtract other = .ok ⟨m.minorUnits - other.minorUnits, m.currency⟩ := by
        simp [subtract, assertSameCurrency, h, hlt, bind, Except.bind, pure, Except.pure]
      rw [e]
      simp only [Except.ok.injEq, h, true_and]
      exact ⟨fun e => ⟨by omega, e.symm⟩, fun e => e.2.symm⟩
  · simp [subtract, assertSameCurrency, h, bind, Except.bind]

theorem isGreaterThanOrEqualTo_ok {m other : Money} {b : Bool} :
    m.isGreaterThanOrEqualTo other = .ok b ↔
      m.currency = other.currency ∧ b = decide (other.minorUnits ≤ m.minorUnits) := by
  by_cases h : m.currency = other.currency
  · simp only [isGreaterThanOrEqualTo, assertSameCurrency, h, ne_eq, not_true_eq_false, if_false, bind,
      Except.bind, pure, Except.pure, Except.ok.injEq, true_and]
    exact eq_comm
  · simp [isGreaterThanOrEqualTo, assertSameCurrency, h, bind, Except.bind]

end Money

end Kudi
