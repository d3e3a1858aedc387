import Mathlib.Data.Nat.Digits.Lemmas
import Mathlib.Data.Rat.Defs
import Mathlib.Tactic.FieldSimp
import KudiCore.Shared.Money

/-!
# Amounts as text

| here | there |
| --- | --- |
| `Decimal`           | a string that `/^\d+(\.\d{1,2})?$/` matches |
| `Decimal.value`     | the number it stands for |
| `Decimal.canonical` | the same number with two digits after the point, and no zero too many before it |

`fromDecimalString` multiplies the digits out, `toMajorUnitsString` divides them off again. Both are compared with the
places that the digits stand in (`digitsToNat_eq_ofDigits`, `toDigits_digitsToNat`).
-/

namespace Kudi

/-! ## Digits -/

def digit (c : Char) : Nat := c.toNat - '0'.toNat

section
variable {c : Char} {cs : List Char}

theorem isDigit_iff : isDigit c = true ↔ '0'.toNat ≤ c.toNat ∧ c.toNat ≤ '9'.toNat := by
  rw [isDigit, Bool.and_eq_true, decide_eq_true_iff, decide_eq_true_iff]
  rfl

theorem digit_lt (h : isDigit c = true) : digit c < 10 := by
  have h := (isDigit_iff.1 h).2
  have h9 : '9'.toNat = 57 := rfl
  have h0 : '0'.toNat = 48 := rfl
  unfold digit
  omega

theorem digitChar_digit (h : isDigit c = true) : (digit c).digitChar = c := by
  obtain ⟨h0, h9⟩ := isDigit_iff.1 h
  have hall : ∀ n < 58, 48 ≤ n → Nat.digitChar (n - 48) = Char.ofNat n := by decide
  have := hall c.toNat (Nat.lt_succ_of_le h9) h0
  rwa [Char.ofNat_toNat] at this

theorem digit_digitChar {n : Nat} (h : n < 10) : digit n.digitChar = n ∧ isDigit n.digitChar = true := by
  have hall : ∀ n < 10, digit n.digitChar = n ∧ isDigit n.digitChar = true := by decide
  exact hall n h

theorem isDigit_of_mem_toDigits {n : Nat} (h : c ∈ Nat.toDigits 10 n) : isDigit c = true := by
  have hc := Nat.isDigit_of_mem_toDigits (by decide) (by decide) h
  rw [Char.isDigit, Bool.and_eq_true, decide_eq_true_iff, decide_eq_true_iff] at hc
  exact isDigit_iff.2 hc

/-! ### `BigInt` -/

theorem digitsToNat_eq_ofDigitChars (cs : List Char) : digitsToNat cs = Nat.ofDigitChars 10 cs 0 := by
  unfold digitsToNat Nat.ofDigitChars
  congr 1
  funext n c
  rw [Nat.mul_comm]

theorem digitsToNat_append (cs ds : List Char) :
    digitsToNat (cs ++ ds) = digitsToNat cs * 10 ^ ds.length + digitsToNat ds := by
  simp only [digitsToNat_eq_ofDigitChars]
  rw [Nat.ofDigitChars_append, Nat.ofDigitChars_eq_ofDigitChars_zero, Nat.mul_comm]

@[simp] theorem digitsToNat_singleton (c : Char) : digitsToNat [c] = digit c := by
  simp [digitsToNat, digit]

theorem digitsToNat_concat (cs : List Char) (c : Char) : digitsToNat (cs ++ [c]) = digitsToNat cs * 10 + digit c := by
  rw [digitsToNat_append]
  simp

theorem digitsToNat_pair (a b : Char) : digitsToNat [a, b] = digit a * 10 + digit b :=
  (digitsToNat_concat [a] b).trans (by rw [digitsToNat_singleton])

theorem digitsToNat_toDigits (n : Nat) : digitsToNat (Nat.toDigits 10 n) = n := by
  rw [digitsToNat_eq_ofDigitChars, Nat.ofDigitChars_ten_toDigits]

/-- The number that the digits stand for, place by place. -/
theorem digitsToNat_eq_ofDigits (cs : List Char) : digitsToNat cs = Nat.ofDigits 10 (cs.reverse.map digit) := by
  induction cs using List.reverseRecOn with
  | nil => rfl
  | append_singleton cs c ih =>
    rw [digitsToNat_concat, ih, List.reverse_append, List.reverse_singleton, List.singleton_append, List.map_cons,
      Nat.ofDigits_cons]
    omega

/-! ### Printing -/

/-- Without the zeros it begins with, the last digit apart. -/
def stripZeros : List Char → List Char
  | '0' :: c :: cs => stripZeros (c :: cs)
  | cs => cs

/-- Digits that do not begin with a zero are printed as they were read. -/
theorem toDigits_digitsToNat_of_head (hc : isDigit c = true) (h0 : c ≠ '0') (hcs : cs.all isDigit = true) :
    0 < digitsToNat (c :: cs) ∧ Nat.toDigits 10 (digitsToNat (c :: cs)) = c :: cs := by
  induction cs using List.reverseRecOn with
  | nil =>
    have hpos : digit c ≠ 0 := fun h => h0 (by rw [← digitChar_digit hc, h]; rfl)
    rw [digitsToNat_singleton, Nat.toDigits_of_lt_base (digit_lt hc), digitChar_digit hc]
    exact ⟨by omega, rfl⟩
  | append_singleton cs d ih =>
    rw [List.all_append, Bool.and_eq_true] at hcs
    obtain ⟨hpos, hprint⟩ := ih hcs.1
    have hd : isDigit d = true := by simpa using hcs.2
    rw [← List.cons_append, digitsToNat_concat, Nat.mul_comm]
    refine ⟨by omega, ?_⟩
    rw [← Nat.toDigits_append_toDigits (by decide) hpos (digit_lt hd), hprint, Nat.toDigits_of_lt_base (digit_lt hd),
      digitChar_digit hd]

theorem toDigits_digitsToNat (hne : cs ≠ []) (hcs : cs.all isDigit = true) :
    Nat.toDigits 10 (digitsToNat cs) = stripZeros cs := by
  induction cs with
  | nil => exact absurd rfl hne
  | cons c cs ih =>
    rw [List.all_cons, Bool.and_eq_true] at hcs
    by_cases h0 : c = '0'
    · subst h0
      cases cs with
      | nil => rfl
      | cons d ds => exact ih (List.cons_ne_nil _ _) hcs.2
    · rw [(toDigits_digitsToNat_of_head hcs.1 h0 hcs.2).2, stripZeros]
      rintro d ds ⟨⟩
      exact h0 rfl

end

/-! ## Decimal strings -/

/-- One or more digits, then maybe a point and one or two more. -/
structure Decimal where
  whole : List Char
  fraction : List Char
  whole_ne : whole ≠ []
  whole_digits : whole.all isDigit = true
  fraction_digits : fraction.all isDigit = true
  fraction_le : fraction.length ≤ 2

namespace Decimal

/-- Without a point, if no digits come after it. -/
def text (d : Decimal) : String := String.ofList (d.whole ++ if d.fraction = [] then [] else '.' :: d.fraction)

/-- What a string of digits stands for, place by place. -/
def placeValue (cs : List Char) : ℚ := Nat.ofDigits (10 : ℚ) (cs.reverse.map digit)

def value (d : Decimal) : ℚ := placeValue d.whole + placeValue d.fraction / 10 ^ d.fraction.length

def canonical (d : Decimal) : String := String.ofList (stripZeros d.whole ++ '.' :: padEnd2 d.fraction)

theorem placeValue_eq (cs : List Char) : placeValue cs = digitsToNat cs := by
  rw [digitsToNat_eq_ofDigits, Nat.coe_ofDigits]
  rfl

/-- The parser finds the parts that a decimal is written from, and no others. -/
theorem parts_iff {s : String} {whole fraction : List Char} :
    decimalParts? s = some (whole, fraction) ↔ ∃ d : Decimal, s = d.text ∧ d.whole = whole ∧
      d.fraction = fraction := by
  constructor
  · intro h
    have hsplit : s.toList.takeWhile isDigit ++ s.toList.dropWhile isDigit = s.toList := List.takeWhile_append_dropWhile
    have hdigits : (s.toList.takeWhile isDigit).all isDigit = true := List.all_takeWhile
    unfold decimalParts? at h
    generalize s.toList.takeWhile isDigit = ds at h hsplit hdigits
    generalize s.toList.dropWhile isDigit = rest at h hsplit
    split at h
    · cases h
    · next hne =>
      cases h
      refine ⟨⟨whole, [], hne, hdigits, rfl, Nat.zero_le _⟩, ?_, rfl, rfl⟩
      rw [← String.toList_inj, ← hsplit]
      simp [text]
    · next fraction' hne =>
      split_ifs at h with hfraction
      cases h
      have hnil : fraction ≠ [] := fun hnil => by simp [hnil] at hfraction
      refine ⟨⟨whole, fraction, hne, hdigits, hfraction.2, by omega⟩, ?_, rfl, rfl⟩
      rw [← String.toList_inj, ← hsplit]
      simp [text, hnil]
    · cases h
  · rintro ⟨d, rfl, rfl, rfl⟩
    obtain ⟨whole, fraction, hne, hwhole, hfraction, hle⟩ := d
    have hall : ∀ c ∈ whole, isDigit c := List.all_eq_true.1 hwhole
    unfold decimalParts?
    simp only [text, String.toList_ofList, List.takeWhile_append_of_pos hall, List.dropWhile_append_of_pos hall]
    obtain ⟨c, cs, rfl⟩ := List.exists_cons_of_ne_nil hne
    by_cases hnil : fraction = []
    · simp [hnil]
    · have hlength : fraction.length ≠ 0 := fun h => hnil (List.length_eq_zero_iff.1 h)
      have hdot : isDigit '.' = false := rfl
      simp only [hnil, if_false, List.takeWhile_cons, List.dropWhile_cons, hdot, List.append_nil, Bool.false_eq_true]
      rw [if_pos ⟨by omega, hfraction⟩]

/-- In minor units. -/
def minorUnits (d : Decimal) : Nat := digitsToNat d.whole * 100 + digitsToNat (padEnd2 d.fraction)

theorem fromDecimalString_text (d : Decimal) (currency : Currency) :
    Money.fromDecimalString d.text currency = .ok ⟨d.minorUnits, currency⟩ := by
  rw [Money.fromDecimalString, parts_iff.2 ⟨d, rfl, rfl, rfl⟩]
  rfl

theorem of_fromDecimalString {s : String} {currency : Currency} {m : Money}
    (h : Money.fromDecimalString s currency = .ok m) : ∃ d : Decimal, s = d.text := by
  unfold Money.fromDecimalString at h
  split at h
  · cases h
  · next hparts =>
    obtain ⟨d, hd, -⟩ := parts_iff.1 hparts
    exact ⟨d, hd⟩

/-- The fraction, filled up with zeros. -/
theorem padEnd2_digits (d : Decimal) : ∃ a b, padEnd2 d.fraction = [a, b] ∧ isDigit a = true ∧
    isDigit b = true := by
  obtain ⟨whole, fraction, hne, hwhole, hfraction, hle⟩ := d
  match fraction, hfraction, hle with
  | [], _, _ => exact ⟨'0', '0', rfl, rfl, rfl⟩
  | [a], h, _ => exact ⟨a, '0', rfl, by simpa using h, rfl⟩
  | [a, b], h, _ =>
    simp only [List.all_cons, List.all_nil, Bool.and_true, Bool.and_eq_true] at h
    exact ⟨a, b, rfl, h.1, h.2⟩

/-- A hundred times the value: no digit is lost. -/
theorem minorUnits_eq (d : Decimal) : (d.minorUnits : ℚ) = 100 * d.value := by
  have hpad : ∀ n : Nat, digitsToNat (List.replicate n '0') = 0 := fun n => by
    rw [digitsToNat_eq_ofDigitChars, Nat.ofDigitChars_replicate_zero, Nat.mul_zero]
  have hfraction : digitsToNat (padEnd2 d.fraction) = digitsToNat d.fraction * 10 ^ (2 - d.fraction.length) := by
    rw [padEnd2, digitsToNat_append, hpad, List.length_replicate, Nat.add_zero]
  have hscale : (10 : ℚ) ^ (2 - d.fraction.length) = 100 / 10 ^ d.fraction.length := by
    rw [pow_sub₀ _ (by norm_num) d.fraction_le, div_eq_mul_inv]
    norm_num
  rw [minorUnits, hfraction, value, placeValue_eq, placeValue_eq]
  push_cast
  rw [hscale]
  ring

end Decimal

/-! ## There and back -/

namespace Money

/-- Two digits after the point. -/
theorem toMajorUnitsString_eq (n : Nat) (currency : Currency) : toMajorUnitsString ⟨n, currency⟩ =
    String.ofList (Nat.toDigits 10 (n / 100) ++
      ['.', Nat.digitChar (n % 100 / 10), Nat.digitChar (n % 100 % 10)]) := by
  have hminor : ∀ k < 100, (if (toString k).length < 2 then "0" ++ toString k else toString k).toList =
      [Nat.digitChar (k / 10), Nat.digitChar (k % 10)] := by
    decide
  rw [← String.toList_inj]
  simp only [toMajorUnitsString, String.toList_append, String.toList_ofList,
    hminor (n % 100) (Nat.mod_lt _ (by decide))]
  simp only [Nat.toString_eq_ofList_toDigits, String.toList_ofList, List.append_assoc]
  rfl

end Money

theorem Decimal.print (d : Decimal) (currency : Currency) :
    Money.toMajorUnitsString ⟨d.minorUnits, currency⟩ = d.canonical := by
  obtain ⟨a, b, hpad, ha, hb⟩ := d.padEnd2_digits
  have hlt := digit_lt ha
  have hlt' := digit_lt hb
  rw [Money.toMajorUnitsString_eq, canonical, minorUnits, hpad, digitsToNat_pair]
  rw [show (digitsToNat d.whole * 100 + (digit a * 10 + digit b)) / 100 = digitsToNat d.whole by omega,
    show (digitsToNat d.whole * 100 + (digit a * 10 + digit b)) % 100 = digit a * 10 + digit b by omega,
    show (digit a * 10 + digit b) / 10 = digit a by omega, show (digit a * 10 + digit b) % 10 = digit b by omega,
    digitChar_digit ha, digitChar_digit hb, toDigits_digitsToNat d.whole_ne d.whole_digits]

/-- What is printed. -/
def Money.decimal (m : Money) : Decimal where
  whole := Nat.toDigits 10 (m.minorUnits / 100)
  fraction := [Nat.digitChar (m.minorUnits % 100 / 10), Nat.digitChar (m.minorUnits % 100 % 10)]
  whole_ne := Nat.toDigits_ne_nil
  whole_digits := List.all_eq_true.2 fun _ hc => isDigit_of_mem_toDigits hc
  fraction_digits := by
    simp [digit_digitChar (show m.minorUnits % 100 / 10 < 10 by omega),
      digit_digitChar (Nat.mod_lt _ (by decide : 0 < 10))]
  fraction_le := Nat.le_refl _

theorem Money.decimal_text (m : Money) : m.decimal.text = m.toMajorUnitsString :=
  (toMajorUnitsString_eq m.minorUnits m.currency).symm

theorem Money.decimal_minorUnits (m : Money) : m.decimal.minorUnits = m.minorUnits := by
  have htens := (digit_digitChar (show m.minorUnits % 100 / 10 < 10 by omega)).1
  have hones := (digit_digitChar (show m.minorUnits % 100 % 10 < 10 by omega)).1
  show digitsToNat (Nat.toDigits 10 (m.minorUnits / 100)) * 100 + digitsToNat [_, _] = m.minorUnits
  rw [digitsToNat_toDigits, digitsToNat_pair, htens, hones]
  omega

/-- **Amounts survive as text, and text is read exactly.** -/
theorem decimal_strings_exact :
    (∀ m : Money, Money.fromDecimalString m.toMajorUnitsString m.currency = .ok m) ∧
    (∀ (s : String) (currency : Currency),
      (∃ m, Money.fromDecimalString s currency = .ok m) ↔ ∃ d : Decimal, s = d.text) ∧
    ∀ (d : Decimal) (currency : Currency), ∃ m, Money.fromDecimalString d.text currency = .ok m ∧
      m.currency = currency ∧ (m.minorUnits : ℚ) = 100 * d.value ∧ m.toMajorUnitsString = d.canonical := by
  refine ⟨fun m => ?_, fun s currency => ⟨fun ⟨m, hm⟩ => Decimal.of_fromDecimalString hm, ?_⟩,
    fun d currency => ?_⟩
  · rw [← m.decimal_text, Decimal.fromDecimalString_text, m.decimal_minorUnits]
  · rintro ⟨d, rfl⟩
    exact ⟨_, d.fromDecimalString_text currency⟩
  · exact ⟨_, d.fromDecimalString_text currency, rfl, d.minorUnits_eq, d.print currency⟩

example : (Money.fromDecimalString "007.5" .NGN).map Money.toMajorUnitsString = .ok "7.50" := by decide

end Kudi
