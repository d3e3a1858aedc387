import Mathlib.Data.Nat.ModEq
import KudiCore.Accounts.Opening
import KudiCore.Shared.Amounts

/-!
# Account numbers and their check digit

`NubanAccountNumberGenerator.buildWithChecksum` ends a number with the digit that brings its weighted sum (`checksum`)
to a multiple of ten. A wrong digit is noticed if its weight has an inverse modulo ten, and all the weights have one.
-/

namespace Kudi

open Interleave

/-! ## Weighted sums -/

section
variable {α : Type} {value : α → Nat}

def weighted (value : α → Nat) (weights : List Nat) (xs : List α) : Nat :=
  (List.zipWith (fun w x => w * value x) weights xs).sum

theorem weighted_append {ws ws' : List Nat} {xs xs' : List α} (h : ws.length = xs.length) :
    weighted value (ws ++ ws') (xs ++ xs') = weighted value ws xs + weighted value ws' xs' := by
  simp only [weighted, List.zipWith_append h, List.sum_append]

/-- What changes with one entry. -/
theorem weighted_set {ws : List Nat} {xs : List α} {i : Nat} (y : α) (hw : i < ws.length) (hx : i < xs.length) :
    weighted value ws (xs.set i y) + ws[i] * value xs[i] = weighted value ws xs + ws[i] * value y := by
  induction xs generalizing ws i with
  | nil => simp at hx
  | cons x xs ih =>
    cases ws with
    | nil => simp at hw
    | cons w ws =>
      cases i with
      | zero =>
        simp only [weighted, List.set_cons_zero, List.zipWith_cons_cons, List.sum_cons, List.getElem_cons_zero]
        omega
      | succ i =>
        have ih := ih (i := i) (Nat.lt_of_succ_lt_succ hw) (Nat.lt_of_succ_lt_succ hx)
        simp only [weighted, List.set_cons_succ, List.zipWith_cons_cons, List.sum_cons,
          List.getElem_cons_succ] at ih ⊢
        omega

/-- No single change of an entry is lost modulo `n`, if its weight is prime to `n` and the values are smaller. -/
theorem weighted_set_detected {n : Nat} {ws : List Nat} {xs : List α} {i : Nat} {y : α} (hw : i < ws.length)
    (hx : i < xs.length) (hprime : Nat.Coprime n ws[i]) (hold : value xs[i] < n) (hnew : value y < n)
    (hne : value y ≠ value xs[i]) (hvalid : weighted value ws xs % n = 0) :
    weighted value ws (xs.set i y) % n ≠ 0 := by
  intro hinvalid
  have hsame : ws[i] * value y ≡ ws[i] * value xs[i] [MOD n] := by
    have hset : weighted value ws (xs.set i y) + ws[i] * value xs[i] = weighted value ws xs + ws[i] * value y :=
      weighted_set y hw hx
    have hset := congrArg (· % n) hset
    simp only [Nat.add_mod _ _ n, hvalid, hinvalid, Nat.zero_add, Nat.mod_mod] at hset
    exact hset.symm
  have hsame := Nat.ModEq.cancel_left_of_coprime hprime hsame
  rw [Nat.ModEq, Nat.mod_eq_of_lt hnew, Nat.mod_eq_of_lt hold] at hsame
  exact hne hsame

end

/-! ## The check digit -/

namespace NubanAccountNumberGenerator

/-- The sum of the ten digits, the check digit with weight 1. -/
def checksum (accountNumber : String) : Nat := weighted digit (nubanWeights ++ [1]) accountNumber.toList

theorem sum_digits (cs : List Char) :
    (List.zipWith (· * ·) (cs.map fun c => c.toNat - '0'.toNat) nubanWeights).sum =
      weighted digit nubanWeights cs := by
  rw [List.zipWith_map_left, List.zipWith_comm, weighted]
  congr 2
  funext w c
  exact Nat.mul_comm ..

variable {bankCode serial : String}

/-- Nine digits and the one that completes their sum. -/
theorem buildWithChecksum_digits (hbank : isDigits 3 bankCode = true) (hserial : isDigits 6 serial = true) :
    ∃ cs c, (buildWithChecksum bankCode serial).toList = cs ++ [c] ∧ cs.length = 9 ∧ cs.all isDigit = true ∧
      isDigit c = true ∧ (weighted digit nubanWeights cs + digit c) % 10 = 0 := by
  simp only [isDigits, Bool.and_eq_true, beq_iff_eq] at hbank hserial
  have hlength : (bankCode ++ serial).toList.length = 9 := by
    rw [String.toList_append, List.length_append, hbank.1, hserial.1]
  have hdigits : (bankCode ++ serial).toList.all isDigit = true := by
    rw [String.toList_append, List.all_append, hbank.2, hserial.2]
    rfl
  let sum := weighted digit nubanWeights (bankCode ++ serial).toList
  have hlt : (if sum % 10 = 0 then 0 else 10 - sum % 10) < 10 := by split <;> omega
  obtain ⟨hvalue, hdigit⟩ := digit_digitChar hlt
  refine ⟨(bankCode ++ serial).toList, _, ?_, hlength, hdigits, hdigit, ?_⟩
  · simp only [buildWithChecksum, sum_digits]
    show ((bankCode ++ serial) ++ toString (if sum % 10 = 0 then 0 else 10 - sum % 10)).toList = _
    rw [String.toList_append, Nat.toString_eq_ofList_toDigits, String.toList_ofList, Nat.toDigits_of_lt_base hlt]
  · rw [hvalue]
    show (sum + if sum % 10 = 0 then 0 else 10 - sum % 10) % 10 = 0
    split <;> omega

/-- All the weights are prime to ten. -/
theorem weights_coprime : ∀ w ∈ nubanWeights ++ [1], Nat.Coprime 10 w := by decide

/-- Ten digits, and their sum is complete. -/
theorem buildWithChecksum_valid (hbank : isDigits 3 bankCode = true) (hserial : isDigits 6 serial = true) :
    isDigits 10 (buildWithChecksum bankCode serial) = true ∧
      checksum (buildWithChecksum bankCode serial) % 10 = 0 := by
  obtain ⟨cs, c, hbuilt, hlength, hcs, hc, hsum⟩ := buildWithChecksum_digits hbank hserial
  constructor
  · rw [isDigits, hbuilt, List.length_append, hlength, List.all_append, hcs, List.all_cons, hc]
    rfl
  · rw [checksum, hbuilt, weighted_append (show nubanWeights.length = cs.length from hlength.symm)]
    simpa [weighted] using hsum

/-- **A check digit completes the sum, and no single wrong digit leaves it complete.** -/
theorem checksum_detects (hbank : isDigits 3 bankCode = true) (hserial : isDigits 6 serial = true) :
    (∃ n, AccountNumber.create (buildWithChecksum bankCode serial) = .ok n ∧
      n.value = buildWithChecksum bankCode serial) ∧
    isDigits 10 (buildWithChecksum bankCode serial) = true ∧
    checksum (buildWithChecksum bankCode serial) % 10 = 0 ∧
    ∀ i < 10, ∀ c, isDigit c = true → (buildWithChecksum bankCode serial).toList[i]? ≠ some c →
      checksum (String.ofList ((buildWithChecksum bankCode serial).toList.set i c)) % 10 ≠ 0 := by
  obtain ⟨hdigits, hvalid⟩ := buildWithChecksum_valid hbank hserial
  refine ⟨⟨⟨_, hdigits⟩, dif_pos hdigits, rfl⟩, hdigits, hvalid, fun i hi c hc hne => ?_⟩
  have hten : (buildWithChecksum bankCode serial).toList.length = 10 ∧
      ∀ c ∈ (buildWithChecksum bankCode serial).toList, isDigit c = true := by simpa [isDigits] using hdigits
  have hx : i < (buildWithChecksum bankCode serial).toList.length := hten.1 ▸ hi
  have hold := hten.2 _ (List.getElem_mem hx)
  rw [checksum, String.toList_ofList]
  refine weighted_set_detected (show i < (nubanWeights ++ [1]).length from hi) hx
    (weights_coprime _ (List.getElem_mem _)) (digit_lt hold) (digit_lt hc) (fun hsame => hne ?_) hvalid
  rw [List.getElem?_eq_getElem hx, ← digitChar_digit hold, ← hsame, digitChar_digit hc]

theorem checksum_detects_sample : buildWithChecksum "999" "000123" = "9990001237" ∧
    checksum (buildWithChecksum "999" "000123") % 10 = 0 ∧
    checksum (String.ofList ((buildWithChecksum "999" "000123").toList.set 7 '3')) % 10 ≠ 0 := by
  have hbuilt : buildWithChecksum "999" "000123" = "9990001237" := by decide
  have hbank : isDigits 3 "999" = true := by decide
  have hserial : isDigits 6 "000123" = true := by decide
  obtain ⟨-, -, hvalid, hdetects⟩ := checksum_detects hbank hserial
  refine ⟨hbuilt, hvalid, hdetects 7 (by decide) '3' rfl ?_⟩
  rw [hbuilt]
  decide

/-! ## What is handed out -/

theorem isDigits_padStart6 {k : Nat} (hk : k < 1000000) : isDigits 6 (padStart6 (toString k)) = true := by
  have hlength : (Nat.toDigits 10 k).length ≤ 6 := (Nat.length_toDigits_le_iff (by decide) (by decide)).2 hk
  have hchars : (padStart6 (toString k)).toList =
      List.replicate (6 - (Nat.toDigits 10 k).length) '0' ++ Nat.toDigits 10 k := by
    rw [padStart6, String.toList_append, String.toList_ofList, Nat.toString_eq_ofList_toDigits, String.toList_ofList,
      String.length_ofList]
  have hall : (Nat.toDigits 10 k).all isDigit = true := List.all_eq_true.2 fun _ hc => isDigit_of_mem_toDigits hc
  have hzeros : (List.replicate (6 - (Nat.toDigits 10 k).length) '0').all isDigit = true :=
    List.all_eq_true.2 fun c hc => by rw [List.eq_of_mem_replicate hc]; rfl
  rw [isDigits, hchars, List.all_append, hall, hzeros, List.length_append, List.length_replicate]
  simp only [Bool.and_true, beq_iff_eq]
  omega

/-- The sum of a number that is handed out is complete. -/
theorem generate_returns (hbank : isDigits 3 bankCode = true) (randomInt : Fin 10 → Fin 1000000) :
    (generate bankCode randomInt).Returns fun n => checksum n.value % 10 = 0 := by
  unfold generate
  induction List.ofFn randomInt with
  | nil => trivial
  | cons k serials ih =>
    obtain ⟨hdigits, hvalid⟩ := buildWithChecksum_valid hbank (isDigits_padStart6 k.isLt)
    have hcreate : AccountNumber.create (buildWithChecksum bankCode (padStart6 (toString k.val))) = .ok
      ⟨_, hdigits⟩ :=
      dif_pos hdigits
    rw [attempts, hcreate]
    refine (Prog.returns_true (PrismaAccountRepository.existsByAccountNumber _)).bind fun taken _ => ?_
    split
    · exact ih
    · exact hvalid

end NubanAccountNumberGenerator

end Kudi
