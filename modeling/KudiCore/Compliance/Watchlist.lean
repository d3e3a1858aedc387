import KudiCore.Compliance.Handlers

/-!
# Names on the sanctions list

`normalizeToTokens` reads a name word by word: the tokens of a name are those of its words, one word after another
(`tokens_of_words`), where a word is what stands between spaces, commas and periods. So a name's order, its separators
and the case of its ASCII letters are not seen, and a screening is a comparison of two sets (`screen_reports`).

Two laws of JavaScript's `toUpperCase` are used, and only for the words (`Services.UpperCases`): it maps each
character on its own, and each ASCII character to what ASCII says.
-/

namespace Kudi.Compliance

open Interleave
open Identity (isSpace)

/-! ## Splitting -/

section
variable {α β : Type} {p : α → Bool} {f : List α → List β}

theorem flatMap_splitOnPPrepend (hf : ∀ a sep b, p sep = true → f (a ++ sep :: b) = f a ++ f b) (xs : List α) :
    ∀ acc, (List.splitOnPPrepend p xs acc).flatMap f = f (acc.reverse ++ xs) := by
  induction xs with
  | nil => simp
  | cons x xs ih =>
    intro acc
    by_cases hx : p x = true
    · rw [List.splitOnPPrepend_cons_pos hx, List.flatMap_cons, hf _ _ _ hx, ← List.splitOnPPrepend_nil_right, ih []]
      rfl
    · rw [List.splitOnPPrepend_cons_neg (by simpa using hx), ih]
      simp

/-- What can be taken apart at every separator is read off the pieces. -/
theorem flatMap_splitOnP (hf : ∀ a sep b, p sep = true → f (a ++ sep :: b) = f a ++ f b) (xs : List α) :
    (xs.splitOnP p).flatMap f = f xs := flatMap_splitOnPPrepend hf xs []

end

/-! ## Words -/

/-- What stands between two words. -/
def isSeparator (c : Char) : Bool := c == ' ' || c == ',' || c == '.'

def wordsOf (name : String) : List (List Char) := (name.toList.splitOnP isSeparator).filter (· ≠ [])

/-- A word, whatever the case of its ASCII letters. -/
def foldCase (word : List Char) : List Char := word.map Char.toUpper

/-- The same words, in any order, in any case, between any separators. -/
def SameWords (name name' : String) : Prop := ((wordsOf name).map foldCase).Perm ((wordsOf name').map foldCase)

/-- No other words. -/
def WordsWithin (name name' : String) : Prop := (wordsOf name).map foldCase ⊆ (wordsOf name').map foldCase

instance (name name' : String) : Decidable (SameWords name name') := inferInstanceAs (Decidable (List.Perm _ _))

instance (name name' : String) : Decidable (WordsWithin name name') :=
  inferInstanceAs (Decidable ((wordsOf name).map foldCase ⊆ (wordsOf name').map foldCase))

theorem SameWords.within {name name' : String} (h : SameWords name name') : WordsWithin name name' :=
  List.Perm.subset h

/-! ## Upper case -/

/-- `toUpperCase` maps one character after another, and knows ASCII. -/
structure Services.UpperCases (services : Services) : Prop where
  append : ∀ s t, services.toUpperCase (s ++ t) = services.toUpperCase s ++ services.toUpperCase t
  ascii : ∀ c : Char, c.toNat < 128 → services.toUpperCase (String.singleton c) = String.singleton c.toUpper

def upperCase (services : Services) (cs : List Char) : List Char := (services.toUpperCase (String.ofList cs)).toList

/-- Only ASCII letters are re-cased. -/
theorem ascii_of_toUpper {c : Char} (h : c.toUpper ≠ c) : c.toNat < 128 := by
  by_contra hc
  refine h (dif_neg fun ⟨_, hz⟩ => hc ?_)
  have hz : c.toNat ≤ 'z'.toNat := UInt32.le_iff_toNat_le.1 hz
  exact Nat.lt_of_le_of_lt hz (by decide)

theorem toUpper_ascii {c : Char} (hc : c.toNat < 128) : c.toUpper.toNat < 128 ∧ c.toUpper.toUpper = c.toUpper := by
  have hall : ∀ n < 128, (Char.ofNat n).toUpper.toNat < 128 ∧
      (Char.ofNat n).toUpper.toUpper = (Char.ofNat n).toUpper := by decide
  have := hall c.toNat hc
  rwa [Char.ofNat_toNat] at this

namespace Services.UpperCases
variable {services : Services}

theorem upperCase_append (h : services.UpperCases) (cs ds : List Char) :
    upperCase services (cs ++ ds) = upperCase services cs ++ upperCase services ds := by
  simp only [upperCase, String.ofList_append, h.append, String.toList_append]

theorem upperCase_nil (h : services.UpperCases) : upperCase services [] = [] := by
  have hlength := congrArg List.length (h.upperCase_append [] [])
  simp only [List.append_nil, List.length_append] at hlength
  exact List.length_eq_zero_iff.1 (by omega)

theorem upperCase_ascii (h : services.UpperCases) {c : Char} (hc : c.toNat < 128) :
    upperCase services [c] = [c.toUpper] := by
  simp only [upperCase, ← String.singleton_eq_ofList, h.ascii c hc, String.toList_singleton]

theorem upperCase_toUpper (h : services.UpperCases) (c : Char) : upperCase services
    [c.toUpper] = upperCase services [c] := by
  by_cases hc : c.toUpper = c
  · rw [hc]
  · have hascii := ascii_of_toUpper hc
    obtain ⟨hupper, hidem⟩ := toUpper_ascii hascii
    rw [h.upperCase_ascii hupper, h.upperCase_ascii hascii, hidem]

theorem upperCase_foldCase (h : services.UpperCases) (word : List Char) :
    upperCase services (foldCase word) = upperCase services word := by
  induction word with
  | nil => rfl
  | cons c word ih =>
    have hcons : ∀ (d : Char) ds, upperCase services (d :: ds) = upperCase services [d] ++ upperCase services ds :=
      fun d ds => h.upperCase_append [d] ds
    rw [foldCase, List.map_cons, hcons, h.upperCase_toUpper, ← foldCase, ih, ← hcons]

end Services.UpperCases

/-! ## Tokens, word by word -/

namespace OfacSanctionsScreeningProvider
variable {services : Services}

/-- The tokens of one word. -/
def tokensOf (services : Services) (cs : List Char) : List String := normalizeToTokens services (String.ofList cs)

theorem tokensOf_eq (cs : List Char) : tokensOf services cs =
    ((((upperCase services cs).map fun c => if isNameChar c then c else ' ').splitOnP isSpace).map String.ofList).filter
      fun token => MIN_TOKEN_LENGTH ≤ token.length := rfl

/-- A separator is no ASCII letter, and no part of a name. -/
theorem separator {c : Char} (hc : isSeparator c = true) : c.toNat < 128 ∧ c.toUpper = c ∧
    (if isNameChar c then c else ' ') = ' ' := by
  simp only [isSeparator, Bool.or_eq_true, beq_iff_eq] at hc
  rcases hc with (rfl | rfl) | rfl <;> decide

theorem tokensOf_split (h : services.UpperCases) (a : List Char) (c : Char) (b : List Char)
    (hc : isSeparator c = true) :
    tokensOf services (a ++ c :: b) = tokensOf services a ++ tokensOf services b := by
  obtain ⟨hascii, hupper, hspace⟩ := separator hc
  have hsplit : upperCase services (a ++ c :: b) = upperCase services a ++ c :: upperCase services b := by
    rw [h.upperCase_append, ← List.singleton_append, h.upperCase_append, h.upperCase_ascii hascii, hupper]
    rfl
  simp only [tokensOf_eq, hsplit, List.map_append, List.map_cons, hspace]
  rw [List.splitOnP_append_cons _ _ (by decide), List.map_append, List.filter_append]

theorem tokensOf_nil (h : services.UpperCases) : tokensOf services [] = [] := by
  rw [tokensOf_eq, h.upperCase_nil]
  decide

theorem tokensOf_foldCase (h : services.UpperCases) (word : List Char) :
    tokensOf services (foldCase word) = tokensOf services word := by
  rw [tokensOf_eq, tokensOf_eq, h.upperCase_foldCase]

/-- **A name has the tokens of its words**, in whatever case they are. -/
theorem tokens_of_words (h : services.UpperCases) (name : String) :
    normalizeToTokens services name = ((wordsOf name).map foldCase).flatMap (tokensOf services) := by
  have hname : normalizeToTokens services name = (name.toList.splitOnP isSeparator).flatMap (tokensOf services) := by
    rw [flatMap_splitOnP (tokensOf_split h), tokensOf, String.ofList_toList]
  rw [hname, List.flatMap_map, wordsOf]
  induction name.toList.splitOnP isSeparator with
  | nil => rfl
  | cons word words ih =>
    rw [List.flatMap_cons, ih]
    by_cases hword : word = []
    · rw [hword, tokensOf_nil h]
      rfl
    · rw [List.filter_cons_of_pos (by simpa using hword), List.flatMap_cons, tokensOf_foldCase h]

end OfacSanctionsScreeningProvider

open OfacSanctionsScreeningProvider

section
variable {services : Services} {name name' : String} {entries found : List SanctionsListEntry}

theorem SameWords.tokens (h : services.UpperCases) (hsame : SameWords name name') :
    (normalizeToTokens services name).Perm (normalizeToTokens services name') := by
  rw [tokens_of_words h, tokens_of_words h]
  exact List.Perm.flatMap_right _ hsame

theorem WordsWithin.tokens (h : services.UpperCases) (hwithin : WordsWithin name name') :
    normalizeToTokens services name ⊆ normalizeToTokens services name' := by
  rw [tokens_of_words h, tokens_of_words h]
  intro token htoken
  obtain ⟨word, hword, htoken⟩ := List.mem_flatMap.1 htoken
  exact List.mem_flatMap.2 ⟨word, hwithin hword, htoken⟩

/-! ## Screening -/

/-- A screening of `name` against `entries` that goes through reports `found`. -/
def Reports (services : Services) (name : String) (entries found : List SanctionsListEntry) : Prop :=
  ∃ i s tr s', s.sanctionsList = entries ∧ Run anySchedule TimePasses i (screen services name) s tr (.ok found) s'

/-- Two tokens at least, and all of them the entry's. -/
def Hits (services : Services) (name : String) (entry : SanctionsListEntry) : Prop :=
  2 ≤ (normalizeToTokens services name).length ∧
    normalizeToTokens services name ⊆ normalizeToTokens services entry.fullName

instance (services : Services) (name : String) (entry : SanctionsListEntry) : Decidable (Hits services name entry) :=
  inferInstanceAs (Decidable (_ ∧ _))

theorem findMatches_eq (h : 2 ≤ (normalizeToTokens services name).length) :
    findMatches services (normalizeToTokens services name) entries = entries.filter fun entry =>
      Hits services name entry := by
  refine List.filter_congr fun entry _ => ?_
  rw [Bool.eq_iff_iff, candidateIsSubsetOfEntry, List.all_eq_true, decide_eq_true_iff]
  exact ⟨fun hall => ⟨h, fun token ht => by simpa using hall token ht⟩,
    fun hhits token ht => by simpa using hhits.2 ht⟩

/-- What is reported is what the list holds of the name. -/
theorem reports_iff : Reports services name entries found ↔ found = entries.filter fun entry =>
    Hits services name entry := by
  have hscreen : screen services name = if isScreenable (normalizeToTokens services name) then (do
      let entries ← Prog.await Op.findAllIndividuals
      return findMatches services (normalizeToTokens services name) entries) else return [] := rfl
  by_cases htokens : 2 ≤ (normalizeToTokens services name).length
  · rw [← findMatches_eq htokens]
    rw [if_pos (by simpa [isScreenable] using htokens)] at hscreen
    constructor
    · rintro ⟨i, s, tr, s', rfl, hr⟩
      rw [hscreen] at hr
      obtain ⟨s1, a, r, s2, rest, ⟨ms, rfl⟩, -, hx, -,
        ⟨list, rfl, -, hfound, -⟩ | ⟨e, -, -, he, -⟩⟩ := hr.await_bind
      · obtain rfl := exec_findAllIndividuals hx
        exact Except.ok.inj hfound
      · cases he
    · rintro rfl
      let s : Store := { sampleStore with sanctionsList := entries }
      refine ⟨0, s, [⟨.findAllIndividuals, .ok entries, s, s⟩], s, rfl, ?_⟩
      rw [hscreen]
      exact ⟨s, .ok, .ok entries, s, [], .refl s, trivial, rfl, rfl, rfl, rfl, rfl⟩
  · have hnone : entries.filter (fun entry => Hits services name entry) = [] :=
      List.filter_eq_nil_iff.2 fun entry _ hhits => htokens (of_decide_eq_true hhits).1
    rw [if_neg (by simpa [isScreenable] using htokens)] at hscreen
    rw [hnone]
    constructor
    · rintro ⟨i, s, tr, s', -, hr⟩
      rw [hscreen] at hr
      exact Except.ok.inj hr.2.1
    · rintro rfl
      let s : Store := { sampleStore with sanctionsList := entries }
      refine ⟨0, s, [], s, rfl, ?_⟩
      rw [hscreen]
      exact ⟨rfl, rfl, rfl⟩

theorem Reports.mem_iff (hr : Reports services name entries found) (entry : SanctionsListEntry) :
    entry ∈ found ↔ entry ∈ entries ∧ Hits services name entry := by
  rw [reports_iff.1 hr, List.mem_filter, decide_eq_true_iff]

/-- Words that are left out are not asked for. -/
theorem Hits.fewer (h : services.UpperCases) {entry : SanctionsListEntry} (hwithin : WordsWithin name' name)
    (htokens : 2 ≤ (normalizeToTokens services name').length) (hhits : Hits services name entry) :
    Hits services name' entry := ⟨htokens, fun _ ht => hhits.2 (hwithin.tokens h ht)⟩

theorem Hits.same (h : services.UpperCases) {entry : SanctionsListEntry} (hsame : SameWords name name')
    (hhits : Hits services name entry) : Hits services name' entry :=
  hhits.fewer h (SameWords.within hsame.symm) ((hsame.tokens h).length_eq ▸ hhits.1)

end

/-- **A screening compares sets of tokens.** It reports the entries that have all of the name's, if it has two of them;
neither the order of the words, nor their case, nor what separates them matters; a name with fewer words is found
wherever one with more is, on a longer list wherever on a shorter, and an entry's own name in any order. -/
theorem screen_compares_tokens {services : Services} (h : services.UpperCases) (name : String)
    (entries : List SanctionsListEntry) :
    (∀ found, Reports services name entries found ↔ found = entries.filter fun entry =>
      2 ≤ (normalizeToTokens services name).length ∧
        normalizeToTokens services name ⊆ normalizeToTokens services entry.fullName) ∧
    (∀ name' found, SameWords name name' →
      (Reports services name entries found ↔ Reports services name' entries found)) ∧
    (∀ name' found found', WordsWithin name' name → 2 ≤ (normalizeToTokens services name').length →
      Reports services name entries found → Reports services name' entries found' → found ⊆ found') ∧
    (∀ entries' found found', entries ⊆ entries' → Reports services name entries found →
      Reports services name entries' found' → found ⊆ found') ∧
    ∀ entry ∈ entries, 2 ≤ (normalizeToTokens services entry.fullName).length →
      SameWords name entry.fullName →
      ∀ found, Reports services name entries found → entry ∈ found := by
  refine ⟨fun found => reports_iff, ?_, ?_, ?_, ?_⟩
  · intro name' found hsame
    have hhits : (fun entry => decide (Hits services name entry)) = fun entry => decide (Hits services name' entry) :=
      funext fun entry => decide_eq_decide.2 ⟨.same h hsame, .same h hsame.symm⟩
    rw [reports_iff, reports_iff, hhits]
  · intro name' found found' hwithin htokens hr hr' entry he
    obtain ⟨hlisted, hhits⟩ := (hr.mem_iff entry).1 he
    exact (hr'.mem_iff entry).2 ⟨hlisted, hhits.fewer h hwithin htokens⟩
  · intro entries' found found' hmore hr hr' entry he
    obtain ⟨hlisted, hhits⟩ := (hr.mem_iff entry).1 he
    exact (hr'.mem_iff entry).2 ⟨hmore hlisted, hhits⟩
  · intro entry hlisted htokens hsame found hr
    have hown : Hits services entry.fullName entry := ⟨htokens, fun _ ht => ht⟩
    exact (hr.mem_iff entry).2 ⟨hlisted, hown.same h hsame.symm⟩

theorem sampleServices_upperCases : sampleServices.UpperCases where
  append s t := by simp only [sampleServices, String.toList_append, List.map_append, String.ofList_append]
  ascii c _ := by
    rw [String.singleton_eq_ofList, String.singleton_eq_ofList]
    simp only [sampleServices, String.toList_ofList, List.map_cons, List.map_nil]

/-- Doe, John James and Doe, Jane. -/
def sampleWatchlist : List SanctionsListEntry :=
  [⟨"sdn-1", "DOE, John James", some "SDNT"⟩, ⟨"sdn-2", "DOE, Jane", none⟩]

/-- Neither the order nor the case nor the initial matters. -/
theorem screen_compares_tokens_sample : SameWords "john. DOE, j" "J Doe  John" ∧
    Reports sampleServices "john. DOE, j" sampleWatchlist [⟨"sdn-1", "DOE, John James", some "SDNT"⟩] := by
  refine ⟨by decide, ((screen_compares_tokens sampleServices_upperCases _ _).1 _).2 ?_⟩
  decide +kernel

end Kudi.Compliance
