import KudiCore.Compliance.Watchlist

/-!
# Names written another way

`normalizeToTokens` blanks every other punctuation, but a hyphen or an apostrophe it leaves where it is: AL-ZOMOR is one
token and AL ZOMOR are two. Where a name is respelled between two separators (`stretches`), it falls into other tokens
than the entry's; everywhere else it has the entry's own.
-/

namespace Kudi.Compliance

open OfacSanctionsScreeningProvider

/-! ## Respelling -/

/-- The same letter in whatever case, a hyphen or an apostrophe as a space, or a space as a hyphen. -/
def respells (c d : Char) : Bool :=
  c.toUpper == d.toUpper || ((c == '-' || c == '\'') && d == ' ') || (c == ' ' && d == '-')

/-- Character by character. -/
def Respelled (name name' : String) : Prop := List.Forall₂ (fun c d => respells c d = true) name.toList name'.toList

instance (name name' : String) : Decidable (Respelled name name') :=
  inferInstanceAs (Decidable (List.Forall₂ _ _ _))

/-- Two names side by side, cut where both have a separator. -/
def stretches (name name' : String) : List (List (Char × Char)) :=
  (name.toList.zip name'.toList).splitOnP fun p => isSeparator p.1 && isSeparator p.2

/-- It differs in more than case. -/
def IsRespelled (stretch : List (Char × Char)) : Prop := ∃ p ∈ stretch, p.1.toUpper ≠ p.2.toUpper

instance (stretch : List (Char × Char)) : Decidable (IsRespelled stretch) :=
  inferInstanceAs (Decidable (∃ p ∈ stretch, _))

section
variable {services : Services} {name name' : String}

/-- Of either name, the tokens are those of its stretches. -/
theorem tokens_of_stretches (h : services.UpperCases) {side : Char × Char → Char} {aligned : List (Char × Char)}
    {p : Char × Char → Bool} (hside : ∀ c, p c = true → isSeparator (side c) = true) :
    tokensOf services (aligned.map side) =
      (aligned.splitOnP p).flatMap fun stretch => tokensOf services (stretch.map side) := by
  refine Eq.symm (flatMap_splitOnP (fun a sep b hsep => ?_) aligned)
  rw [List.map_append, List.map_cons, tokensOf_split h _ _ _ (hside sep hsep)]

theorem Respelled.tokens (h : services.UpperCases) (hrespelled : Respelled name name') :
    normalizeToTokens services name = (stretches name name').flatMap (fun s => tokensOf services (s.map Prod.fst)) ∧
    normalizeToTokens services name' = (stretches name name').flatMap fun s => tokensOf services (s.map Prod.snd) := by
  have hlength : name.toList.length = name'.toList.length := hrespelled.length_eq
  have hfst : (name.toList.zip name'.toList).map Prod.fst = name.toList := List.map_fst_zip hlength.le
  have hsnd : (name.toList.zip name'.toList).map Prod.snd = name'.toList := List.map_snd_zip hlength.ge
  constructor
  · rw [stretches, ← tokens_of_stretches h (fun c hc => (Bool.and_eq_true_iff.1 hc).1), hfst, tokensOf,
      String.ofList_toList]
  · rw [stretches, ← tokens_of_stretches h (fun c hc => (Bool.and_eq_true_iff.1 hc).2), hsnd, tokensOf,
      String.ofList_toList]

/-- A stretch that is not respelled has the same tokens in both names. -/
theorem tokensOf_kept (h : services.UpperCases) {stretch : List (Char × Char)} (hkept : ¬ IsRespelled stretch) :
    tokensOf services (stretch.map Prod.snd) = tokensOf services (stretch.map Prod.fst) := by
  have hfold : foldCase (stretch.map Prod.snd) = foldCase (stretch.map Prod.fst) := by
    rw [foldCase, foldCase, List.map_map, List.map_map]
    refine List.map_congr_left fun p hp => ?_
    by_contra hne
    exact hkept ⟨p, hp, Ne.symm hne⟩
  rw [← tokensOf_foldCase h, hfold, tokensOf_foldCase h]

theorem Respelled.subset_iff (h : services.UpperCases) (hrespelled : Respelled name name') :
    normalizeToTokens services name' ⊆ normalizeToTokens services name ↔
      ∀ stretch ∈ stretches name name', IsRespelled stretch →
        tokensOf services (stretch.map Prod.snd) ⊆ normalizeToTokens services name := by
  obtain ⟨htokens, htokens'⟩ := hrespelled.tokens h
  constructor
  · intro hsubset stretch hstretch _ token htoken
    exact hsubset (htokens' ▸ List.mem_flatMap.2 ⟨stretch, hstretch, htoken⟩)
  · intro hall token htoken
    rw [htokens'] at htoken
    obtain ⟨stretch, hstretch, htoken⟩ := List.mem_flatMap.1 htoken
    by_cases hrespelled : IsRespelled stretch
    · exact hall stretch hstretch hrespelled htoken
    · rw [tokensOf_kept h hrespelled] at htoken
      exact htokens ▸ List.mem_flatMap.2 ⟨stretch, hstretch, htoken⟩

end

/-- **A name that is respelled is reported exactly if the respelling makes no token that the entry lacks**, and two
tokens are left to screen. -/
theorem respelled_reported_iff {services : Services} (h : services.UpperCases) {name : String}
    {entry : SanctionsListEntry} {entries found : List SanctionsListEntry} (hlisted : entry ∈ entries)
    (hrespelled : Respelled entry.fullName name) (hr : Reports services name entries found) :
    entry ∈ found ↔ 2 ≤ (normalizeToTokens services name).length ∧
      ∀ stretch ∈ stretches entry.fullName name, IsRespelled stretch →
        tokensOf services (stretch.map Prod.snd) ⊆ normalizeToTokens services entry.fullName := by
  rw [hr.mem_iff entry, Hits, hrespelled.subset_iff h]
  exact and_iff_right hlisted

def sampleInitials : SanctionsListEntry := ⟨"sdn-3", "X-Y, John Paul", none⟩

/-- Initials are no tokens, with or without a hyphen. -/
theorem respelled_reported_iff_sample : Respelled "X-Y, John Paul" "x y, John Paul" ∧
    Reports sampleServices "x y, John Paul" [sampleInitials] [sampleInitials] ∧
    ∀ stretch ∈ stretches "X-Y, John Paul" "x y, John Paul", IsRespelled stretch →
      tokensOf sampleServices (stretch.map Prod.snd) ⊆ normalizeToTokens sampleServices "X-Y, John Paul" := by
  have hrespelled : Respelled sampleInitials.fullName "x y, John Paul" := by decide
  have hr : Reports sampleServices "x y, John Paul" [sampleInitials] [sampleInitials] :=
    reports_iff.2 (by decide +kernel)
  have hmem : sampleInitials ∈ [sampleInitials] := List.mem_singleton_self _
  exact ⟨hrespelled, hr, ((respelled_reported_iff sampleServices_upperCases hmem hrespelled hr).1 hmem).2⟩

/-- The entry of the list itself, its hyphen written as a space: nothing is reported. -/
theorem respelled_missed : Respelled "AL-ZOMOR, Abboud" "Al Zomor, Abboud" ∧
    2 ≤ (normalizeToTokens sampleServices "AL-ZOMOR, Abboud").length ∧
    Reports sampleServices "Al Zomor, Abboud" [⟨"sdn-4", "AL-ZOMOR, Abboud", some "SDGT"⟩] [] := by
  refine ⟨by decide, by decide +kernel, reports_iff.2 ?_⟩
  decide +kernel

end Kudi.Compliance
