import Mathlib.Algebra.Ring.Parity
import Mathlib.Data.List.Basic

/-!
# `parseCsv` (infrastructure/prisma/seed-sanctions-list.ts:15)

| here | there |
| --- | --- |
| `Parsed`     | `rows`, `row`, `field` and `inQuotes` |
| `body`       | one pass through the `while` loop |
| `loop`       | the loop; the fuel it is given is enough (`loop_ends`) |
| `render`     | what the comment on `parseCsv` has it read: quoted fields, quotes doubled |

`scan` is the loop without its index, on the text that is left. Of characters, only the four that the loop asks for
matter, so that `text[i]` may as well be a character as a UTF-16 code unit.
-/

namespace Kudi.Seeding

/-! ## The loop -/

@[ext] structure Parsed where
  rows : List (List String) := []
  row : List String := []
  field : String := ""
  inQuotes : Bool := false
deriving DecidableEq, Repr

namespace Parsed

/-- `field += char`. -/
def append (p : Parsed) (char : Char) : Parsed := { p with field := p.field.push char }

def endField (p : Parsed) : Parsed :=
  { p with
    row := p.row ++ [p.field]
    field := "" }

def endRow (p : Parsed) : Parsed :=
  { p with
    rows := p.rows ++ [p.row ++ [p.field]]
    row := []
    field := "" }

/-- A character outside quotes. -/
def outside (p : Parsed) (char : Char) : Parsed :=
  if char = '"' then { p with inQuotes := true }
  else if char = ',' then p.endField
  else if char = '\r' then p
  else if char = '\n' then p.endRow
  else p.append char

/-- Once the text is at its end. -/
def finish (p : Parsed) : List (List String) := if p.field ≠ "" ∨ p.row ≠ [] then p.endRow.rows else p.rows

end Parsed

def body (text : List Char) (p : Parsed) (i : Nat) : Parsed × Nat :=
  match text[i]? with
  | none => (p, i)
  | some char =>
    if p.inQuotes then
      if char = '"' then
        if text[i + 1]? = some '"' then (p.append '"', i + 2) else ({ p with inQuotes := false }, i + 1)
      else (p.append char, i + 1)
    else (p.outside char, i + 1)

def loop (text : List Char) : Nat → Parsed × Nat → Parsed × Nat
  | 0, st => st
  | fuel + 1, st => if st.2 < text.length then loop text fuel (body text st.1 st.2) else st

def parseCsv (text : String) : List (List String) :=
  (loop text.toList text.toList.length ({}, 0)).1.finish

example : parseCsv "\"a \"\"b\"\"\",\"c,\nd\"\r\ne" = [["a \"b\"", "c,\nd"], ["e"]] := by decide

/-! ## The loop, on the text that is left -/

def scan (p : Parsed) : List Char → Parsed
  | [] => p
  | char :: rest =>
    if p.inQuotes then
      if char = '"' then
        if rest.head? = some '"' then scan (p.append '"') rest.tail else scan { p with inQuotes := false } rest
      else scan (p.append char) rest
    else scan (p.outside char) rest
termination_by text => text.length
decreasing_by all_goals simp only [List.length_cons, List.length_tail]; omega

section
variable {text rest : List Char} {p : Parsed} {char : Char}

@[simp] theorem scan_nil : scan p [] = p := by rw [scan]

theorem scan_outside (h : p.inQuotes = false) : scan p (char :: rest) = scan (p.outside char) rest := by
  rw [scan, h]
  rfl

theorem scan_inside (h : p.inQuotes = true) (hchar : char ≠ '"') :
    scan p (char :: rest) = scan (p.append char) rest := by
  rw [scan, h, if_pos rfl, if_neg hchar]

theorem scan_doubled (h : p.inQuotes = true) : scan p ('"' :: '"' :: rest) = scan (p.append '"') rest := by
  rw [scan, h, if_pos rfl, if_pos rfl]
  exact if_pos rfl

/-- The closing quote is the one that no quote comes after. -/
theorem scan_close (h : p.inQuotes = true) (hrest : rest.head? ≠ some '"') :
    scan p ('"' :: rest) = scan { p with inQuotes := false } rest := by
  rw [scan, h, if_pos rfl, if_pos rfl, if_neg hrest]

/-- The four ways through the loop. -/
@[elab_as_elim] theorem scan_induction {motive : Parsed → List Char → Prop} (p : Parsed) (text : List Char)
    (nil : ∀ p, motive p [])
    (doubled : ∀ p rest, p.inQuotes = true → motive (p.append '"') rest → motive p ('"' :: '"' :: rest))
    (close : ∀ p rest, p.inQuotes = true → rest.head? ≠ some '"' → motive { p with inQuotes := false } rest →
      motive p ('"' :: rest))
    (inside : ∀ p char rest, p.inQuotes = true → char ≠ '"' → motive (p.append char) rest →
      motive p (char :: rest))
    (outside : ∀ p char rest, p.inQuotes = false → motive (p.outside char) rest → motive p (char :: rest)) :
    motive p text := by
  induction p, text using scan.induct with
  | case1 p => exact nil p
  | case2 p rest hquotes hnext ih =>
    cases rest with
    | nil => cases hnext
    | cons c rest =>
      have hc : c = '"' := by simpa using hnext
      exact hc ▸ doubled p rest hquotes ih
  | case3 p rest hquotes hnext ih => exact close p rest hquotes hnext ih
  | case4 p char rest hquotes hchar ih => exact inside p char rest hquotes hchar ih
  | case5 p char rest hquotes ih => exact outside p char rest (by simpa using hquotes) ih

/-- Every pass takes the index further, and leaves what `scan` makes of the rest as it is. -/
theorem body_scan {i : Nat} (hi : i < text.length) :
    i < (body text p i).2 ∧ scan (body text p i).1 (text.drop (body text p i).2) = scan p (text.drop i) := by
  rw [List.drop_eq_getElem_cons hi, body, List.getElem?_eq_getElem hi]
  dsimp only
  by_cases hquotes : p.inQuotes = true
  · rw [if_pos hquotes]
    by_cases hchar : text[i] = '"'
    · rw [if_pos hchar, hchar]
      by_cases hnext : text[i + 1]? = some '"'
      · obtain ⟨hi', hquote⟩ := List.getElem?_eq_some_iff.1 hnext
        rw [if_pos hnext, List.drop_eq_getElem_cons hi', hquote, scan_doubled hquotes]
        exact ⟨by omega, rfl⟩
      · rw [if_neg hnext, scan_close hquotes (by rwa [List.head?_drop])]
        exact ⟨by omega, rfl⟩
    · rw [if_neg hchar, scan_inside hquotes hchar]
      exact ⟨by omega, rfl⟩
  · rw [if_neg hquotes, scan_outside (by simpa using hquotes)]
    exact ⟨by omega, rfl⟩

/-- **The loop ends**, with fuel for as many passes as there are characters left. -/
theorem loop_ends {fuel : Nat} {i : Nat} (hfuel : text.length ≤ i + fuel) :
    text.length ≤ (loop text fuel (p, i)).2 ∧ (loop text fuel (p, i)).1 = scan p (text.drop i) := by
  induction fuel generalizing p i with
  | zero =>
    rw [loop, List.drop_eq_nil_of_le (by omega), scan_nil]
    exact ⟨by omega, rfl⟩
  | succ fuel ih =>
    by_cases hi : i < text.length
    · obtain ⟨hfurther, hscan⟩ := body_scan (p := p) hi
      rw [loop, if_pos hi, ← hscan]
      exact ih (p := (body text p i).1) (i := (body text p i).2) (by omega)
    · rw [loop, if_neg hi, List.drop_eq_nil_of_le (by omega), scan_nil]
      exact ⟨by omega, rfl⟩

end

theorem parseCsv_eq_scan (text : String) : parseCsv text = (scan {} text.toList).finish := by
  rw [parseCsv, (loop_ends (Nat.le_add_left _ _)).2, List.drop_zero]

/-! ## Two texts, one after the other -/

section
variable {before after text : List Char} {p : Parsed}

/-- Where no quote comes next, the loop goes by nothing but `p`. -/
theorem scan_append (hafter : after.head? ≠ some '"') (p : Parsed) (before : List Char) :
    scan p (before ++ after) = scan (scan p before) after := by
  induction p, before using scan_induction with
  | nil p => rw [List.nil_append, scan_nil]
  | doubled p rest hquotes ih =>
    rw [List.cons_append, List.cons_append, scan_doubled hquotes, scan_doubled hquotes]
    exact ih
  | close p rest hquotes hnext ih =>
    have hnext' : (rest ++ after).head? ≠ some '"' := by
      cases rest with
      | nil => exact hafter
      | cons c rest => exact hnext
    rw [List.cons_append, scan_close hquotes hnext, scan_close hquotes hnext']
    exact ih
  | inside p char rest hquotes hchar ih =>
    rw [List.cons_append, scan_inside hquotes hchar, scan_inside hquotes hchar]
    exact ih
  | outside p char rest hquotes ih =>
    rw [List.cons_append, scan_outside hquotes, scan_outside hquotes]
    exact ih

/-- Below rows that are there already. -/
def Parsed.below (rows : List (List String)) (p : Parsed) : Parsed := { p with rows := rows ++ p.rows }

theorem Parsed.below_outside (rows : List (List String)) (p : Parsed) (char : Char) :
    (p.below rows).outside char = (p.outside char).below rows := by
  unfold outside below
  split_ifs
  · rfl
  · rfl
  · rfl
  · simp [endRow]
  · rfl

theorem scan_below (rows : List (List String)) (p : Parsed) (text : List Char) :
    scan (p.below rows) text = (scan p text).below rows := by
  induction p, text using scan_induction with
  | nil p => rw [scan_nil, scan_nil]
  | doubled p rest hquotes ih =>
    rw [scan_doubled hquotes, scan_doubled (p := p.below rows) hquotes]
    exact ih
  | close p rest hquotes hnext ih =>
    rw [scan_close hquotes hnext, scan_close (p := p.below rows) hquotes hnext]
    exact ih
  | inside p char rest hquotes hchar ih =>
    rw [scan_inside hquotes hchar, scan_inside (p := p.below rows) hquotes hchar]
    exact ih
  | outside p char rest hquotes ih =>
    rw [scan_outside hquotes, scan_outside (p := p.below rows) hquotes, Parsed.below_outside]
    exact ih

theorem Parsed.outside_inQuotes (hp : p.inQuotes = false) (char : Char) :
    (p.outside char).inQuotes = decide (char = '"') := by
  unfold outside
  split_ifs <;> simp_all [endField, endRow, append]

/-- Each quote opens or closes, a doubled one does both. -/
theorem scan_inQuotes (p : Parsed) (text : List Char) :
    (scan p text).inQuotes = p.inQuotes ↔ text.count '"' % 2 = 0 := by
  induction p, text using scan_induction with
  | nil p => simp
  | doubled p rest hquotes ih =>
    rw [scan_doubled hquotes, List.count_cons_self, List.count_cons_self]
    exact ih.trans (by omega)
  | close p rest hquotes hnext ih =>
    rw [scan_close hquotes hnext, List.count_cons_self, hquotes, ← Bool.not_eq_false, ih]
    omega
  | inside p char rest hquotes hchar ih =>
    rw [scan_inside hquotes hchar, List.count_cons_of_ne hchar]
    exact ih
  | outside p char rest hquotes ih =>
    rw [scan_outside hquotes, hquotes]
    rw [Parsed.outside_inQuotes hquotes] at ih
    by_cases hchar : char = '"'
    · subst hchar
      rw [decide_eq_true rfl] at ih
      rw [List.count_cons_self, ← Bool.not_eq_true, ih]
      omega
    · rw [decide_eq_false hchar] at ih
      rw [List.count_cons_of_ne hchar, ih]

end

/-! ## Complete rows -/

/-- A text that ends with a line break outside quotes. -/
def EndsRow (text : String) : Prop := text.toList.count '"' % 2 = 0 ∧ text.toList.getLast? = some '\n'

instance (text : String) : Decidable (EndsRow text) := inferInstanceAs (Decidable (_ ∧ _))

/-- After a line break outside quotes the loop starts over. -/
theorem scan_endsRow {text : String} (h : EndsRow text) :
    ∃ rows, ∀ rest, scan {} (text.toList ++ rest) = scan { rows } rest := by
  obtain ⟨hquotes, hlast⟩ := h
  obtain ⟨init, hinit⟩ := List.getLast?_eq_some_iff.1 hlast
  have hopen : (scan {} init).inQuotes = false := (scan_inQuotes {} init).2 (by
    rw [hinit] at hquotes
    simpa using hquotes)
  refine ⟨((scan {} init).outside '\n').rows, fun rest => ?_⟩
  rw [hinit, List.append_assoc, scan_append (by simp), List.singleton_append, scan_outside hopen]
  congr 1
  exact Parsed.ext rfl rfl rfl hopen

theorem scan_with_rows (rows : List (List String)) (text : List Char) :
    scan { rows } text = (scan {} text).below rows := by
  rw [← scan_below, Parsed.below, List.append_nil]

theorem Parsed.finish_below (rows : List (List String)) (p : Parsed) : (p.below rows).finish = rows ++ p.finish := by
  unfold finish
  split_ifs with hleft hleft' hleft'
  · simp [below, endRow]
  · exact absurd hleft hleft'
  · exact absurd hleft' hleft
  · rfl

/-! ## What the comment on `parseCsv` promises -/

/-- Inner quotes doubled. -/
def escape (cs : List Char) : List Char := cs.flatMap fun c => if c = '"' then ['"', '"'] else [c]

def renderField (field : String) : List Char := '"' :: escape field.toList ++ ['"']

inductive LineBreak where
  | lf | crlf
deriving DecidableEq

def LineBreak.chars : LineBreak → List Char
  | .lf => ['\n']
  | .crlf => ['\r', '\n']

/-- Fields joined by commas, and a line break. -/
def renderRow (row : List String) (lineBreak : LineBreak) : List Char :=
  [','].intercalate (row.map renderField) ++ lineBreak.chars

def render (rows : List (List String × LineBreak)) : String :=
  String.ofList (rows.flatMap fun r => renderRow r.1 r.2)

section
variable {p : Parsed} {rest : List Char}

theorem scan_escape (hrest : rest.head? ≠ some '"') (cs : List Char) : ∀ {p : Parsed}, p.inQuotes = true →
    scan p (escape cs ++ '"' :: rest) =
      scan { p with field := p.field ++ String.ofList cs, inQuotes := false } rest := by
  induction cs with
  | nil =>
    intro p hquotes
    rw [escape, List.flatMap_nil, List.nil_append, scan_close hquotes hrest]
    simp
  | cons c cs ih =>
    intro p hquotes
    have hfield : (p.field.push c) ++ String.ofList cs = p.field ++ String.ofList (c :: cs) := by
      rw [← String.toList_inj]
      simp
    rw [escape, List.flatMap_cons]
    by_cases hc : c = '"'
    · subst hc
      show scan p ('"' :: '"' :: (escape cs ++ '"' :: rest)) = _
      rw [scan_doubled hquotes, ih (p := p.append '"') hquotes, ← hfield]
      rfl
    · rw [if_neg hc]
      show scan p (c :: (escape cs ++ '"' :: rest)) = _
      rw [scan_inside hquotes hc, ih (p := p.append c) hquotes, ← hfield]
      rfl

/-- A quoted field is read as it was. -/
theorem scan_renderField (hopen : p.inQuotes = false) (hrest : rest.head? ≠ some '"') (field : String) :
    scan p (renderField field ++ rest) = scan { p with field := p.field ++ field } rest := by
  have hquote : p.outside '"' = { p with inQuotes := true } := rfl
  rw [renderField, List.append_assoc, List.cons_append, scan_outside hopen, hquote, List.singleton_append,
    scan_escape hrest _ rfl, String.ofList_toList]
  congr 1
  exact Parsed.ext rfl rfl rfl hopen.symm

theorem scan_lineBreak (hopen : p.inQuotes = false) (lineBreak : LineBreak) :
    scan p (lineBreak.chars ++ rest) = scan p.endRow rest := by
  cases lineBreak with
  | lf => exact scan_outside hopen
  | crlf => exact (scan_outside hopen).trans (scan_outside hopen)

/-- A row is read field by field. -/
theorem scan_renderRow (lineBreak : LineBreak) {row : List String} (hrow : row ≠ []) :
    ∀ {p : Parsed}, p.inQuotes = false → p.field = "" →
      scan p (renderRow row lineBreak ++ rest) = scan { rows := p.rows ++ [p.row ++ row] } rest := by
  induction row with
  | nil => exact absurd rfl hrow
  | cons field row ih =>
    intro p hopen hfield
    cases row with
    | nil =>
      have hchars : (lineBreak.chars ++ rest).head? ≠ some '"' := by cases lineBreak <;> simp [LineBreak.chars]
      rw [renderRow, List.map_singleton, List.intercalate_singleton, List.append_assoc, scan_renderField hopen hchars,
        scan_lineBreak (by exact hopen)]
      simp [Parsed.endRow, hfield, hopen]
    | cons field' row =>
      have hsplit : renderRow (field :: field' :: row) lineBreak ++ rest =
          renderField field ++ ',' :: (renderRow (field' :: row) lineBreak ++ rest) := by
        simp [renderRow]
      rw [hsplit, scan_renderField hopen (by simp), scan_outside (by exact hopen)]
      have hread := ih (List.cons_ne_nil _ _) (p := { p with row := p.row ++ [field], field := "" }) hopen rfl
      rw [List.append_assoc, List.singleton_append] at hread
      rw [← hread]
      simp [Parsed.outside, Parsed.endField, hfield]

theorem scan_render (rows : List (List String × LineBreak)) (h : ∀ r ∈ rows, r.1 ≠ [])
    (read : List (List String)) :
    scan { rows := read } ((render rows).toList ++ rest) = scan { rows := read ++ rows.map (·.1) } rest := by
  rw [render, String.toList_ofList]
  induction rows generalizing read with
  | nil => simp
  | cons r rows ih =>
    obtain ⟨hr, h⟩ := List.forall_mem_cons.1 h
    rw [List.flatMap_cons, List.append_assoc, scan_renderRow r.2 hr rfl rfl, List.nil_append, ih h]
    simp

end

/-- **What is written is what is read**, with either line break after each row; the loop ends on every text; and no row
that ends outside quotes is lost, whatever comes after it. -/
theorem parseCsv_faithful :
    (∀ rows : List (List String × LineBreak), (∀ r ∈ rows, r.1 ≠ []) →
      parseCsv (render rows) = rows.map (·.1)) ∧
    (∀ text : String, text.toList.length ≤ (loop text.toList text.toList.length ({}, 0)).2) ∧
    ∀ before after, EndsRow before → parseCsv (before ++ after) = parseCsv before ++ parseCsv after := by
  refine ⟨fun rows h => ?_, fun text => (loop_ends (Nat.le_add_left _ _)).1, fun before after h => ?_⟩
  · rw [parseCsv_eq_scan, ← List.append_nil (render rows).toList, scan_render rows h [], scan_nil]
    rfl
  · obtain ⟨rows, hrows⟩ := scan_endsRow h
    have hbefore : parseCsv before = rows := by
      rw [parseCsv_eq_scan, ← List.append_nil before.toList, hrows, scan_nil]
      rfl
    rw [hbefore, parseCsv_eq_scan, parseCsv_eq_scan, String.toList_append, hrows, scan_with_rows, Parsed.finish_below]

/-- Two rows come back, and a third that is left open takes neither of them along. -/
theorem parseCsv_faithful_sample :
    parseCsv (render [(["AL-ZOMOR, Abboud", "a \"b\""], .crlf), (["", "\r\n"], .lf)]) =
      [["AL-ZOMOR, Abboud", "a \"b\""], ["", "\r\n"]] ∧
    parseCsv ("\"x\",y\n" ++ "\"z,\n1\n") = parseCsv "\"x\",y\n" ++ parseCsv "\"z,\n1\n" :=
  ⟨parseCsv_faithful.1 _ (by decide), parseCsv_faithful.2.2 _ _ (by decide)⟩

end Kudi.Seeding
