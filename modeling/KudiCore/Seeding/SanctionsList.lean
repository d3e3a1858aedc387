import Mathlib.Data.List.Nodup
import KudiCore.Identity.User
import KudiCore.Interleave.Run
import KudiCore.Interleave.Table
import KudiCore.Seeding.Csv

/-!
# Seeding the sanctions list (infrastructure/prisma/seed-sanctions-list.ts)

| here | there |
| --- | --- |
| `SanctionsListRow` | `model SanctionsListEntry` in `schema.prisma`, less the database's `id` and `createdAt` |
| `entriesOf` | `entries`, as they are made from the text of the file |
| `seedSanctionsList` | `seedSanctionsList`; `raw` is what `readFileSync` returns, or throws |

The script deletes and inserts in two statements, and no transaction holds them together. It is the one to write the
rows of its source; other sources may be written at any time (`OwnRowsStay`).
-/

namespace Kudi.Seeding

open Interleave

/-! ## The file -/

structure SanctionsListRow where
  source : String
  externalId : String
  fullName : String
  program : Option String
  remarks : Option String
deriving DecidableEq, Repr

def SOURCE : String := "OFAC_SDN"

def trim (s : String) : String := String.ofList (Identity.trim s.toList)

/-- `s || null`. -/
def orNull (s : String) : Option String := if s = "" then none else some s

def entriesOf (raw : String) : List SanctionsListRow :=
  ((parseCsv raw).drop 1).filterMap fun cols =>
    match cols with
    | externalId :: fullName :: program :: remarks :: _ =>
      if trim externalId ≠ "" then
        some { source := SOURCE, externalId := trim externalId, fullName := trim fullName,
               program := orNull (trim program), remarks := orNull (trim remarks) }
      else none
    | _ => none

theorem source_of_entry {raw : String} {row : SanctionsListRow} (h : row ∈ entriesOf raw) : row.source = SOURCE := by
  obtain ⟨cols, -, hrow⟩ := List.mem_filterMap.1 h
  split at hrow
  · split_ifs at hrow
    cases hrow
    rfl
  · cases hrow

/-! ## The table -/

/-- `@@unique([source, externalId])`. -/
def SanctionsListRow.key (row : SanctionsListRow) : String × String := (row.source, row.externalId)

inductive Op where
  | deleteMany (source : String)
  | createMany (data : List SanctionsListRow)
deriving DecidableEq

/-- How many. -/
def Op.Res (_ : Op) : Type := Nat

inductive Ans where
  | ok
  | fail (e : Err)

def uniqueViolation : Err := .prismaKnown "P2002" "Unique constraint failed on the fields: (source, externalId)"

structure Store where
  sanctionsListEntries : Table SanctionsListRow.key

/-- Each call is one statement, which is carried out or not. -/
def exec (a : Ans) (op : Op) (s : Store) : Option (Except Err op.Res × Store) :=
  match a, op with
  | .fail e, _ => some (.error e, s)
  | .ok, .deleteMany source =>
    let kept := s.sanctionsListEntries.rows.filter fun row => row.source ≠ source
    some (.ok (s.sanctionsListEntries.rows.length - kept.length : Nat),
      ⟨kept, s.sanctionsListEntries.nodup.sublist (List.filter_sublist.map _)⟩)
  | .ok, .createMany data =>
    if h : ((s.sanctionsListEntries.rows ++ data).map SanctionsListRow.key).Nodup then
      some (.ok (data.length : Nat), ⟨_, h⟩)
    else some (.error uniqueViolation, s)

def database : System Op.Res Err Store Ans Unit := ⟨fun _ => exec, fun _ s => s, fun _ _ _ _ => True⟩

instance (s : Store) (i : PId) (a : Ans) (op : Op) : Decidable (database.allow s i a op) := instDecidableTrue

/-- The rows of the script's own source. -/
def Store.list (s : Store) : List SanctionsListRow :=
  s.sanctionsListEntries.rows.filter fun row => row.source = SOURCE

/-- What others do meanwhile. -/
def OwnRowsStay (s s' : Store) : Prop := s'.list = s.list

/-! ## The script -/

def seedSanctionsList (raw : Except Err String) : Prog Op.Res Err Err Unit := do
  let raw ← Prog.ofExcept raw
  let _ ← Prog.await (Op.deleteMany SOURCE)
  let _ ← Prog.await (Op.createMany (entriesOf raw))
  return ()

def Op.isCreateMany : Op → Prop
  | .createMany _ => True
  | _ => False

section
variable {raw : String} {a : Ans} {r : Except Err Nat} {s s' : Store}

theorem exec_deleteMany (h : exec a (.deleteMany SOURCE) s = some (r, s')) :
    ((∃ e, r = .error e) ∧ s' = s) ∨ (∃ n, r = .ok n) ∧ s'.list = [] := by
  cases a with
  | fail e =>
    cases h
    exact .inl ⟨⟨e, rfl⟩, rfl⟩
  | ok =>
    cases h
    refine .inr ⟨⟨_, rfl⟩, List.filter_eq_nil_iff.2 fun row hrow => ?_⟩
    simpa using (List.mem_filter.1 hrow).2

theorem exec_createMany (h : exec a (.createMany (entriesOf raw)) s = some (r, s')) :
    ((∃ e, r = .error e) ∧ s' = s) ∨
      (∃ n, r = .ok n) ∧ s'.list = s.list ++ entriesOf raw ∧ ((entriesOf raw).map (·.externalId)).Nodup := by
  cases a with
  | fail e =>
    cases h
    exact .inl ⟨⟨e, rfl⟩, rfl⟩
  | ok =>
    simp only [exec] at h
    split at h
    · next hdistinct =>
      cases h
      refine .inr ⟨⟨_, rfl⟩, ?_, ?_⟩
      · show List.filter _ (s.sanctionsListEntries.rows ++ entriesOf raw) = _
        have hown : (entriesOf raw).filter (fun row => row.source = SOURCE) = entriesOf raw :=
          List.filter_eq_self.2 fun row hrow => decide_eq_true (source_of_entry hrow)
        rw [List.filter_append, hown, Store.list]
      · rw [List.map_append] at hdistinct
        have hkeys : (entriesOf raw).map SanctionsListRow.key =
            ((entriesOf raw).map (·.externalId)).map (SOURCE, ·) := by
          rw [List.map_map]
          exact List.map_congr_left fun row hrow => congrArg (·, row.externalId) (source_of_entry hrow)
        exact (hkeys ▸ (List.nodup_append.1 hdistinct).2.1).of_map _
    · cases h
      exact .inl ⟨⟨_, rfl⟩, rfl⟩

/-! ## How a run ends -/

variable {i : PId} {tr : List (Event Op.Res Err Store)} {x : Except Err Unit}

/-- Nothing is done; or the old rows are gone and the new ones rejected; or all is done. -/
theorem seed_ends (hrun : Run database OwnRowsStay i (seedSanctionsList (.ok raw)) s tr x s') :
    (∃ e, x = .error e) ∧ s'.list = s.list ∧ ¬ Stopped Op.isCreateMany tr ∨
    (∃ e, x = .error e) ∧ s'.list = [] ∧ Stopped Op.isCreateMany tr ∨
    s'.list = entriesOf raw ∧ ((entriesOf raw).map (·.externalId)).Nodup ∧ ¬ Stopped Op.isCreateMany tr := by
  have hrun : Run database OwnRowsStay i (Prog.await (Op.deleteMany SOURCE) >>= _) s tr x s' := hrun
  obtain ⟨s1, a, r, s2, rest, henv, -, hx, rfl, hrest⟩ := hrun.await_bind
  rcases exec_deleteMany hx with ⟨⟨e, rfl⟩, rfl⟩ | ⟨⟨n, rfl⟩, hgone⟩
  · obtain ⟨_, hv, -⟩ | ⟨e, -, rfl, rfl, rfl⟩ := hrest
    · cases hv
    · refine .inl ⟨⟨e, rfl⟩, henv, ?_⟩
      exact (Stopped.last (T := (· = Op.deleteMany SOURCE)) rfl rfl).not_of_disjoint fun op hop => hop ▸ id
  · obtain ⟨_, -, h2⟩ | ⟨e, hv, -⟩ := hrest
    · have h2 : Run database OwnRowsStay i (Prog.await (Op.createMany (entriesOf raw)) >>= _) s2 rest x s' := h2
      obtain ⟨s3, b, r, s4, rest', henv', -, hy, rfl, hrest'⟩ := h2.await_bind
      rcases exec_createMany hy with ⟨⟨e, rfl⟩, rfl⟩ | ⟨⟨m, rfl⟩, hnew, hdistinct⟩
      · obtain ⟨_, hv, -⟩ | ⟨e, -, rfl, rfl, rfl⟩ := hrest'
        · cases hv
        · exact .inr (.inl ⟨⟨e, rfl⟩, henv'.trans hgone, .cons rfl (.last rfl trivial)⟩)
      · obtain ⟨_, -, rfl, rfl, rfl⟩ | ⟨e, hv, -⟩ := hrest'
        · have hempty : s3.list = [] := henv'.trans hgone
          rw [hempty, List.nil_append] at hnew
          exact .inr (.inr ⟨hnew, hdistinct, fun h => h.not_through (.cons rfl (.cons rfl .nil))⟩)
        · cases hv
    · cases hv

end

/-- The script's rows are what they were, or what the file says. -/
def Replaced (raw : Except Err String) (s s' : Store) : Prop :=
  s'.list = s.list ∨ ∃ text, raw = .ok text ∧ s'.list = entriesOf text

/-- **The list is replaced as a whole or left alone exactly if the insertion is not rejected**, unless there is nothing
to lose: no rows before, or none in the file. A rejected insertion leaves no row at all, and it is rejected if an
`externalId` comes twice. -/
theorem list_replaced_iff {raw : Except Err String} {i : PId} {s s' : Store} {tr : List (Event Op.Res Err Store)}
    {x : Except Err Unit} (hrun : Run database OwnRowsStay i (seedSanctionsList raw) s tr x s') :
    (Replaced raw s s' ↔
      ¬ Stopped Op.isCreateMany tr ∨ s.list = [] ∨ ∃ text, raw = .ok text ∧ entriesOf text = []) ∧
    (Stopped Op.isCreateMany tr → s'.list = []) ∧
    (x = .ok () → ∃ text, raw = .ok text ∧ ((entriesOf text).map (·.externalId)).Nodup) := by
  cases raw with
  | error e =>
    obtain ⟨rfl, rfl, rfl⟩ := hrun
    have hwhole : ¬ Stopped Op.isCreateMany ([] : List (Event Op.Res Err Store)) := fun h => h.not_through .nil
    exact ⟨iff_of_true (.inl rfl) (.inl hwhole), fun h => absurd h hwhole, fun h => nomatch h⟩
  | ok text =>
    rcases seed_ends hrun with ⟨⟨e, rfl⟩, hs', hwhole⟩ | ⟨⟨e, rfl⟩, hs', hstopped⟩ | ⟨hs',
      hdistinct, hwhole⟩
    · exact ⟨iff_of_true (.inl hs') (.inl hwhole), fun h => absurd h hwhole, fun h => nomatch h⟩
    · refine ⟨⟨?_, ?_⟩, fun _ => hs', fun h => nomatch h⟩
      · rintro (hsame | ⟨text', htext, hnew⟩)
        · exact .inr (.inl (hsame.symm.trans hs'))
        · exact .inr (.inr ⟨text', htext, hnew.symm.trans hs'⟩)
      · rintro (hwhole | hnone | ⟨text', htext, hnone⟩)
        · exact absurd hstopped hwhole
        · exact .inl (hs'.trans hnone.symm)
        · exact .inr ⟨text', htext, hs'.trans hnone.symm⟩
    · exact ⟨iff_of_true (.inr ⟨text, rfl, hs'⟩) (.inl hwhole), fun h => absurd h hwhole,
        fun _ => ⟨text, rfl, hdistinct⟩⟩

def sampleRow : SanctionsListRow := ⟨SOURCE, "2677", "AL-ZOMOR, Abboud", some "SDGT", none⟩

def sampleStore : Store := ⟨[sampleRow], by simp⟩

def sampleFile (entries : List String) : String := "\n".intercalate ("id,fullName,program,remarks" :: entries) ++ "\n"

def sampleOnce : String := sampleFile ["\"36\",\"X, Y\",,"]

def sampleTwice : String := sampleFile ["\"36\",\"X, Y\",,", "\"36\",\"Y, X\",,"]

/-- A file that is in order takes the list's place. -/
theorem list_replaced_iff_sample : ∃ i tr s',
    Run database OwnRowsStay i (seedSanctionsList (.ok sampleOnce)) sampleStore tr (.ok ()) s' ∧
    s'.list = [⟨SOURCE, "36", "X, Y", none, none⟩] ∧ ((Replaced (.ok sampleOnce) sampleStore s' ↔
      ¬ Stopped Op.isCreateMany tr ∨ sampleStore.list = [] ∨
        ∃ text, (Except.ok sampleOnce : Except Err String) = .ok text ∧ entriesOf text = [])) := by
  have hplay : (playRun database 0 [.ok, .ok] (seedSanctionsList (.ok sampleOnce)) sampleStore).any fun r =>
      r.2.1 = .ok () ∧ r.2.2.list = [⟨SOURCE, "36", "X, Y", none, none⟩] := by
    decide +kernel
  obtain ⟨tr, x, s', hrun, rfl, hlist⟩ := playRun_seen
    (Q := fun _ x (s' : Store) => x = .ok () ∧ s'.list = [⟨SOURCE, "36", "X, Y", none, none⟩]) hplay
  have hrun := run_of_play (fun s => show OwnRowsStay s s from rfl) hrun
  exact ⟨0, tr, s', hrun, hlist, (list_replaced_iff hrun).1⟩

/-- The other file has an entry twice: its insertion is rejected, and the watchlist is empty. -/
theorem list_lost : ∃ i tr s',
    Run database OwnRowsStay i (seedSanctionsList (.ok sampleTwice)) sampleStore tr (.error uniqueViolation) s' ∧
    s'.list = [] ∧ ¬ Replaced (.ok sampleTwice) sampleStore s' := by
  have hplay : (playRun database 0 [.ok, .ok] (seedSanctionsList (.ok sampleTwice)) sampleStore).any fun r =>
      r.2.1 = .error uniqueViolation ∧ r.2.2.list = [] := by
    decide +kernel
  obtain ⟨tr, x, s', hrun, rfl, hlist⟩ := playRun_seen
    (Q := fun _ x (s' : Store) => x = .error uniqueViolation ∧ s'.list = []) hplay
  refine ⟨0, tr, s', run_of_play (fun s => show OwnRowsStay s s from rfl) hrun, hlist, ?_⟩
  have hentries : entriesOf sampleTwice ≠ [] := by decide +kernel
  rintro (hsame | ⟨text, htext, hnew⟩)
  · exact absurd (hsame.symm.trans hlist) (by decide)
  · cases htext
    exact hentries (hnew.symm.trans hlist)

end Kudi.Seeding
