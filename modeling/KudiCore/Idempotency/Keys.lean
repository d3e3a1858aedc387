import KudiCore.Interleave.Table

/-!
# The idempotency-key table

| here | there |
| --- | --- |
| `IdempotencyKeyRecord` | `model IdempotencyKey` in `schema.prisma` |
| `ClaimKey` | its unique `(userId, scope, key)` |
| `IdempotencyKeys` | the table; its primary key `@default(uuid())` is drawn from a counter |
-/

namespace Kudi

open Interleave

inductive IdempotencyKeyStatus where
  | IN_PROGRESS | COMPLETED
deriving DecidableEq, Repr

structure ClaimKey where
  userId : String
  scope : String
  key : String
deriving DecidableEq, Repr

structure IdempotencyKeyRecord where
  id : Nat
  claim : ClaimKey
  status : IdempotencyKeyStatus
  resourceId : Option String
  createdAt : Nat
  updatedAt : Nat
deriving DecidableEq, Repr

structure IdempotencyKeys where
  table : Table IdempotencyKeyRecord.claim
  nextId : Nat
  fresh : ∀ row ∈ table.rows, row.id < nextId
  unique : ∀ row ∈ table.rows, ∀ row' ∈ table.rows, row.id = row'.id → row = row'

namespace IdempotencyKeys

def empty : IdempotencyKeys := ⟨.empty, 0, by simp [Table.empty], by simp [Table.empty]⟩

def find? (t : IdempotencyKeys) (claim : ClaimKey) : Option IdempotencyKeyRecord := t.table.find? claim

/-- The row of primary key `id`. -/
def byId? (t : IdempotencyKeys) (id : Nat) : Option IdempotencyKeyRecord := t.table.rows.find? fun r => r.id = id

def newRow (t : IdempotencyKeys) (claim : ClaimKey) (now : Nat) : IdempotencyKeyRecord :=
  ⟨t.nextId, claim, .IN_PROGRESS, none, now, now⟩

def create (t : IdempotencyKeys) (claim : ClaimKey) (now : Nat) : IdempotencyKeys where
  table := t.table.put (t.newRow claim now)
  nextId := t.nextId + 1
  fresh := by
    intro row h
    rcases (Table.mem_put _ _ _).1 h with rfl | ⟨h, -⟩
    · exact Nat.lt_succ_self _
    · exact Nat.lt_succ_of_lt (t.fresh row h)
  unique := by
    intro row h row' h' e
    rcases (Table.mem_put _ _ _).1 h with rfl | ⟨h, -⟩ <;> rcases (Table.mem_put _ _ _).1 h' with rfl | ⟨h', -⟩
    · rfl
    · exact absurd e.symm (t.fresh row' h').ne
    · exact absurd e (t.fresh row h).ne
    · exact t.unique row h row' h' e

/-- An update of the row of `claim`: its `id`, its key and `createdAt` stay. -/
def update (t : IdempotencyKeys) (claim : ClaimKey) (status : IdempotencyKeyStatus) (resourceId : Option String)
    (updatedAt : Nat) : IdempotencyKeys :=
  match h : t.find? claim with
  | none => t
  | some old =>
    { table := t.table.put { old with status, resourceId, updatedAt }
      nextId := t.nextId
      fresh := by
        intro row hr
        rcases (Table.mem_put _ _ _).1 hr with rfl | ⟨hr, -⟩
        · exact t.fresh old (Table.mem_of_find? h)
        · exact t.fresh row hr
      unique := by
        have ho := Table.mem_of_find? h
        intro row hr row' hr' e
        rcases (Table.mem_put _ _ _).1 hr with rfl | ⟨hr, hk⟩ <;>
          rcases (Table.mem_put _ _ _).1 hr' with rfl | ⟨hr', hk'⟩
        · rfl
        · exact absurd (congrArg IdempotencyKeyRecord.claim (t.unique row' hr' old ho e.symm)) hk'
        · exact absurd (congrArg IdempotencyKeyRecord.claim (t.unique row hr old ho e)) hk
        · exact t.unique row hr row' hr' e }

def erase (t : IdempotencyKeys) (claim : ClaimKey) : IdempotencyKeys where
  table := t.table.erase claim
  nextId := t.nextId
  fresh row h := t.fresh row (List.mem_filter.1 h).1
  unique row h row' h' e := t.unique row (List.mem_filter.1 h).1 row' (List.mem_filter.1 h').1 e

variable {t : IdempotencyKeys} {claim claim' : ClaimKey} {row : IdempotencyKeyRecord}

theorem claim_of_find? (h : t.find? claim = some row) : row.claim = claim := Table.key_of_find? h

theorem id_lt_of_find? (h : t.find? claim = some row) : row.id < t.nextId := t.fresh row (Table.mem_of_find? h)

theorem byId?_of_find? (h : t.find? claim = some row) : t.byId? row.id = some row := by
  have hm : row ∈ t.table.rows := Table.mem_of_find? h
  obtain ⟨row', h'⟩ : ∃ row', t.byId? row.id = some row' := by
    refine Option.isSome_iff_exists.1 ?_
    simp only [byId?, List.find?_isSome, decide_eq_true_eq]
    exact ⟨row, hm, rfl⟩
  have hid : row'.id = row.id := by simpa using List.find?_some h'
  rw [h', t.unique row' (List.mem_of_find?_eq_some h') row hm hid]

theorem find?_of_byId? {id : Nat} (h : t.byId? id = some row) : row.id = id ∧ t.find? row.claim = some row :=
  ⟨by simpa using List.find?_some h, Table.find?_of_mem (List.mem_of_find?_eq_some h)⟩

@[simp] theorem find?_create (t : IdempotencyKeys) (claim claim' : ClaimKey) (now : Nat) :
    (t.create claim now).find? claim' = if claim = claim' then some (t.newRow claim now) else t.find? claim' := by
  simp [create, find?, newRow]

@[simp] theorem find?_update (t : IdempotencyKeys) (claim claim' : ClaimKey) (status : IdempotencyKeyStatus)
    (resourceId : Option String) (updatedAt : Nat) :
    (t.update claim status resourceId updatedAt).find? claim' =
      if claim = claim' then (t.find? claim).map fun old => { old with status, resourceId, updatedAt }
      else t.find? claim' := by
  unfold update
  split
  · rename_i h
    by_cases hc : claim = claim'
    · subst hc
      simp [h]
    · simp [hc]
  · rename_i old h
    by_cases hc : claim = claim'
    · subst hc
      simp [find?, claim_of_find? h, show t.table.find? claim = some old from h]
    · simp [find?, claim_of_find? h, hc]

@[simp] theorem find?_erase (t : IdempotencyKeys) (claim claim' : ClaimKey) :
    (t.erase claim).find? claim' = if claim = claim' then none else t.find? claim' := by
  simp [erase, find?]

@[simp] theorem nextId_create (t : IdempotencyKeys) (claim : ClaimKey) (now : Nat) :
    (t.create claim now).nextId = t.nextId + 1 := rfl

@[simp] theorem nextId_update (t : IdempotencyKeys) (claim : ClaimKey) (status : IdempotencyKeyStatus)
    (resourceId : Option String) (updatedAt : Nat) :
    (t.update claim status resourceId updatedAt).nextId = t.nextId := by
  unfold update
  split <;> rfl

@[simp] theorem nextId_erase (t : IdempotencyKeys) (claim : ClaimKey) : (t.erase claim).nextId = t.nextId := rfl

end IdempotencyKeys

end Kudi
