import KudiCore.Idempotency.Keys
import KudiCore.Accounts.Account
import KudiCore.Transfers.Transfer

/-!
# The database

| here | there |
| --- | --- |
| `LedgerEntryRecord` | `model LedgerEntry` in `schema.prisma` |
| `KycProfileRecord` | the columns of `model KycProfile` the limit checks read |
| `KycTierLimitRecord` | `model KycTierLimit` |
| `Db` | the tables, primary and unique keys included |
| `Write` | the effect of one statement on the rows |

Of a ledger entry `sourceEventId`, which is fresh for every row, so that its constraint never fires, and `occurredAt`
are left out.

The events a `Write.account` carries are no column: they are the history variable that
tells what the aggregate that was saved had recorded.
-/

namespace Kudi

open Interleave

/-! ## Rows -/

inductive LedgerEntryDirection where
  | DEBIT | CREDIT
deriving DecidableEq, Repr

inductive LedgerEntryType where
  | TRANSFER | DEPOSIT | BILL_PAYMENT | ADJUSTMENT
deriving DecidableEq, Repr

/-- The columns a caller supplies. -/
structure LedgerEntryData where
  journalId : String
  accountId : String
  userId : String
  direction : LedgerEntryDirection
  amountMinorUnits : Int
  balanceAfterMinorUnits : Int
  currency : Currency
  entryType : LedgerEntryType
  reference : String
deriving DecidableEq, Repr

structure LedgerEntryRecord extends LedgerEntryData where
  createdAt : Nat
deriving DecidableEq, Repr

/-- Credit positive, as in `computeRunningBalance`. -/
def LedgerEntryData.signed (e : LedgerEntryData) : Int :=
  match e.direction with
  | .CREDIT => e.amountMinorUnits
  | .DEBIT => -e.amountMinorUnits

/-- Credits minus debits of account `accountId`. -/
def ledgerNet (rows : List LedgerEntryRecord) (accountId : String) : Int :=
  (rows.map fun e => if e.accountId = accountId then e.signed else 0).sum

theorem ledgerNet_append (rows added : List LedgerEntryRecord) (accountId : String) :
    ledgerNet (rows ++ added) accountId = ledgerNet rows accountId + ledgerNet added accountId := by
  simp [ledgerNet]

inductive KycTier where
  | TIER_1 | TIER_2 | TIER_3
deriving DecidableEq, Repr

def KycTier.value : KycTier → String
  | .TIER_1 => "TIER_1"
  | .TIER_2 => "TIER_2"
  | .TIER_3 => "TIER_3"

structure KycProfileRecord where
  userId : String
  tier : KycTier
deriving DecidableEq, Repr

structure KycTierLimitRecord where
  tier : KycTier
  currency : Currency
  perTransactionLimit : Option Int
  dailyTransferLimit : Option Int
  maxBalance : Option Int
deriving DecidableEq, Repr

/-! ## Tables -/

structure Db where
  accounts : Table AccountRecord.id
  transfers : Table TransferRecord.id
  ledgerEntries : List LedgerEntryRecord
  idempotencyKeys : IdempotencyKeys
  kycProfiles : Table KycProfileRecord.userId
  kycTierLimits : Table KycTierLimitRecord.tier

def Db.empty : Db := ⟨.empty, .empty, [], .empty, .empty, .empty⟩

/-- A database with these accounts and transfers and nothing else. -/
def Db.of (accounts : List AccountRecord) (transfers : List TransferRecord) : Db :=
  { Db.empty with accounts := accounts.foldl .put .empty, transfers := transfers.foldl .put .empty }

/-- An account with ₦100.00, and its owner's reference for a transfer. -/
def sampleAccount : AccountRecord := ⟨"acc", "user", "0123456789", .NGN, 10000, .ACTIVE, 3⟩
def sampleReference : TransferReference := ⟨"KUDI-AAAAAAAAAAAAAAAA", by decide⟩

/-- The rows a statement has written. -/
inductive Write where
  | account (data : AccountRecord) (events : List AccountEvent)
  | transfer (data : TransferRecord)
  | ledgerEntries (rows : List LedgerEntryRecord)
  | idempotencyKeyCreated (claim : ClaimKey) (now : Nat)
  | idempotencyKeyUpdated (claim : ClaimKey) (status : IdempotencyKeyStatus) (resourceId : Option String)
      (updatedAt : Nat)
  | idempotencyKeyDeleted (claim : ClaimKey)
deriving DecidableEq

namespace Db

def apply (db : Db) : Write → Db
  | .account data _ => { db with accounts := db.accounts.put data }
  | .transfer data => { db with transfers := db.transfers.put data }
  | .ledgerEntries rows => { db with ledgerEntries := db.ledgerEntries ++ rows }
  | .idempotencyKeyCreated claim now => { db with idempotencyKeys := db.idempotencyKeys.create claim now }
  | .idempotencyKeyUpdated claim status resourceId updatedAt =>
    { db with idempotencyKeys := db.idempotencyKeys.update claim status resourceId updatedAt }
  | .idempotencyKeyDeleted claim => { db with idempotencyKeys := db.idempotencyKeys.erase claim }

def applyAll (db : Db) (ws : List Write) : Db := ws.foldl apply db

@[simp] theorem applyAll_nil (db : Db) : db.applyAll [] = db := rfl
@[simp] theorem applyAll_cons (db : Db) (w : Write) (ws : List Write) :
    db.applyAll (w :: ws) = (db.apply w).applyAll ws := rfl

theorem applyAll_append (db : Db) (ws ws' : List Write) :
    db.applyAll (ws ++ ws') = (db.applyAll ws).applyAll ws' := List.foldl_append

end Db

/-- What a statement holds a row lock, or a unique-index entry, on. -/
inductive RowKey where
  | account (id : String)
  | accountNumber (number : String)
  | transfer (id : String)
  | transferReference (reference : String)
deriving DecidableEq

namespace Write

def keys : Write → List RowKey
  | .account data _ => [.account data.id, .accountNumber data.accountNumber]
  | .transfer data => [.transfer data.id, .transferReference data.reference]
  | _ => []

/-- The account row written, with the events recorded on it. -/
def account? : Write → Option (AccountRecord × List AccountEvent)
  | .account data events => some (data, events)
  | _ => none

def transfer? : Write → Option TransferRecord
  | .transfer data => some data
  | _ => none

def ledgerRows : Write → List LedgerEntryRecord
  | .ledgerEntries rows => rows
  | _ => []

end Write

/-- The account rows among `ws`, in order. -/
def accountWrites (ws : List Write) : List (AccountRecord × List AccountEvent) := ws.filterMap Write.account?

/-- The transfer rows among `ws`, in order. -/
def transferWrites (ws : List Write) : List TransferRecord := ws.filterMap Write.transfer?

namespace Db

@[simp] theorem apply_kycProfiles (db : Db) (w : Write) : (db.apply w).kycProfiles = db.kycProfiles := by
  cases w <;> rfl

@[simp] theorem apply_kycTierLimits (db : Db) (w : Write) : (db.apply w).kycTierLimits = db.kycTierLimits := by
  cases w <;> rfl

/-- No write is about the tiers and their limits. -/
theorem applyAll_kyc : ∀ (ws : List Write) (db : Db),
    (db.applyAll ws).kycProfiles = db.kycProfiles ∧ (db.applyAll ws).kycTierLimits = db.kycTierLimits
  | [], _ => ⟨rfl, rfl⟩
  | w :: ws, db => by simpa using applyAll_kyc ws (db.apply w)

theorem apply_accounts_of_none {w : Write} (h : w.account? = none) (db : Db) :
    (db.apply w).accounts = db.accounts := by
  cases w <;> first | rfl | cases h

theorem apply_transfers_of_none {w : Write} (h : w.transfer? = none) (db : Db) :
    (db.apply w).transfers = db.transfers := by
  cases w <;> first | rfl | cases h

theorem apply_ledgerEntries (db : Db) (w : Write) :
    (db.apply w).ledgerEntries = db.ledgerEntries ++ w.ledgerRows := by
  cases w <;> simp [apply, Write.ledgerRows]

theorem applyAll_ledgerEntries : ∀ (ws : List Write) (db : Db),
    (db.applyAll ws).ledgerEntries = db.ledgerEntries ++ ws.flatMap Write.ledgerRows
  | [], db => by simp
  | w :: ws, db => by
    rw [applyAll_cons, applyAll_ledgerEntries ws, apply_ledgerEntries, List.flatMap_cons, List.append_assoc]

end Db

end Kudi
