import KudiCore.Interleave.Protocol
import KudiCore.Database

/-!
# What the handlers call

| here | there |
| --- | --- |
| `Client` | `tx ?? this.prisma`: a statement of its own, or one inside `$transaction` |
| `Op` | one awaited (or otherwise fallible) call |
| `Ans` | what the outside world decides about one call |
| `Store` | the committed tables, the writes staged by open transactions, the clock |
| `exec` | one call: atomic, as PostgreSQL executes one statement under READ COMMITTED |
| `transaction` | `prisma.$transaction(async (tx) => …)` |

The calls are those of the Prisma delegates, `$transaction`'s own begin, commit and rollback, those of Flutterwave's
client, and `EventBus.publish`, `randomUUID`, `TransferReference.generate` and `Date.now`.

A statement inside a transaction sees the committed rows with its own staged writes on top. A row
written by an open transaction is locked: another write to it cannot run (`exec` is `none`) until
that transaction has ended, and is then judged against the committed row. A failing call leaves
the committed rows as they are; a `COMMIT` that fails is a rollback.

`wal` and `marks` are history variables: the committed writes in commit order, each under the
program that made them, and the points in time that programs mark. No call reads them.
-/

namespace Kudi

open Interleave

/-! ## Calls and their results -/

inductive Client where
  | prisma | tx
deriving DecidableEq, Repr

/-- `prisma.account`. `updateMany` is always `where: { id: data.id, version }`, `findMany` is
`where: { userId }, orderBy: { createdAt: 'asc' }`. -/
inductive AccountCall where
  | findUnique (id : String)
  | findMany (userId : String)
  | count (accountNumber : String)
  | create (data : AccountRecord)
  | updateMany (version : Nat) (data : AccountRecord) (events : List AccountEvent)

@[reducible] def AccountCall.Res : AccountCall → Type
  | .findUnique _ => Option AccountRecord
  | .findMany _ => List AccountRecord
  | .count _ => Nat
  | .create _ => Unit
  | .updateMany .. => Nat

/-- `prisma.transfer`. `sumSince` is the `aggregate` of `sumSourceAmountSince`. -/
inductive TransferCall where
  | findUnique (id : String)
  | findFirst (providerReference : String)
  | create (data : TransferRecord)
  | updateMany (version : Nat) (data : TransferRecord)
  | sumSince (sourceAccountId : String) (statuses : List TransactionStatus) (since : Int)

@[reducible] def TransferCall.Res : TransferCall → Type
  | .findUnique _ => Option TransferRecord
  | .findFirst _ => Option TransferRecord
  | .create _ => Unit
  | .updateMany .. => Nat
  | .sumSince .. => Option Int

/-- `prisma.ledgerEntry`. `findFirst` is `orderBy: { createdAt: 'desc' }`. -/
inductive LedgerCall where
  | findFirst (accountId : String)
  | createMany (data : List LedgerEntryData)

@[reducible] def LedgerCall.Res : LedgerCall → Type
  | .findFirst _ => Option LedgerEntryRecord
  | .createMany _ => Unit

/-- `prisma.idempotencyKey`. `touch` is the reclaim's `updateMany` on `{ id, status }`, `complete`
the `update` of `markCompleted`. -/
inductive IdempotencyCall where
  | create (claim : ClaimKey)
  | findUnique (claim : ClaimKey)
  | touch (id : Nat) (status : IdempotencyKeyStatus) (updatedAt : Nat)
  | complete (claim : ClaimKey) (resourceId : String)
  | deleteMany (claim : ClaimKey)

@[reducible] def IdempotencyCall.Res : IdempotencyCall → Type
  | .create _ => Unit
  | .findUnique _ => Option IdempotencyKeyRecord
  | .touch .. => Nat
  | .complete .. => Unit
  | .deleteMany _ => Unit

inductive KycCall where
  | findProfile (userId : String)
  | findTierLimit (tier : KycTier)

@[reducible] def KycCall.Res : KycCall → Type
  | .findProfile _ => Option KycProfileRecord
  | .findTierLimit _ => Option KycTierLimitRecord

inductive TransactionCall where
  | begin | commit | rollback
deriving DecidableEq

/-- What `IFlutterwaveTransferClient.initiateTransfer` is asked for (flutterwave-transfer.mapper.ts:20);
the callback URL is configuration. -/
structure PayoutRequest where
  bankCode : String
  accountNumber : String
  amountMajorUnits : String
  currency : Currency
  reference : String
  narration : String
deriving DecidableEq, Repr

inductive FlutterwaveTransferStatus where
  | NEW | PENDING | SUCCESSFUL | FAILED
deriving DecidableEq, Repr

structure FlutterwaveTransferData where
  id : Nat
  status : FlutterwaveTransferStatus
deriving DecidableEq, Repr

structure FlutterwaveTransferResponse where
  success : Bool
  message : String
  data : Option FlutterwaveTransferData
deriving DecidableEq, Repr

inductive DomainEvent where
  | account (e : AccountEvent)
  | transfer (e : TransferEvent)
deriving DecidableEq, Repr

/-- Points in time of an operation run under an idempotency key. -/
inductive Mark where
  | invoked (claim : ClaimKey)
  | resolved (claim : ClaimKey) (resourceId : String)
  | rejected (claim : ClaimKey)
deriving DecidableEq, Repr

inductive Op where
  | account (c : Client) (q : AccountCall)
  | transfer (c : Client) (q : TransferCall)
  | ledgerEntry (c : Client) (q : LedgerCall)
  | idempotencyKey (q : IdempotencyCall)
  | kyc (c : Client) (q : KycCall)
  | transaction (q : TransactionCall)
  | payout (request : PayoutRequest)
  | publish (event : DomainEvent)
  | randomUUID
  | generateReference
  | dateNow
  | mark (m : Mark)

@[reducible] def Op.Res : Op → Type
  | .account _ q => q.Res
  | .transfer _ q => q.Res
  | .ledgerEntry _ q => q.Res
  | .idempotencyKey q => q.Res
  | .kyc _ q => q.Res
  | .transaction _ => Unit
  | .payout _ => FlutterwaveTransferResponse
  | .publish _ => Unit
  | .randomUUID => String
  | .generateReference => TransferReference
  | .dateNow => Nat
  | .mark _ => Unit

/-- A program of the repository that throws `ε`. -/
abbrev Program (ε α : Type) := Prog Op.Res Err ε α

/-- An `async` method. -/
abbrev Handler (α : Type) := Program Err α

/-! ## The store -/

structure Store where
  db : Db
  txs : Table fun t : PId × List Write => t.1
  clock : Nat
  wal : List (PId × List Write)
  marks : List (PId × Mark)

/-- Nothing in flight, nothing recorded yet. -/
def Store.init (db : Db) (clock : Nat) : Store := ⟨db, .empty, clock, [], []⟩

inductive Ans where
  | ok
  /-- Among rows that the query orders equally, the `n`-th latest. -/
  | pick (n : Nat)
  | fail (e : Err)
  | uuid (s : String)
  | reference (r : TransferReference)
  | payout (r : FlutterwaveTransferResponse)

def Ans.isFail : Ans → Bool
  | .fail _ => true
  | _ => false

/-- The calls that can be rejected; the others are local computations. -/
def Op.fallible : Op → Bool
  | .randomUUID | .generateReference | .dateNow | .mark _ | .transaction .rollback => false
  | _ => true

def uniqueViolation : Err := .prismaKnown "P2002" "Unique constraint failed"
def recordNotFound : Err := .prismaKnown "P2025" "No record was found for an update"

/-- A storage failure, for the sample schedules. -/
def connectionLost : Err := .prismaKnown "P1001" "Database server cannot be reached"

namespace Store

def staged (s : Store) (i : PId) : List Write := ((s.txs.find? i).map (·.2)).getD []

/-- The tables as program `i` sees them through client `c`. -/
def view (s : Store) (i : PId) : Client → Option Db
  | .prisma => some s.db
  | .tx => (s.txs.find? i).map fun t => s.db.applyAll t.2

/-- An open transaction (of another program, for a statement inside one) holds `k`. -/
def locked (s : Store) (i : PId) (c : Client) (k : RowKey) : Bool :=
  s.txs.rows.any fun t => (c == .prisma || t.1 != i) && t.2.any fun w => w.keys.contains k

def write (s : Store) (i : PId) (c : Client) (w : Write) : Store :=
  match c with
  | .prisma => { s with db := s.db.apply w, wal := s.wal ++ [(i, [w])] }
  | .tx => { s with txs := s.txs.put (i, s.staged i ++ [w]) }

def commit (s : Store) (i : PId) : Store :=
  { s with
    db := s.db.applyAll (s.staged i)
    wal := s.wal ++ [(i, s.staged i)]
    txs := s.txs.erase i }

def rollback (s : Store) (i : PId) : Store := { s with txs := s.txs.erase i }

/-- The write happens unless its rows are locked. -/
def tryWrite {α : Type} (s : Store) (i : PId) (c : Client) (w : Write) (a : α) : Option (Except Err α × Store) :=
  if w.keys.any (s.locked i c) then none else some (.ok a, s.write i c w)

end Store

/-! ## Executing one call -/

def execAccount (i : PId) (c : Client) (q : AccountCall) (s : Store) : Option (Except Err q.Res × Store) :=
  match s.view i c with
  | none => none
  | some db => match q with
    | .findUnique id => some (.ok (db.accounts.find? id), s)
    | .findMany userId => some (.ok (db.accounts.rows.filter fun r => r.userId = userId), s)
    | .count accountNumber => some (.ok (db.accounts.rows.countP fun r => r.accountNumber = accountNumber), s)
    | .create data =>
      if db.accounts.rows.any fun r => r.id == data.id || r.accountNumber == data.accountNumber then
        some (.error uniqueViolation, s)
      else s.tryWrite i c (.account data []) ()
    | .updateMany version data events =>
      if (Write.account data events).keys.any (s.locked i c) then none
      else match db.accounts.find? data.id with
        | none => some (.ok 0, s)
        | some row => if row.version = version then s.tryWrite i c (.account data events) 1 else some (.ok 0, s)

def execTransfer (i : PId) (c : Client) (q : TransferCall) (s : Store) : Option (Except Err q.Res × Store) :=
  match s.view i c with
  | none => none
  | some db => match q with
    | .findUnique id => some (.ok (db.transfers.find? id), s)
    | .findFirst providerReference =>
      some (.ok (db.transfers.rows.find? fun r => r.providerReference = some providerReference), s)
    | .create data =>
      if db.transfers.rows.any fun r => r.id == data.id || r.reference == data.reference then
        some (.error uniqueViolation, s)
      else s.tryWrite i c (.transfer data) ()
    | .updateMany version data =>
      if (Write.transfer data).keys.any (s.locked i c) then none
      else match db.transfers.find? data.id with
        | none => some (.ok 0, s)
        | some row => if row.version = version then s.tryWrite i c (.transfer data) 1 else some (.ok 0, s)
    | .sumSince sourceAccountId statuses since =>
      let rows := db.transfers.rows.filter fun r =>
        r.sourceAccountId = sourceAccountId ∧ r.status ∈ statuses ∧ since ≤ (r.createdAt : Int)
      some (.ok (if rows.isEmpty then none else some (rows.map (·.amountMinorUnits)).sum), s)

/-- Entries of `accountId` with the greatest `createdAt`, the latest written first. -/
def latestEntries (rows : List LedgerEntryRecord) (accountId : String) : List LedgerEntryRecord :=
  let own := rows.filter fun e => e.accountId = accountId
  let newest := (own.map (·.createdAt)).foldl max 0
  (own.filter fun e => e.createdAt = newest).reverse

def execLedger (i : PId) (c : Client) (n : Nat) (q : LedgerCall) (s : Store) :
    Option (Except Err q.Res × Store) :=
  match s.view i c with
  | none => none
  | some db => match q with
    | .findFirst accountId =>
      let candidates := latestEntries db.ledgerEntries accountId
      some (.ok (candidates[n]? <|> candidates.head?), s)
    | .createMany data => s.tryWrite i c (.ledgerEntries (data.map fun d => { d with createdAt := s.clock })) ()

def execIdempotency (i : PId) (q : IdempotencyCall) (s : Store) : Option (Except Err q.Res × Store) :=
  match q with
  | .create claim => match s.db.idempotencyKeys.find? claim with
    | some _ => some (.error uniqueViolation, s)
    | none => some (.ok (), s.write i .prisma (.idempotencyKeyCreated claim s.clock))
  | .findUnique claim => some (.ok (s.db.idempotencyKeys.find? claim), s)
  | .touch id status updatedAt => match s.db.idempotencyKeys.byId? id with
    | none => some (.ok 0, s)
    | some row =>
      if row.status = status then
        some (.ok 1, s.write i .prisma (.idempotencyKeyUpdated row.claim status row.resourceId updatedAt))
      else some (.ok 0, s)
  | .complete claim resourceId => match s.db.idempotencyKeys.find? claim with
    | none => some (.error recordNotFound, s)
    | some _ =>
      some (.ok (), s.write i .prisma (.idempotencyKeyUpdated claim .COMPLETED (some resourceId) s.clock))
  | .deleteMany claim => some (.ok (), s.write i .prisma (.idempotencyKeyDeleted claim))

def execKyc (i : PId) (c : Client) (q : KycCall) (s : Store) : Option (Except Err q.Res × Store) :=
  match s.view i c with
  | none => none
  | some db => match q with
    | .findProfile userId => some (.ok (db.kycProfiles.find? userId), s)
    | .findTierLimit tier => some (.ok (db.kycTierLimits.find? tier), s)

def execTransaction (i : PId) (q : TransactionCall) (s : Store) : Option (Except Err Unit × Store) :=
  match q with
  | .begin => if (s.txs.find? i).isSome then none else some (.ok (), { s with txs := s.txs.put (i, []) })
  | .commit => if (s.txs.find? i).isSome then some (.ok (), s.commit i) else none
  | .rollback => if (s.txs.find? i).isSome then some (.ok (), s.rollback i) else none

/-- The store after call `op` of program `i` was rejected. -/
def Store.afterFailure (s : Store) (i : PId) : Op → Store
  | .transaction .commit => s.rollback i
  | _ => s

def exec (i : PId) : Ans → (op : Op) → Store → Option (Except Err op.Res × Store)
  | .fail e, op, s => if op.fallible then some (.error e, s.afterFailure i op) else none
  | .ok, .account c q, s => execAccount i c q s
  | .ok, .transfer c q, s => execTransfer i c q s
  | .ok, .ledgerEntry c q, s => execLedger i c 0 q s
  | .pick n, .ledgerEntry c q, s => execLedger i c n q s
  | .ok, .idempotencyKey q, s => execIdempotency i q s
  | .ok, .kyc c q, s => execKyc i c q s
  | .ok, .transaction q, s => execTransaction i q s
  | .payout r, .payout _, s => some (.ok r, s)
  | .ok, .publish _, s => some (.ok (), s)
  | .uuid u, .randomUUID, s => some (.ok u, s)
  | .reference r, .generateReference, s => some (.ok r, s)
  | .ok, .dateNow, s => some (.ok s.clock, s)
  | .ok, .mark m, s => some (.ok (), { s with marks := s.marks ++ [(i, m)] })
  | _, _, _ => none

/-- Time passes. -/
def tick (ms : Nat) (s : Store) : Store := { s with clock := s.clock + ms }

/-- Every schedule: any answer to any call. -/
def anySchedule : System Op.Res Err Store Ans Nat := ⟨exec, tick, fun _ _ _ _ => True⟩

/-- Every schedule in which no call is rejected by the outside world. -/
def noFailures : System Op.Res Err Store Ans Nat := ⟨exec, tick, fun _ _ a _ => a.isFail = false⟩

/-- Any schedule whose steps meet `allow`. -/
def scheduleOf (allow : Store → PId → Ans → Op → Prop) : System Op.Res Err Store Ans Nat :=
  ⟨exec, tick, allow⟩

instance (s : Store) (i : PId) (a : Ans) (op : Op) : Decidable (anySchedule.allow s i a op) :=
  inferInstanceAs (Decidable True)

instance (s : Store) (i : PId) (a : Ans) (op : Op) : Decidable (noFailures.allow s i a op) :=
  inferInstanceAs (Decidable (a.isFail = false))

/-! ## `$transaction` -/

/-- What fails while the aggregate is in state `a` reaches the `catch` together with `a`. -/
def during {σ α : Type} (a : σ) (p : Handler α) : Program (Err × σ) α := p.mapError fun e => (e, a)

/-- `prisma.$transaction(async (tx) => body)`: commits what `body` staged if it returns, rolls back
and rethrows if it throws. `onBegin` and `onCommit` say what the enclosing `catch` gets when the
transaction itself fails to start or to commit. -/
def transaction {ε α : Type} (onBegin : Err → ε) (onCommit : α → Err → ε) (body : Program ε α) :
    Program ε α := do
  (Prog.await (Op.transaction .begin)).mapError onBegin
  let a ← body.tryCatch fun e => do
    (Prog.await (Op.transaction .rollback)).mapError onBegin
    Prog.throw e
  (Prog.await (Op.transaction .commit)).mapError (onCommit a)
  return a

/-- `events.forEach((event) => this.eventBus.publish(event))`. -/
def publishAll : List DomainEvent → Handler Unit
  | [] => return ()
  | event :: events => do
    Prog.await (Op.publish event)
    publishAll events

/-- `p` for its effects. -/
def forget {α : Type} (p : Handler α) : Handler Unit := do
  let _ ← p
  return ()

/-! ## The calls made -/

section
variable {T : Op → Prop}

theorem publishAll_calls (h : ∀ e, T (.publish e)) : ∀ events, (publishAll events).Calls T
  | [] => trivial
  | event :: events => .bind (.await (h event)) fun _ => publishAll_calls h events

theorem calls_during {σ α : Type} {a : σ} {p : Handler α} (h : p.Calls T) : (during a p).Calls T :=
  h.mapError _

theorem transaction_calls {ε α : Type} {onBegin : Err → ε} {onCommit : α → Err → ε} {body : Program ε α}
    (ht : ∀ q, T (.transaction q)) (h : body.Calls T) : (transaction onBegin onCommit body).Calls T :=
  .bind (.mapError _ (.await (ht _))) fun _ =>
    .bind (.tryCatch h fun _ => .bind (.mapError _ (.await (ht _))) fun _ => trivial) fun _ =>
      .bind (.mapError _ (.await (ht _))) fun _ => trivial

end

end Kudi
