import KudiCore.Accounts.Lifecycle
import KudiCore.Concurrency.AccountRows
import KudiCore.Concurrency.Authorship
import KudiCore.Gateway.Controllers

/-!
# Who may do what to an account and to a transfer

`Permitted`, `OpensAccount`, `Incoming.Orders` and `SettlesTransfer` are the policy: what may come of a request,
judged on the row that is replaced. A program that has checked its caller on a copy of a row holds the copy, writes on
condition of the copy's version, and what it has checked - who owns the account - never changes; so what it was
permitted on the copy it is permitted on the row.

`mine i id` is read as: program `i` has drawn the random `id`; `stored r` as: the transfer has had the row `r`.
-/

namespace Kudi

open Interleave Table
open Identity (AccessTokenPayload)

/-! ## Accounts -/

/-- What a transfer of `amount` costs its sender. -/
def charged (amount : String) (currency : Currency) (type : TransferType) : Except Err Money := do
  let amount ← Money.fromDecimalString amount currency
  let fee ← FlatRateFeeCalculator.calculate amount type
  amount.add fee

/-- What may come of `incoming` for the account that has row `row`. -/
inductive Permitted (config : GatewayConfig) (stored : TransferRecord → Prop) : Incoming → AccountRecord →
    AccountOperation → Prop where
  | credit {user : AccessTokenPayload} {dto : MoveMoneyDto} {row : AccountRecord} {amount : Money}
      (hadmin : user.role ∈ adminRoles)
      (hamount : Money.fromDecimalString dto.amount (dto.currency.getD .NGN) = .ok amount) :
      Permitted config stored (.request (.bearer (some user) (.creditAccount row.id dto))) row
        (.credit amount dto.reference)
  | debit {user : AccessTokenPayload} {dto : MoveMoneyDto} {row : AccountRecord} {amount : Money}
      (hadmin : user.role ∈ adminRoles)
      (hamount : Money.fromDecimalString dto.amount (dto.currency.getD .NGN) = .ok amount) :
      Permitted config stored (.request (.bearer (some user) (.debitAccount row.id dto))) row
        (.debit amount dto.reference)
  | freeze {user : AccessTokenPayload} {dto : FreezeAccountDto} {row : AccountRecord} {route : Route}
      (hrole : user.role ∈ accountFreezeRoles)
      (hroute : route = .freezeAccount row.id dto ∨ route = .staffFreezeAccount row.id dto) :
      Permitted config stored (.request (.bearer (some user) route)) row (.freeze dto.reason)
  | unfreeze {user : AccessTokenPayload} {row : AccountRecord} {route : Route}
      (hrole : user.role ∈ accountFreezeRoles)
      (hroute : route = .unfreezeAccount row.id ∨ route = .staffUnfreezeAccount row.id) :
      Permitted config stored (.request (.bearer (some user) route)) row .unfreeze
  | close {user : AccessTokenPayload} {row : AccountRecord} (howner : row.userId = user.sub ∨
    user.role ∈ adminRoles) :
      Permitted config stored (.request (.bearer (some user) (.closeAccount row.id))) row .close
  | sendInternal {user : AccessTokenPayload} {dto : InitiateInternalTransferDto} {key : Option String} {fuel : Nat}
      {row : AccountRecord} {amount : Money} {reference : String} (howner : row.userId = user.sub)
      (hrow : row.id = dto.sourceAccountId) (hcharged : charged dto.amount row.currency .INTERNAL = .ok amount) :
      Permitted config stored (.request (.bearer (some user) (.initiateInternal dto key fuel))) row
        (.debit amount reference)
  | receiveInternal {user : AccessTokenPayload} {dto : InitiateInternalTransferDto} {key : Option String} {fuel : Nat}
      {row : AccountRecord} {amount : Money} {reference : String} (hother : dto.sourceAccountId ≠ row.id)
      (hrow : row.id = dto.destinationAccountId)
      (hamount : Money.fromDecimalString dto.amount row.currency = .ok amount) :
      Permitted config stored (.request (.bearer (some user) (.initiateInternal dto key fuel))) row
        (.credit amount reference)
  | sendExternal {user : AccessTokenPayload} {dto : InitiateExternalTransferDto} {key : Option String} {fuel : Nat}
      {row : AccountRecord} {amount : Money} {reference : String} (howner : row.userId = user.sub)
      (hrow : row.id = dto.sourceAccountId) (hcharged : charged dto.amount row.currency .EXTERNAL = .ok amount) :
      Permitted config stored (.request (.bearer (some user) (.initiateExternal dto key fuel))) row
        (.debit amount reference)
  /-- A payout that the provider refuses. -/
  | refund {user : AccessTokenPayload} {dto : InitiateExternalTransferDto} {key : Option String} {fuel : Nat}
      {row : AccountRecord} {amount : Money} {reference : String} (howner : row.userId = user.sub)
      (hrow : row.id = dto.sourceAccountId) (hcharged : charged dto.amount row.currency .EXTERNAL = .ok amount) :
      Permitted config stored (.request (.bearer (some user) (.initiateExternal dto key fuel))) row
        (.credit amount reference)
  /-- A payout that has failed at the provider: what the transfer in question has cost comes back to its account. -/
  | refundLate {verifHash : Option String} {payload : FlutterwaveTransferWebhookPayload}
      {data : FlutterwaveCallbackData} {row : AccountRecord} {r : TransferRecord} {transfer : Transfer}
      {amount : Money} {reference : String}
      (hvalid : FlutterwaveWebhookVerifier.isValid verifHash config.webhookSecretHash = true)
      (hevent : payload.event = "transfer.completed") (hdata : payload.data = some data)
      (hfailed : data.status = .FAILED) (hstored : stored r) (href : r.providerReference = some (toString data.id))
      (hload : TransferMapper.toDomain r = .ok transfer) (hopen : r.status.isTerminal = false)
      (hrow : row.id = transfer.sourceAccountId) (hamount : transfer.amount.add transfer.fee = .ok amount) :
      Permitted config stored (.request (.webhook verifHash payload)) row (.credit amount reference)
  | activate {event : KycTierUpgradedEvent} {row : AccountRecord} (howner : row.userId = event.userId)
      (htier : event.newTier = .TIER_2 ∨ event.newTier = .TIER_3) : Permitted config stored
        (.tierUpgraded event) row .activate

/-- Only its holder's own request opens an account, or their registration; it opens PENDING_VERIFICATION and empty. -/
inductive OpensAccount : Incoming → AccountRecord → Prop where
  | asked {user : AccessTokenPayload} {dto : OpenAccountDto} {randomInt : Fin 10 → Fin 1000000} (id : String)
      (accountNumber : AccountNumber) :
      OpensAccount (.request (.bearer (some user) (.openAccount dto randomInt)))
        (AccountMapper.toPersistence (.opened id user.sub accountNumber (dto.currency.getD .NGN)))
  | registered {userId : String} {randomInt : Fin 10 → Fin 1000000} (id : String) (accountNumber : AccountNumber) :
      OpensAccount (.registration userId randomInt)
        (AccountMapper.toPersistence (.opened id userId accountNumber .NGN))

/-- `w` saves what `op` makes of the account that is loaded from `old`. -/
def AccountOperation.Turns (op : AccountOperation) (old : AccountRecord) (w : Write) : Prop :=
  ∃ a a', AccountMapper.toDomain old = .ok a ∧ op.apply a = .ok a' ∧
    w = .account (AccountMapper.toPersistence a') a'.domainEvents

/-- The row of an account may be inserted, or replaced. -/
def MayWriteAccount (config : GatewayConfig) (stored : TransferRecord → Prop) (incoming : Incoming) :
    Option AccountRecord → Write → Prop
  | none, w => ∃ data, w = .account data [] ∧ OpensAccount incoming data
  | some old, w => ∃ op, Permitted config stored incoming old op ∧ op.Turns old w

/-- The minor units that the operation adds, or takes. -/
def AccountOperation.moves : AccountOperation → Int
  | .credit amount _ => amount.minorUnits
  | .debit amount _ => -amount.minorUnits
  | _ => 0

/-- What an operation makes of a row. -/
theorem AccountOperation.Turns.row {op : AccountOperation} {old data : AccountRecord} {events : List AccountEvent}
    (h : op.Turns old (.account data events)) : data.id = old.id ∧ data.userId = old.userId ∧
      data.currency = old.currency ∧ data.version = old.version + 1 ∧ data.balance = old.balance + op.moves ∧
        data.status = op.assigns.getD old.status := by
  obtain ⟨a, a', hload, happly, hw⟩ := h
  obtain ⟨rfl, rfl⟩ := Write.account.inj hw
  obtain ⟨rfl, hab, -⟩ := AccountMapper.toDomain_ok hload
  cases op with
  | activate =>
    cases happly
    exact ⟨rfl, rfl, rfl, rfl, (Int.add_zero _).symm, rfl⟩
  | freeze reason =>
    cases happly
    exact ⟨rfl, rfl, rfl, rfl, (Int.add_zero _).symm, rfl⟩
  | unfreeze =>
    cases happly
    exact ⟨rfl, rfl, rfl, rfl, (Int.add_zero _).symm, rfl⟩
  | credit amount reference =>
    obtain ⟨-, -, -, rfl⟩ := Account.credit_ok.1 happly
    exact ⟨rfl, rfl, rfl, rfl, Nat.cast_add .., rfl⟩
  | debit amount reference =>
    obtain ⟨-, -, hle, rfl⟩ := (Account.debit_ok hab).1 happly
    refine ⟨rfl, rfl, rfl, rfl, ?_, rfl⟩
    show ((a.balance.minorUnits - amount.minorUnits : Nat) : Int) = a.balance.minorUnits + -amount.minorUnits
    omega
  | close =>
    simp only [AccountOperation.apply, Account.close] at happly
    split at happly
    · cases happly
    · cases happly
      exact ⟨rfl, rfl, rfl, rfl, (Int.add_zero _).symm, rfl⟩

theorem accountRow_eq {w : Write} {r : AccountRecord} (h : accountRow w = some r) :
    ∃ events, w = .account r events := by
  cases w with
  | account data events => exact ⟨events, congrArg (Write.account · events) (Option.some.inj h)⟩
  | _ => cases h

def accountScheme (config : GatewayConfig) (stored : TransferRecord → Prop) (incoming : PId → Incoming) :
    Scheme String AccountRecord Write (String × Currency) where
  key := AccountRecord.id
  row := accountRow
  version := AccountRecord.version
  fixed r := (r.userId, r.currency)
  may i := MayWriteAccount config stored (incoming i)
  advances {i old w r} hr h := by
    obtain ⟨events, rfl⟩ := accountRow_eq hr
    obtain ⟨op, -, hop⟩ := h
    obtain ⟨-, huser, hcurrency, hversion, -⟩ := hop.row
    exact ⟨by omega, Prod.ext huser hcurrency⟩

def accountTable (config : GatewayConfig) (stored : TransferRecord → Prop) (incoming : PId → Incoming) :
    DbTable (accountScheme config stored incoming) where
  table := Db.accounts
  applied db w := applyAll_accounts db [w]
  lock := .account
  locked h := by
    obtain ⟨events, rfl⟩ := accountRow_eq h
    exact List.mem_cons_self

/-! ## Transfers -/

/-- What is asked for; the columns of a transfer that never change. -/
structure TransferOrder where
  type : TransferType
  initiatorUserId : String
  sourceAccountId : String
  destinationAccountId : Option String
  recipientBankCode : Option String
  recipientAccountNumber : Option String
  amount : Money
  narration : String

def TransferRecord.order (r : TransferRecord) : TransferOrder :=
  { type := r.type, initiatorUserId := r.initiatorUserId, sourceAccountId := r.sourceAccountId,
    destinationAccountId := r.destinationAccountId, recipientBankCode := r.recipientBankCode,
    recipientAccountNumber := r.recipientAccountNumber, amount := ⟨r.amountMinorUnits.toNat, r.currency⟩,
    narration := r.narration }

/-- The request asks for this transfer, in the name of its user. -/
def Incoming.Orders : Incoming → TransferOrder → Prop
  | .request (.bearer (some user) (.initiateInternal dto _ _)), order =>
    Money.fromDecimalString dto.amount order.amount.currency = .ok order.amount ∧
      order = ⟨.INTERNAL, user.sub, dto.sourceAccountId, some dto.destinationAccountId, none, none, order.amount,
        dto.narration⟩
  | .request (.bearer (some user) (.initiateExternal dto _ _)), order =>
    Money.fromDecimalString dto.amount order.amount.currency = .ok order.amount ∧
      order = ⟨.EXTERNAL, user.sub, dto.sourceAccountId, none, some dto.bankCode, some dto.recipientAccountNumber,
        order.amount, dto.narration⟩
  | _, _ => False

/-- The request is the provider's news about the transfer `old`, and `data` is what the news makes of it. -/
def SettlesTransfer (config : GatewayConfig) (incoming : Incoming) (old data : TransferRecord) : Prop :=
  ∃ verifHash payload callback t t', incoming = .request (.webhook verifHash payload) ∧
    FlutterwaveWebhookVerifier.isValid verifHash config.webhookSecretHash = true ∧
    payload.event = "transfer.completed" ∧ payload.data = some callback ∧
    old.providerReference = some (toString callback.id) ∧ TransferMapper.toDomain old = .ok t ∧
    (callback.status = .SUCCESSFUL ∧ t.markSuccessful = .ok t' ∨
      callback.status = .FAILED ∧
        t.markReversed (callback.complete_message.getD "Payout failed at provider") = .ok t') ∧
    data = TransferMapper.toPersistence t'

/-- The request asks for the transfer, which has a random `id` of its own. -/
def Ordered (incoming : Incoming) (mine : String → Prop) (t : Transfer) : Prop :=
  mine t.id ∧ incoming.Orders (TransferMapper.toPersistence t).order

/-- The row of a transfer may be inserted or replaced by the request that has ordered it, and be replaced on the
provider's news about it. -/
inductive MayWriteTransfer (config : GatewayConfig) (incoming : Incoming) (mine : String → Prop) :
    Option TransferRecord → Write → Prop where
  | ordered {old : Option TransferRecord} {t : Transfer} (hordered : Ordered incoming mine t)
      (hversion : ∀ r ∈ old, t.version = r.version + 1) :
      MayWriteTransfer config incoming mine old (.transfer (TransferMapper.toPersistence t))
  | settled {old data : TransferRecord} (hsettles : SettlesTransfer config incoming old data) :
      MayWriteTransfer config incoming mine (some old) (.transfer data)

theorem SettlesTransfer.advances {config : GatewayConfig} {incoming : Incoming} {old data : TransferRecord}
    (h : SettlesTransfer config incoming old data) : data.version = old.version + 1 ∧ data.id = old.id := by
  obtain ⟨-, -, callback, t, t', -, -, -, -, -, hload, hmark, rfl⟩ := h
  have hloads := TransferMapper.toDomain_ok hload
  rcases hmark with ⟨-, hmark⟩ | ⟨-, hmark⟩
  · by_cases hopen : t.status.isTerminal = false
    · rw [Transfer.markSuccessful_of hopen] at hmark
      cases hmark
      exact ⟨congrArg Nat.succ hloads.version, hloads.id⟩
    · simp [Transfer.markSuccessful, Transfer.assertNotTerminal, hopen, bind, Except.bind] at hmark
  · obtain ⟨-, hid, hversion, -⟩ := Transfer.markReversed_ok hmark
    exact ⟨hversion.trans (congrArg Nat.succ hloads.version), hid.trans hloads.id⟩

def transferScheme (config : GatewayConfig) (incoming : PId → Incoming) (mine : PId → String → Prop) :
    Scheme String TransferRecord Write Unit where
  key := TransferRecord.id
  row := Write.transfer?
  version := TransferRecord.version
  fixed _ := ()
  may i := MayWriteTransfer config (incoming i) (mine i)
  advances {i old w r} hr h := by
    refine ⟨?_, rfl⟩
    cases h with
    | @ordered _ t hordered hversion =>
      obtain rfl := Option.some.inj hr
      have hnext : t.version = old.version + 1 := hversion old rfl
      show old.version < t.version
      omega
    | settled hsettles =>
      obtain rfl := Option.some.inj hr
      have hnext := hsettles.advances.1
      omega

def transferTable (config : GatewayConfig) (incoming : PId → Incoming) (mine : PId → String → Prop) :
    DbTable (transferScheme config incoming mine) where
  table := Db.transfers
  applied db w := by cases w <;> rfl
  lock := .transfer
  locked {w r} h := by
    cases w with
    | transfer data =>
      obtain rfl := Option.some.inj h
      exact List.mem_cons_self
    | _ => cases h

/-! ## The protocol -/

/-- The copies that a program holds. -/
structure Holdings where
  accounts : List AccountRecord
  transfers : List TransferRecord

def Holdings.init : Holdings := ⟨[], []⟩

/-- Whose account it is, and what is in it, is settled for good. -/
def SameHolder (r row : AccountRecord) : Prop := r.userId = row.userId ∧ r.currency = row.currency

section
variable (config : GatewayConfig) (incoming : PId → Incoming) (mine : PId → String → Prop)
  (stored : TransferRecord → Prop)

def authorityProtocol : Protocol Op.Res Err where
  State := Holdings
  ok i st op := match op with
    | .account _ (.create data) => OpensAccount (incoming i) data
    | .account _ (.updateMany version data events) => ∃ r ∈ st.accounts, version = r.version ∧ data.id = r.id ∧
      MayWriteAccount config stored (incoming i) (some r) (.account data events)
    | .transfer _ (.create data) =>
      (∃ t, data = TransferMapper.toPersistence t ∧ Ordered (incoming i) (mine i) t) ∨
      ∃ r ∈ st.transfers, data.id = r.id
    | .transfer _ (.updateMany version data) =>
      (∃ t, data = TransferMapper.toPersistence t ∧ Ordered (incoming i) (mine i) t ∧ t.version = version + 1) ∨
        ∃ r ∈ st.transfers, version = r.version ∧ data.id = r.id ∧ SettlesTransfer config (incoming i) r data
    | _ => True
  yields i st op r := match op, r with
    | .account _ (.findUnique id), .ok (some row) =>
      row.id = id ∧ ∀ r ∈ st.accounts, r.id = id → SameHolder r row
    | .account _ (.findMany userId), .ok rows => ∀ row ∈ rows, row.userId = userId
    | .transfer c (.findFirst providerReference), .ok (some row) =>
      row.providerReference = some providerReference ∧ (c = .prisma → stored row)
    | .randomUUID, .ok id => mine i id
    | _, _ => True
  next _ st op r := match op, r with
    | .account _ (.findUnique _), .ok (some row) => { st with accounts := row :: st.accounts }
    | .account _ (.findMany _), .ok rows => { st with accounts := rows ++ st.accounts }
    | .transfer _ (.findFirst _), .ok (some row) => { st with transfers := row :: st.transfers }
    | .transaction .commit, _ => .init
    | .transaction .rollback, _ => .init
    | _, _ => st

/-- Everything that has been written, and everything that is staged, was permitted. -/
structure AuthorityInv (db0 : Db) (s : Store) (sts : PId → Holdings) : Prop where
  accounts : (accountTable config stored incoming).Holds db0 s fun i => (sts i).accounts
  transfers : (transferTable config incoming mine).Holds db0 s fun i => (sts i).transfers

end

namespace AuthorityInv

variable {config : GatewayConfig} {incoming : PId → Incoming} {mine : PId → String → Prop}
  {stored : TransferRecord → Prop} {db0 db : Db} {s s' : Store}
  {sts : PId → Holdings} {i : PId} {a : Ans} {op : Op} {r : Except Err op.Res} {c : Client} {w : Write}

theorem init (db0 : Db) (clock : Nat) : AuthorityInv config incoming mine stored db0 (.init db0 clock) fun _ =>
    .init where
  accounts := DbTable.init _ db0 clock
  transfers := DbTable.init _ db0 clock

theorem tick (h : AuthorityInv config incoming mine stored db0 s sts) (ms : Nat) :
    AuthorityInv config incoming mine stored db0 (tick ms s) sts := ⟨h.accounts, h.transfers⟩

/-- What a program is permitted on its copy it is permitted on the row, which is the copy. -/
theorem may_account (h : AuthorityInv config incoming mine stored db0 s sts)
    (hok : (authorityProtocol config incoming mine stored).ok i (sts i) op) (hv : s.view i c = some db)
    (hf : s.Free i c w)
    (hp : op.Performs c w) (hmeets : op.Meets db) {row : AccountRecord} (hrow : accountRow w = some row) :
    MayWriteAccount config stored (incoming i) (db.accounts.find? row.id) w := by
  have hsaves := savesAccount_of_performs hp hrow
  cases op with
  | account c' q =>
    cases q with
    | create data =>
      obtain ⟨rfl, rfl⟩ := hp
      obtain rfl : data = row := hsaves
      rw [show db.accounts.find? data.id = none from hmeets]
      exact ⟨data, rfl, hok⟩
    | updateMany version data events =>
      obtain ⟨rfl, rfl⟩ := hp
      obtain rfl : data = row := hsaves
      obtain ⟨old, hold, hver⟩ := hmeets
      obtain ⟨copy, hcopy, hversion, hid, hmay⟩ := hok
      have hvisible := ((accountTable config stored incoming).find_free hv hf hrow).trans hold
      obtain rfl : old = copy :=
        h.accounts.copy_eq hcopy ((congrArg _ hid.symm).trans hvisible) (hver.trans hversion)
      rw [hold]
      exact hmay
    | _ => exact absurd hsaves not_false
  | _ => exact absurd hsaves not_false

theorem may_transfer (h : AuthorityInv config incoming mine stored db0 s sts)
    (hok : (authorityProtocol config incoming mine stored).ok i (sts i) op) (hv : s.view i c = some db)
    (hf : s.Free i c w)
    (hp : op.Performs c w) (hmeets : op.Meets db) {row : TransferRecord} (hrow : w.transfer? = some row) :
    MayWriteTransfer config (incoming i) (mine i) (db.transfers.find? row.id) w := by
  have hsaved : op.savedTransfer? ≠ none := fun hnone => by
    rw [performs_no_transfer hnone hp] at hrow
    cases hrow
  cases op with
  | account c' q => cases q <;> exact absurd rfl hsaved
  | transfer c' q =>
    cases q with
    | create data =>
      obtain ⟨rfl, rfl⟩ := hp
      obtain rfl := Option.some.inj hrow
      replace hmeets : db.transfers.find? data.id = none := hmeets
      rw [hmeets]
      rcases hok with ⟨t, rfl, hordered⟩ | ⟨copy, hcopy, hid⟩
      · exact .ordered hordered fun _ hr => absurd hr (Option.not_mem_none _)
      · have hvisible := ((transferTable config incoming mine).find_free hv hf hrow).trans hmeets
        obtain ⟨cur, hcur, -⟩ := h.transfers.seen i copy hcopy
        have hnone := hvisible.symm.trans ((congrArg _ hid).trans hcur)
        cases hnone
    | updateMany version data =>
      obtain ⟨rfl, rfl⟩ := hp
      obtain rfl := Option.some.inj hrow
      obtain ⟨old, hold, hver⟩ := hmeets
      rw [hold]
      rcases hok with ⟨t, rfl, hordered, hversion⟩ | ⟨copy, hcopy, hversion, hid, hsettles⟩
      · refine .ordered hordered fun r hr => ?_
        obtain rfl := Option.some.inj hr
        rw [hversion, hver]
      · have hvisible := ((transferTable config incoming mine).find_free hv hf hrow).trans hold
        obtain rfl : old = copy :=
          h.transfers.copy_eq hcopy ((congrArg _ hid.symm).trans hvisible) (hver.trans hversion)
        exact .settled hsettles
    | _ => exact absurd rfl hsaved
  | _ => exact absurd rfl hsaved

/-- A permitted call, after which its program holds nothing but copies of what it sees. -/
theorem advance (h : AuthorityInv config incoming mine stored db0 s sts)
    (hok : (authorityProtocol config incoming mine stored).ok i (sts i) op) (hx : exec i a op s = some (r, s'))
    {st : Holdings}
    (haccounts : ∀ x ∈ st.accounts, x ∈ (sts i).accounts ∨ ∃ cur,
      (((accountTable config stored incoming).shared s').visible i).find? x.id = some cur ∧
        Earlier AccountRecord.version (fun r => (r.userId, r.currency)) x cur)
    (htransfers : ∀ x ∈ st.transfers, x ∈ (sts i).transfers ∨ ∃ cur,
      (((transferTable config incoming mine).shared s').visible i).find? x.id = some cur ∧
        Earlier TransferRecord.version (fun _ => ()) x cur)
    (hended : op.endsTransaction = true → st = .init) :
    AuthorityInv config incoming mine stored db0 s' (Function.update sts i st) where
  accounts := by
    have hseen : (fun j => (Function.update sts i st j).accounts) =
        Function.update (fun j => (sts j).accounts) i st.accounts := Function.comp_update Holdings.accounts sts i st
    rw [hseen]
    exact DbTable.step h.accounts hx (fun _ _ _ hv hf hp hmeets _ hrow => h.may_account hok hv hf hp hmeets hrow)
      haccounts fun he => by rw [hended he]; rfl
  transfers := by
    have hseen : (fun j => (Function.update sts i st j).transfers) =
        Function.update (fun j => (sts j).transfers) i st.transfers := Function.comp_update Holdings.transfers sts i st
    rw [hseen]
    exact DbTable.step h.transfers hx (fun _ _ _ hv hf hp hmeets _ hrow => h.may_transfer hok hv hf hp hmeets hrow)
      htransfers fun he => by rw [hended he]; rfl

/-- **A permitted call of any program keeps the invariant.** -/
theorem step (h : AuthorityInv config incoming mine stored db0 s sts)
    (hok : (authorityProtocol config incoming mine stored).ok i (sts i) op) (hmine : ∀ id, a = .uuid id → mine i id)
    (hstored : ∀ r ∈ s.db.transfers.rows, stored r) (hx : exec i a op s = some (r, s')) :
    (authorityProtocol config incoming mine stored).yields i (sts i) op r ∧
      AuthorityInv config incoming mine stored db0 s'
        (Function.update sts i ((authorityProtocol config incoming mine stored).next i (sts i) op r)) := by
  have idle (hended : op.endsTransaction = false) :
      AuthorityInv config incoming mine stored db0 s' (Function.update sts i (sts i)) :=
    h.advance hok hx (fun _ hm => .inl hm) (fun _ hm => .inl hm) fun he => by rw [hended] at he; cases he
  have gone : AuthorityInv config incoming mine stored db0 s' (Function.update sts i .init) :=
    h.advance hok hx (fun _ hm => absurd hm List.not_mem_nil) (fun _ hm => absurd hm List.not_mem_nil) fun _ => rfl
  cases op with
  | account c q =>
    cases q with
    | findUnique id =>
      rcases r with e | (_ | row)
      · exact ⟨trivial, idle rfl⟩
      · exact ⟨trivial, idle rfl⟩
      · obtain ⟨db, hv, hrow, rfl⟩ := exec_account_findUnique hx
        obtain ⟨cur, hcur, hearlier⟩ := DbTable.found h.accounts hv hrow.symm
        have hid : row.id = id := Table.key_of_find? hrow.symm
        refine ⟨⟨hid, fun x hm he => ?_⟩, h.advance hok hx (fun x hm => ?_) (fun _ hm => .inl hm) nofun⟩
        · obtain ⟨cur', hcur', hearlier'⟩ := h.accounts.seen i x hm
          obtain rfl : cur' = cur := Option.some.inj (hcur'.symm.trans ((congrArg _ he).trans hcur))
          have hsame := hearlier'.fixed.symm.trans hearlier.fixed
          exact ⟨congrArg Prod.fst hsame, congrArg Prod.snd hsame⟩
        · rcases List.mem_cons.1 hm with rfl | hm
          · exact .inr ⟨cur, hid ▸ hcur, hearlier⟩
          · exact .inl hm
    | findMany userId =>
      rcases r with e | rows
      · exact ⟨trivial, idle rfl⟩
      · have hs := exec_read rfl hx
        obtain ⟨db, hv, rfl⟩ := exec_account_findMany hx
        refine ⟨fun row hm => by simpa using (List.mem_filter.1 hm).2,
          h.advance hok hx (fun x hm => ?_) (fun _ hm => .inl hm) nofun⟩
        rcases List.mem_append.1 hm with hm | hm
        · rw [(accountTable config stored incoming).shared_sameRows hs]
          exact .inr (DbTable.found h.accounts hv (Table.find?_of_mem (List.mem_of_mem_filter hm)))
        · exact .inl hm
    | _ => rcases r with e | x <;> exact ⟨trivial, idle rfl⟩
  | transfer c q =>
    cases q with
    | findFirst providerReference =>
      rcases r with e | (_ | row)
      · exact ⟨trivial, idle rfl⟩
      · exact ⟨trivial, idle rfl⟩
      · obtain ⟨db, hv, hrow, rfl⟩ := exec_transfer_findFirst hx
        have hmem := List.mem_of_find?_eq_some hrow.symm
        have href : row.providerReference = some providerReference := by simpa using List.find?_some hrow.symm
        have hseen : c = .prisma → stored row := by
          rintro rfl
          cases hv
          exact hstored row hmem
        refine ⟨⟨href, hseen⟩, h.advance hok hx (fun _ hm => .inl hm) (fun x hm => ?_) nofun⟩
        rcases List.mem_cons.1 hm with rfl | hm
        · exact .inr (DbTable.found h.transfers hv (Table.find?_of_mem hmem))
        · exact .inl hm
    | _ => rcases r with e | x <;> exact ⟨trivial, idle rfl⟩
  | randomUUID =>
    rcases r with e | id
    · exact ⟨trivial, idle rfl⟩
    · exact ⟨hmine id (exec_randomUUID hx), idle rfl⟩
  | transaction q =>
    cases q with
    | begin => rcases r with e | x <;> exact ⟨trivial, idle rfl⟩
    | commit => exact ⟨trivial, gone⟩
    | rollback => exact ⟨trivial, gone⟩
  | _ => rcases r with e | x <;> exact ⟨trivial, idle rfl⟩

theorem preserves {allow : Store → PId → Ans → Op → Prop}
    (hmine : ∀ s i id op, allow s i (.uuid id) op → mine i id)
    (hstored : ∀ s i a op, allow s i a op → ∀ r ∈ s.db.transfers.rows, stored r) :
    (authorityProtocol config incoming mine stored).Preserves (scheduleOf allow)
      (AuthorityInv config incoming mine stored db0) where
  call h hok ha hx := h.step hok (fun id e => hmine _ _ id _ (e ▸ ha)) (hstored _ _ _ _ ha) hx
  act _ h := h.tick _

end AuthorityInv

end Kudi
