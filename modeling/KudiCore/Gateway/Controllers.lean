import KudiCore.Accounts.Opening
import KudiCore.Identity.Runtime
import KudiCore.Transfers.ExternalTransfer

/-!
# The routes to accounts and transfers

| here | there |
| --- | --- |
| `JwtAuthGuard`, `RolesGuard` | `gateway/guards/*.guard.ts`; the apps install the first for every route |
| `GetAccountByIdHandler`, `ListMyAccountsHandler` | `modules/accounts/application/queries/*/*.handler.ts` |
| `Route` | a route of `accounts.controller.ts`, `transfers.controller.ts` or `kyc.controller.ts` |
| `FlutterwaveWebhookVerifier` | `integrations/payment-gateway/flutterwave/webhooks` |
| `FlutterwaveTransferWebhookController` | `modules/transfers/presentation/controllers/` |
| `HttpRequest.bearer` | a guarded route is asked for; `user` is the payload of the bearer token that passport accepts |

Of `kyc.controller.ts` these are the two routes that freeze and unfreeze; the reads of `transfers.controller.ts` are
left out. A NestJS exception (`ForbiddenException` and the like) is an `Error` with a message.
-/

namespace Kudi

open Interleave
open Identity (AccessTokenPayload UserRole)

/-! ## The guards -/

def Identity.UserRole.value : UserRole → String
  | .CUSTOMER => "CUSTOMER"
  | .SUPPORT_AGENT => "SUPPORT_AGENT"
  | .COMPLIANCE_OFFICER => "COMPLIANCE_OFFICER"
  | .ADMIN => "ADMIN"
  | .SUPER_ADMIN => "SUPER_ADMIN"

/-- `ADMIN_ROLES`. -/
def adminRoles : List UserRole := [.ADMIN, .SUPER_ADMIN]

/-- `ACCOUNT_FREEZE_ROLES`. -/
def accountFreezeRoles : List UserRole := [.ADMIN, .SUPER_ADMIN, .COMPLIANCE_OFFICER]

/-- `COMPLIANCE_ROLES`. -/
def complianceRoles : List UserRole := [.COMPLIANCE_OFFICER, .ADMIN, .SUPER_ADMIN]

/-- A route that is not `@Public()`. -/
def JwtAuthGuard.canActivate : Option AccessTokenPayload → Except Err AccessTokenPayload
  | none => .error (.error "Unauthorized")
  | some user => .ok user

def RolesGuard.canActivate (requiredRoles : List UserRole) (user : AccessTokenPayload) : Except Err Unit :=
  let names := ", ".intercalate (requiredRoles.map (·.value))
  if requiredRoles.isEmpty || requiredRoles.contains user.role then .ok ()
  else .error (.error s!"This action requires one of the following roles: {names}")

/-! ## The queries -/

structure GetAccountByIdQuery where
  accountId : String
  requestingUserId : String
  isAdmin : Bool

def GetAccountByIdHandler.execute (query : GetAccountByIdQuery) : Handler AccountResponseDto := do
  let account ← PrismaAccountRepository.findById query.accountId
  match account with
  | none => Prog.throw (accountNotFound query.accountId)
  | some account =>
    if account.userId ≠ query.requestingUserId ∧ query.isAdmin = false then
      Prog.throw (.error "You may only access your own accounts")
    else return AccountResponseDto.fromDomain account

def ListMyAccountsHandler.execute (userId : String) : Handler (List AccountResponseDto) := do
  let accounts ← PrismaAccountRepository.findAllByUserId userId
  return accounts.map AccountResponseDto.fromDomain

/-! ## The controllers -/

structure OpenAccountDto where
  currency : Option Currency

/-- `CreditAccountDto` and `DebitAccountDto`. -/
structure MoveMoneyDto where
  amount : String
  currency : Option Currency
  reference : String

structure FreezeAccountDto where
  reason : String

structure InitiateInternalTransferDto where
  sourceAccountId : String
  destinationAccountId : String
  amount : String
  narration : String

structure InitiateExternalTransferDto where
  sourceAccountId : String
  bankCode : String
  recipientAccountNumber : String
  recipientAccountName : String
  amount : String
  narration : String

structure GatewayConfig where
  /-- The bank's code in account numbers. -/
  bankCode : String
  /-- `flutterwave.webhookSecretHash`. -/
  webhookSecretHash : Option String

inductive HttpResponse where
  | account (dto : AccountResponseDto)
  | accounts (dtos : List AccountResponseDto)
  | transfer (dto : TransferResponseDto)
  | received

namespace AccountsController

def isAdmin (user : AccessTokenPayload) : Bool := adminRoles.contains user.role

/-- `randomInt` are the values that the generator of account numbers draws. -/
def «open» (config : GatewayConfig) (randomInt : Fin 10 → Fin 1000000) (user : AccessTokenPayload)
    (dto : OpenAccountDto) : Handler AccountResponseDto :=
  OpenAccountHandler.execute config.bankCode randomInt ⟨user.sub, dto.currency.getD .NGN⟩

def listMine (user : AccessTokenPayload) : Handler (List AccountResponseDto) := ListMyAccountsHandler.execute user.sub

def getById (user : AccessTokenPayload) (accountId : String) : Handler AccountResponseDto :=
  GetAccountByIdHandler.execute ⟨accountId, user.sub, isAdmin user⟩

def credit (accountId : String) (dto : MoveMoneyDto) : Handler AccountResponseDto :=
  CreditAccountHandler.execute ⟨accountId, dto.amount, dto.currency.getD .NGN, dto.reference⟩

def debit (accountId : String) (dto : MoveMoneyDto) : Handler AccountResponseDto :=
  DebitAccountHandler.execute ⟨accountId, dto.amount, dto.currency.getD .NGN, dto.reference⟩

def freeze (accountId : String) (dto : FreezeAccountDto) : Handler AccountResponseDto :=
  FreezeAccountHandler.execute ⟨accountId, dto.reason⟩

def unfreeze (accountId : String) : Handler AccountResponseDto := UnfreezeAccountHandler.execute ⟨accountId⟩

/-- Ownership is the query's business. -/
def close (user : AccessTokenPayload) (accountId : String) : Handler AccountResponseDto := do
  let _ ← GetAccountByIdHandler.execute ⟨accountId, user.sub, isAdmin user⟩
  CloseAccountHandler.execute ⟨accountId⟩

end AccountsController

namespace KycController

def freezeAccount (accountId : String) (dto : FreezeAccountDto) : Handler AccountResponseDto :=
  FreezeAccountHandler.execute ⟨accountId, dto.reason⟩

def unfreezeAccount (accountId : String) : Handler AccountResponseDto := UnfreezeAccountHandler.execute ⟨accountId⟩

end KycController

namespace TransfersController

/-- `fuel` bounds the polls for another request with the same key. -/
def initiateInternal (fuel : Nat) (user : AccessTokenPayload) (dto : InitiateInternalTransferDto)
    (idempotencyKey : Option String) : Handler TransferResponseDto :=
  InitiateInternalTransferHandler.execute fuel
    ⟨user.sub, dto.sourceAccountId, dto.destinationAccountId, dto.amount, dto.narration, idempotencyKey⟩

def initiateExternal (fuel : Nat) (user : AccessTokenPayload) (dto : InitiateExternalTransferDto)
    (idempotencyKey : Option String) : Handler TransferResponseDto :=
  InitiateExternalTransferHandler.execute fuel
    ⟨user.sub, dto.sourceAccountId, dto.bankCode, dto.recipientAccountNumber, dto.recipientAccountName, dto.amount,
      dto.narration, idempotencyKey⟩

end TransfersController

/-! ## The webhook -/

/-- `timingSafeEqual` of the two headers' bytes, an empty or a missing one apart. -/
def FlutterwaveWebhookVerifier.isValid (receivedHeaderValue configuredSecretHash : Option String) : Bool :=
  match receivedHeaderValue, configuredSecretHash with
  | some received, some expected =>
    received ≠ "" && expected ≠ "" && received.toUTF8.size == expected.toUTF8.size &&
      received.toUTF8.toList == expected.toUTF8.toList
  | _, _ => false

/-- `FlutterwaveTransferData`, with its message. -/
structure FlutterwaveCallbackData extends FlutterwaveTransferData where
  complete_message : Option String

structure FlutterwaveTransferWebhookPayload where
  event : String
  data : Option FlutterwaveCallbackData

namespace FlutterwaveTransferMapper

def extractProviderReference (data : FlutterwaveTransferData) : String := toString data.id

def isTerminalSuccess (data : FlutterwaveTransferData) : Bool := data.status = .SUCCESSFUL

def isTerminalFailure (data : FlutterwaveTransferData) : Bool := data.status = .FAILED

end FlutterwaveTransferMapper

open FlutterwaveTransferMapper in
def FlutterwaveTransferWebhookController.handle (config : GatewayConfig) (verifHash : Option String)
    (payload : FlutterwaveTransferWebhookPayload) : Handler Unit :=
  if FlutterwaveWebhookVerifier.isValid verifHash config.webhookSecretHash = false then
    Prog.throw (.error "Invalid webhook signature")
  else match payload.data with
    | none => return ()
    | some data =>
      if payload.event ≠ "transfer.completed" then return ()
      else
        let isSuccessful := isTerminalSuccess data.toFlutterwaveTransferData
        let isFailed := isTerminalFailure data.toFlutterwaveTransferData
        if isSuccessful || isFailed then
          ConfirmExternalTransferHandler.execute
            ⟨extractProviderReference data.toFlutterwaveTransferData, isSuccessful,
              if isFailed then data.complete_message else none⟩
        else return ()

/-! ## Routes and requests -/

inductive Route where
  | openAccount (dto : OpenAccountDto) (randomInt : Fin 10 → Fin 1000000)
  | listMyAccounts
  | getAccount (accountId : String)
  | creditAccount (accountId : String) (dto : MoveMoneyDto)
  | debitAccount (accountId : String) (dto : MoveMoneyDto)
  | freezeAccount (accountId : String) (dto : FreezeAccountDto)
  | unfreezeAccount (accountId : String)
  | closeAccount (accountId : String)
  | staffFreezeAccount (accountId : String) (dto : FreezeAccountDto)
  | staffUnfreezeAccount (accountId : String)
  | initiateInternal (dto : InitiateInternalTransferDto) (idempotencyKey : Option String) (fuel : Nat)
  | initiateExternal (dto : InitiateExternalTransferDto) (idempotencyKey : Option String) (fuel : Nat)

namespace Route

/-- `@Roles(...)`. -/
def roles : Route → List UserRole
  | .creditAccount .. | .debitAccount .. => adminRoles
  | .freezeAccount .. | .unfreezeAccount _ => accountFreezeRoles
  | .staffFreezeAccount .. | .staffUnfreezeAccount _ => complianceRoles
  | _ => []

def handle (config : GatewayConfig) (user : AccessTokenPayload) : Route → Handler HttpResponse
  | .openAccount dto randomInt => return .account (← AccountsController.open config randomInt user dto)
  | .listMyAccounts => return .accounts (← AccountsController.listMine user)
  | .getAccount accountId => return .account (← AccountsController.getById user accountId)
  | .creditAccount accountId dto => return .account (← AccountsController.credit accountId dto)
  | .debitAccount accountId dto => return .account (← AccountsController.debit accountId dto)
  | .freezeAccount accountId dto => return .account (← AccountsController.freeze accountId dto)
  | .unfreezeAccount accountId => return .account (← AccountsController.unfreeze accountId)
  | .closeAccount accountId => return .account (← AccountsController.close user accountId)
  | .staffFreezeAccount accountId dto => return .account (← KycController.freezeAccount accountId dto)
  | .staffUnfreezeAccount accountId => return .account (← KycController.unfreezeAccount accountId)
  | .initiateInternal dto key fuel => return .transfer (← TransfersController.initiateInternal fuel user dto key)
  | .initiateExternal dto key fuel => return .transfer (← TransfersController.initiateExternal fuel user dto key)

end Route

inductive HttpRequest where
  | bearer (user : Option AccessTokenPayload) (route : Route)
  /-- The one route that is `@Public()`. -/
  | webhook (verifHash : Option String) (payload : FlutterwaveTransferWebhookPayload)

/-- The guards, then the controller. -/
def HttpRequest.program (config : GatewayConfig) : HttpRequest → Handler HttpResponse
  | .bearer user route => do
    let user ← Prog.ofExcept (JwtAuthGuard.canActivate user)
    Prog.ofExcept (RolesGuard.canActivate route.roles user)
    route.handle config user
  | .webhook verifHash payload => do
    FlutterwaveTransferWebhookController.handle config verifHash payload
    return .received

/-- What sets a program going. -/
inductive Incoming where
  | request (http : HttpRequest)
  /-- The compliance module has published a `KycTierUpgradedEvent`. -/
  | tierUpgraded (event : KycTierUpgradedEvent)
  /-- `RegisterUserHandler` opens the wallet of the user that it has just saved; `userId` is the id it has drawn. -/
  | registration (userId : String) (randomInt : Fin 10 → Fin 1000000)

def Incoming.program (config : GatewayConfig) : Incoming → Handler HttpResponse
  | .request http => http.program config
  | .tierUpgraded event => do
    KycTierUpgradedHandler.handle event
    return .received
  | .registration userId randomInt => do
    return .account (← OpenAccountHandler.execute config.bankCode randomInt ⟨userId, .NGN⟩)

end Kudi
