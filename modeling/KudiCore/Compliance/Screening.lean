import KudiCore.Compliance.KycProfile
import KudiCore.Identity.User

/-!
# Names and numbers

| here | there |
| --- | --- |
| `Services` | `KYC_IDENTIFIER_HMAC_KEY`, HMAC-SHA256, and what Unicode says about case |
| `Identifier`, `Bvn.create`, `Nin.create` | `modules/compliance/domain/value-objects/{bvn,nin}.vo.ts` |
| `HmacIdentifierHasher` | `modules/compliance/infrastructure/services/hmac-identifier-hasher.service.ts` |
| `FlutterwaveVerificationMapper` | `integrations/payment-gateway/flutterwave/verification` |
| `OfacSanctionsScreeningProvider` | `ofac-sanctions-screening.service.ts`, once the list is loaded |
-/

namespace Kudi.Compliance

open Identity (isSpace trim length)

structure Services where
  identity : Identity.Services
  identifierHmacKey : Option String
  createHmac : (key value : String) → String
  toUpperCase : String → String

/-! ## Numbers -/

/-- A `Bvn`, or a `Nin`. -/
structure Identifier where
  value : String
deriving DecidableEq, Repr

namespace Identifier

/-- `/^\d{11}$/`. -/
def create (message code rawNumber : String) : Except Err Identifier :=
  if isDigits 11 rawNumber then .ok ⟨rawNumber⟩ else .error (domainException message code)

def toMasked (n : Identifier) : String := "*******" ++ String.ofList (n.value.toList.drop (n.value.length - 4))

end Identifier

def Bvn.create : String → Except Err Identifier := Identifier.create "BVN must be exactly 11 digits" "INVALID_BVN"

def Nin.create : String → Except Err Identifier := Identifier.create "NIN must be exactly 11 digits" "INVALID_NIN"

def createIdentifier : VerificationType → String → Except Err Identifier
  | .BVN => Bvn.create
  | .NIN => Nin.create

namespace HmacIdentifierHasher

def MIN_KEY_LENGTH : Nat := 32

def misconfigured : Err :=
  .exception "InternalServerErrorException"
    s!"KYC_IDENTIFIER_HMAC_KEY must be configured and at least {MIN_KEY_LENGTH} characters" ""

def hash (services : Services) (value : String) : Except Err String :=
  match services.identifierHmacKey with
  | none => .error misconfigured
  | some key => if length key.toList < MIN_KEY_LENGTH then .error misconfigured else .ok (services.createHmac key value)

end HmacIdentifierHasher

/-! ## The provider's record -/

structure FlutterwaveData where
  firstName : String
  middleName : Option String
  lastName : String
deriving DecidableEq, Repr

/-- `success`: `status === 'success'`. -/
structure FlutterwaveVerificationResponse where
  success : Bool
  message : String
  data : Option FlutterwaveData
deriving DecidableEq, Repr

namespace FlutterwaveVerificationMapper

def normalize (services : Services) (value : String) : String :=
  services.identity.toLowerCase (String.ofList (trim value.toList))

def namesMatch (services : Services) (data : FlutterwaveData) (expectedFirstName expectedLastName : String) : Bool :=
  normalize services data.firstName == normalize services expectedFirstName &&
    normalize services data.lastName == normalize services expectedLastName

/-- `[…].filter(Boolean).join(' ')`. -/
def fullName (data : FlutterwaveData) : String :=
  " ".intercalate (([some data.firstName, data.middleName, some data.lastName].filterMap id).filter (· != ""))

end FlutterwaveVerificationMapper

structure IdentityVerificationResult where
  matched : Bool
  verifiedFullName : Option String
deriving DecidableEq, Repr

def verificationProviderException (message : String) : Err :=
  .exception "VerificationProviderException" s!"Verification provider error: {message}" "VERIFICATION_PROVIDER_ERROR"

/-- `verifyBvn` and `verifyNin`, once the provider has answered. -/
def FlutterwaveIdentityVerificationProvider.judge (services : Services) (expectedFirstName expectedLastName : String)
    (response : FlutterwaveVerificationResponse) : Except Err IdentityVerificationResult :=
  match response.success, response.data with
  | true, some data =>
    let matched := FlutterwaveVerificationMapper.namesMatch services data expectedFirstName expectedLastName
    .ok ⟨matched, if matched then some (FlutterwaveVerificationMapper.fullName data) else none⟩
  | _, _ => .error (verificationProviderException response.message)

/-! ## The sanctions list -/

structure SanctionsListEntry where
  id : String
  fullName : String
  program : Option String
deriving DecidableEq, Repr

namespace OfacSanctionsScreeningProvider

def MIN_TOKEN_LENGTH : Nat := 2

/-- `[A-Z\s'-]`. -/
def isNameChar (c : Char) : Bool := ('A' ≤ c && c ≤ 'Z') || isSpace c || c == '\'' || c == '-'

def normalizeToTokens (services : Services) (name : String) : List String :=
  let cs := (services.toUpperCase name).toList.map fun c => if isNameChar c then c else ' '
  ((cs.splitOnP isSpace).map String.ofList).filter fun token => MIN_TOKEN_LENGTH ≤ token.length

def candidateIsSubsetOfEntry (candidateTokens entryTokens : List String) : Bool :=
  candidateTokens.all entryTokens.contains

/-- A single token is not screened. -/
def isScreenable (candidateTokens : List String) : Bool := 2 ≤ candidateTokens.length

def findMatches (services : Services) (candidateTokens : List String) (entries : List SanctionsListEntry) :
    List SanctionsListEntry :=
  entries.filter fun entry => candidateIsSubsetOfEntry candidateTokens (normalizeToTokens services entry.fullName)

end OfacSanctionsScreeningProvider

end Kudi.Compliance
