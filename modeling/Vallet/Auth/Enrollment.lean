import Vallet.Auth.Pairing
import Vallet.Auth.TokenService

/-!
# Enrollment

Starting a device grant, minting and approving a pairing, redeeming its device
code for tokens, revoking it and polling it.  None of these is a transaction:
each repository call commits by itself.  Times, draws and the state of store
calls are part of a call.
-/

namespace Vallet.Auth

open Counter Effects Encoding DevicePairingRepository

def maxApprovalAttempts : Int := 20

def approvalLimitPrefix : GoString := utf8 "vallet.auth.approval.v1"

def apiTokenProviderID : GoString := utf8 "api-token"

def maxPrincipalLen : Nat := 255

/-- What the random generator returns to one `create`. -/
structure PairingDraws where
  id : RandomBytes credentialIDBytes
  secret : RandomBytes pairingSecretBytes
  userCode : RandomBytes userCodeLen

structure Grant where
  pairingID : PairingID
  deviceCode : GoString
  userCode : GoString
  expiresAt : Int
  pollInterval : Int
deriving DecidableEq, Repr

/-! ## Creating a pairing -/

/-- The fields `create` fills in. -/
def newPairing (pairing : DevicePairing) (now : Int) (draws : PairingDraws) : DevicePairing :=
  { pairing with
    id := newPairingID draws.id
    deviceCodeHash := hashDeviceSecret draws.secret.val
    createdAt := now
    expiresAt := now + pairingLifetime
    nextPollAt := now }

def create (pairing : DevicePairing) (userCode : GoString) (now : Int) (draws : PairingDraws) :
    Program EnrollmentStatement (Except Err Grant) := do
  let stored := newPairing pairing now draws
  match ← DevicePairingRepository.create stored with
  | .error failure => return .error (.wrap "auth: creating device pairing" failure)
  | .ok () =>
    return .ok {
      pairingID := stored.id
      deviceCode := formatDeviceCode stored.id draws.secret.val
      userCode := userCode
      expiresAt := stored.expiresAt
      pollInterval := pairingPollInterval }

/-- The pairing a grant starts from: pending and without an owner. -/
def pendingPairing (clientLabel : GoString) (scopes : List Scope)
    (userCodeHash : List UInt8) : DevicePairing where
  id := []
  ownerID := []
  deviceCodeHash := []
  userCodeHash := userCodeHash
  clientLabel := clientLabel
  scopes := scopes
  status := .pending
  lineageID := []
  nextPollAt := 0
  createdAt := 0
  expiresAt := 0
  approvedAt := none
  redeemedAt := none
  revokedAt := none

/-- The pairing `Mint` starts from: approved for the owner at once. -/
def mintedPairing (ownerID : OwnerID) (clientLabel : GoString)
    (scopes : List Scope) (approved : Int) : DevicePairing :=
  (pendingPairing clientLabel scopes []).approved ownerID approved

structure StartDeviceGrantCall where
  clientLabel : GoString
  scopes : List Scope
  now : Int
  draws : PairingDraws

def startDeviceGrant (call : StartDeviceGrantCall) :
    Program EnrollmentStatement (Except Err Grant) :=
  match validateScopes call.scopes, validateClientLabel call.clientLabel with
  | .error failure, _ => return .error failure
  | .ok (), .error failure => return .error failure
  | .ok (), .ok () =>
    let code := newUserCode call.draws.userCode
    create (pendingPairing call.clientLabel call.scopes
      (hashUserCode code.2)) code.1 call.now call.draws

/-- `link`: the identity a later authentication resolves to the owner. -/
def link (id : PairingID) (ownerID : OwnerID) (now : Int) :
    Program EnrollmentStatement (Except Err Unit) := do
  match ← LinkedIdentityRepository.create {
      id := id
      ownerID := ownerID
      provider := apiTokenProviderID
      subject := id
      createdAt := now
      updatedAt := now } with
  | .error failure => return .error (.wrap "auth: linking pairing identity" failure)
  | .ok () => return .ok ()

structure MintCall where
  ownerID : OwnerID
  clientLabel : GoString
  scopes : List Scope
  approved : Int
  now : Int
  draws : PairingDraws

def mintPairing (call : MintCall) : Program EnrollmentStatement (Except Err Grant) :=
  if call.ownerID.isEmpty then
    return .error (.errorf "auth: owner id must not be empty" .invalidInput)
  else
    match validateScopes call.scopes, validateClientLabel call.clientLabel with
    | .error failure, _ => return .error failure
    | .ok (), .error failure => return .error failure
    | .ok (), .ok () => do
        match ← create (mintedPairing call.ownerID call.clientLabel
            call.scopes call.approved) [] call.now call.draws with
        | .error failure => return .error failure
        | .ok grant =>
          match ← link grant.pairingID call.ownerID call.approved with
          | .error failure => return .error failure
          | .ok () => return .ok grant

/-! ## Approving -/

structure ApproveCall where
  ownerID : OwnerID
  userCode : GoString
  now : Int
  limiter : StoreCall

/-- The counter of an owner's approval attempts. -/
def approvalKey (ownerID : OwnerID) : GoString :=
  base64Encode (sha256 (approvalLimitPrefix ++ [0] ++ ownerID))

def checkApprovalLimit (ownerID : OwnerID) (limiter : StoreCall) :
    Program EnrollmentStatement (Except Err Unit) := do
  match ← askPairing (.increment (approvalKey ownerID) 1 pairingLifetime limiter) with
  | .error _ => return .error .authFailed
  | .ok (.error _) => return .error .authFailed
  | .ok (.ok count) =>
    if count.value > maxApprovalAttempts then return .error .authFailed
    else return .ok ()

/-- `Approve` once the pairing of the code has been read. -/
def approveRead (call : ApproveCall) (pairing : DevicePairing) :
    Program EnrollmentStatement (Except Err Unit) := do
  if pairing.status ≠ .pending then return .error .authFailed
  else if ¬ call.now < pairing.expiresAt then return .error .authFailed
  else
    match ← approve pairing.id call.ownerID call.now with
    | .error _ => return .error .authFailed
    | .ok () =>
      match ← link pairing.id call.ownerID call.now with
      | .error _ => return .error .authFailed
      | .ok () => return .ok ()

def approve (call : ApproveCall) : Program EnrollmentStatement (Except Err Unit) := do
  if call.ownerID.isEmpty then return .error .authFailed
  else
    match ← checkApprovalLimit call.ownerID call.limiter with
    | .error failure => return .error failure
    | .ok () =>
      match normalizeUserCode call.userCode with
      | .error _ => return .error .authFailed
      | .ok code =>
        match ← getByUserCodeHash (hashUserCode code) with
        | .error _ => return .error .authFailed
        | .ok pairing => approveRead call pairing

/-! ## Authenticating a device code -/

/-- `Principal.Validate`. -/
def principalValid (principal : GoString) : Bool :=
  !principal.isEmpty && decide (principal.length ≤ maxPrincipalLen) &&
    principal.runes.isSome && !principal.contains 0

/-- `APITokenProvider.Authenticate`. -/
def providerAuthenticate (deviceCode : GoString) (now : Int) :
    Program EnrollmentStatement (Except Err PairingID) := do
  match parseDeviceCode deviceCode with
  | .error _ => return .error .authFailed
  | .ok (id, secret) =>
    match ← getByID id with
    | .error failure =>
      if failure.is .notFound then return .error .authFailed
      else return .error (.wrap "auth: reading device pairing" failure)
    | .ok pairing =>
      if pairing.id ≠ id then return .error .authFailed
      else if !deviceSecretMatches pairing.deviceCodeHash secret then
        return .error .authFailed
      else if pairing.status ≠ .approved then return .error .authFailed
      else if pairing.ownerID.isEmpty then return .error .authFailed
      else if ¬ now < pairing.expiresAt then return .error .authFailed
      else return .ok pairing.id

/-- `Authenticator.resolve`. -/
def resolveIdentity (principal : GoString) : Program EnrollmentStatement (Except Err OwnerID) := do
  match ← LinkedIdentityRepository.getByProviderSubject apiTokenProviderID principal with
  | .error _ => return .error .authFailed
  | .ok identity =>
    if identity.provider ≠ apiTokenProviderID ∨
        identity.subject ≠ principal then return .error .authFailed
    else if identity.ownerID.isEmpty then return .error .authFailed
    else
      match ← onCredentials (OwnerRepository.get identity.ownerID) with
      | .error _ => return .error .authFailed
      | .ok owner =>
        if owner.id ≠ identity.ownerID then return .error .authFailed
        else if !owner.inGoodStanding then return .error .authFailed
        else return .ok identity.ownerID

/-- `Authenticator.Authenticate` for the provider of device codes. -/
def authenticate (deviceCode : GoString) (now : Int) :
    Program EnrollmentStatement (Except Err OwnerID) := do
  match ← providerAuthenticate deviceCode now with
  | .error _ => return .error .authFailed
  | .ok principal =>
    if !principalValid principal then return .error .authFailed
    else resolveIdentity principal

/-! ## Redeeming and revoking -/

/-- `revokeLineage`: failures are only logged. -/
def revokePairingLineage (ownerID : OwnerID) (lineageID : LineageID)
    (now : Int) (calls : Nat → StoreCall) :
    Program EnrollmentStatement Unit := do
  let rows ← onCredentials (revokeIssuedLineage ownerID lineageID now)
  let _ ← askPairing (.listRevoked rows now calls)
  return ()

structure RedeemCall where
  deviceCode : GoString
  authenticatedAt : Int
  now : Int
  draws : Draws
  calls : Nat → StoreCall

/-- The conditional consume of `Redeem`, and its compensation. -/
def consume (call : RedeemCall) (ownerID : OwnerID) (id : PairingID)
    (issued : Issued) : Program EnrollmentStatement (Except Err Issued) := do
  match ← markRedeemed ownerID id issued.lineageID call.now with
  | .error _ =>
    revokePairingLineage ownerID issued.lineageID call.now call.calls
    return .error .authFailed
  | .ok () => return .ok issued

/-- `Redeem` once the device code has been authenticated. -/
def redeemFor (signer : AccessTokenSigner) (call : RedeemCall)
    (ownerID : OwnerID) (id : PairingID) :
    Program EnrollmentStatement (Except Err Issued) := do
  match ← get ownerID id with
  | .error _ => return .error .authFailed
  | .ok pairing =>
    if pairing.id ≠ id ∨ pairing.ownerID ≠ ownerID then
      return .error .authFailed
    else if (validateScopes pairing.scopes).toOption.isNone then
      return .error .authFailed
    else
      match ← onCredentials (issue signer ownerID pairing.scopes
          pairing.clientLabel call.now call.draws) with
      | .error _ => return .error .authFailed
      | .ok issued => consume call ownerID id issued

def redeem (signer : AccessTokenSigner) (call : RedeemCall) :
    Program EnrollmentStatement (Except Err Issued) := do
  match parseDeviceCode call.deviceCode with
  | .error _ => return .error .authFailed
  | .ok (id, _) =>
    match ← authenticate call.deviceCode call.authenticatedAt with
    | .error _ => return .error .authFailed
    | .ok ownerID => redeemFor signer call ownerID id

structure RevokePairingCall where
  ownerID : OwnerID
  id : PairingID
  now : Int
  calls : Nat → StoreCall

def revokePairing (call : RevokePairingCall) : Program EnrollmentStatement (Except Err Unit) := do
  if call.ownerID.isEmpty ∨ call.id.isEmpty then
    return .error (.errorf "auth: owner id and pairing id are required" .invalidInput)
  else
    match ← get call.ownerID call.id with
    | .error failure => return .error (.wrap "auth: reading device pairing" failure)
    | .ok pairing =>
      if pairing.ownerID ≠ call.ownerID then
        return .error (.errorf "auth: device pairing" .notFound)
      else
        match ← revoke call.ownerID call.id call.now with
        | .error failure => return .error (.wrap "auth: revoking device pairing" failure)
        | .ok () =>
          if pairing.lineageID ≠ [] then
            revokePairingLineage call.ownerID pairing.lineageID call.now call.calls
          return .ok ()

/-! ## Polling -/

structure PollCall where
  deviceCode : GoString
  now : Int

/-- `Poll` once the secret has been matched. -/
def pollMatched (call : PollCall) (pairing : DevicePairing) :
    Program EnrollmentStatement (Except Err Unit) := do
  let nextPollAt := call.now + pairingPollInterval
  if ¬ call.now < pairing.expiresAt then return .error .authFailed
  else if call.now < pairing.nextPollAt then
    let _ ← touch pairing.id nextPollAt
    return .error .authFailed
  else
    match ← touch pairing.id nextPollAt with
    | .error _ => return .error .authFailed
    | .ok () =>
      if pairing.status = .approved then return .ok ()
      else if pairing.status = .pending then return .error (.of .pollPending)
      else return .error .authFailed

def poll (call : PollCall) : Program EnrollmentStatement (Except Err Unit) := do
  match parseDeviceCode call.deviceCode with
  | .error _ => return .error .authFailed
  | .ok (id, secret) =>
    match ← getByID id with
    | .error _ => return .error .authFailed
    | .ok pairing =>
      if pairing.id ≠ id then return .error .authFailed
      else if !deviceSecretMatches pairing.deviceCodeHash secret then
        return .error .authFailed
      else pollMatched call pairing

/-! ## The calls of the service -/

structure SweepCall where
  cutoff : Int
  limit : Int

inductive EnrollmentCall where
  | startDeviceGrant (call : StartDeviceGrantCall)
  | mint (call : MintCall)
  | approve (call : ApproveCall)
  | redeem (call : RedeemCall)
  | revoke (call : RevokePairingCall)
  | poll (call : PollCall)
  | deleteExpired (call : SweepCall)

inductive EnrollmentAnswer where
  | granted (grant : Grant)
  | tokens (issued : Issued)
  | done
  | removed (count : Nat)

def EnrollmentCall.program (signer : AccessTokenSigner) :
    EnrollmentCall → Program EnrollmentStatement (Except Err EnrollmentAnswer)
  | .startDeviceGrant call => do
      return (← Auth.startDeviceGrant call).map .granted
  | .mint call => do return (← mintPairing call).map .granted
  | .approve call => do return (← Auth.approve call).map fun _ => .done
  | .redeem call => do return (← Auth.redeem signer call).map .tokens
  | .revoke call => do return (← revokePairing call).map fun _ => .done
  | .poll call => do return (← Auth.poll call).map fun _ => .done
  | .deleteExpired call => do
      return (← DevicePairingRepository.deleteExpired call.cutoff call.limit).map .removed

/-- The identifier the generator returns to a call that creates a pairing. -/
def EnrollmentCall.drawn : EnrollmentCall → Option PairingID
  | .startDeviceGrant call => some (newPairingID call.draws.id)
  | .mint call => some (newPairingID call.draws.id)
  | _ => none

/-- A `Redeem` of the pairing. -/
def EnrollmentCall.Redeems (call : EnrollmentCall) (id : PairingID) : Prop :=
  ∃ redeem secret, call = .redeem redeem ∧ parseDeviceCode redeem.deviceCode = .ok (id, secret)

end Vallet.Auth
