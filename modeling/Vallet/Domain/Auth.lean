import Vallet.Domain.Values

/-!
# Records of the authentication tables

Owners, refresh credentials, access tokens, linked identities and device
pairings, with the closed sets of states the schema admits.  Scope kinds arrive
in request bodies, so an unknown kind is a value that validation must refuse.
-/

namespace Vallet

abbrev OwnerID := GoString
abbrev RefreshCredentialID := GoString
abbrev LineageID := GoString
abbrev PairingID := GoString

inductive OwnerStatus where
  | active
  | suspended
  | deleted
deriving DecidableEq, Repr

structure Owner where
  id : OwnerID
  status : OwnerStatus
  createdAt : Int
  updatedAt : Int
  deletedAt : Option Int
deriving DecidableEq, Repr

/-- The standing every authentication path asks of an owner. -/
def Owner.inGoodStanding (owner : Owner) : Bool :=
  decide (owner.status = .active) && owner.deletedAt.isNone

inductive ScopeKind where
  | fullOwner
  | readOnly
  | singleSet
  | singleDevice
  | unknown (text : String)
deriving DecidableEq, Repr

namespace ScopeKind

def text : ScopeKind → String
  | .fullOwner => "full-owner"
  | .readOnly => "read-only"
  | .singleSet => "single-set"
  | .singleDevice => "single-device"
  | .unknown text => text

def quoted (kind : ScopeKind) : String := "\"" ++ kind.text ++ "\""

def isValid : ScopeKind → Bool
  | .unknown _ => false
  | _ => true

def bindsResource (kind : ScopeKind) : Bool :=
  decide (kind = .singleSet) || decide (kind = .singleDevice)

end ScopeKind

structure Scope where
  kind : ScopeKind
  resourceID : GoString
deriving DecidableEq, Repr

def Scope.validate (scope : Scope) : Except Err Unit :=
  if !scope.kind.isValid then
    .error (.errorf ("domain: unknown scope kind " ++ scope.kind.quoted) .invalidInput)
  else if scope.kind.bindsResource && scope.resourceID.isEmpty then
    .error (.errorf ("domain: scope kind " ++ scope.kind.quoted ++
      " requires a resource id") .invalidInput)
  else if !scope.kind.bindsResource && !scope.resourceID.isEmpty then
    .error (.errorf ("domain: scope kind " ++ scope.kind.quoted ++
      " must not carry a resource id") .invalidInput)
  else
    .ok ()

inductive CredentialStatus where
  | active
  | rotated
  | revoked
  | expired
deriving DecidableEq, Repr

structure RefreshCredential where
  id : RefreshCredentialID
  ownerID : OwnerID
  lineageID : LineageID
  secretHash : List UInt8
  scopes : List Scope
  clientLabel : GoString
  rotatedFromID : Option RefreshCredentialID
  issuedAt : Int
  expiresAt : Int
  status : CredentialStatus
  revokedAt : Option Int
deriving DecidableEq, Repr

structure AccessToken where
  id : GoString
  ownerID : OwnerID
  refreshCredentialID : RefreshCredentialID
  scopes : List Scope
  issuedAt : Int
  expiresAt : Int
deriving DecidableEq, Repr

structure LinkedIdentity where
  id : GoString
  ownerID : OwnerID
  provider : GoString
  subject : GoString
  createdAt : Int
  updatedAt : Int
deriving DecidableEq, Repr

inductive PairingStatus where
  | pending
  | approved
  | redeemed
  | revoked
deriving DecidableEq, Repr

structure DevicePairing where
  id : PairingID
  ownerID : OwnerID
  deviceCodeHash : List UInt8
  userCodeHash : List UInt8
  clientLabel : GoString
  scopes : List Scope
  status : PairingStatus
  lineageID : LineageID
  nextPollAt : Int
  createdAt : Int
  expiresAt : Int
  approvedAt : Option Int
  redeemedAt : Option Int
  revokedAt : Option Int
deriving DecidableEq, Repr

end Vallet
