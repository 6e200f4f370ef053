import Vallet.Domain.Auth

/-!
# Records of the publishing tables

Handles, key sets with their members, devices, public keys, access keys and
audit records, with the closed sets of states the schema admits.
-/

namespace Vallet

abbrev HandleID := GoString
abbrev KeySetID := GoString
abbrev DeviceID := GoString
abbrev PublicKeyID := GoString
abbrev AccessKeyID := GoString
abbrev AuditRecordID := GoString

inductive NameState where
  | active
  | quarantined
  | retired
deriving DecidableEq, Repr

/-- A row of `handles`: the domain's handle with the two columns of the
look-alike guard. -/
structure Handle where
  id : HandleID
  ownerID : OwnerID
  name : GoString
  state : NameState
  quarantineUntil : Option Int
  flaggedForReview : Bool
  quarantineOnRelease : Bool
  createdAt : Int
  updatedAt : Int
  nameFold : GoString
  foldVersion : Int
deriving DecidableEq, Repr

inductive Visibility where
  | visibilityPublic
  | visibilityProtected
deriving DecidableEq, Repr

structure KeySet where
  id : KeySetID
  ownerID : OwnerID
  name : GoString
  visibility : Visibility
  isDefault : Bool
  state : NameState
  quarantineUntil : Option Int
  flaggedForReview : Bool
  quarantineOnRelease : Bool
  createdAt : Int
  updatedAt : Int
deriving DecidableEq, Repr

structure KeySetMembership where
  keySetID : KeySetID
  publicKeyID : PublicKeyID
  addedAt : Int
deriving DecidableEq, Repr

/-- The primary key of `key_set_members`. -/
def KeySetMembership.key (membership : KeySetMembership) : KeySetID × PublicKeyID :=
  (membership.keySetID, membership.publicKeyID)

structure Device where
  id : DeviceID
  ownerID : OwnerID
deriving DecidableEq, Repr

inductive KeyStatus where
  | active
  | revoked
deriving DecidableEq, Repr

structure PublicKey where
  id : PublicKeyID
  ownerID : OwnerID
  deviceID : DeviceID
  algorithm : GoString
  blob : List UInt8
  comment : GoString
  fingerprint : GoString
  bitLen : Int
  status : KeyStatus
  createdAt : Int
  updatedAt : Int
  revokedAt : Option Int
deriving DecidableEq, Repr

inductive AccessKeyStatus where
  | active
  | grace
  | revoked
deriving DecidableEq, Repr

structure AccessKey where
  id : AccessKeyID
  ownerID : OwnerID
  keySetID : KeySetID
  name : GoString
  secretHash : List UInt8
  status : AccessKeyStatus
  createdAt : Int
  revokedAt : Option Int
  graceUntil : Option Int
  replacedByID : Option AccessKeyID
deriving DecidableEq, Repr

inductive ActorType where
  | owner
  | administrator
  | system
deriving DecidableEq, Repr

inductive TargetType where
  | owner
  | handle
  | device
  | publicKey
  | keySet
  | accessKey
  | blocklistEntry
  | allowlistEntry
deriving DecidableEq, Repr

inductive AuditAction where
  | ownerErased
  | handleRenamed
  | handleReclaimed
  | handleReleased
  | handleQuarantined
  | deviceRegistered
  | deviceRevoked
  | keyAdded
  | keyRevoked
  | keySetCreated
  | keySetRenamed
  | keySetDeleted
  | keySetDefaultChanged
  | keySetVisibilityChanged
  | accessKeyCreated
  | accessKeyRotated
  | accessKeyRevoked
  | blocklistEntryAdded
  | blocklistEntryRemoved
  | allowlistEntryAdded
  | allowlistEntryRemoved
deriving DecidableEq, Repr

inductive DetailKey where
  | fingerprint
  | algorithm
  | deviceName
  | handle
  | keySetName
  | fromName
  | toName
  | visibility
  | scope
  | reason
  | result
  | requestID
  | clientLabel
  | count
deriving DecidableEq, Repr

structure AuditRecord where
  id : AuditRecordID
  actorType : ActorType
  actorID : GoString
  action : AuditAction
  targetType : TargetType
  targetID : GoString
  occurredAt : Int
  metadata : List (DetailKey × GoString)
  pseudonymized : Bool := false
deriving DecidableEq, Repr

end Vallet
