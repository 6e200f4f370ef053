import Vallet.Foundation.ReadCommitted
import Vallet.Publishing.Catalog

/-!
# Key sets

An owner publishes keys in named sets, one of which is the default.  A rename
is a new row with the members of the old one, which stays behind as a
quarantined tombstone; a delete removes the row and its members.  Every
operation reads the set it is about in its transaction, refuses a tombstone
and writes back what it has read; its record is appended after the commit.
-/

namespace Vallet.KeySet

/-- The unique indexes: `(owner_id, name)`, and `owner_id` of default rows. -/
def clashes (left right : KeySet) : Bool :=
  decide (left.ownerID = right.ownerID) &&
    (decide (left.name = right.name) || (left.isDefault && right.isDefault))

theorem clashes_comm (left right : KeySet) : left.clashes right = right.clashes left := by
  simp only [clashes, eq_comm, Bool.and_comm]

def isDefaultOf (ownerID : OwnerID) (set : KeySet) : Bool :=
  decide (set.ownerID = ownerID) && set.isDefault

/-- The columns `Update` writes, taken from the given set; the name and the
designation are not among them. -/
def written (values : KeySet) (set : KeySet) : KeySet :=
  { set with
    visibility := values.visibility
    state := values.state
    quarantineUntil := values.quarantineUntil
    flaggedForReview := values.flaggedForReview
    quarantineOnRelease := values.quarantineOnRelease
    updatedAt := values.updatedAt }

def designated (isDefault : Bool) (set : KeySet) : KeySet :=
  { set with isDefault := isDefault }

/-- The renamed set as the tombstone it becomes. -/
def vacated (deadline now : Int) (set : KeySet) : KeySet :=
  { set with
    state := .quarantined
    quarantineUntil := some deadline
    updatedAt := now }

def shown (visibility : Visibility) (now : Int) (set : KeySet) : KeySet :=
  { set with visibility := visibility, updatedAt := now }

@[simp] theorem id_written (values set : KeySet) : (written values set).id = set.id := rfl

@[simp] theorem id_designated (isDefault : Bool) (set : KeySet) :
    (set.designated isDefault).id = set.id := rfl

end Vallet.KeySet

namespace Vallet.KeySetMembership

def inSet (setID : KeySetID) (membership : KeySetMembership) : Bool :=
  decide (membership.keySetID = setID)

def joins (setID : KeySetID) (keyID : PublicKeyID) (membership : KeySetMembership) : Bool :=
  decide (membership.keySetID = setID) && decide (membership.publicKeyID = keyID)

end Vallet.KeySetMembership

namespace Vallet.PublicKey

/-- `WHERE id = ? AND owner_id = ?`. -/
def ownedBy (ownerID : OwnerID) (id : PublicKeyID) (key : PublicKey) : Bool :=
  decide (key.id = id) && decide (key.ownerID = ownerID)

end Vallet.PublicKey

namespace Vallet

/-- The text of a visibility. -/
def Visibility.text : Visibility → GoString
  | .visibilityPublic => utf8 "public"
  | .visibilityProtected => utf8 "protected"

end Vallet

namespace Vallet.Publishing

open Audit Auth Effects Relational Program KeySetMembership

/-! ## Statements -/

inductive KeySetStatement : Type → Type where
  | selectKeySet (ownerID : OwnerID) (id : KeySetID) : KeySetStatement (Option KeySet)
  | selectDefault (ownerID : OwnerID) : KeySetStatement (Option KeySet)
  | countByOwner (ownerID : OwnerID) : KeySetStatement Nat
  | lockOwner (ownerID : OwnerID) : KeySetStatement Bool
  | insertKeySet (set : KeySet) : KeySetStatement Inserted
  | updateKeySet (ownerID : OwnerID) (id : KeySetID) (values : KeySet) : KeySetStatement Updated
  | clearDefault (ownerID : OwnerID) : KeySetStatement Updated
  | designate (ownerID : OwnerID) (id : KeySetID) : KeySetStatement Updated
  | selectIsDefault (ownerID : OwnerID) (id : KeySetID) : KeySetStatement (Option Bool)
  | deleteMembers (setID : KeySetID) : KeySetStatement Nat
  /-- None if a foreign key refuses it. -/
  | deleteKeySet (ownerID : OwnerID) (id : KeySetID) : KeySetStatement (Option Nat)
  | insertMember (ownerID : OwnerID) (setID : KeySetID) (keyID : PublicKeyID)
      (now : Int) : KeySetStatement Updated
  | deleteMember (ownerID : OwnerID) (setID : KeySetID) (keyID : PublicKeyID) : KeySetStatement Nat
  | selectMembers (ownerID : OwnerID) (setID : KeySetID) : KeySetStatement (List KeySetMembership)
  | appendAudit (record : AuditRecord) : KeySetStatement Inserted

namespace Catalog

def defaultKeySet (catalog : Catalog) (ownerID : OwnerID) : Option KeySet :=
  (catalog.keySets.select (KeySet.isDefaultOf ownerID)).head?

/-- The number of sets an owner has, in any state. -/
def countKeySets (catalog : Catalog) (ownerID : OwnerID) : Nat :=
  (catalog.keySets.select fun set => decide (set.ownerID = ownerID)).length

def insertKeySet (set : KeySet) (catalog : Catalog) : Inserted × Catalog :=
  match catalog.keySets.insert? set with
  | none => (.duplicateKey, catalog)
  | some extended =>
    if ¬ extended.Unique KeySet.clashes then (.duplicateKey, catalog)
    else if (catalog.owners.find? set.ownerID).isNone then
      (.constraintFailed, catalog)
    else (.inserted, { catalog with keySets := extended })

/-- An update that the unique indexes of the sets must accept. -/
def updateKeySets (chosen : KeySet → Bool) (change : KeySet → KeySet)
    (keepsKey : ∀ row, (change row).id = row.id) (catalog : Catalog) : Updated × Catalog :=
  if (catalog.keySets.update chosen change keepsKey).Unique KeySet.clashes then
    (some (catalog.keySets.select chosen).length,
      { catalog with keySets := catalog.keySets.update chosen change keepsKey })
  else (none, catalog)

/-- Members and access keys refer to sets. -/
def deleteKeySet (ownerID : OwnerID) (id : KeySetID) (catalog : Catalog) : Option Nat × Catalog :=
  let chosen := catalog.keySets.select (KeySet.ownedBy ownerID id)
  if chosen ≠ [] ∧
      ((catalog.keySetMembers.select (inSet id)) ≠ [] ∨
        (catalog.accessKeys.select fun key =>
          decide (key.keySetID = id)) ≠ []) then
    (none, catalog)
  else
    (some chosen.length, { catalog with
        keySets := catalog.keySets.delete (KeySet.ownedBy ownerID id) })

def hasKeySet (catalog : Catalog) (ownerID : OwnerID) (id : KeySetID) : Bool :=
  (catalog.findKeySet ownerID id).isSome

def hasPublicKey (catalog : Catalog) (ownerID : OwnerID) (id : PublicKeyID) : Bool :=
  (catalog.publicKeys.select (PublicKey.ownedBy ownerID id)).head?.isSome

/-- `INSERT … SELECT … WHERE EXISTS (…) AND EXISTS (…)`. -/
def insertMember (ownerID : OwnerID) (setID : KeySetID)
    (keyID : PublicKeyID) (now : Int) (catalog : Catalog) : Updated × Catalog :=
  if catalog.hasKeySet ownerID setID && catalog.hasPublicKey ownerID keyID then
    match catalog.keySetMembers.insert? ⟨setID, keyID, now⟩ with
    | none => (none, catalog)
    | some extended => (some 1, { catalog with keySetMembers := extended })
  else (some 0, catalog)

def deleteMember (ownerID : OwnerID) (setID : KeySetID)
    (keyID : PublicKeyID) (catalog : Catalog) : Nat × Catalog :=
  if catalog.hasKeySet ownerID setID && catalog.hasPublicKey ownerID keyID then
    ((catalog.keySetMembers.select (joins setID keyID)).length, { catalog with
        keySetMembers := catalog.keySetMembers.delete (joins setID keyID) })
  else (0, catalog)

/-- `ORDER BY m.public_key_id ASC`. -/
def members (catalog : Catalog) (ownerID : OwnerID) (setID : KeySetID) : List KeySetMembership :=
  if catalog.hasKeySet ownerID setID then
    (catalog.keySetMembers.select (inSet setID)).insertionSort
        fun left right => left.publicKeyID ≤ right.publicKeyID
  else []

end Catalog

def KeySetStatement.execute {β : Type} : KeySetStatement β → Catalog → β × Catalog
  | .selectKeySet ownerID id, catalog => (catalog.findKeySet ownerID id, catalog)
  | .selectDefault ownerID, catalog => (catalog.defaultKeySet ownerID, catalog)
  | .countByOwner ownerID, catalog => (catalog.countKeySets ownerID, catalog)
  | .lockOwner ownerID, catalog => ((catalog.owners.find? ownerID).isSome, catalog)
  | .insertKeySet set, catalog => catalog.insertKeySet set
  | .updateKeySet ownerID id values, catalog =>
    catalog.updateKeySets (KeySet.ownedBy ownerID id)
      (KeySet.written values) (KeySet.id_written values)
  | .clearDefault ownerID, catalog =>
    catalog.updateKeySets (KeySet.isDefaultOf ownerID)
      (KeySet.designated false) (KeySet.id_designated false)
  | .designate ownerID id, catalog =>
    catalog.updateKeySets (KeySet.ownedBy ownerID id)
      (KeySet.designated true) (KeySet.id_designated true)
  | .selectIsDefault ownerID id, catalog =>
    ((catalog.findKeySet ownerID id).map (·.isDefault), catalog)
  | .deleteMembers setID, catalog =>
    ((catalog.keySetMembers.select (inSet setID)).length, { catalog with
        keySetMembers := catalog.keySetMembers.delete (inSet setID) })
  | .deleteKeySet ownerID id, catalog => catalog.deleteKeySet ownerID id
  | .insertMember ownerID setID keyID now, catalog => catalog.insertMember ownerID setID keyID now
  | .deleteMember ownerID setID keyID, catalog => catalog.deleteMember ownerID setID keyID
  | .selectMembers ownerID setID, catalog => (catalog.members ownerID setID, catalog)
  | .appendAudit record, catalog => catalog.appendAudit record

def keySetInterpreter : Interpreter KeySetStatement Catalog where
  execute := KeySetStatement.execute

/-! ## Repository -/

/-- The engines differ in how creates of one owner are kept apart. -/
inductive Engine where
  | sqlite
  | postgres
deriving DecidableEq, Repr

namespace KeySetRepository

def get (ownerID : OwnerID) (id : KeySetID) : Program KeySetStatement (Except Err KeySet) := do
  let reply ← ask (.selectKeySet ownerID id)
  return singleRow reply

def getDefault (ownerID : OwnerID) : Program KeySetStatement (Except Err KeySet) := do
  let reply ← ask (.selectDefault ownerID)
  return singleRow reply

def countByOwner (ownerID : OwnerID) : Program KeySetStatement (Except Err Nat) := do
  let reply ← ask (.countByOwner ownerID)
  return allRows reply

/-- Writers of SQLite are one after another anyway.  A missing owner is no
error: the insert that follows is refused. -/
def lockOwnerForCreate (engine : Engine) (ownerID : OwnerID) :
    Program KeySetStatement (Except Err Unit) :=
  match engine with
  | .sqlite => pure (.ok ())
  | .postgres => do
      match ← ask (.lockOwner ownerID) with
      | .error _ => return .error driverFault
      | .ok _ => return .ok ()

def create (set : KeySet) : Program KeySetStatement (Except Err Unit) := do
  match ← ask (.insertKeySet set) with
  | .error _ => return .error driverFault
  | .ok .duplicateKey => return .error (.of .conflict)
  | .ok .constraintFailed => return .error driverFault
  | .ok .inserted => return .ok ()

def update (values : KeySet) : Program KeySetStatement (Except Err Unit) := do
  let reply ← ask (.updateKeySet values.ownerID values.id values)
  return requireUpdated reply

/-- The old default is cleared first, whether there is one or not. -/
def setDefault (ownerID : OwnerID) (id : KeySetID) : Program KeySetStatement (Except Err Unit) := do
  match ← ask (.clearDefault ownerID) with
  | .error _ => return .error driverFault
  | .ok none => return .error (.of .conflict)
  | .ok (some _) => do
      let reply ← ask (.designate ownerID id)
      return requireUpdated reply

/-- `requireAffected` after a delete. -/
def requireDeleted : Except Fault (Option Nat) → Except Err Unit
  | .error _ => .error driverFault
  | .ok none => .error driverFault
  | .ok (some affected) => if affected = 0 then .error (.of .notFound) else .ok ()

def delete (ownerID : OwnerID) (id : KeySetID) : Program KeySetStatement (Except Err Unit) := do
  match ← ask (.selectIsDefault ownerID id) with
  | .error _ => return .error driverFault
  | .ok none => return .error (.of .notFound)
  | .ok (some true) => return .error (.of .defaultKeySet)
  | .ok (some false) =>
    match ← ask (.deleteMembers id) with
    | .error _ => return .error driverFault
    | .ok _ => do
        let reply ← ask (.deleteKeySet ownerID id)
        return requireDeleted reply

def addMember (ownerID : OwnerID) (setID : KeySetID) (keyID : PublicKeyID)
    (now : Int) : Program KeySetStatement (Except Err Unit) := do
  let reply ← ask (.insertMember ownerID setID keyID now)
  return requireUpdated reply

def removeMember (ownerID : OwnerID) (setID : KeySetID)
    (keyID : PublicKeyID) : Program KeySetStatement (Except Err Unit) := do
  let reply ← ask (.deleteMember ownerID setID keyID)
  return requireUpdated (reply.map some)

def listMembers (ownerID : OwnerID) (setID : KeySetID) :
    Program KeySetStatement (Except Err (List KeySetMembership)) := do
  let reply ← ask (.selectMembers ownerID setID)
  return allRows reply

end KeySetRepository

/-! ## The service -/

structure KeySetService where
  engine : Engine
  emitter : Emitter
  guard : GoString → Except Err Unit
  maxSets : Nat
  quarantine : Int
  positive : 0 < maxSets
  lasting : 0 < quarantine

def keySetNotFound : Err := .errorf "keyset: not found" .notFound

def duplicateSetName : Err := .errorf "keyset: name already in use" .conflict

def setLimitReached : Err :=
  .errorf "keyset: key set limit reached" .limitExceeded

def defaultSetKept : Err :=
  .errorf "keyset: the default key set cannot be deleted" .defaultKeySet

def confirmationRequired : Err :=
  .errorf "keyset: deleting a non-empty key set requires confirmation" .conflict

def missingSetOwner : Err := .errorf "keyset: missing owner" .invalidInput

def setUnrecordable : Err :=
  .errorf "keyset: name cannot be recorded" .invalidInput

def visibilityUnrecordable : Err :=
  .errorf "keyset: visibility cannot be recorded" .invalidInput

def unknownVisibility : Err :=
  .errorf "keyset: unknown visibility" .invalidInput

/-- Every reason why a set cannot be addressed is the same one. -/
def hideMissingSet (failure : Err) : Err :=
  if failure.is .notFound then keySetNotFound else failure

/-- A tombstone is not an addressable set. -/
def live : Except Err KeySet → Except Err KeySet
  | .error failure => .error (hideMissingSet failure)
  | .ok set => if set.state ≠ .active then .error keySetNotFound else .ok set

/-- What a transaction leaves to be recorded and returned. -/
structure Recorded (α : Type) where
  value : α
  targetID : KeySetID
  details : List (DetailKey × GoString)

structure CreateSetCall where
  ownerID : OwnerID
  name : GoString
  requestID : GoString
  now : Int
  id : RandText
  auditID : AuditRecordID

structure RenameSetCall where
  ownerID : OwnerID
  id : KeySetID
  name : GoString
  requestID : GoString
  now : Int
  newID : RandText
  auditID : AuditRecordID

structure DeleteSetCall where
  ownerID : OwnerID
  id : KeySetID
  confirm : Bool
  requestID : GoString
  now : Int
  auditID : AuditRecordID

structure SetDefaultCall where
  ownerID : OwnerID
  id : KeySetID
  requestID : GoString
  now : Int
  auditID : AuditRecordID

/-- No visibility stands for a text that is none. -/
structure SetVisibilityCall where
  ownerID : OwnerID
  id : KeySetID
  visibility : Option Visibility
  requestID : GoString
  now : Int
  auditID : AuditRecordID

/-- A new set is empty, protected and not the default. -/
def CreateSetCall.created (call : CreateSetCall) : KeySet where
  id := call.id.text
  ownerID := call.ownerID
  name := call.name
  visibility := .visibilityProtected
  isDefault := false
  state := .active
  quarantineUntil := none
  flaggedForReview := false
  quarantineOnRelease := false
  createdAt := call.now
  updatedAt := call.now

def RenameSetCall.renamed (call : RenameSetCall) (old : KeySet) : KeySet where
  id := call.newID.text
  ownerID := call.ownerID
  name := call.name
  visibility := old.visibility
  isDefault := false
  state := .active
  quarantineUntil := none
  flaggedForReview := false
  quarantineOnRelease := false
  createdAt := call.now
  updatedAt := call.now

namespace KeySetService

/-! ### Details -/

def setDetails (service : KeySetService) (name requestID : GoString) :
    Except Err (List (DetailKey × GoString)) :=
  match service.emitter.setUnlessEmpty .requestID requestID
      (service.emitter.set .keySetName name (.ok [])) with
  | .error _ => .error setUnrecordable
  | .ok pairs => .ok pairs

def renameDetails (service : KeySetService) (old new requestID : GoString) :
    Except Err (List (DetailKey × GoString)) :=
  match service.setDetails new requestID with
  | .error failure => .error failure
  | .ok pairs =>
    match service.emitter.set .toName new (service.emitter.set .fromName old (.ok pairs)) with
    | .error _ => .error setUnrecordable
    | .ok all => .ok all

def defaultDetails (service : KeySetService) (old new requestID : GoString) :
    Except Err (List (DetailKey × GoString)) :=
  match service.setDetails new requestID with
  | .error failure => .error failure
  | .ok pairs =>
    match service.emitter.set .toName new
        (service.emitter.setUnlessEmpty .fromName old (.ok pairs)) with
    | .error _ => .error setUnrecordable
    | .ok all => .ok all

def visibilityDetails (service : KeySetService) (old new : Visibility) (name requestID : GoString) :
    Except Err (List (DetailKey × GoString)) :=
  match service.setDetails name requestID with
  | .error failure => .error failure
  | .ok pairs =>
    match service.emitter.set .toName new.text (service.emitter.set .fromName old.text
          (service.emitter.set .visibility new.text (.ok pairs))) with
    | .error _ => .error visibilityUnrecordable
    | .ok all => .ok all

/-! ### Transactions -/

/-- The cap and the insert, under the owner's lock. -/
def createLocked (service : KeySetService) (ownerID : OwnerID)
    (set : KeySet) : Program KeySetStatement (Except Err Unit) := do
  match ← KeySetRepository.lockOwnerForCreate service.engine ownerID with
  | .error failure => return .error failure
  | .ok () =>
    match ← KeySetRepository.countByOwner ownerID with
    | .error failure => return .error failure
    | .ok count =>
      if count ≥ service.maxSets then pure (.error setLimitReached)
      else do
        match ← KeySetRepository.create set with
        | .error failure =>
          return .error (if failure.is .conflict then duplicateSetName
            else failure)
        | .ok () => return .ok ()

def createTx (service : KeySetService) (call : CreateSetCall)
    (details : List (DetailKey × GoString)) :
    Program KeySetStatement (Except Err (Recorded KeySet)) := do
  match ← service.createLocked call.ownerID call.created with
  | .error failure => return .error failure
  | .ok () => return .ok ⟨call.created, call.created.id, details⟩

/-- The loop of `Rename` over the members of the old set. -/
def addMembers (ownerID : OwnerID) (setID : KeySetID) (now : Int) :
    List KeySetMembership → Program KeySetStatement (Except Err Unit)
  | [] => pure (.ok ())
  | first :: rest => do
      match ← KeySetRepository.addMember ownerID setID first.publicKeyID now with
      | .error failure => return .error failure
      | .ok () => addMembers ownerID setID now rest

/-- The designation moves with the name. -/
def carryDefault (call : RenameSetCall) (old : KeySet) (details : List (DetailKey × GoString)) :
    Program KeySetStatement (Except Err (Recorded KeySet)) :=
  if old.isDefault = false then
    pure (.ok ⟨call.renamed old, call.newID.text, details⟩)
  else do
    match ← KeySetRepository.setDefault call.ownerID call.newID.text with
    | .error failure => return .error failure
    | .ok () => return .ok ⟨(call.renamed old).designated true, call.newID.text, details⟩

/-- The writes of a rename. -/
def replace (service : KeySetService) (call : RenameSetCall) (old : KeySet)
    (details : List (DetailKey × GoString)) :
    Program KeySetStatement (Except Err (Recorded KeySet)) := do
  match ← service.createLocked call.ownerID (call.renamed old) with
  | .error failure => return .error failure
  | .ok () =>
    match ← KeySetRepository.listMembers call.ownerID call.id with
    | .error failure => return .error failure
    | .ok members =>
      match ← addMembers call.ownerID call.newID.text call.now members with
      | .error failure => return .error failure
      | .ok () =>
        match ← KeySetRepository.update (old.vacated (call.now + service.quarantine) call.now) with
        | .error failure => return .error failure
        | .ok () => carryDefault call old details

def renameTx (service : KeySetService) (call : RenameSetCall) :
    Program KeySetStatement (Except Err (Recorded KeySet)) := do
  let reply ← KeySetRepository.get call.ownerID call.id
  match live reply with
  | .error failure => return .error failure
  | .ok old =>
    match service.renameDetails old.name call.name call.requestID with
    | .error failure => return .error failure
    | .ok details => service.replace call old details

/-- The part of `Delete` after the set was read. -/
def remove (service : KeySetService) (call : DeleteSetCall) (set : KeySet) :
    Program KeySetStatement (Except Err (Recorded Unit)) := do
  match ← KeySetRepository.listMembers call.ownerID call.id with
  | .error failure => return .error failure
  | .ok members =>
    if members ≠ [] ∧ call.confirm = false then
      pure (.error confirmationRequired)
    else
      match service.setDetails set.name call.requestID with
      | .error failure => pure (.error failure)
      | .ok details => do
          match ← KeySetRepository.delete call.ownerID call.id with
          | .error failure =>
            return .error (if failure.is .defaultKeySet then
              defaultSetKept else failure)
          | .ok () => return .ok ⟨(), call.id, details⟩

def deleteTx (service : KeySetService) (call : DeleteSetCall) :
    Program KeySetStatement (Except Err (Recorded Unit)) := do
  let reply ← KeySetRepository.get call.ownerID call.id
  match live reply with
  | .error failure => return .error failure
  | .ok set => service.remove call set

/-- The name of the default that is given up, for the record only. -/
def previousName : Except Err KeySet → Except Err GoString
  | .ok previous => .ok previous.name
  | .error failure => if failure.is .notFound then .ok [] else .error failure

def setDefaultTx (service : KeySetService) (call : SetDefaultCall) :
    Program KeySetStatement (Except Err (Recorded KeySet)) := do
  let reply ← KeySetRepository.get call.ownerID call.id
  match live reply with
  | .error failure => return .error failure
  | .ok target => do
      let previous ← KeySetRepository.getDefault call.ownerID
      match previousName previous with
      | .error failure => return .error failure
      | .ok old =>
        match service.defaultDetails old target.name call.requestID with
        | .error failure => return .error failure
        | .ok details =>
          match ← KeySetRepository.setDefault call.ownerID call.id with
          | .error failure => return .error failure
          | .ok () =>
            return .ok ⟨{ target with
              isDefault := true, updatedAt := call.now }, call.id,
              details⟩

def setVisibilityTx (service : KeySetService) (call : SetVisibilityCall) (visibility : Visibility) :
    Program KeySetStatement (Except Err (Recorded KeySet)) := do
  let reply ← KeySetRepository.get call.ownerID call.id
  match live reply with
  | .error failure => return .error failure
  | .ok target =>
    match service.visibilityDetails target.visibility visibility target.name call.requestID with
    | .error failure => return .error failure
    | .ok details =>
      match ← KeySetRepository.update (target.shown visibility call.now) with
      | .error failure => return .error failure
      | .ok () => return .ok ⟨target.shown visibility call.now, call.id, details⟩

/-! ### Operations

Each operation runs its transaction and, once that is committed, appends the
record of what it has done. -/

def commit {α : Type} (mapErr : Err → Err)
    (body : Program KeySetStatement (Except Err (Recorded α)))
    (plan : FaultPlan) (catalog : Catalog) : Except Err (Recorded α) × Catalog :=
  match transact keySetInterpreter driverFault body plan catalog with
  | (.error failure, unchanged) => (.error (mapErr failure), unchanged)
  | (.ok recorded, committed) => (.ok recorded, committed)

def event (action : AuditAction) (ownerID : OwnerID) (targetID : KeySetID)
    (details : List (DetailKey × GoString)) : Event where
  actorType := .owner
  actorID := ownerID
  action := action
  targetType := .keySet
  targetID := targetID
  details := details

/-- The record of a committed change; its failure does not undo the change. -/
def emit {α : Type} (service : KeySetService) (action : AuditAction)
    (ownerID : OwnerID) (auditID : AuditRecordID) (now : Int) (auditFaults : List Bool) :
    Except Err (Recorded α) × Catalog → Except Err α × Catalog
  | (.error failure, unchanged) => (.error failure, unchanged)
  | (.ok recorded, committed) =>
    match (service.emitter.emit .appendAudit
        (event action ownerID recorded.targetID recorded.details) auditID
        now).run keySetInterpreter auditFaults committed with
    | (.error failure, final) => (.error failure, final)
    | (.ok (), final) => (.ok recorded.value, final)

def commitCreate (service : KeySetService) (call : CreateSetCall)
    (plan : FaultPlan) (catalog : Catalog) : Except Err (Recorded KeySet) × Catalog :=
  if call.ownerID = [] then (.error missingSetOwner, catalog)
  else
    match service.guard call.name with
    | .error failure => (.error failure, catalog)
    | .ok () =>
      match service.setDetails call.name call.requestID with
      | .error failure => (.error failure, catalog)
      | .ok details => commit (fun failure => failure) (service.createTx call details) plan catalog

def create (service : KeySetService) (call : CreateSetCall)
    (plan : FaultPlan) (auditFaults : List Bool) (catalog : Catalog) :
    Except Err KeySet × Catalog :=
  service.emit .keySetCreated call.ownerID call.auditID call.now auditFaults
    (service.commitCreate call plan catalog)

def commitRename (service : KeySetService) (call : RenameSetCall)
    (plan : FaultPlan) (catalog : Catalog) : Except Err (Recorded KeySet) × Catalog :=
  if call.ownerID = [] then (.error missingSetOwner, catalog)
  else if call.id = [] then (.error keySetNotFound, catalog)
  else
    match service.guard call.name with
    | .error failure => (.error failure, catalog)
    | .ok () => commit hideMissingSet (service.renameTx call) plan catalog

def rename (service : KeySetService) (call : RenameSetCall)
    (plan : FaultPlan) (auditFaults : List Bool) (catalog : Catalog) :
    Except Err KeySet × Catalog :=
  service.emit .keySetRenamed call.ownerID call.auditID call.now auditFaults
    (service.commitRename call plan catalog)

def commitDelete (service : KeySetService) (call : DeleteSetCall)
    (plan : FaultPlan) (catalog : Catalog) : Except Err (Recorded Unit) × Catalog :=
  if call.ownerID = [] then (.error missingSetOwner, catalog)
  else if call.id = [] then (.error keySetNotFound, catalog)
  else commit hideMissingSet (service.deleteTx call) plan catalog

def delete (service : KeySetService) (call : DeleteSetCall)
    (plan : FaultPlan) (auditFaults : List Bool) (catalog : Catalog) : Except Err Unit × Catalog :=
  service.emit .keySetDeleted call.ownerID call.auditID call.now auditFaults
    (service.commitDelete call plan catalog)

def commitSetDefault (service : KeySetService) (call : SetDefaultCall)
    (plan : FaultPlan) (catalog : Catalog) : Except Err (Recorded KeySet) × Catalog :=
  if call.ownerID = [] then (.error missingSetOwner, catalog)
  else if call.id = [] then (.error keySetNotFound, catalog)
  else commit hideMissingSet (service.setDefaultTx call) plan catalog

def setDefault (service : KeySetService) (call : SetDefaultCall)
    (plan : FaultPlan) (auditFaults : List Bool) (catalog : Catalog) :
    Except Err KeySet × Catalog :=
  service.emit .keySetDefaultChanged call.ownerID call.auditID call.now
    auditFaults (service.commitSetDefault call plan catalog)

def commitSetVisibility (service : KeySetService) (call : SetVisibilityCall)
    (plan : FaultPlan) (catalog : Catalog) : Except Err (Recorded KeySet) × Catalog :=
  if call.ownerID = [] then (.error missingSetOwner, catalog)
  else if call.id = [] then (.error keySetNotFound, catalog)
  else
    match call.visibility with
    | none => (.error unknownVisibility, catalog)
    | some visibility =>
      commit hideMissingSet (service.setVisibilityTx call visibility) plan catalog

def setVisibility (service : KeySetService) (call : SetVisibilityCall)
    (plan : FaultPlan) (auditFaults : List Bool) (catalog : Catalog) :
    Except Err KeySet × Catalog :=
  service.emit .keySetVisibilityChanged call.ownerID call.auditID call.now
    auditFaults (service.commitSetVisibility call plan catalog)

end KeySetService

end Vallet.Publishing
