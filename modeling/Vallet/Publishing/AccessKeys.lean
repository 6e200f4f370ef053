import Vallet.Foundation.Encoding
import Vallet.Foundation.Unicode
import Vallet.Publishing.Catalog

/-!
# Access keys

An access key is a bearer credential for one key set.  `Mint` issues one,
`Rotate` issues a successor and leaves the old key usable for a grace window,
`Revoke` and the sweep `ExpireGrace` end one, and `Verify` decides what a
presented token opens.  Each constructor of `AccessKeyStatement` is one SQL
statement.
-/

namespace Vallet.AccessKey

/-- `WHERE id = ? AND owner_id = ?`. -/
def ownedBy (ownerID : OwnerID) (id : AccessKeyID) (key : AccessKey) : Bool :=
  decide (key.id = id) && decide (key.ownerID = ownerID)

/-- `WHERE id = ? AND owner_id = ? AND status <> 'revoked'`. -/
def rotatable (ownerID : OwnerID) (id : AccessKeyID) (key : AccessKey) : Bool :=
  ownedBy ownerID id key && decide (key.status ≠ .revoked)

def rotated (replacedBy : AccessKeyID) (graceUntil : Int) (key : AccessKey) : AccessKey :=
  { key with
    status := .grace
    replacedByID := some replacedBy
    graceUntil := some graceUntil }

/-- `revoked_at` keeps the first revocation. -/
def revoked (now : Int) (key : AccessKey) : AccessKey :=
  { key with
    status := .revoked
    revokedAt := key.revokedAt.or (some now)
    graceUntil := none
    replacedByID := none }

/-- `WHERE status = 'grace' AND grace_until IS NOT NULL AND grace_until <= ?`. -/
def graceExpired (now : Int) (key : AccessKey) : Bool :=
  decide (key.status = .grace) && key.graceUntil.any fun deadline => decide (deadline ≤ now)

@[simp] theorem id_rotated (replacedBy : AccessKeyID) (graceUntil : Int)
    (key : AccessKey) : (key.rotated replacedBy graceUntil).id = key.id := rfl

@[simp] theorem id_revoked (now : Int) (key : AccessKey) : (key.revoked now).id = key.id := rfl

theorem ownedBy_iff {ownerID : OwnerID} {id : AccessKeyID} {key : AccessKey} :
    ownedBy ownerID id key = true ↔ key.id = id ∧ key.ownerID = ownerID := by
  simp [ownedBy]

end Vallet.AccessKey

namespace Vallet.Publishing

open Audit Auth Effects Encoding Relational

/-! ## Tokens -/

def tokenPrefix : GoString := utf8 "vak_"

def tokenSeparator : UInt8 := 46

def maxTokenLen : Nat := 256

def secretBytes : Nat := 32

/-- What `newToken` draws: an identifier and the bytes of a secret. -/
structure TokenDraw where
  id : RandText
  raw : List UInt8
  length_eq : raw.length = secretBytes

namespace TokenDraw

def secret (draw : TokenDraw) : GoString := base64Encode draw.raw

def token (draw : TokenDraw) : GoString :=
  tokenPrefix ++ (draw.id.text ++ tokenSeparator :: draw.secret)

end TokenDraw

def parseToken (presented : GoString) : Option (AccessKeyID × GoString) :=
  if presented.length > maxTokenLen then none
  else
    (presented.cutPrefix? tokenPrefix).bind fun body =>
      (body.cut? tokenSeparator).bind fun parts =>
        if parts.1 = [] ∨ parts.2 = [] then none
        else if tokenSeparator ∈ parts.2 then none
        else some parts

inductive AccessKeyStatement : Type → Type where
  | selectKeySet (ownerID : OwnerID) (id : KeySetID) : AccessKeyStatement (Option KeySet)
  | selectKey (ownerID : OwnerID) (id : AccessKeyID) : AccessKeyStatement (Option AccessKey)
  | selectExpiredGrace (now : Int) (limit : Nat) : AccessKeyStatement (List AccessKey)
  | insertKey (key : AccessKey) : AccessKeyStatement Inserted
  | updateRotated (ownerID : OwnerID) (id replacedBy : AccessKeyID)
      (graceUntil : Int) : AccessKeyStatement Nat
  | updateRevoked (ownerID : OwnerID) (id : AccessKeyID) (now : Int) : AccessKeyStatement Nat
  | appendAudit (record : AuditRecord) : AccessKeyStatement Inserted

namespace Catalog

def insertAccessKey (key : AccessKey) (catalog : Catalog) : Inserted × Catalog :=
  match catalog.accessKeys.insert? key with
  | none => (.duplicateKey, catalog)
  | some extended =>
    if (catalog.owners.find? key.ownerID).isNone ∨ (catalog.keySets.find? key.keySetID).isNone then
      (.constraintFailed, catalog)
    else (.inserted, { catalog with accessKeys := extended })

def rotateAccessKey (ownerID : OwnerID) (id replacedBy : AccessKeyID)
    (graceUntil : Int) (catalog : Catalog) : Catalog :=
  { catalog with
    accessKeys := catalog.accessKeys.update (AccessKey.rotatable ownerID id)
      (AccessKey.rotated replacedBy graceUntil) (AccessKey.id_rotated replacedBy graceUntil) }

def revokeAccessKey (ownerID : OwnerID) (id : AccessKeyID) (now : Int)
    (catalog : Catalog) : Catalog :=
  { catalog with
    accessKeys := catalog.accessKeys.update (AccessKey.ownedBy ownerID id)
      (AccessKey.revoked now) (AccessKey.id_revoked now) }

def findAccessKey (catalog : Catalog) (ownerID : OwnerID) (id : AccessKeyID) : Option AccessKey :=
  (catalog.accessKeys.select (AccessKey.ownedBy ownerID id)).head?

/-- `ORDER BY grace_until ASC, id ASC LIMIT ?`. -/
def expiredGrace (catalog : Catalog) (now : Int) (limit : Nat) : List AccessKey :=
  ((catalog.accessKeys.select (AccessKey.graceExpired now)).insertionSort
    fun left right =>
      left.graceUntil.getD 0 < right.graceUntil.getD 0 ∨
        (left.graceUntil.getD 0 = right.graceUntil.getD 0 ∧ left.id ≤ right.id)).take limit

end Catalog

def AccessKeyStatement.execute {β : Type} : AccessKeyStatement β → Catalog → β × Catalog
  | .selectKeySet ownerID id, catalog => (catalog.findKeySet ownerID id, catalog)
  | .selectKey ownerID id, catalog => (catalog.findAccessKey ownerID id, catalog)
  | .selectExpiredGrace now limit, catalog => (catalog.expiredGrace now limit, catalog)
  | .insertKey key, catalog => catalog.insertAccessKey key
  | .updateRotated ownerID id replacedBy graceUntil, catalog =>
    ((catalog.accessKeys.select (AccessKey.rotatable ownerID id)).length,
      catalog.rotateAccessKey ownerID id replacedBy graceUntil)
  | .updateRevoked ownerID id now, catalog =>
    ((catalog.accessKeys.select (AccessKey.ownedBy ownerID id)).length,
      catalog.revokeAccessKey ownerID id now)
  | .appendAudit record, catalog => catalog.appendAudit record

def accessKeyInterpreter : Interpreter AccessKeyStatement Catalog where
  execute := AccessKeyStatement.execute

/-! ## Repositories -/

namespace AccessKeyRepository

def create (key : AccessKey) : Program AccessKeyStatement (Except Err Unit) := do
  match ← Program.ask (.insertKey key) with
  | .error _ => return .error driverFault
  | .ok .duplicateKey => return .error (.of .conflict)
  | .ok .constraintFailed => return .error driverFault
  | .ok .inserted => return .ok ()

def get (ownerID : OwnerID) (id : AccessKeyID) :
    Program AccessKeyStatement (Except Err AccessKey) := do
  match ← Program.ask (.selectKey ownerID id) with
  | .error _ => return .error driverFault
  | .ok none => return .error (.of .notFound)
  | .ok (some key) => return .ok key

/-- `requireAffected`: an update that matched no row. -/
def requireAffected : Except Fault Nat → Except Err Unit
  | .error _ => .error driverFault
  | .ok affected => if affected = 0 then .error (.of .notFound) else .ok ()

def markRotated (ownerID : OwnerID) (id replacedBy : AccessKeyID)
    (graceUntil : Int) : Program AccessKeyStatement (Except Err Unit) := do
  let affected ← Program.ask (.updateRotated ownerID id replacedBy graceUntil)
  return requireAffected affected

def revoke (ownerID : OwnerID) (id : AccessKeyID) (now : Int) :
    Program AccessKeyStatement (Except Err Unit) := do
  let affected ← Program.ask (.updateRevoked ownerID id now)
  return requireAffected affected

def listExpiredGrace (now : Int) (limit : Int) :
    Program AccessKeyStatement (Except Err (List AccessKey)) :=
  if limit ≤ 0 then
    pure (.error (.errorf "sqlite: list limit must be positive" .invalidInput))
  else do
    match ← Program.ask (.selectExpiredGrace now limit.toNat) with
    | .error _ => return .error driverFault
    | .ok keys => return .ok keys

end AccessKeyRepository

/-- `KeySetRepository.Get`. -/
def AccessKeyStatement.getKeySet (ownerID : OwnerID) (id : KeySetID) :
    Program AccessKeyStatement (Except Err KeySet) := do
  match ← Program.ask (.selectKeySet ownerID id) with
  | .error _ => return .error driverFault
  | .ok none => return .error (.of .notFound)
  | .ok (some set) => return .ok set

/-! ## The service -/

def minPepperLen : Nat := 32

structure AccessKeyService where
  emitter : Emitter
  pepper : List UInt8
  longEnough : minPepperLen ≤ pepper.length
  graceWindow : Int
  positive : 0 < graceWindow

def accessKeyNotFound : Err := .errorf "accesskey: not found" .notFound

def missingOwner : Err := .errorf "accesskey: missing owner" .invalidInput

/-- An error that wraps nothing. -/
def storedKeyUnrecordable : Err where
  contexts := ["accesskey: stored key cannot be recorded"]
  wraps := []

/-- The owner's answer to every reason for which there is nothing to act on. -/
def hideNotFound (failure : Err) : Err :=
  if failure.is .notFound then accessKeyNotFound else failure

def maxKeyNameLen : Nat := 64

def cleanName (name : GoString) : Except Err GoString :=
  let clean : GoString := Text.trimSpace name
  if clean = [] then
    .error (.errorf "accesskey: name is required" .invalidInput)
  else if (Text.decode clean).length > maxKeyNameLen then
    .error (.errorf "accesskey: name is longer than 64 characters" .invalidInput)
  else if clean.runes.isNone then
    .error (.errorf "accesskey: name is not valid UTF-8" .invalidInput)
  else .ok clean

namespace AccessKeyService

def hash (service : AccessKeyService) (id : AccessKeyID) (secret : GoString) : List UInt8 :=
  hmacSha256 service.pepper (id ++ 0 :: secret)

def keyDetails (service : AccessKeyService) (name setName requestID : GoString) :
    Except Err (List (DetailKey × GoString)) :=
  match service.emitter.setUnlessEmpty .requestID requestID
      (service.emitter.setUnlessEmpty .keySetName setName
        (service.emitter.set .clientLabel name (.ok []))) with
  | .error _ => .error (.errorf "accesskey: key cannot be recorded" .invalidInput)
  | .ok pairs => .ok pairs

def rotationDetails (service : AccessKeyService) (old : AccessKey)
    (replacement : AccessKeyID) (setName requestID : GoString) :
    Except Err (List (DetailKey × GoString)) :=
  match service.emitter.setUnlessEmpty .requestID requestID
      (service.emitter.setUnlessEmpty .keySetName setName
        (service.emitter.set .toName replacement
          (service.emitter.set .fromName old.id
            (service.emitter.set .clientLabel old.name (.ok []))))) with
  | .error _ => .error (.errorf "accesskey: rotation cannot be recorded" .invalidInput)
  | .ok pairs => .ok pairs

def event (actorType : ActorType) (actorID : GoString) (action : AuditAction)
    (id : AccessKeyID) (details : List (DetailKey × GoString)) : Event where
  actorType := actorType
  actorID := actorID
  action := action
  targetType := .accessKey
  targetID := id
  details := details

def emit (service : AccessKeyService) (ownerID : OwnerID) (action : AuditAction) (id : AccessKeyID)
    (details : List (DetailKey × GoString)) (auditID : AuditRecordID)
    (now : Int) : Program AccessKeyStatement (Except Err Unit) :=
  service.emitter.emit .appendAudit (event .owner ownerID action id details) auditID now

def emitSystem (service : AccessKeyService) (action : AuditAction)
    (id : AccessKeyID) (details : List (DetailKey × GoString))
    (auditID : AuditRecordID) (now : Int) : Program AccessKeyStatement (Except Err Unit) :=
  service.emitter.emit .appendAudit (event .system [] action id details) auditID now

/-- `keySet` and `keySetIn`, which differ in whether they run inside a
transaction. -/
def keySetIn (ownerID : OwnerID) (setID : KeySetID) :
    Program AccessKeyStatement (Except Err KeySet) :=
  if setID = [] then pure (.error accessKeyNotFound)
  else do
    match ← AccessKeyStatement.getKeySet ownerID setID with
    | .error failure => return .error (hideNotFound failure)
    | .ok set =>
      if set.state = .active then pure (.ok set)
      else pure (.error accessKeyNotFound)

structure MintCall where
  ownerID : OwnerID
  setID : KeySetID
  name : GoString
  requestID : GoString
  now : Int
  draw : TokenDraw
  auditID : AuditRecordID

def mintedKey (service : AccessKeyService) (call : MintCall) (set : KeySet)
    (clean : GoString) : AccessKey where
  id := call.draw.id.text
  ownerID := call.ownerID
  keySetID := set.id
  name := clean
  secretHash := service.hash call.draw.id.text call.draw.secret
  status := .active
  createdAt := call.now
  revokedAt := none
  graceUntil := none
  replacedByID := none

/-- The part of `Mint` after the checks of its arguments. -/
def mintInto (service : AccessKeyService) (call : MintCall) (set : KeySet) (clean : GoString) :
    Program AccessKeyStatement (Except Err (AccessKey × GoString)) :=
  match service.keyDetails clean set.name call.requestID with
  | .error failure => pure (.error failure)
  | .ok details => do
      let key := service.mintedKey call set clean
      match ← AccessKeyRepository.create key with
      | .error failure => return .error failure
      | .ok () =>
        match ← service.emit call.ownerID .accessKeyCreated key.id details
            call.auditID call.now with
        | .error failure => return .error failure
        | .ok () => return .ok (key, call.draw.token)

def mint (service : AccessKeyService) (call : MintCall) :
    Program AccessKeyStatement (Except Err (AccessKey × GoString)) :=
  if call.ownerID = [] then pure (.error missingOwner)
  else
    match cleanName call.name with
    | .error failure => pure (.error failure)
    | .ok clean => do
        match ← keySetIn call.ownerID call.setID with
        | .error failure => return .error failure
        | .ok set => service.mintInto call set clean

structure RotateCall where
  ownerID : OwnerID
  id : AccessKeyID
  requestID : GoString
  now : Int
  draw : TokenDraw
  createdAuditID : AuditRecordID
  rotatedAuditID : AuditRecordID

def newRotatedKey (service : AccessKeyService) (old : AccessKey)
    (set : KeySet) (call : RotateCall) : AccessKey where
  id := call.draw.id.text
  ownerID := old.ownerID
  keySetID := set.id
  name := old.name
  secretHash := service.hash call.draw.id.text call.draw.secret
  status := .active
  createdAt := call.now
  revokedAt := none
  graceUntil := none
  replacedByID := none

/-- What the transaction of a rotation hands to the code after its commit. -/
structure Rotation where
  created : AccessKey
  createdDetails : List (DetailKey × GoString)
  rotateDetails : List (DetailKey × GoString)

/-- The writes of a rotation. -/
def replaceKey (service : AccessKeyService) (call : RotateCall) (rotation : Rotation) :
    Program AccessKeyStatement (Except Err Rotation) := do
  match ← AccessKeyRepository.create rotation.created with
  | .error failure => return .error failure
  | .ok () =>
    match ← AccessKeyRepository.markRotated call.ownerID call.id
        rotation.created.id (call.now + service.graceWindow) with
    | .error failure => return .error failure
    | .ok () => return .ok rotation

/-- What a rotation writes and records, if it can be recorded. -/
def planRotation (service : AccessKeyService) (call : RotateCall)
    (old : AccessKey) (set : KeySet) : Except Err Rotation :=
  let newKey := service.newRotatedKey old set call
  match service.keyDetails old.name set.name call.requestID,
      service.rotationDetails old newKey.id set.name call.requestID with
  | .ok createdDetails, .ok rotateDetails => .ok ⟨newKey, createdDetails, rotateDetails⟩
  | _, _ => .error storedKeyUnrecordable

/-- The body of the transaction, once the outgoing key was read. -/
def rotateKey (service : AccessKeyService) (call : RotateCall)
    (old : AccessKey) : Program AccessKeyStatement (Except Err Rotation) :=
  if old.status ≠ .active then pure (.error accessKeyNotFound)
  else do
    match ← keySetIn call.ownerID old.keySetID with
    | .error failure => return .error failure
    | .ok set =>
      match service.planRotation call old set with
      | .error failure => pure (.error failure)
      | .ok rotation => service.replaceKey call rotation

/-- The function given to `WithTx`. -/
def rotateTx (service : AccessKeyService) (call : RotateCall) :
    Program AccessKeyStatement (Except Err Rotation) := do
  match ← AccessKeyRepository.get call.ownerID call.id with
  | .error failure => return .error failure
  | .ok old => service.rotateKey call old

/-- The two records emitted after the commit. -/
def recordRotation (service : AccessKeyService) (call : RotateCall) (rotation : Rotation) :
    Program AccessKeyStatement (Except Err (AccessKey × GoString)) := do
  match ← service.emit call.ownerID .accessKeyCreated rotation.created.id
      rotation.createdDetails call.createdAuditID call.now with
  | .error failure => return .error failure
  | .ok () =>
    match ← service.emit call.ownerID .accessKeyRotated call.id
        rotation.rotateDetails call.rotatedAuditID call.now with
    | .error failure => return .error failure
    | .ok () => return .ok (rotation.created, call.draw.token)

/-- `Rotate`: the checks, the transaction, and the records after it. -/
def rotate (service : AccessKeyService) (call : RotateCall)
    (plan : FaultPlan) (auditFaults : List Bool) (catalog : Catalog) :
    Except Err (AccessKey × GoString) × Catalog :=
  if call.ownerID = [] then
    (.error missingOwner, catalog)
  else if call.id = [] then
    (.error accessKeyNotFound, catalog)
  else if service.graceWindow ≤ 0 then
    (.error (.errorf "accesskey: grace window is not configured" .invalidInput), catalog)
  else
    match transact accessKeyInterpreter driverFault (service.rotateTx call) plan catalog with
    | (.error failure, unchanged) => (.error (hideNotFound failure), unchanged)
    | (.ok rotation, committed) =>
      (service.recordRotation call rotation).run accessKeyInterpreter auditFaults committed

structure RevokeCall where
  ownerID : OwnerID
  id : AccessKeyID
  requestID : GoString
  now : Int
  auditID : AuditRecordID

/-- The part of `Revoke` after the key was read. -/
def revokeKey (service : AccessKeyService) (call : RevokeCall)
    (key : AccessKey) : Program AccessKeyStatement (Except Err Unit) :=
  if key.status = .revoked then pure (.error accessKeyNotFound)
  else
    match service.keyDetails key.name [] call.requestID with
    | .error _ => pure (.error storedKeyUnrecordable)
    | .ok details => do
        match ← AccessKeyRepository.revoke call.ownerID call.id call.now with
        | .error failure => return .error (hideNotFound failure)
        | .ok () =>
          service.emit call.ownerID .accessKeyRevoked call.id details call.auditID call.now

def revoke (service : AccessKeyService) (call : RevokeCall) :
    Program AccessKeyStatement (Except Err Unit) :=
  if call.ownerID = [] then pure (.error missingOwner)
  else if call.id = [] then pure (.error accessKeyNotFound)
  else do
    match ← AccessKeyRepository.get call.ownerID call.id with
    | .error failure => return .error (hideNotFound failure)
    | .ok key => service.revokeKey call key

/-- The loop of `ExpireGrace` over the listed keys. -/
def retire (service : AccessKeyService) (now : Int) (auditID : Nat → AuditRecordID) :
    List AccessKey → Nat → Program AccessKeyStatement (Nat × Except Err Unit)
  | [], retired => pure (retired, .ok ())
  | key :: rest, retired =>
    match service.keyDetails key.name [] [] with
    | .error _ => pure (retired, .error storedKeyUnrecordable)
    | .ok details => do
        match ← AccessKeyRepository.revoke key.ownerID key.id now with
        | .error failure =>
          if failure.is .notFound then
            service.retire now auditID rest retired
          else
            pure (retired, .error (.wrap ("accesskey: retire " ++ textOf key.id) failure))
        | .ok () =>
          match ← service.emitSystem .accessKeyRevoked key.id details (auditID retired) now with
          | .error failure => return (retired, .error failure)
          | .ok () => service.retire now auditID rest (retired + 1)

def expireGrace (service : AccessKeyService) (limit now : Int) (auditID : Nat → AuditRecordID) :
    Program AccessKeyStatement (Nat × Except Err Unit) :=
  if limit < 1 then
    pure (0, .error (.errorf ("accesskey: expire grace batch must be >= 1, " ++
      "got " ++ toString limit) .invalidInput))
  else do
    match ← AccessKeyRepository.listExpiredGrace now limit with
    | .error failure => return (0, .error (.wrap "accesskey: list expired grace" failure))
    | .ok expired => service.retire now auditID expired 0

/-- The states in which a key opens its set; the deadline itself is within the
window. -/
def usable (now : Int) (key : AccessKey) : Bool :=
  match key.status with
  | .active => true
  | .grace => key.graceUntil.any fun deadline => decide (now ≤ deadline)
  | .revoked => false

/-- The checks of `Verify` on the stored key. -/
def admits (service : AccessKeyService) (setID : KeySetID) (id : AccessKeyID)
    (secret : GoString) (now : Int) (key : AccessKey) : Except Err AccessKey :=
  if key.keySetID ≠ setID then .error accessKeyNotFound
  else if usable now key = false then .error accessKeyNotFound
  else if key.secretHash ≠ service.hash id secret then
    .error accessKeyNotFound
  else .ok key

def verify (service : AccessKeyService) (ownerID : OwnerID)
    (setID : KeySetID) (presented : GoString) (now : Int) :
    Program AccessKeyStatement (Except Err AccessKey) :=
  if ownerID = [] ∨ setID = [] then pure (.error accessKeyNotFound)
  else
    match parseToken presented with
    | none => pure (.error accessKeyNotFound)
    | some (id, secret) => do
        match ← AccessKeyRepository.get ownerID id with
        | .error failure => return .error (hideNotFound failure)
        | .ok key => return service.admits setID id secret now key

end AccessKeyService

namespace Sample

def accessKeyService : AccessKeyService where
  emitter := Audit.Sample.silentEmitter
  pepper := List.replicate 32 7
  longEnough := by decide
  graceWindow := 24 * Duration.hour
  positive := by decide

def draw (letter : UInt8) (known : letter ∈ randTextAlphabet) : TokenDraw where
  id := randText letter known
  raw := List.replicate 32 letter
  length_eq := List.length_replicate

end Sample

end Vallet.Publishing
