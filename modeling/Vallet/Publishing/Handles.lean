import Vallet.Foundation.ReadCommitted
import Vallet.Publishing.Catalog

/-!
# Handles

A handle is an owner's public name.  `Rename` leaves the old name behind as a
quarantined hold of the same owner and takes the new one, either a name nobody
has or one of the owner's own holds; the sweep `ReleaseExpired` gives up holds
whose quarantine is over.  Names are also kept apart by their skeletons, which
`Recomputer.Run` brings up to date at startup.
-/

namespace Vallet.Handle

/-- The unique indexes: `name`, `name_fold`, and `owner_id` of active rows. -/
def clashes (left right : Handle) : Bool :=
  decide (left.name = right.name) || decide (left.nameFold = right.nameFold) ||
    (decide (left.ownerID = right.ownerID) && decide (left.state = .active) &&
      decide (right.state = .active))

theorem clashes_comm (left right : Handle) : left.clashes right = right.clashes left := by
  simp only [clashes, eq_comm, Bool.and_right_comm]

/-- `WHERE id = ? AND owner_id = ?`. -/
def ownedBy (ownerID : OwnerID) (id : HandleID) (handle : Handle) : Bool :=
  decide (handle.id = id) && decide (handle.ownerID = ownerID)

/-- `WHERE state = 'quarantined' AND quarantine_until IS NOT NULL AND
quarantine_until <= ?`. -/
def quarantineExpired (now : Int) (handle : Handle) : Bool :=
  decide (handle.state = .quarantined) &&
    handle.quarantineUntil.any fun deadline => decide (deadline ≤ now)

def named (id : HandleID) (handle : Handle) : Bool := decide (handle.id = id)

def releasable (id : HandleID) (now : Int) (handle : Handle) : Bool :=
  named id handle && quarantineExpired now handle

/-- The columns `Update` writes, taken from the given handle. -/
def written (values : Handle) (handle : Handle) : Handle :=
  { handle with
    state := values.state
    quarantineUntil := values.quarantineUntil
    flaggedForReview := values.flaggedForReview
    quarantineOnRelease := values.quarantineOnRelease
    updatedAt := values.updatedAt }

def folded (fold : GoString) (version now : Int) (handle : Handle) : Handle :=
  { handle with nameFold := fold, foldVersion := version, updatedAt := now }

def quarantinedLookalike (now : Int) (handle : Handle) : Handle :=
  { handle with
    state := .quarantined
    quarantineUntil := none
    flaggedForReview := true
    updatedAt := now }

/-- The old claim as the tombstone it becomes. -/
def vacated (deadline now : Int) (handle : Handle) : Handle :=
  { handle with
    state := .quarantined
    quarantineUntil := some deadline
    updatedAt := now }

def reactivated (now : Int) (handle : Handle) : Handle :=
  { handle with
    state := .active
    quarantineUntil := none
    updatedAt := now }

@[simp] theorem id_written (values handle : Handle) :
    (written values handle).id = handle.id := rfl

@[simp] theorem id_folded (fold : GoString) (version now : Int)
    (handle : Handle) : (handle.folded fold version now).id = handle.id := rfl

@[simp] theorem id_quarantinedLookalike (now : Int) (handle : Handle) :
    (handle.quarantinedLookalike now).id = handle.id := rfl

/-- `ORDER BY created_at ASC, id ASC`. -/
def older (left right : Handle) : Prop :=
  left.createdAt < right.createdAt ∨
    (left.createdAt = right.createdAt ∧ left.id ≤ right.id)

instance : DecidableRel older := fun _ _ =>
  inferInstanceAs (Decidable (_ ∨ _))

end Vallet.Handle

namespace Vallet.Publishing

open Audit Auth Effects Relational

/-! ## Statements -/

inductive HandleStatement : Type → Type where
  | selectActiveByOwner (ownerID : OwnerID) : HandleStatement (Option Handle)
  | selectByOwner (ownerID : OwnerID) : HandleStatement (List Handle)
  | selectByName (name : GoString) : HandleStatement (Option Handle)
  | selectName (ownerID : OwnerID) (id : HandleID) :
      HandleStatement (Option GoString)
  | selectExpiredQuarantine (now : Int) (limit : Nat) :
      HandleStatement (List Handle)
  | selectFoldStale (version : Int) : HandleStatement Bool
  | selectStaleFolds (version : Int) : HandleStatement (List Handle)
  | updateHandle (ownerID : OwnerID) (id : HandleID) (values : Handle) :
      HandleStatement Updated
  | updateFold (id : HandleID) (fold : GoString) (version now : Int) :
      HandleStatement Updated
  | updateLookalike (id : HandleID) (now : Int) : HandleStatement Updated
  | insertHandle (handle : Handle) : HandleStatement Inserted
  | deleteExpired (id : HandleID) (now : Int) : HandleStatement Nat
  | appendAudit (record : AuditRecord) : HandleStatement Inserted

namespace Catalog

def insertHandle (handle : Handle) (catalog : Catalog) : Inserted × Catalog :=
  match catalog.handles.insert? handle with
  | none => (.duplicateKey, catalog)
  | some extended =>
    if ¬ extended.Unique Handle.clashes then (.duplicateKey, catalog)
    else if (catalog.owners.find? handle.ownerID).isNone then
      (.constraintFailed, catalog)
    else (.inserted, { catalog with handles := extended })

/-- An update that the unique indexes of the handles must accept. -/
def updateHandles (chosen : Handle → Bool) (change : Handle → Handle)
    (keepsKey : ∀ row, (change row).id = row.id) (catalog : Catalog) : Updated × Catalog :=
  if (catalog.handles.update chosen change keepsKey).Unique
      Handle.clashes then
    (some (catalog.handles.select chosen).length,
      { catalog with handles := catalog.handles.update chosen change keepsKey })
  else (none, catalog)

def activeHandle (catalog : Catalog) (ownerID : OwnerID) : Option Handle :=
  (catalog.handles.select fun handle => decide (handle.ownerID = ownerID) &&
    decide (handle.state = .active)).head?

def handlesOf (catalog : Catalog) (ownerID : OwnerID) : List Handle :=
  (catalog.handles.select fun handle =>
    decide (handle.ownerID = ownerID)).insertionSort Handle.older

def handleNamed (catalog : Catalog) (name : GoString) : Option Handle :=
  (catalog.handles.select fun handle => decide (handle.name = name)).head?

/-- `ORDER BY quarantine_until ASC, id ASC LIMIT ?`. -/
def expiredQuarantine (catalog : Catalog) (now : Int) (limit : Nat) : List Handle :=
  ((catalog.handles.select (Handle.quarantineExpired now)).insertionSort
    fun left right =>
      left.quarantineUntil.getD 0 < right.quarantineUntil.getD 0 ∨
        (left.quarantineUntil.getD 0 = right.quarantineUntil.getD 0 ∧
          left.id ≤ right.id)).take limit

def staleFolds (catalog : Catalog) (version : Int) : List Handle :=
  (catalog.handles.select fun handle =>
    decide (handle.foldVersion ≠ version)).insertionSort Handle.older

end Catalog

def HandleStatement.execute {β : Type} :
    HandleStatement β → Catalog → β × Catalog
  | .selectActiveByOwner ownerID, catalog => (catalog.activeHandle ownerID, catalog)
  | .selectByOwner ownerID, catalog => (catalog.handlesOf ownerID, catalog)
  | .selectByName name, catalog => (catalog.handleNamed name, catalog)
  | .selectName ownerID id, catalog =>
    ((catalog.handles.select (Handle.ownedBy ownerID id)).head?.map (·.name), catalog)
  | .selectExpiredQuarantine now limit, catalog => (catalog.expiredQuarantine now limit, catalog)
  | .selectFoldStale version, catalog =>
    ((catalog.handles.select fun handle =>
      decide (handle.foldVersion ≠ version)).head?.isSome, catalog)
  | .selectStaleFolds version, catalog => (catalog.staleFolds version, catalog)
  | .updateHandle ownerID id values, catalog =>
    catalog.updateHandles (Handle.ownedBy ownerID id)
      (Handle.written values) (Handle.id_written values)
  | .updateFold id fold version now, catalog =>
    catalog.updateHandles (Handle.named id)
      (Handle.folded fold version now) (Handle.id_folded fold version now)
  | .updateLookalike id now, catalog =>
    catalog.updateHandles (Handle.named id)
      (Handle.quarantinedLookalike now) (Handle.id_quarantinedLookalike now)
  | .insertHandle handle, catalog => catalog.insertHandle handle
  | .deleteExpired id now, catalog =>
    ((catalog.handles.select (Handle.releasable id now)).length, { catalog with
        handles := catalog.handles.delete (Handle.releasable id now) })
  | .appendAudit record, catalog => catalog.appendAudit record

def handleInterpreter : Interpreter HandleStatement Catalog where
  execute := HandleStatement.execute

/-! ## Repository -/

/-- What the services of handles are built with: the revision of the look-alike
tables and the skeleton they give a name. -/
structure FoldTable where
  skeleton : GoString → GoString
  version : Int

/-- A handle as it is stored under a revision of the tables. -/
def FoldTable.stored (folds : FoldTable) (handle : Handle) : Handle :=
  { handle with
    nameFold := folds.skeleton handle.name
    foldVersion := folds.version }

namespace HandleRepository

def refuseIfFoldStale (folds : FoldTable) :
    Program HandleStatement (Except Err Unit) := do
  match ← Program.ask (.selectFoldStale folds.version) with
  | .error _ => return .error driverFault
  | .ok true => return .error (.errorf "sqlite: handle fold table stale" .foldStale)
  | .ok false => return .ok ()

def register (folds : FoldTable) (handle : Handle) :
    Program HandleStatement (Except Err Unit) := do
  match ← refuseIfFoldStale folds with
  | .error failure => return .error failure
  | .ok () =>
    match ← Program.ask (.insertHandle (folds.stored handle)) with
    | .error _ => return .error driverFault
    | .ok .duplicateKey => return .error (.of .conflict)
    | .ok .constraintFailed => return .error driverFault
    | .ok .inserted => return .ok ()

def getActiveByOwner (ownerID : OwnerID) :
    Program HandleStatement (Except Err Handle) := do
  let reply ← Program.ask (.selectActiveByOwner ownerID)
  return singleRow reply

def listByOwner (ownerID : OwnerID) :
    Program HandleStatement (Except Err (List Handle)) := do
  let reply ← Program.ask (.selectByOwner ownerID)
  return allRows reply

def getByName (name : GoString) :
    Program HandleStatement (Except Err Handle) := do
  let reply ← Program.ask (.selectByName name)
  return singleRow reply

def update (handle : Handle) : Program HandleStatement (Except Err Unit) := do
  match ← Program.ask (.selectName handle.ownerID handle.id) with
  | .error _ => return .error driverFault
  | .ok none => return .error (.of .notFound)
  | .ok (some current) =>
    if current ≠ handle.name then pure (.error (.of .immutable))
    else do
      let reply ← Program.ask (.updateHandle handle.ownerID handle.id handle)
      return requireUpdated reply

def listExpiredQuarantine (now limit : Int) : Program HandleStatement (Except Err (List Handle)) :=
  if limit ≤ 0 then
    pure (.error (.errorf "sqlite: list limit must be positive" .invalidInput))
  else do
    let reply ← Program.ask (.selectExpiredQuarantine now limit.toNat)
    return allRows reply

def release (id : HandleID) (now : Int) :
    Program HandleStatement (Except Err Unit) := do
  let reply ← Program.ask (.deleteExpired id now)
  return requireUpdated (reply.map some)

def listStaleFolds (version : Int) :
    Program HandleStatement (Except Err (List Handle)) := do
  let reply ← Program.ask (.selectStaleFolds version)
  return allRows reply

def setFold (id : HandleID) (fold : GoString) (version now : Int) :
    Program HandleStatement (Except Err Unit) := do
  let reply ← Program.ask (.updateFold id fold version now)
  return requireUpdated reply

def quarantineLookalike (id : HandleID) (now : Int) :
    Program HandleStatement (Except Err Unit) := do
  let reply ← Program.ask (.updateLookalike id now)
  return requireUpdated reply

end HandleRepository

/-! ## The service -/

/-- The guard's verdict on a name does not depend on the store. -/
structure HandleService where
  emitter : Emitter
  guard : GoString → Except Err Unit
  folds : FoldTable
  maxNames : Nat
  quarantine : Int
  held : 0 < maxNames
  lasting : 0 < quarantine

def handleNotFound : Err := .errorf "handle: not found" .notFound

def nameTaken : Err := .errorf "handle: name is not available" .conflict

def tooManyNames : Err := .errorf "handle: too many held names" .limitExceeded

def nameUnrecordable : Err :=
  .errorf "handle: name cannot be recorded" .invalidInput

def mapHandleErr (failure : Err) : Err :=
  if failure.is .conflict then nameTaken
  else if failure.is .notFound then handleNotFound
  else failure

/-- The name is one of the owner's own quarantined holds. -/
def reclaims (held : List Handle) (name : GoString) : Bool :=
  held.any fun handle =>
    decide (handle.name = name) && decide (handle.state = .quarantined)

structure RenameCall where
  ownerID : OwnerID
  name : GoString
  requestID : GoString
  /-- The first reading of the clock. -/
  now : Int
  /-- The second one, which the quarantine is counted from. -/
  vacatedAt : Int
  id : RandText
  auditID : AuditRecordID

namespace HandleService

variable (service : HandleService)

def handleDetails (name requestID : GoString) : Except Err (List (DetailKey × GoString)) :=
  match service.emitter.setUnlessEmpty .requestID requestID
      (service.emitter.set .handle name (.ok [])) with
  | .error _ => .error nameUnrecordable
  | .ok pairs => .ok pairs

def renameDetails (old new requestID : GoString) : Except Err (List (DetailKey × GoString)) :=
  match service.handleDetails new requestID with
  | .error failure => .error failure
  | .ok pairs =>
    match service.emitter.set .toName new (service.emitter.set .fromName old (.ok pairs)) with
    | .error _ => .error nameUnrecordable
    | .ok all => .ok all

def emitTx (action : AuditAction) (ownerID : OwnerID) (id : HandleID)
    (details : List (DetailKey × GoString)) (auditID : AuditRecordID)
    (now : Int) : Program HandleStatement (Except Err Unit) :=
  service.emitter.emit .appendAudit {
    actorType := .owner
    actorID := ownerID
    action := action
    targetType := .handle
    targetID := id
    details := details } auditID now

end HandleService

/-- A fresh claim; the repository adds the two columns of the fold. -/
def RenameCall.fresh (call : RenameCall) : Handle where
  id := call.id.text
  ownerID := call.ownerID
  name := call.name
  state := .active
  quarantineUntil := none
  flaggedForReview := false
  quarantineOnRelease := false
  createdAt := call.now
  updatedAt := call.now
  nameFold := []
  foldVersion := 0

namespace HandleService

variable (service : HandleService)

/-- `claim`, with whether a hold was taken back. -/
def claim (call : RenameCall) :
    Program HandleStatement (Except Err (Handle × Bool)) := do
  match ← HandleRepository.getByName call.name with
  | .ok existing =>
    if existing.ownerID ≠ call.ownerID ∨ existing.state ≠ .quarantined then
      pure (.error nameTaken)
    else do
      match ← HandleRepository.update (Handle.reactivated call.now existing) with
      | .error failure => return .error failure
      | .ok () => return .ok (Handle.reactivated call.now existing, true)
  | .error failure =>
    if failure.is .notFound then do
      match ← HandleRepository.register service.folds call.fresh with
      | .error failure => return .error failure
      | .ok () => return .ok (call.fresh, false)
    else pure (.error failure)

/-- The writes of a rename, once it is known to be allowed. -/
def move (call : RenameCall) (old : Handle) (details : List (DetailKey × GoString)) :
    Program HandleStatement (Except Err Handle) := do
  match ← HandleRepository.update (Handle.vacated
      (call.vacatedAt + service.quarantine) call.now old) with
  | .error failure => return .error failure
  | .ok () =>
    match ← service.claim call with
    | .error failure => return .error failure
    | .ok (claimed, reclaim) =>
      match ← service.emitTx (if reclaim then .handleReclaimed else .handleRenamed)
          call.ownerID claimed.id details call.auditID call.now with
      | .error failure => return .error failure
      | .ok () => return .ok claimed

/-- The checks of a rename on what it has read. -/
def refusal (call : RenameCall) (held : List Handle) : Option Err :=
  if reclaims held call.name = false ∧ held.length ≥ service.maxNames then
    some tooManyNames
  else none

/-- The function given to `WithTx`. -/
def renameTx (call : RenameCall) :
    Program HandleStatement (Except Err Handle) := do
  match ← HandleRepository.getActiveByOwner call.ownerID with
  | .error failure => return .error failure
  | .ok old =>
    if old.name = call.name then pure (.error nameTaken)
    else do
      match ← HandleRepository.listByOwner call.ownerID with
      | .error failure => return .error failure
      | .ok held =>
        match service.refusal call held,
            service.renameDetails old.name call.name call.requestID with
        | some failure, _ => pure (.error failure)
        | none, .error failure => pure (.error failure)
        | none, .ok details => service.move call old details

def rename (call : RenameCall) (plan : FaultPlan) (catalog : Catalog) :
    Except Err Handle × Catalog :=
  if call.ownerID = [] then
    (.error (.errorf "handle: missing owner" .invalidInput), catalog)
  else
    match service.guard call.name with
    | .error failure => (.error failure, catalog)
    | .ok () =>
      match transact handleInterpreter driverFault (service.renameTx call) plan catalog with
      | (.error failure, unchanged) => (.error (mapHandleErr failure), unchanged)
      | (.ok claimed, committed) => (.ok claimed, committed)

/-- The transaction that releases one hold of the list. -/
def releaseTx (handle : Handle) (now : Int)
    (details : List (DetailKey × GoString)) (auditID : AuditRecordID)
    (recordedAt : Int) : Program HandleStatement (Except Err Unit) := do
  match ← HandleRepository.release handle.id now with
  | .error failure => return .error failure
  | .ok () => service.emitTx .handleReleased handle.ownerID handle.id details auditID recordedAt

/-- What the transactions of a sweep meet, one after another. -/
structure SweepDraws where
  auditID : AuditRecordID
  recordedAt : Int
  plan : FaultPlan

/-- The loop of `ReleaseExpired` over the listed holds. -/
def releaseEach (service : HandleService) (now : Int) :
    List (Handle × SweepDraws) → Nat → Catalog →
      (Nat × Except Err Unit) × Catalog
  | [], released, catalog => ((released, .ok ()), catalog)
  | (handle, draws) :: rest, released, catalog =>
    match service.handleDetails handle.name [] with
    | .error failure => ((released, .error failure), catalog)
    | .ok details =>
      match transact handleInterpreter driverFault
          (service.releaseTx handle now details draws.auditID
            draws.recordedAt) draws.plan catalog with
      | (.error failure, unchanged) =>
        if failure.is .notFound then
          service.releaseEach now rest released unchanged
        else
          ((released, .error (failure.wrap ("handle: release " ++ textOf handle.id))), unchanged)
      | (.ok (), committed) => service.releaseEach now rest (released + 1) committed

/-- `ReleaseExpired`, with what it draws for the holds it lists. -/
def releaseExpired (limit now : Int) (faulted : Bool)
    (draws : Handle → SweepDraws) (catalog : Catalog) : (Nat × Except Err Unit) × Catalog :=
  match (HandleRepository.listExpiredQuarantine now limit).run
      handleInterpreter [faulted] catalog with
  | (.error failure, unchanged) =>
    ((0, .error (.wrap "handle: list expired quarantine" failure)), unchanged)
  | (.ok expired, unchanged) =>
    service.releaseEach now (expired.map fun handle =>
      (handle, draws handle)) 0 unchanged

end HandleService

/-! ## The recompute pass -/

structure Recomputer where
  emitter : Emitter
  folds : FoldTable

/-- A fold that is nobody's skeleton. -/
def foldPlaceholder (id : HandleID) : GoString := utf8 "!" ++ id

/-- The skeletons in the order in which they are first seen. -/
def FoldTable.order (folds : FoldTable) (stale : List Handle) : List GoString :=
  (stale.map fun handle => folds.skeleton handle.name).eraseDups

def FoldTable.group (folds : FoldTable) (stale : List Handle)
    (skeleton : GoString) : List Handle :=
  stale.filter fun handle => decide (folds.skeleton handle.name = skeleton)

namespace Recomputer

variable (recomputer : Recomputer) (auditID : HandleID → AuditRecordID) (now : Int)

/-- Go on as long as the programs succeed. -/
def each {α : Type} (body : α → Program HandleStatement (Except Err Unit)) :
    List α → Program HandleStatement (Except Err Unit)
  | [] => pure (.ok ())
  | first :: rest => do
      match ← body first with
      | .error failure => return .error failure
      | .ok () => each body rest

def emitQuarantine (loser : Handle) (survivorName : GoString) :
    Program HandleStatement (Except Err Unit) :=
  match recomputer.emitter.set .reason
      (utf8 "quarantined as a look-alike of an existing handle")
      (recomputer.emitter.set .toName survivorName
        (recomputer.emitter.set .handle loser.name (.ok []))) with
  | .error _ =>
    pure (.error (.errorf "handle: quarantine cannot be recorded"
      .invalidInput))
  | .ok details =>
    recomputer.emitter.emit .appendAudit {
      actorType := .system
      actorID := []
      action := .handleQuarantined
      targetType := .handle
      targetID := loser.id
      details := details } (auditID loser.id) now

def demote (survivorName : GoString) (loser : Handle) :
    Program HandleStatement (Except Err Unit) := do
  match ← HandleRepository.quarantineLookalike loser.id now with
  | .error failure => return .error failure
  | .ok () => recomputer.emitQuarantine auditID now loser survivorName

/-- The oldest of a group takes the skeleton, the others are quarantined. -/
def settleGroup (group : GoString × List Handle) : Program HandleStatement (Except Err Unit) :=
  match group.2 with
  | [] => pure (.ok ())
  | survivor :: losers => do
      match ← HandleRepository.setFold survivor.id group.1 recomputer.folds.version now with
      | .error failure => return .error failure
      | .ok () => each (recomputer.demote auditID now survivor.name) losers

def settle (stale : List Handle) :
    Program HandleStatement (Except Err Unit) := do
  match ← each (fun handle => HandleRepository.setFold handle.id
      (foldPlaceholder handle.id) recomputer.folds.version now) stale with
  | .error failure => return .error failure
  | .ok () =>
    each (recomputer.settleGroup auditID now) ((recomputer.folds.order stale).map fun skeleton =>
        (skeleton, recomputer.folds.group stale skeleton))

/-- The function given to `WithTx`. -/
def recomputeTx : Program HandleStatement (Except Err Unit) := do
  match ← HandleRepository.listStaleFolds recomputer.folds.version with
  | .error failure => return .error failure
  | .ok stale => recomputer.settle auditID now stale

/-- `Run`: a look whether anything is stale, and the pass as one
transaction. -/
def run (faulted : Bool) (plan : FaultPlan) (catalog : Catalog) : Except Err Unit × Catalog :=
  match (HandleRepository.listStaleFolds recomputer.folds.version).run
      handleInterpreter [faulted] catalog with
  | (.error failure, unchanged) => (.error (.wrap "handle: list stale folds" failure), unchanged)
  | (.ok [], unchanged) => (.ok (), unchanged)
  | (.ok (_ :: _), unchanged) =>
    match transact handleInterpreter driverFault
        (recomputer.recomputeTx auditID now) plan unchanged with
    | (.error failure, undone) => (.error (.wrap "handle: recompute folds" failure), undone)
    | (.ok (), committed) => (.ok (), committed)

end Recomputer

end Vallet.Publishing
