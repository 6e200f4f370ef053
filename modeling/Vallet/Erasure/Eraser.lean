import Vallet.Erasure.Tombstone
import Vallet.Foundation.Interference
import Vallet.Publishing.Catalog

/-!
# Erasing an owner from the audit log

The identifiers of an owner are collected from the rows that belong to them,
the erasure is recorded, and then the log is rewritten: the details first, one
identifier after the other next, and the salt is destroyed last.  Every call
of a repository commits on its own.
-/

namespace Vallet.Erasure

open Audit Auth Effects Publishing Relational

structure OwnerSalt where
  ownerID : OwnerID
  salt : List UInt8
deriving DecidableEq, Repr

/-- The tables erasure reads and writes. -/
structure Archive where
  catalog : Catalog
  refreshCredentials : Table RefreshCredential.id
  linkedIdentities : Table LinkedIdentity.id
  pairings : Table DevicePairing.id
  salts : Table OwnerSalt.ownerID

namespace Archive

def log (archive : Archive) : Table AuditRecord.id :=
  archive.catalog.auditRecords

def withLog (archive : Archive) (log : Table AuditRecord.id) : Archive :=
  { archive with catalog := { archive.catalog with auditRecords := log } }

def withSalts (archive : Archive) (salts : Table OwnerSalt.ownerID) : Archive :=
  { archive with salts := salts }

@[simp] theorem log_withLog (archive : Archive)
    (log : Table AuditRecord.id) : (archive.withLog log).log = log := rfl

end Archive

/-! ## The tables of an owner -/

/-- The owner-scoped tables, in the order they are read. -/
inductive OwnerTable where
  | handles
  | devices
  | publicKeys
  | keySets
  | accessKeys
  | refreshCredentials
  | linkedIdentities
  | pairings
deriving DecidableEq, Repr

namespace OwnerTable

def all : List OwnerTable :=
  [.handles, .devices, .publicKeys, .keySets, .accessKeys,
    .refreshCredentials, .linkedIdentities, .pairings]

theorem mem_all (table : OwnerTable) : table ∈ all := by
  cases table <;> decide

def label : OwnerTable → String
  | .handles => "handles"
  | .devices => "devices"
  | .publicKeys => "public keys"
  | .keySets => "key sets"
  | .accessKeys => "access keys"
  | .refreshCredentials => "refresh credentials"
  | .linkedIdentities => "linked identities"
  | .pairings => "pairings"

end OwnerTable

/-- `ORDER BY id`. -/
def orderByID (ids : List GoString) : List GoString :=
  ids.insertionSort (· ≤ ·)

/-- `ORDER BY created_at, id`. -/
def orderByCreation (rows : List (Int × GoString)) : List GoString :=
  (rows.insertionSort fun left right =>
    left.1 < right.1 ∨ (left.1 = right.1 ∧ left.2 ≤ right.2)).map Prod.snd

/-- The identifiers of the rows one table has for an owner. -/
def Archive.listByOwner (archive : Archive) (ownerID : OwnerID) : OwnerTable → List GoString
  | .handles => orderByCreation
      ((archive.catalog.handles.select fun row =>
        row.ownerID = ownerID).map fun row => (row.createdAt, row.id))
  | .devices => orderByID ((archive.catalog.devices.select fun row =>
        row.ownerID = ownerID).map Device.id)
  | .publicKeys => orderByID ((archive.catalog.publicKeys.select fun row =>
        row.ownerID = ownerID).map PublicKey.id)
  | .keySets => orderByID ((archive.catalog.keySets.select fun row =>
        row.ownerID = ownerID).map KeySet.id)
  | .accessKeys => orderByID ((archive.catalog.accessKeys.select fun row =>
        row.ownerID = ownerID).map AccessKey.id)
  | .refreshCredentials => orderByID ((archive.refreshCredentials.select fun row =>
        row.ownerID = ownerID).map RefreshCredential.id)
  | .linkedIdentities => orderByCreation ((archive.linkedIdentities.select fun row =>
        row.ownerID = ownerID).map fun row => (row.createdAt, row.id))
  | .pairings => orderByCreation ((archive.pairings.select fun row =>
        row.ownerID = ownerID).map fun row => (row.createdAt, row.id))

/-! ## Calls of the repositories -/

/-- One row of `ScrubMetadata`. -/
structure MetadataUpdate where
  id : AuditRecordID
  metadata : List (DetailKey × GoString)
deriving DecidableEq, Repr

/-- The updates one after the other, seen from one record. -/
def applyUpdates (updates : List MetadataUpdate) (record : AuditRecord) : AuditRecord :=
  updates.foldl (fun current update =>
    if current.id = update.id then { current with metadata := update.metadata }
    else current) record

theorem id_applyUpdates (updates : List MetadataUpdate) (record : AuditRecord) :
    (applyUpdates updates record).id = record.id := by
  unfold applyUpdates
  induction updates generalizing record with
  | nil => exact rfl
  | cons update rest induction =>
    rw [List.foldl_cons, induction]
    split <;> exact rfl

inductive ErasureStatement : Type → Type where
  | listByOwner (table : OwnerTable) (ownerID : OwnerID) : ErasureStatement (List GoString)
  | appendAudit (record : AuditRecord) : ErasureStatement Inserted
  | ensureSalt (ownerID : OwnerID) (fresh : List UInt8) : ErasureStatement (List UInt8)
  | recordsForErasure (ids : List GoString) : ErasureStatement (List AuditRecord)
  | scrubMetadata (updates : List MetadataUpdate) : ErasureStatement (Option Nat)
  | pseudonymize (ids : List GoString) (pseudonym : GoString) : ErasureStatement Nat
  | destroySalt (ownerID : OwnerID) : ErasureStatement Unit

/-- `INSERT INTO audit_records`. -/
def Archive.append (record : AuditRecord) (archive : Archive) : Inserted × Archive :=
  match archive.log.insert? record with
  | none => (.duplicateKey, archive)
  | some extended => (.inserted, archive.withLog extended)

/-- Read a salt or mint one, in one transaction. -/
def Archive.ensureSalt (ownerID : OwnerID) (fresh : List UInt8)
    (archive : Archive) : List UInt8 × Archive :=
  match archive.salts.find? ownerID with
  | some stored => (stored.salt, archive)
  | none => (fresh, archive.withSalts (archive.salts.put ⟨ownerID, fresh⟩))

/-- An update without a record identifier fails them all. -/
def Archive.scrubMetadata (updates : List MetadataUpdate)
    (archive : Archive) : Option Nat × Archive :=
  if updates.any fun update => update.id = [] then (none, archive)
  else
    (some (archive.log.select fun record =>
        updates.any fun update => record.id = update.id).length,
      archive.withLog (archive.log.update (fun _ => true)
        (applyUpdates updates) (id_applyUpdates updates)))

def maxPseudonymizeBatch : Nat := 400

/-- The slices of the identifiers that one statement each can bind. -/
def batches (ids : List GoString) : List (List GoString) :=
  (List.range' 0 ((ids.length + maxPseudonymizeBatch - 1) / maxPseudonymizeBatch)
    maxPseudonymizeBatch).map fun start => (ids.drop start).take maxPseudonymizeBatch

def Archive.pseudonymizeBatch (ids : List GoString) (pseudonym : GoString)
    (archive : Archive) : Nat × Archive :=
  ((archive.log.select (names ids)).length,
    archive.withLog (archive.log.update (names ids)
      (pseudonymized ids pseudonym) (id_pseudonymized ids pseudonym)))

/-- All batches commit together. -/
def Archive.pseudonymize (ids : List GoString) (pseudonym : GoString)
    (archive : Archive) : Nat × Archive :=
  (batches ids).foldl (fun total batch =>
    let rewritten := total.2.pseudonymizeBatch batch pseudonym
    (total.1 + rewritten.1, rewritten.2)) (0, archive)

/-- A record that another batch has returned before is left out. -/
def addRecord (out : List AuditRecord) (record : AuditRecord) : List AuditRecord :=
  if out.any fun seen => seen.id = record.id then out else out ++ [record]

def Archive.recordsForErasure (ids : List GoString) (archive : Archive) : List AuditRecord :=
  (batches ids).foldl (fun out batch => (archive.log.select (names batch)).foldl addRecord out) []

namespace ErasureStatement

def execute {β : Type} : ErasureStatement β → Archive → β × Archive
  | .listByOwner table ownerID, archive => (archive.listByOwner ownerID table, archive)
  | .appendAudit record, archive => archive.append record
  | .ensureSalt ownerID fresh, archive => archive.ensureSalt ownerID fresh
  | .recordsForErasure ids, archive => (archive.recordsForErasure ids, archive)
  | .scrubMetadata updates, archive => archive.scrubMetadata updates
  | .pseudonymize ids pseudonym, archive => archive.pseudonymize ids pseudonym
  | .destroySalt ownerID, archive =>
    ((), archive.withSalts (archive.salts.delete fun row =>
      row.ownerID = ownerID))

end ErasureStatement

def erasureInterpreter : Interpreter ErasureStatement Archive where
  execute := ErasureStatement.execute

namespace AuditRepository

/-- Neither an empty pseudonym nor an empty identifier is taken. -/
def pseudonymize (ids : List GoString) (pseudonym : GoString) :
    Program ErasureStatement (Except Err Nat) :=
  if pseudonym = [] then
    pure (.error (.errorf "sqlite: empty pseudonym" .invalidInput))
  else if [] ∈ ids then
    pure (.error (.errorf "sqlite: empty id in pseudonymize set" .invalidInput))
  else if ids = [] then pure (.ok 0)
  else do
    match ← Program.ask (.pseudonymize ids pseudonym) with
    | .error _ => return .error driverFault
    | .ok count => return .ok count

end AuditRepository

namespace OwnerSaltRepository

def ensure (ownerID : OwnerID) (fresh : List UInt8) :
    Program ErasureStatement (Except Err (List UInt8)) :=
  if ownerID = [] then
    pure (.error (.errorf "sqlite: empty owner id" .invalidInput))
  else do
    match ← Program.ask (.ensureSalt ownerID fresh) with
    | .error _ => return .error driverFault
    | .ok salt => return .ok salt

end OwnerSaltRepository

/-! ## The traversal -/

/-- An identifier is added once, and never an empty one. -/
def addID (out : List GoString) (id : GoString) : List GoString :=
  if id = [] ∨ id ∈ out then out else out ++ [id]

namespace Graph

def collectInto (ownerID : OwnerID) (table : OwnerTable) (out : List GoString) :
    Program ErasureStatement (Except Err (List GoString)) := do
  match ← Program.ask (.listByOwner table ownerID) with
  | .error _ => return .error (driverFault.wrap ("erasure: collect " ++ table.label))
  | .ok ids => return .ok (ids.foldl addID out)

def collectTables (ownerID : OwnerID) : List OwnerTable → List GoString →
    Program ErasureStatement (Except Err (List GoString))
  | [], out => pure (.ok out)
  | table :: rest, out => do
      match ← collectInto ownerID table out with
      | .error failure => return .error failure
      | .ok extended => collectTables ownerID rest extended

def collect (ownerID : OwnerID) : Program ErasureStatement (Except Err (List GoString)) :=
  if ownerID = [] then
    pure (.error (.errorf "erasure: empty owner id" .invalidInput))
  else collectTables ownerID OwnerTable.all (addID [] ownerID)

end Graph

/-! ## The eraser -/

/-- What a call that may stop part-way returns: the fields rewritten so far,
and the error if there was one. -/
structure Report where
  rewritten : Nat
  failure : Option Err
deriving DecidableEq, Repr

namespace Eraser

/-- The rows that change. -/
def updatesOf (salt : List UInt8) (records : List AuditRecord) : List MetadataUpdate :=
  records.filterMap fun record =>
    match scrubDetails salt record.metadata with
    | (_, false) => none
    | (metadata, true) => some ⟨record.id, metadata⟩

def scrubMetadata (ids : List GoString) (salt : List UInt8) :
    Program ErasureStatement (Except Err Unit) := do
  match ← Program.ask (.recordsForErasure ids) with
  | .error _ => return .error driverFault
  | .ok records =>
    if updatesOf salt records = [] then return .ok ()
    else
      match ← Program.ask (.scrubMetadata (updatesOf salt records)) with
      | .error _ => return .error driverFault
      | .ok none =>
        return .error (.errorf "sqlite: empty record id in metadata scrub" .invalidInput)
      | .ok (some _) => return .ok ()

/-- The pass over the identifiers. -/
def pseudonymizeAll (salt : List UInt8) : List GoString → Nat → Program ErasureStatement Report
  | [], rewritten => pure ⟨rewritten, none⟩
  | id :: rest, rewritten => do
      match ← AuditRepository.pseudonymize [id] (tombstone salt id) with
      | .error failure => return ⟨rewritten, some (failure.wrap "erasure: pseudonymize")⟩
      | .ok count => pseudonymizeAll salt rest (rewritten + count)

/-- Everything after the salt is known: the details, the identifiers one by
one, and the salt last. -/
def rewriteLog (ownerID : OwnerID) (ids : List GoString)
    (salt : List UInt8) : Program ErasureStatement Report := do
  match ← scrubMetadata ids salt with
  | .error failure => return ⟨0, some (failure.wrap "erasure: scrub metadata")⟩
  | .ok () =>
    match ← pseudonymizeAll salt ids 0 with
    | ⟨rewritten, some failure⟩ => return ⟨rewritten, some failure⟩
    | ⟨rewritten, none⟩ =>
      match ← Program.ask (.destroySalt ownerID) with
      | .error _ => return ⟨rewritten, some (driverFault.wrap "erasure: destroy salt")⟩
      | .ok () => return ⟨rewritten, none⟩

def eraseOwner (ownerID : OwnerID) (ids : List GoString)
    (fresh : List UInt8) : Program ErasureStatement Report :=
  if ownerID = [] then
    pure ⟨0, some (.errorf "erasure: empty owner id" .invalidInput)⟩
  else do
    match ← OwnerSaltRepository.ensure ownerID fresh with
    | .error failure => return ⟨0, some (failure.wrap "erasure: load salt")⟩
    | .ok salt => rewriteLog ownerID ids salt

end Eraser

/-- A call of the owner eraser, with the salt it would mint and the identifier
and time of its record. -/
structure Call where
  fresh : List UInt8
  auditID : AuditRecordID
  now : Int
deriving DecidableEq, Repr

structure OwnerEraser where
  emitter : Emitter

namespace OwnerEraser

def event (ownerID : OwnerID) : Event where
  actorType := .system
  actorID := []
  action := .ownerErased
  targetType := .owner
  targetID := ownerID
  details := []

def record (eraser : OwnerEraser) (ownerID : OwnerID) (call : Call) :
    Program ErasureStatement (Except Err Unit) := do
  match ← eraser.emitter.emit .appendAudit (event ownerID) call.auditID call.now with
  | .error failure => return .error (failure.wrap "erasure: record owner erasure")
  | .ok () => return .ok ()

def eraseOwner (eraser : OwnerEraser) (ownerID : OwnerID) (call : Call) :
    Program ErasureStatement Report :=
  if ownerID = [] then
    pure ⟨0, some (.errorf "erasure: empty owner id" .invalidInput)⟩
  else do
    match ← Graph.collect ownerID with
    | .error failure => return ⟨0, some (failure.wrap "erasure: collect owner graph")⟩
    | .ok ids =>
      match ← eraser.record ownerID call with
      | .error failure => return ⟨0, some failure⟩
      | .ok () => Eraser.eraseOwner ownerID ids call.fresh

end OwnerEraser

/-! ## What the batches read -/

theorem Archive.pseudonymize_singleton (archive : Archive) (id pseudonym : GoString) :
    (archive.pseudonymize [id] pseudonym).2 = (archive.pseudonymizeBatch [id] pseudonym).2 := by
  simp [pseudonymize, batches, maxPseudonymizeBatch]

theorem mem_batches {ids : List GoString} {id : GoString} :
    (∃ batch ∈ batches ids, id ∈ batch) ↔ id ∈ ids := by
  unfold batches maxPseudonymizeBatch
  constructor
  · rintro ⟨_, listed, member⟩
    obtain ⟨start, _, rfl⟩ := List.mem_map.mp listed
    exact List.mem_of_mem_drop (List.mem_of_mem_take member)
  · intro member
    obtain ⟨position, found⟩ := List.mem_iff_getElem?.mp member
    obtain ⟨inRange, _⟩ := List.getElem?_eq_some_iff.mp found
    refine ⟨_, List.mem_map.mpr ⟨400 * (position / 400), ?_, rfl⟩,
      List.mem_iff_getElem?.mpr ⟨position % 400, ?_⟩⟩
    · exact List.mem_range'.mpr ⟨position / 400, by omega, by omega⟩
    · rw [List.getElem?_take_of_lt (Nat.mod_lt _ (by decide)), List.getElem?_drop,
        Nat.div_add_mod, found]

theorem mem_foldl_addRecord {log : Table AuditRecord.id} {out rows : List AuditRecord}
    {record : AuditRecord} (read : ∀ seen ∈ out, seen ∈ log) (stored : ∀ row ∈ rows, row ∈ log) :
    record ∈ rows.foldl addRecord out ↔ record ∈ out ∨ record ∈ rows := by
  induction rows generalizing out with
  | nil => simp
  | cons row rest induction =>
    obtain ⟨inLog, later⟩ := List.forall_mem_cons.mp stored
    have added : ∀ other, other ∈ addRecord out row ↔ other ∈ out ∨ other = row := by
      intro other
      unfold addRecord
      split
      · rename_i found
        obtain ⟨seen, listed, sameID⟩ := List.any_eq_true.mp found
        cases Table.eq_of_key_eq (read seen listed) inLog (of_decide_eq_true sameID)
        exact ⟨.inl, fun either => either.elim id fun same => same ▸ listed⟩
      · simp
    have readOn : ∀ seen ∈ addRecord out row, seen ∈ log := by
      intro seen listed
      rcases (added seen).mp listed with old | rfl
      · exact read seen old
      · exact inLog
    rw [List.foldl_cons, induction readOn later, added, List.mem_cons, or_assoc]

/-- The batches together return the records that name an identifier. -/
theorem Archive.mem_recordsForErasure {archive : Archive} {ids : List GoString}
    {record : AuditRecord} :
    record ∈ archive.recordsForErasure ids ↔ record ∈ archive.log ∧ names ids record = true := by
  have stored : ∀ row ∈ (batches ids).flatMap fun batch => archive.log.select (names batch),
      row ∈ archive.log := by
    intro row listed
    obtain ⟨batch, _, selected⟩ := List.mem_flatMap.mp listed
    exact (Table.mem_select.mp selected).1
  rw [recordsForErasure, ← List.foldl_flatMap, mem_foldl_addRecord (by simp) stored]
  simp only [List.not_mem_nil, false_or, List.mem_flatMap, Table.mem_select, names_eq_true_iff,
    ← @mem_batches ids]
  constructor
  · rintro ⟨batch, listed, inLog, actor | target⟩
    · exact ⟨inLog, .inl ⟨batch, listed, actor⟩⟩
    · exact ⟨inLog, .inr ⟨batch, listed, target⟩⟩
  · rintro ⟨inLog, ⟨batch, listed, actor⟩ | ⟨batch, listed, target⟩⟩
    · exact ⟨batch, listed, inLog, .inl actor⟩
    · exact ⟨batch, listed, inLog, .inr target⟩

/-! ## What is collected -/

theorem mem_addID {out : List GoString} {id other : GoString} :
    other ∈ addID out id ↔ other ∈ out ∨ (other = id ∧ id ≠ []) := by
  unfold addID
  split
  · rename_i skipped
    constructor
    · exact .inl
    rintro (member | ⟨rfl, filled⟩)
    · exact member
    · rcases skipped with empty | member
      · exact absurd empty filled
      · exact member
  · rename_i added
    obtain ⟨filled, _⟩ := not_or.mp added
    simp [filled]

theorem mem_foldl_addID {ids out : List GoString} {other : GoString} :
    other ∈ ids.foldl addID out ↔ other ∈ out ∨ (other ∈ ids ∧ other ≠ []) := by
  induction ids generalizing out with
  | nil => simp
  | cons id rest induction =>
    rw [List.foldl_cons, induction, mem_addID, List.mem_cons]
    constructor
    · rintro ((old | ⟨rfl, filled⟩) | ⟨later, filled⟩)
      · exact .inl old
      · exact .inr ⟨.inl rfl, filled⟩
      · exact .inr ⟨.inr later, filled⟩
    · rintro (old | ⟨rfl | later, filled⟩)
      · exact .inl (.inl old)
      · exact .inl (.inr ⟨rfl, filled⟩)
      · exact .inr ⟨later, filled⟩

/-- The identifiers a traversal adds, table after table. -/
def Archive.identifiersFrom (archive : Archive) (ownerID : OwnerID)
    (tables : List OwnerTable) (out : List GoString) : List GoString :=
  tables.foldl (fun found table =>
    (archive.listByOwner ownerID table).foldl addID found) out

/-- What `Collect` returns for an owner. -/
def Archive.identifiers (archive : Archive) (ownerID : OwnerID) : List GoString :=
  archive.identifiersFrom ownerID OwnerTable.all (addID [] ownerID)

theorem Archive.mem_identifiersFrom {archive : Archive} {ownerID : OwnerID}
    {tables : List OwnerTable} {out : List GoString} {id : GoString} :
    id ∈ archive.identifiersFrom ownerID tables out ↔
      id ∈ out ∨ (id ≠ [] ∧ ∃ table ∈ tables, id ∈ archive.listByOwner ownerID table) := by
  unfold identifiersFrom
  induction tables generalizing out with
  | nil => simp
  | cons table rest induction =>
    rw [List.foldl_cons, induction, mem_foldl_addID]
    simp only [List.exists_mem_cons_iff]
    tauto

theorem Archive.mem_identifiers {archive : Archive} {ownerID : OwnerID} {id : GoString} :
    id ∈ archive.identifiers ownerID ↔
      id ≠ [] ∧ (id = ownerID ∨ ∃ table, id ∈ archive.listByOwner ownerID table) := by
  rw [identifiers, mem_identifiersFrom, mem_addID]
  constructor
  · rintro ((none | ⟨rfl, filled⟩) | ⟨filled, table, _, listed⟩)
    · cases none
    · exact ⟨filled, .inl rfl⟩
    · exact ⟨filled, .inr ⟨table, listed⟩⟩
  · rintro ⟨filled, rfl | ⟨table, listed⟩⟩
    · exact .inl (.inr ⟨rfl, filled⟩)
    · exact .inr ⟨filled, table, OwnerTable.mem_all table, listed⟩

end Vallet.Erasure
