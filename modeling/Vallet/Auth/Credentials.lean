import Vallet.Domain.Auth
import Vallet.Foundation.Program
import Vallet.Foundation.Table

/-!
# The refresh-credential and owner repositories

Each constructor of `CredentialStatement` is one SQL statement.  Repository
methods are programs over them: a conditional update that matched no row is
classified by a second statement, as in both storage adapters.
-/

namespace Vallet

namespace RefreshCredential

/-- `WHERE id = ? AND owner_id = ?`. -/
def ownedBy (ownerID : OwnerID) (id : RefreshCredentialID)
    (credential : RefreshCredential) : Bool :=
  decide (credential.id = id) && decide (credential.ownerID = ownerID)

/-- `WHERE id = ? AND owner_id = ? AND status = 'active'`. -/
def rotatable (ownerID : OwnerID) (id : RefreshCredentialID)
    (credential : RefreshCredential) : Bool :=
  ownedBy ownerID id credential && decide (credential.status = .active)

def rotated (credential : RefreshCredential) : RefreshCredential :=
  { credential with status := .rotated }

@[simp] theorem id_rotated (credential : RefreshCredential) :
    credential.rotated.id = credential.id := rfl

/-- `WHERE owner_id = ? AND lineage_id = ?`. -/
def inLineage (ownerID : OwnerID) (lineageID : LineageID) (credential : RefreshCredential) : Bool :=
  decide (credential.ownerID = ownerID) && decide (credential.lineageID = lineageID)

/-- `WHERE owner_id = ? AND lineage_id = ? AND status <> 'revoked'`. -/
def revocable (ownerID : OwnerID) (lineageID : LineageID) (credential : RefreshCredential) : Bool :=
  inLineage ownerID lineageID credential && decide (credential.status ≠ .revoked)

def revoked (now : Int) (credential : RefreshCredential) : RefreshCredential :=
  { credential with status := .revoked, revokedAt := some now }

@[simp] theorem id_revoked (now : Int) (credential : RefreshCredential) :
    (credential.revoked now).id = credential.id := rfl

end RefreshCredential

namespace Auth

open Effects Relational

/-- The outcome of an `INSERT`. -/
inductive Inserted where
  | inserted
  | duplicateKey
  | constraintFailed
deriving DecidableEq, Repr

inductive CredentialStatement : Type → Type where
  | selectOwner (id : OwnerID) : CredentialStatement (Option Owner)
  | selectByID (id : RefreshCredentialID) : CredentialStatement (Option RefreshCredential)
  | selectStatus (ownerID : OwnerID) (id : RefreshCredentialID) :
      CredentialStatement (Option CredentialStatus)
  | selectLineage (ownerID : OwnerID) (lineageID : LineageID) :
      CredentialStatement (List RefreshCredential)
  | insert (credential : RefreshCredential) : CredentialStatement Inserted
  | updateRotated (ownerID : OwnerID) (id : RefreshCredentialID) : CredentialStatement Nat
  | updateLineageRevoked (ownerID : OwnerID) (lineageID : LineageID)
      (now : Int) : CredentialStatement Nat

structure CredentialTables where
  owners : Table Owner.id
  refreshCredentials : Table RefreshCredential.id

namespace CredentialTables

/-- `INSERT INTO refresh_credentials`: the primary key first, then the
reference to the owner. -/
def insertCredential (tables : CredentialTables)
    (credential : RefreshCredential) : Inserted × CredentialTables :=
  match tables.refreshCredentials.insert? credential with
  | none => (.duplicateKey, tables)
  | some extended =>
    if (tables.owners.find? credential.ownerID).isNone then
      (.constraintFailed, tables)
    else
      (.inserted, { tables with refreshCredentials := extended })

def rotateCredential (tables : CredentialTables) (ownerID : OwnerID)
    (id : RefreshCredentialID) : CredentialTables :=
  { tables with
    refreshCredentials := tables.refreshCredentials.update
      (RefreshCredential.rotatable ownerID id) RefreshCredential.rotated
      RefreshCredential.id_rotated }

@[simp] theorem rows_rotateCredential (tables : CredentialTables)
    (ownerID : OwnerID) (id : RefreshCredentialID) :
    (tables.rotateCredential ownerID id).refreshCredentials.rows =
      tables.refreshCredentials.rows.map fun credential =>
        if RefreshCredential.rotatable ownerID id credential then
          credential.rotated
        else credential := rfl

def revokeLineageRows (tables : CredentialTables) (ownerID : OwnerID)
    (lineageID : LineageID) (now : Int) : CredentialTables :=
  { tables with
    refreshCredentials := tables.refreshCredentials.update
      (RefreshCredential.revocable ownerID lineageID)
      (RefreshCredential.revoked now) (RefreshCredential.id_revoked now) }

@[simp] theorem rows_revokeLineageRows (tables : CredentialTables)
    (ownerID : OwnerID) (lineageID : LineageID) (now : Int) :
    (tables.revokeLineageRows ownerID lineageID now).refreshCredentials.rows =
      tables.refreshCredentials.rows.map fun credential =>
        if RefreshCredential.revocable ownerID lineageID credential then
          credential.revoked now
        else credential := rfl

variable {credential : RefreshCredential}

/-- An insert succeeds exactly when the identifier is new and the owner is
known. -/
theorem insertCredential_eq_inserted_iff {tables extended : CredentialTables} :
    tables.insertCredential credential = (.inserted, extended) ↔
      (∀ other ∈ tables.refreshCredentials, other.id ≠ credential.id) ∧
      (tables.owners.find? credential.ownerID).isSome ∧
      extended.owners = tables.owners ∧
      extended.refreshCredentials.rows = tables.refreshCredentials.rows ++ [credential] := by
  unfold insertCredential
  cases insertion : tables.refreshCredentials.insert? credential with
  | none =>
    have taken : ¬ ∀ other ∈ tables.refreshCredentials, other.id ≠ credential.id := by
      rw [← Table.insert?_isSome_iff, insertion]
      simp
    constructor
    · intro impossible
      cases impossible
    · rintro ⟨free, _⟩
      exact (taken free).elim
  | some grown =>
    obtain ⟨free, rows⟩ := Table.insert?_eq_some_iff.mp insertion
    cases owner : tables.owners.find? credential.ownerID with
    | none => simp
    | some found =>
      simp only [Option.isNone_some, Bool.false_eq_true, if_false,
        Prod.mk.injEq, true_and, Option.isSome_some]
      constructor
      · rintro rfl
        exact ⟨free, rfl, rows⟩
      · rintro ⟨_, owners, extendedRows⟩
        cases extended
        cases owners
        rw [Table.ext (rows.trans extendedRows.symm)]

/-- `SELECT … WHERE owner_id = ? AND lineage_id = ? ORDER BY id ASC`. -/
def lineageRows (tables : CredentialTables) (ownerID : OwnerID)
    (lineageID : LineageID) : List RefreshCredential :=
  (tables.refreshCredentials.select
    (RefreshCredential.inLineage ownerID lineageID)).insertionSort
      fun left right => left.id ≤ right.id

theorem mem_lineageRows {tables : CredentialTables} {ownerID : OwnerID} {lineageID : LineageID} :
    credential ∈ tables.lineageRows ownerID lineageID ↔
      credential ∈ tables.refreshCredentials ∧
        credential.ownerID = ownerID ∧ credential.lineageID = lineageID := by
  rw [lineageRows, List.mem_insertionSort, Table.mem_select]
  simp [RefreshCredential.inLineage]

end CredentialTables

def CredentialStatement.execute {β : Type} :
    CredentialStatement β → CredentialTables → β × CredentialTables
  | .selectOwner id, tables => (tables.owners.find? id, tables)
  | .selectByID id, tables => (tables.refreshCredentials.find? id, tables)
  | .selectStatus ownerID id, tables =>
    ((tables.refreshCredentials.select
      (RefreshCredential.ownedBy ownerID id)).head?.map (·.status), tables)
  | .selectLineage ownerID lineageID, tables => (tables.lineageRows ownerID lineageID, tables)
  | .insert credential, tables => tables.insertCredential credential
  | .updateRotated ownerID id, tables =>
    ((tables.refreshCredentials.select (RefreshCredential.rotatable ownerID id)).length,
        tables.rotateCredential ownerID id)
  | .updateLineageRevoked ownerID lineageID now, tables =>
    ((tables.refreshCredentials.select (RefreshCredential.revocable ownerID lineageID)).length,
        tables.revokeLineageRows ownerID lineageID now)

/-- Statements executed one at a time against the current tables. -/
def credentialInterpreter : Interpreter CredentialStatement CredentialTables where
  execute := CredentialStatement.execute

/-- What `mapError` makes of a driver error that is neither a missing row nor
a unique violation. -/
def driverFault : Err := .errorf "sqlite" .driver

namespace OwnerRepository

def get (id : OwnerID) : Program CredentialStatement (Except Err Owner) := do
  match ← Program.ask (.selectOwner id) with
  | .error _ => return .error driverFault
  | .ok none => return .error (.of .notFound)
  | .ok (some owner) => return .ok owner

end OwnerRepository

namespace RefreshCredentialRepository

def create (credential : RefreshCredential) : Program CredentialStatement (Except Err Unit) := do
  match ← Program.ask (.insert credential) with
  | .error _ => return .error driverFault
  | .ok .duplicateKey => return .error (.of .conflict)
  | .ok .constraintFailed => return .error driverFault
  | .ok .inserted => return .ok ()

def getByID (id : RefreshCredentialID) :
    Program CredentialStatement (Except Err RefreshCredential) := do
  match ← Program.ask (.selectByID id) with
  | .error _ => return .error driverFault
  | .ok none => return .error (.of .notFound)
  | .ok (some credential) => return .ok credential

def listByLineage (ownerID : OwnerID) (lineageID : LineageID) :
    Program CredentialStatement (Except Err (List RefreshCredential)) := do
  match ← Program.ask (.selectLineage ownerID lineageID) with
  | .error _ => return .error driverFault
  | .ok rows => return .ok rows

/-- The error of a conditional update that changed nothing. -/
def classifyConditional (affected : Nat) (ownerID : OwnerID) (id : RefreshCredentialID) :
    Program CredentialStatement (Except Err Unit) := do
  if affected > 0 then
    return .ok ()
  else
    match ← Program.ask (.selectStatus ownerID id) with
    | .error _ => return .error driverFault
    | .ok none => return .error (.of .notFound)
    | .ok (some _) => return .error (.of .conflict)

def markRotated (ownerID : OwnerID) (id : RefreshCredentialID) :
    Program CredentialStatement (Except Err Unit) := do
  match ← Program.ask (.updateRotated ownerID id) with
  | .error _ => return .error driverFault
  | .ok affected => classifyConditional affected ownerID id

def revokeLineage (ownerID : OwnerID) (lineageID : LineageID) (now : Int) :
    Program CredentialStatement (Except Err Nat) := do
  match ← Program.ask (.updateLineageRevoked ownerID lineageID now) with
  | .error _ => return .error driverFault
  | .ok affected => return .ok affected

end RefreshCredentialRepository

end Auth

end Vallet
