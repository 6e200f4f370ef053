import Vallet.Publishing.Audit

/-!
# The publishing tables

All publishing services share one store.  Each service has its own family of
statements over these tables and changes only its own part of them; what one
of them writes another one reads.
-/

namespace Vallet.KeySet

/-- `WHERE id = ? AND owner_id = ?`. -/
def ownedBy (ownerID : OwnerID) (id : KeySetID) (set : KeySet) : Bool :=
  decide (set.id = id) && decide (set.ownerID = ownerID)

end Vallet.KeySet

namespace Vallet.Publishing

open Auth Relational

structure Catalog where
  owners : Table Owner.id
  handles : Table Handle.id
  keySets : Table KeySet.id
  keySetMembers : Table KeySetMembership.key
  devices : Table Device.id
  publicKeys : Table PublicKey.id
  accessKeys : Table AccessKey.id
  auditRecords : Table AuditRecord.id

/-- `SELECT … FROM key_sets WHERE id = ? AND owner_id = ?`. -/
def Catalog.findKeySet (catalog : Catalog) (ownerID : OwnerID) (id : KeySetID) : Option KeySet :=
  (catalog.keySets.select (KeySet.ownedBy ownerID id)).head?

/-- `INSERT INTO audit_records`. -/
def Catalog.appendAudit (record : AuditRecord) (catalog : Catalog) : Inserted × Catalog :=
  match catalog.auditRecords.insert? record with
  | none => (.duplicateKey, catalog)
  | some extended => (.inserted, { catalog with auditRecords := extended })

theorem Catalog.appendAudit_cases (record : AuditRecord) (catalog : Catalog) :
    ((catalog.appendAudit record).1 ≠ .inserted ∧ (catalog.appendAudit record).2 = catalog) ∨
    ∃ extended, catalog.appendAudit record =
        (.inserted, { catalog with auditRecords := extended }) ∧
      catalog.auditRecords.insert? record = some extended := by
  unfold Catalog.appendAudit
  split
  · exact .inl ⟨by simp, rfl⟩
  · rename_i extended insertion
    exact .inr ⟨extended, rfl, insertion⟩

/-! ## Replies of the driver -/

/-- `mapError` after a query for one row. -/
def singleRow {α : Type} : Except Effects.Fault (Option α) → Except Err α
  | .error _ => .error driverFault
  | .ok none => .error (.of .notFound)
  | .ok (some row) => .ok row

def allRows {α : Type} : Except Effects.Fault α → Except Err α
  | .error _ => .error driverFault
  | .ok rows => .ok rows

/-- The rows an update has changed; none if a unique index refused it. -/
abbrev Updated := Option Nat

/-- `mapError` and `requireAffected` after an update. -/
def requireUpdated : Except Effects.Fault Updated → Except Err Unit
  | .error _ => .error driverFault
  | .ok none => .error (.of .conflict)
  | .ok (some affected) => if affected = 0 then .error (.of .notFound) else .ok ()

/-! ## Audit records -/

/-- What an emission does to the tables when its statement appends there. -/
theorem ensures_emit_catalog {Statement : Type → Type}
    {interpreter : Effects.Interpreter Statement Catalog}
    {append : AuditRecord → Statement Inserted}
    (appends : ∀ record catalog, interpreter.execute (append record) catalog =
      catalog.appendAudit record) (emitter : Audit.Emitter)
    (event : Audit.Event) (id : AuditRecordID) (now : Int) (catalog : Catalog) :
    (emitter.emit append event id now).Ensures interpreter
      (fun result final => (result ≠ .ok () ∧ final = catalog) ∨
        (result = .ok () ∧ ∃ record extended, record.action = event.action ∧
          record.targetID = event.targetID ∧
          catalog.auditRecords.insert? record = some extended ∧
          final = { catalog with auditRecords := extended })) catalog := by
  have refused : ∀ record : AuditRecord,
      (interpreter.execute (append record) catalog).1 ≠ .inserted →
      (interpreter.execute (append record) catalog).2 = catalog := by
    intro record answer
    rw [appends] at answer ⊢
    rcases catalog.appendAudit_cases record with ⟨_, same⟩ | ⟨_, done, _⟩
    · exact same
    · exact absurd (congrArg Prod.fst done) answer
  refine (Audit.Emitter.ensures_emit refused).mono
    fun result final cases => ?_
  rcases cases with ⟨failure, rfl, same⟩ | ⟨record, recorded, done, executed⟩
  · exact .inl ⟨nofun, same⟩
  obtain ⟨_, action, _, target⟩ := Audit.Emitter.record_ok recorded
  rw [appends] at executed
  rcases catalog.appendAudit_cases record with
    ⟨failed, _⟩ | ⟨extended, appended, inserted⟩
  · exact absurd (congrArg Prod.fst executed) failed
  · exact .inr ⟨done, record, extended, action, target, inserted,
      (Prod.mk.inj (executed.symm.trans appended)).2⟩

theorem run_emit_catalog {Statement : Type → Type}
    {interpreter : Effects.Interpreter Statement Catalog}
    {append : AuditRecord → Statement Inserted}
    (appends : ∀ record catalog, interpreter.execute (append record) catalog =
      catalog.appendAudit record) {emitter : Audit.Emitter}
    {event : Audit.Event} {id : AuditRecordID} {now : Int}
    {record : AuditRecord} (recorded : emitter.record event id now = .ok record)
    {catalog : Catalog} {extended : Table AuditRecord.id}
    (inserted : catalog.auditRecords.insert? record = some extended) :
    (emitter.emit append event id now).run interpreter [] catalog =
      (.ok (), { catalog with auditRecords := extended }) := by
  simp only [Audit.Emitter.emit, recorded, Effects.Program.ask_bind,
    Effects.Program.run_issue, Effects.Program.reply_false, List.headD_nil,
    appends, Catalog.appendAudit, inserted]
  rfl

/-- The alphabet of `rand.Text`. -/
def randTextAlphabet : GoString := utf8 "ABCDEFGHIJKLMNOPQRSTUVWXYZ234567"

def randTextLen : Nat := 26

/-- What `rand.Text` returns. -/
structure RandText where
  text : GoString
  length_eq : text.length = randTextLen
  alphabet : ∀ byte ∈ text, byte ∈ randTextAlphabet

namespace Sample

/-- One owner with a protected default set. -/
def catalog : Catalog where
  owners := (Table.empty.insert? {
    id := utf8 "olive", status := .active, createdAt := 0, updatedAt := 0,
    deletedAt := none }).getD .empty
  handles := .empty
  keySets := (Table.empty.insert? {
    id := utf8 "work", ownerID := utf8 "olive", name := utf8 "work",
    visibility := .visibilityProtected, isDefault := true, state := .active,
    quarantineUntil := none, flaggedForReview := false,
    quarantineOnRelease := false, createdAt := 0, updatedAt := 0 }).getD .empty
  keySetMembers := .empty
  devices := .empty
  publicKeys := .empty
  accessKeys := .empty
  auditRecords := .empty

def randText (letter : UInt8) (known : letter ∈ randTextAlphabet) : RandText where
  text := List.replicate 26 letter
  length_eq := List.length_replicate
  alphabet := fun _ member => List.eq_of_mem_replicate member ▸ known

theorem a_known : 65 ∈ randTextAlphabet := by decide

theorem b_known : 66 ∈ randTextAlphabet := by decide

theorem c_known : 67 ∈ randTextAlphabet := by decide

theorem d_known : 68 ∈ randTextAlphabet := by decide

theorem month_pos : 0 < 30 * 24 * Duration.hour := by decide

end Sample

end Vallet.Publishing
