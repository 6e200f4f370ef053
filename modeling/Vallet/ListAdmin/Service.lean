import Mathlib.Data.List.InsertIdx
import Vallet.Blocklist.Matcher
import Vallet.Publishing.Audit

/-!
# Editing the reserved names

Administrators add and remove exemptions and terms while the service runs.
An edit is authorised, written to the audit log and to the overrides, and only
then takes effect in the matcher.  The two writes commit on their own, so the
one whose loss would leave the more permissive policy goes first.
-/

namespace Vallet.ListAdmin

open Auth Audit Blocklist Effects Relational Matcher

/-! ## Stored rows -/

abbrev AdministratorID := GoString

inductive AdminStatus where
  | active
  | disabled
deriving DecidableEq, Repr

structure Administrator where
  id : AdministratorID
  status : AdminStatus
deriving DecidableEq, Repr

inductive ListKind where
  | allowlist
  | blocklistTerm
deriving DecidableEq, Repr

inductive ListOverrideState where
  | present
  | removed
deriving DecidableEq, Repr

/-- One durable decision about one list entry. -/
structure ListOverride where
  list : ListKind
  skeleton : GoString
  entry : GoString
  state : ListOverrideState
  actorID : AdministratorID
  updatedAt : Int
deriving DecidableEq, Repr

/-- The primary key. -/
def ListOverride.identity (row : ListOverride) : ListKind × GoString :=
  (row.list, row.skeleton)

/-- `ORDER BY list, skeleton`. -/
def ListOverride.precedes (left right : ListOverride) : Prop :=
  (left.list = .allowlist ∧ right.list = .blocklistTerm) ∨
    (left.list = right.list ∧ left.skeleton ≤ right.skeleton)

instance : DecidableRel ListOverride.precedes := fun left right => by
  unfold ListOverride.precedes
  infer_instance

structure Store where
  administrators : Table Administrator.id
  overrides : Table ListOverride.identity
  auditRecords : Table AuditRecord.id

inductive ListStatement : Type → Type where
  | selectAdministrator (id : AdministratorID) : ListStatement (Option Administrator)
  | upsertOverride (row : ListOverride) : ListStatement Unit
  | selectOverrides : ListStatement (List ListOverride)
  | appendAudit (record : AuditRecord) : ListStatement Inserted

namespace ListStatement

def execute {β : Type} : ListStatement β → Store → β × Store
  | .selectAdministrator id, store => (store.administrators.find? id, store)
  | .upsertOverride row, store => ((), { store with overrides := store.overrides.put row })
  | .selectOverrides, store => (store.overrides.rows.insertionSort ListOverride.precedes, store)
  | .appendAudit record, store =>
    match store.auditRecords.insert? record with
    | none => (.duplicateKey, store)
    | some extended => (.inserted, { store with auditRecords := extended })

end ListStatement

def listInterpreter : Interpreter ListStatement Store where
  execute := ListStatement.execute

namespace AdministratorRepository

def get (id : AdministratorID) : Program ListStatement (Except Err Administrator) :=
  if id = [] then
    pure (.error (.errorf "sqlite: empty administrator id" .invalidInput))
  else do
    match ← Program.ask (.selectAdministrator id) with
    | .error _ => return .error driverFault
    | .ok none => return .error (.of .notFound)
    | .ok (some administrator) => return .ok administrator

end AdministratorRepository

namespace ListOverrideRepository

def put (row : ListOverride) : Program ListStatement (Except Err Unit) :=
  if row.skeleton = [] then
    pure (.error (.errorf "sqlite: empty list override skeleton" .invalidInput))
  else if row.entry = [] then
    pure (.error (.errorf "sqlite: empty list override entry" .invalidInput))
  else if row.actorID = [] then
    pure (.error (.errorf "sqlite: empty list override actor id" .invalidInput))
  else do
    match ← Program.ask (.upsertOverride row) with
    | .error _ => return .error driverFault
    | .ok () => return .ok ()

def list : Program ListStatement (Except Err (List ListOverride)) := do
  match ← Program.ask .selectOverrides with
  | .error _ => return .error driverFault
  | .ok rows => return .ok rows

end ListOverrideRepository

/-! ## The service -/

structure ListAdminService where
  skeleton : GoString → GoString
  emitter : Emitter

/-- The wiring one edit needs. -/
structure ListOp where
  target : TargetType
  action : AuditAction
  kind : ListKind
  current : Matcher → List GoString
  apply : Matcher → List GoString → Except Err Matcher
  add : Bool
  weakens : Bool

def ListOp.state (op : ListOp) : ListOverrideState :=
  if op.add then .present else .removed

inductive Operation where
  | addAllowlistEntry
  | removeAllowlistEntry
  | addBlocklistTerm
  | removeBlocklistTerm
deriving DecidableEq, Repr

def Operation.listOp (skeleton : GoString → GoString) : Operation → ListOp
  | .addAllowlistEntry =>
    { target := .allowlistEntry
      action := .allowlistEntryAdded
      kind := .allowlist
      current := allowlist
      apply := setAllowlist skeleton
      add := true
      weakens := true }
  | .removeAllowlistEntry =>
    { target := .allowlistEntry
      action := .allowlistEntryRemoved
      kind := .allowlist
      current := allowlist
      apply := setAllowlist skeleton
      add := false
      weakens := false }
  | .addBlocklistTerm =>
    { target := .blocklistEntry
      action := .blocklistEntryAdded
      kind := .blocklistTerm
      current := extraTerms
      apply := setExtraTerms skeleton
      add := true
      weakens := false }
  | .removeBlocklistTerm =>
    { target := .blocklistEntry
      action := .blocklistEntryRemoved
      kind := .blocklistTerm
      current := extraTerms
      apply := setExtraTerms skeleton
      add := false
      weakens := true }

/-- A call of one of the four operations, with the identifier its audit record
would get and the clock. -/
structure Edit where
  operation : Operation
  actor : AdministratorID
  entry : GoString
  auditID : AuditRecordID
  now : Int
deriving DecidableEq, Repr

/-- Why an edit returned an error, and whether it had begun to write. -/
structure Failure where
  begun : Bool
  error : Err
deriving DecidableEq, Repr

def maxEntryLen : Nat := maxInputBytes

def validateEntry (skeleton : GoString → GoString) (entry : GoString) : Except Err Unit :=
  if entry = [] then .error (.errorf "listadmin: empty entry" .invalidInput)
  else if entry.length > maxEntryLen then
    .error (.errorf "listadmin: entry is too long" .invalidInput)
  else if skeleton entry = [] then
    .error (.errorf "listadmin: entry has no comparable content" .invalidInput)
  else .ok ()

def authorize (actor : AdministratorID) : Program ListStatement (Except Err Unit) :=
  if actor = [] then
    pure (.error (.errorf "listadmin: no administrator named" .unauthorized))
  else do
    match ← AdministratorRepository.get actor with
    | .error failure =>
      if failure.is .notFound then
        return .error (.errorf "listadmin: not an administrator" .unauthorized)
      else
        return .error (failure.wrap "listadmin: administrator lookup failed, refusing the edit")
    | .ok administrator =>
      if administrator.status ≠ .active then
        return .error (.errorf "listadmin: administrator is not active" .notPermitted)
      else return .ok ()

/-- The list after the edit, or why the edit would change nothing. -/
def nextSet (skeleton : GoString → GoString) (current : List GoString)
    (entry : GoString) (add : Bool) : Except Err (List GoString) :=
  match current.findIdx? (fun other => skeleton other = skeleton entry), add with
  | some _, true => .error (.errorf "listadmin: entry is already present" .conflict)
  | none, true => .ok (current ++ [entry])
  | none, false => .error (.errorf "listadmin: entry is not present" .notFound)
  | some position, false => .ok (current.eraseIdx position)

namespace ListAdminService

def op (service : ListAdminService) (edit : Edit) : ListOp :=
  edit.operation.listOp service.skeleton

def event (service : ListAdminService) (edit : Edit) : Event where
  actorType := .administrator
  actorID := edit.actor
  action := (service.op edit).action
  targetType := (service.op edit).target
  targetID := edit.entry
  details := []

def audit (service : ListAdminService) (edit : Edit) : Program ListStatement (Except Err Unit) := do
  match ← service.emitter.emit .appendAudit (service.event edit) edit.auditID edit.now with
  | .error failure => return .error (failure.wrap "listadmin: audit the edit before applying it")
  | .ok () => return .ok ()

/-- The row an edit leaves. -/
def override (service : ListAdminService) (edit : Edit) : ListOverride where
  list := (service.op edit).kind
  skeleton := service.skeleton edit.entry
  entry := edit.entry
  state := (service.op edit).state
  actorID := edit.actor
  updatedAt := edit.now

def persist (service : ListAdminService) (edit : Edit) :
    Program ListStatement (Except Err Unit) := do
  match ← ListOverrideRepository.put (service.override edit) with
  | .error failure => return .error (failure.wrap "listadmin: persist the edit before applying it")
  | .ok () => return .ok ()

/-- The two writes, the more dangerous to lose first. -/
def write (service : ListAdminService) (edit : Edit) : Program ListStatement (Except Err Unit) :=
  if (service.op edit).weakens then do
    match ← service.audit edit with
    | .error failure => return .error failure
    | .ok () => service.persist edit
  else do
    match ← service.persist edit with
    | .error failure => return .error failure
    | .ok () => service.audit edit

/-- The body of all four operations.  It returns the matcher with the edit
applied. -/
def edit (service : ListAdminService) (matcher : Matcher) (call : Edit) :
    Program ListStatement (Except Failure Matcher) :=
  match validateEntry service.skeleton call.entry with
  | .error failure => pure (.error ⟨false, failure⟩)
  | .ok () => do
      match ← authorize call.actor with
      | .error failure => return .error ⟨false, failure⟩
      | .ok () =>
        match nextSet service.skeleton ((service.op call).current matcher)
            call.entry (service.op call).add with
        | .error failure => return .error ⟨false, failure⟩
        | .ok next =>
          match ← service.write call with
          | .error failure => return .error ⟨true, failure⟩
          | .ok () =>
            match (service.op call).apply matcher next with
            | .error failure => return .error ⟨true, failure.wrap "listadmin: apply the edit"⟩
            | .ok edited => return .ok edited

end ListAdminService

/-! ## The lists of a matcher -/

/-- The entries one list has in force. -/
def terms (matcher : Matcher) : ListKind → List CompiledTerm
  | .allowlist => matcher.allow.getD []
  | .blocklistTerm => (matcher.extra.map CompiledList.terms).getD []

/-- The matcher with other entries in one list. -/
def replaceTerms (matcher : Matcher) (compiledTerms : List CompiledTerm) : ListKind → Matcher
  | .allowlist => { matcher with allow := some compiledTerms }
  | .blocklistTerm =>
    { matcher with
      extra := some ⟨extraListName, .wholeSkeleton, compiledTerms⟩ }

@[simp] theorem ready_replaceTerms (matcher : Matcher)
    (compiledTerms : List CompiledTerm) (kind : ListKind) :
    (replaceTerms matcher compiledTerms kind).ready = matcher.ready := by
  cases kind <;> rfl

theorem terms_replaceTerms (matcher : Matcher)
    (compiledTerms : List CompiledTerm) (kind other : ListKind) :
    terms (replaceTerms matcher compiledTerms kind) other =
      if other = kind then compiledTerms else terms matcher other := by
  cases kind <;> cases other <;> rfl

/-- Both lists hold entries that a list can hold. -/
structure InForce (skeleton : GoString → GoString) (matcher : Matcher) : Prop where
  ready : matcher.ready = true
  lists : ∀ kind, ∃ raws, terms matcher kind = compiled skeleton raws ∧ Compiles skeleton raws

namespace Operation

variable {skeleton : GoString → GoString}

theorem apply_eq_ok_iff (operation : Operation) {matcher edited : Matcher}
    {entries : List GoString} :
    (operation.listOp skeleton).apply matcher entries = .ok edited ↔
      matcher.ready = true ∧ Compiles skeleton entries ∧
        edited = replaceTerms matcher (compiled skeleton entries)
          (operation.listOp skeleton).kind := by
  cases operation with
  | addAllowlistEntry | removeAllowlistEntry => exact setAllowlist_eq_ok_iff
  | addBlocklistTerm | removeBlocklistTerm => exact setExtraTerms_eq_ok_iff

/-- An operation reads the list it writes. -/
theorem current_perm (operation : Operation) {matcher : Matcher} (ready : matcher.ready = true) :
    ((operation.listOp skeleton).current matcher).Perm
      ((terms matcher (operation.listOp skeleton).kind).map CompiledTerm.raw) := by
  have allow : matcher.allowlist.Perm ((terms matcher .allowlist).map CompiledTerm.raw) := by
    simp only [allowlist, ready, Bool.true_eq_false, if_false]
    exact List.perm_insertionSort _ _
  have extra : matcher.extraTerms.Perm ((terms matcher .blocklistTerm).map CompiledTerm.raw) := by
    simp only [extraTerms, ready, Bool.true_eq_false, if_false, terms]
    cases matcher.extra with
    | none => exact List.Perm.refl _
    | some list => exact List.perm_insertionSort _ _
  cases operation with
  | addAllowlistEntry | removeAllowlistEntry => exact allow
  | addBlocklistTerm | removeBlocklistTerm => exact extra

end Operation

/-! ## What an edit does to a list -/

section Lists

variable {skeleton : GoString → GoString}

theorem Compiles.perm {left right : List GoString} (same : left.Perm right)
    (compiles : Compiles skeleton right) : Compiles skeleton left := by
  constructor
  · intro raw member
    exact compiles.1 raw (same.mem_iff.mp member)
  · exact (same.map skeleton).nodup_iff.mpr compiles.2

variable {entry : GoString}

theorem validateEntry_ok (valid : validateEntry skeleton entry = .ok ()) :
    entry ≠ [] ∧ skeleton entry ≠ [] := by
  unfold validateEntry at valid
  split at valid
  · cases valid
  rename_i filled
  split at valid
  · cases valid
  split at valid
  · cases valid
  · rename_i comparable
    exact ⟨filled, comparable⟩

theorem compiles_append_singleton {entries : List GoString} (compiles : Compiles skeleton entries)
    (comparable : skeleton entry ≠ [])
    (absent : skeleton entry ∉ entries.map skeleton) : Compiles skeleton (entries ++ [entry]) := by
  constructor
  · intro raw member
    rcases List.mem_append.mp member with old | new
    · exact compiles.1 raw old
    · rw [List.mem_singleton.mp new]
      exact comparable
  · rw [List.map_append, List.map_singleton]
    apply List.Nodup.append compiles.2 (List.nodup_singleton _)
    apply List.disjoint_singleton.mpr
    exact absent

/-- The list after an edit compiles, and differs in the edited entry only. -/
theorem nextSet_ok {current next : List GoString}
    {add : Bool} (compiles : Compiles skeleton current) (comparable : skeleton entry ≠ [])
    (computed : nextSet skeleton current entry add = .ok next) :
    Compiles skeleton next ∧ ∀ key, key ∈ next.map skeleton ↔
      if key = skeleton entry then add = true
      else key ∈ current.map skeleton := by
  unfold nextSet at computed
  split at computed
  · cases computed
  · rename_i absent
    cases computed
    have fresh : skeleton entry ∉ current.map skeleton := by
      intro listed
      obtain ⟨other, member, same⟩ := List.mem_map.mp listed
      have differs := List.findIdx?_eq_none_iff.mp absent other member
      simp [same] at differs
    refine ⟨compiles_append_singleton compiles comparable fresh, ?_⟩
    intro key
    by_cases same : key = skeleton entry
    all_goals simp [same]
  · cases computed
  · rename_i position found
    cases computed
    obtain ⟨inside, same, _⟩ := List.findIdx?_eq_some_iff_getElem.mp found
    have erased : (current.eraseIdx position).map skeleton =
        (current.map skeleton).erase (skeleton entry) := by
      have bounded : position < (current.map skeleton).length := by
        simpa using inside
      have there : (current.map skeleton)[position] = skeleton entry := by
        simpa using same
      rw [← there, compiles.2.erase_getElem, List.eraseIdx_map]
    have kept : ∀ raw ∈ current.eraseIdx position, raw ∈ current :=
      fun raw member => List.mem_of_mem_eraseIdx member
    refine ⟨⟨fun raw member => compiles.1 raw (kept raw member), ?_⟩, ?_⟩
    · rw [erased]
      exact compiles.2.erase _
    · intro key
      rw [erased, compiles.2.mem_erase_iff]
      by_cases same : key = skeleton entry
      all_goals simp [same]

end Lists

/-! ## What an edit writes -/

/-- The actor is an active administrator. -/
def Store.Authorizes (store : Store) (actor : AdministratorID) : Prop :=
  ∃ administrator ∈ store.administrators, administrator.id = actor ∧ administrator.status = .active

theorem authorize_ensures (actor : AdministratorID) (store : Store) :
    (authorize actor).Ensures listInterpreter
      (fun result final => final = store ∧ (result = .ok () → store.Authorizes actor)) store := by
  unfold authorize AdministratorRepository.get
  split
  · exact ⟨rfl, fun granted => by cases granted⟩
  refine ⟨⟨rfl, fun granted => ?_⟩, ?_⟩
  · cases granted
  change Program.Ensures listInterpreter _ (_ >>= _) _
  simp only [listInterpreter, ListStatement.execute]
  cases found : store.administrators.find? actor with
  | none => exact ⟨rfl, fun granted => by cases granted⟩
  | some administrator =>
    obtain ⟨member, named⟩ := Table.find?_eq_some_iff.mp found
    change Program.Ensures _ _ (if _ then _ else _) _
    split
    · exact ⟨rfl, fun granted => by cases granted⟩
    · rename_i active
      exact ⟨rfl, fun _ => ⟨administrator, member, named, not_not.mp active⟩⟩

/-- The record names the edit, its actor and its entry. -/
structure Records (service : ListAdminService) (edit : Edit) (record : AuditRecord) : Prop where
  id : record.id = edit.auditID
  actorType : record.actorType = .administrator
  actor : record.actorID = edit.actor
  action : record.action = (service.op edit).action
  targetType : record.targetType = (service.op edit).target
  target : record.targetID = edit.entry

/-- What the writes of an edit left behind. -/
structure Wrote (service : ListAdminService) (edit : Edit)
    (before after : Store) (persisted : Bool) : Prop where
  administrators : after.administrators = before.administrators
  overrides : after.overrides =
    if persisted then before.overrides.put (service.override edit)
    else before.overrides
  kept : ∀ record ∈ before.auditRecords, record ∈ after.auditRecords
  recorded : persisted = true → (service.op edit).weakens = true →
    ∃ record ∈ after.auditRecords, Records service edit record

/-- The store with one more record of the edit. -/
structure Audited (service : ListAdminService) (edit : Edit) (before after : Store) : Prop where
  administrators : after.administrators = before.administrators
  overrides : after.overrides = before.overrides
  kept : ∀ record ∈ before.auditRecords, record ∈ after.auditRecords
  recorded : ∃ record ∈ after.auditRecords, Records service edit record

namespace ListAdminService

variable (service : ListAdminService) (edit : Edit) (store : Store)

theorem audit_ensures : (service.audit edit).Ensures listInterpreter
      (fun result final =>
        (∃ failure, result = .error failure ∧ final = store) ∨
          (result = .ok () ∧ Audited service edit store final)) store := by
  unfold audit
  refine Program.Ensures.bind (Emitter.ensures_emit ?_) ?_
  · intro record refused
    simp only [listInterpreter, ListStatement.execute] at refused ⊢
    split
    · exact rfl
    · rename_i extended inserted
      rw [inserted] at refused
      exact absurd rfl refused
  · rintro result reached (⟨failure, rfl, rfl⟩ | ⟨record, recorded, rfl, appended⟩)
    · exact .inl ⟨_, rfl, rfl⟩
    refine .inr ⟨rfl, ?_⟩
    simp only [listInterpreter, ListStatement.execute] at appended
    split at appended
    · cases appended
    rename_i extended inserted
    cases appended
    obtain ⟨named, action, targetType, target⟩ := Emitter.record_ok recorded
    obtain ⟨actorType, actor, _⟩ := Emitter.record_origin recorded
    exact
      { administrators := rfl
        overrides := rfl
        kept := fun other member =>
          (Table.mem_insert inserted).mpr (.inl member)
        recorded := ⟨record, (Table.mem_insert inserted).mpr (.inr rfl),
          named, actorType, actor, action, targetType, target⟩ }

theorem persist_ensures : (service.persist edit).Ensures listInterpreter
      (fun result final =>
        (∃ failure, result = .error failure ∧ final = store) ∨
          (result = .ok () ∧ final = { store with
            overrides := store.overrides.put (service.override edit) }))
      store := by
  unfold persist ListOverrideRepository.put
  split
  · exact .inl ⟨_, rfl, rfl⟩
  split
  · exact .inl ⟨_, rfl, rfl⟩
  · split
    · exact .inl ⟨_, rfl, rfl⟩
    · exact ⟨.inl ⟨_, rfl, rfl⟩, .inr ⟨rfl, rfl⟩⟩

/-- An edit that fails in its writes may have left its row, but not a
permissive one without a record. -/
theorem write_ensures : (service.write edit).Ensures listInterpreter
      (fun result final =>
        (∃ failure persisted, result = .error failure ∧ Wrote service edit store final persisted) ∨
        (result = .ok () ∧ Wrote service edit store final true)) store := by
  have untouched : Wrote service edit store store false :=
    { administrators := rfl
      overrides := rfl
      kept := fun _ member => member
      recorded := nofun }
  unfold write
  split
  · refine Program.Ensures.bind (service.audit_ensures edit store) ?_
    rintro result reached (⟨failure, rfl, rfl⟩ | ⟨rfl, audited⟩)
    · exact .inl ⟨failure, false, rfl, untouched⟩
    refine (service.persist_ensures edit reached).mono ?_
    rintro result final (⟨failure, rfl, rfl⟩ | ⟨rfl, rfl⟩)
    · exact .inl ⟨failure, false, rfl, { audited with recorded := nofun }⟩
    · refine .inr ⟨rfl, ?_⟩
      exact
        { audited with
          overrides := by simp [audited.overrides]
          recorded := fun _ _ => audited.recorded }
  · rename_i strengthens
    refine Program.Ensures.bind (service.persist_ensures edit store) ?_
    rintro result reached (⟨failure, rfl, rfl⟩ | ⟨rfl, rfl⟩)
    · exact .inl ⟨failure, false, rfl, untouched⟩
    refine (service.audit_ensures edit _).mono ?_
    rintro result final (⟨failure, rfl, rfl⟩ | ⟨rfl, audited⟩)
    · refine .inl ⟨failure, true, rfl, ?_⟩
      exact
        { administrators := rfl
          overrides := rfl
          kept := fun _ member => member
          recorded := fun _ weakens => absurd weakens strengthens }
    · refine .inr ⟨rfl, ?_⟩
      exact { audited with recorded := fun _ weakens => absurd weakens strengthens }

/-- How an edit can end. -/
inductive Ended (service : ListAdminService) (matcher : Matcher) (edit : Edit) (before : Store) :
    Except Failure Matcher → Store → Prop where
  | refused (error : Err) : Ended service matcher edit before (.error ⟨false, error⟩) before
  | interrupted {after : Store} (error : Err) (persisted : Bool)
      (authorized : before.Authorizes edit.actor)
      (valid : validateEntry service.skeleton edit.entry = .ok ())
      (wrote : Wrote service edit before after persisted) :
      Ended service matcher edit before (.error ⟨true, error⟩) after
  | completed {after : Store} {edited : Matcher} {next : List GoString}
      (authorized : before.Authorizes edit.actor)
      (valid : validateEntry service.skeleton edit.entry = .ok ())
      (computed : nextSet service.skeleton ((service.op edit).current matcher) edit.entry
        (service.op edit).add = .ok next) (wrote : Wrote service edit before after true)
      (applied : (service.op edit).apply matcher next = .ok edited) :
      Ended service matcher edit before (.ok edited) after

theorem edit_ensures (matcher : Matcher) :
    (service.edit matcher edit).Ensures listInterpreter
      (Ended service matcher edit store) store := by
  unfold ListAdminService.edit
  split
  · exact .refused _
  rename_i valid
  refine Program.Ensures.bind (authorize_ensures edit.actor store) ?_
  rintro result reached ⟨rfl, authorized⟩
  cases result with
  | error failure => exact .refused _
  | ok _ =>
    dsimp only
    split
    · exact .refused _
    rename_i next computed
    refine Program.Ensures.bind (service.write_ensures edit reached) ?_
    rintro result final (⟨failure, persisted, rfl, wrote⟩ | ⟨rfl, wrote⟩)
    · exact .interrupted _ persisted (authorized rfl) valid wrote
    dsimp only
    split
    · exact .interrupted _ true (authorized rfl) valid wrote
    · rename_i edited applied
      exact .completed (authorized rfl) valid computed wrote applied

end ListAdminService

end Vallet.ListAdmin
