import Vallet.Publishing.AccessKeyLife
import Vallet.Publishing.KeySetLife

/-!
# Deleting a key set

A confirmed `Delete` removes an active set that is not the default, with its
memberships.  The statement that deletes the row meets two foreign keys: the
memberships are gone by then, but the rows of access keys are not, and no call
of the access key service ever deletes one.
-/

namespace Vallet.Publishing

open Audit Auth Effects Effects.Program Relational

namespace KeySetService

variable {service : KeySetService} {call : DeleteSetCall} {catalog : Catalog}
  {set : KeySet} {details : List (DetailKey × GoString)} {extended : Table AuditRecord.id}

/-- The rows a deletion takes away. -/
def deleted (call : DeleteSetCall) (catalog : Catalog) : Catalog :=
  { catalog with
    keySets := catalog.keySets.delete (KeySet.ownedBy call.ownerID call.id)
    keySetMembers :=
      catalog.keySetMembers.delete (KeySetMembership.inSet call.id) }

/-- The set a deletion is about: the owner's, active and not the default. -/
structure Deletable (catalog : Catalog) (call : DeleteSetCall) (set : KeySet) : Prop where
  stored : set ∈ catalog.keySets
  id : set.id = call.id
  owner : set.ownerID = call.ownerID
  active : set.state = .active
  plain : set.isDefault = false
  confirmed : call.confirm = true

/-- The audit trail takes what there is to say of a deletion. -/
structure Recordable (service : KeySetService) (catalog : Catalog)
    (call : DeleteSetCall) (set : KeySet) : Prop where
  details : (service.setDetails set.name call.requestID).isOk = true
  valid : service.emitter.validate (event .keySetDeleted call.ownerID call.id []) = .ok ()
  fresh : ∀ record ∈ catalog.auditRecords, record.id ≠ call.auditID

/-- The memberships are gone when the row is deleted. -/
def unbound (call : DeleteSetCall) (catalog : Catalog) : Catalog :=
  { catalog with
    keySetMembers :=
      catalog.keySetMembers.delete (KeySetMembership.inSet call.id) }

theorem select_unbound : (unbound call catalog).keySetMembers.select
      (KeySetMembership.inSet call.id) = [] := by
  rw [List.eq_nil_iff_forall_not_mem]
  intro member selected
  obtain ⟨kept, within⟩ := Table.mem_select.mp selected
  have outside := (Table.mem_delete.mp kept).2
  rw [within] at outside
  cases outside

section

variable (deletable : Deletable catalog call set)

include deletable

theorem Deletable.find : catalog.findKeySet call.ownerID call.id = some set := by
  obtain ⟨found, located⟩ := Option.isSome_iff_exists.mp
    (Catalog.hasKeySet_of_mem deletable.stored deletable.id deletable.owner)
  obtain ⟨stored, same, _⟩ := Catalog.findKeySet_eq_some located
  rw [located, Table.eq_of_key_eq stored deletable.stored (same.trans deletable.id.symm)]

theorem Deletable.select_ne_nil :
    catalog.keySets.select (KeySet.ownedBy call.ownerID call.id) ≠ [] :=
  List.ne_nil_of_mem (Table.mem_select.mpr ⟨deletable.stored,
    KeySet.ownedBy_iff.mpr ⟨deletable.id, deletable.owner⟩⟩)

/-- Only the rows of access keys are in the way. -/
theorem deleteKeySet_unbound : (unbound call catalog).deleteKeySet call.ownerID call.id =
      if (catalog.accessKeys.select fun key =>
          decide (key.keySetID = call.id)) = [] then
        (some (catalog.keySets.select (KeySet.ownedBy call.ownerID call.id)).length,
          deleted call catalog)
      else (none, unbound call catalog) := by
  unfold Catalog.deleteKeySet
  simp only [select_unbound]
  split
  · rename_i refused
    have bound := refused.2.resolve_left fun filled => filled rfl
    exact (if_neg bound).symm
  · rename_i accepted
    rw [not_and, not_or] at accepted
    have free := (accepted deletable.select_ne_nil).2
    exact (if_pos (not_not.mp free)).symm

theorem run_delete : (KeySetRepository.delete call.ownerID call.id).run keySetInterpreter []
        catalog =
      if (catalog.accessKeys.select fun key =>
          decide (key.keySetID = call.id)) = [] then
        (.ok (), deleted call catalog)
      else (.error driverFault, unbound call catalog) := by
  have removed := deleteKeySet_unbound deletable
  simp only [KeySetRepository.delete, ask_bind, run_issue, List.headD_nil,
    List.tail_nil, reply_false, keySetInterpreter, KeySetStatement.execute,
    deletable.find, Option.map_some, deletable.plain]
  change Program.run _ (pure (KeySetRepository.requireDeleted
    (.ok ((unbound call catalog).deleteKeySet call.ownerID call.id).1))) []
    ((unbound call catalog).deleteKeySet call.ownerID call.id).2 = _
  rw [removed]
  split
  · simp [KeySetRepository.requireDeleted, deletable.select_ne_nil]
  · rfl

theorem run_deleteTx (recordable : service.setDetails set.name call.requestID = .ok details) :
    (service.deleteTx call).run keySetInterpreter [] catalog =
      if (catalog.accessKeys.select fun key =>
          decide (key.keySetID = call.id)) = [] then
        (.ok ⟨(), call.id, details⟩, deleted call catalog)
      else (.error driverFault, unbound call catalog) := by
  have got : (KeySetRepository.get call.ownerID call.id).run
      keySetInterpreter [] catalog = (.ok set, catalog) := by
    simp only [KeySetRepository.get, ask_bind, run_issue, List.headD_nil,
      reply_false, keySetInterpreter, KeySetStatement.execute, deletable.find]
    rfl
  have found : live (.ok set) = .ok set := if_neg (not_not.mpr deletable.active)
  unfold deleteTx
  rw [run_bind_nil, got]
  simp only [found, remove]
  rw [run_bind_nil]
  change Program.run _ (if _ ∧ _ then _ else _) _ catalog = _
  rw [if_neg (by simp [deletable.confirmed])]
  simp only [recordable]
  rw [run_bind_nil, run_delete deletable]
  by_cases free : (catalog.accessKeys.select fun key =>
      decide (key.keySetID = call.id)) = []
  · rw [if_pos free, if_pos free]
    rfl
  · rw [if_neg free, if_neg free]
    rfl

end

section

variable (recordable : Recordable service catalog call set)

include recordable

theorem Recordable.addressed : call.ownerID ≠ [] ∧ call.id ≠ [] := by
  have valid := recordable.valid
  constructor
  · intro empty
    simp only [Emitter.validate, event, empty] at valid
    cases valid
  · intro empty
    simp only [Emitter.validate, event, empty] at valid
    split at valid
    · cases valid
    · split at valid <;> cases valid

theorem delete_eq (plan : FaultPlan) : service.delete call plan [] catalog =
      service.emit .keySetDeleted call.ownerID call.auditID call.now []
        (commit hideMissingSet (service.deleteTx call) plan catalog) := by
  obtain ⟨owned, addressed⟩ := recordable.addressed
  rw [delete, commitDelete, if_neg owned, if_neg addressed]

/-- A set that no access key names is deleted, and the deletion recorded. -/
theorem delete_of_free (ran : (service.deleteTx call).run keySetInterpreter [] catalog =
      (.ok ⟨(), call.id, details⟩, deleted call catalog)) :
    ∃ records, service.delete call {} [] catalog =
      (.ok (), { deleted call catalog with auditRecords := records }) := by
  let record : AuditRecord := ⟨call.auditID, .owner, call.ownerID,
    .keySetDeleted, .keySet, call.id, call.now, details, false⟩
  have recorded : service.emitter.record
      (event .keySetDeleted call.ownerID call.id details) call.auditID
      call.now = .ok record := by
    have valid : service.emitter.validate
        (event .keySetDeleted call.ownerID call.id details) = .ok () :=
      recordable.valid
    rw [Emitter.record, valid]
    rfl
  obtain ⟨records, inserted⟩ := Option.isSome_iff_exists.mp
    (Table.insert?_isSome_iff.mpr recordable.fresh :
      ((deleted call catalog).auditRecords.insert? record).isSome)
  refine ⟨records, ?_⟩
  rw [delete_eq recordable, commit, transact_commits ran]
  simp only [emit]
  rw [run_emit_catalog (fun _ _ => rfl) recorded inserted]

end

/-- A confirmed deletion of an active set that is not the default works exactly
if no access key was ever issued for the set. -/
theorem delete_works_iff (service : KeySetService) {call : DeleteSetCall}
    {catalog : Catalog} {set : KeySet} (deletable : Deletable catalog call set)
    (recordable : Recordable service catalog call set) :
    ((service.delete call {} [] catalog).1 = .ok () ∧
        (∀ other ∈ (service.delete call {} [] catalog).2.keySets, other.id ≠ call.id) ∧
        (∀ member ∈ (service.delete call {} [] catalog).2.keySetMembers,
          member.keySetID ≠ call.id) ∧
        (service.delete call {} [] catalog).2.publicKeys = catalog.publicKeys) ↔
      ∀ key ∈ catalog.accessKeys, key.keySetID ≠ call.id := by
  obtain ⟨details, accepted⟩ : ∃ details,
      service.setDetails set.name call.requestID = .ok details := by
    have held := recordable.details
    cases accepted : service.setDetails set.name call.requestID with
    | error failure =>
      rw [accepted] at held
      cases held
    | ok details => exact ⟨details, rfl⟩
  have ran := run_deleteTx deletable accepted
  have unnamed : (catalog.accessKeys.select fun key =>
      decide (key.keySetID = call.id)) = [] ↔
      ∀ key ∈ catalog.accessKeys, key.keySetID ≠ call.id := by
    simp [List.eq_nil_iff_forall_not_mem]
  rw [← unnamed]
  constructor
  · rintro ⟨succeeded, _⟩
    by_contra named
    rw [if_neg named] at ran
    rw [delete_eq recordable, commit, transact, if_neg Bool.false_ne_true, ran] at succeeded
    cases succeeded
  · intro free
    rw [if_pos free] at ran
    obtain ⟨records, succeeded⟩ := delete_of_free recordable ran
    rw [succeeded]
    refine ⟨rfl, fun other kept same => ?_, fun member kept same => ?_, rfl⟩
    · obtain ⟨stored, spared⟩ := Table.mem_delete.mp kept
      have alike : other = set := Table.eq_of_key_eq stored deletable.stored
        (same.trans deletable.id.symm)
      rw [alike, KeySet.ownedBy_iff.mpr ⟨deletable.id, deletable.owner⟩] at spared
      cases spared
    · obtain ⟨_, spared⟩ := Table.mem_delete.mp kept
      simp [KeySetMembership.inSet, same] at spared

end KeySetService

namespace Sample

/-- A second set beside the default one. -/
def spared : Catalog :=
  (keySetService.create (createSet "spare" 67 c_known 5) {} [] catalog).2

def deleteSpare : DeleteSetCall where
  ownerID := utf8 "olive"
  id := List.replicate 26 67
  confirm := true
  requestID := []
  now := 30
  auditID := utf8 "a9"

/-- An access key is issued for the second set. -/
def keyed : Catalog :=
  ((accessKeyService.mint { mintCall with setID := List.replicate 26 67 }).run
    accessKeyInterpreter [] spared).2

end Sample

open Sample

namespace KeySetService

/-- The second set can be deleted before a key is issued for it. -/
theorem delete_works_iff_spare : ∃ set, Deletable spared deleteSpare set ∧
      (keySetService.delete deleteSpare {} [] spared).1 = .ok () := by
  have facts : ∀ set ∈ spared.keySets, set.id = deleteSpare.id → set.ownerID = utf8 "olive" ∧
        set.state = .active ∧ set.isDefault = false ∧
        set.name = utf8 "spare" := by
    decide +kernel
  obtain ⟨set, found⟩ := Option.isSome_iff_exists.mp (by decide +kernel :
    (spared.keySets.find? deleteSpare.id).isSome = true)
  obtain ⟨stored, same⟩ := Table.find?_eq_some_iff.mp found
  obtain ⟨owner, active, plain, name⟩ := facts set stored same
  have deletable : Deletable spared deleteSpare set := ⟨stored, same, owner, active, plain, rfl⟩
  have recordable : Recordable keySetService spared deleteSpare set := by
    refine ⟨?_, by decide +kernel, by decide +kernel⟩
    rw [name]
    decide +kernel
  exact ⟨set, deletable, ((delete_works_iff keySetService deletable
    recordable).mpr (by decide +kernel)).1⟩

/-- Once a key was issued for it, the second set cannot be deleted. -/
theorem delete_refused_after_mint :
    (keyed.keySets.find? deleteSpare.id).map (fun set =>
        (set.ownerID, set.state, set.isDefault)) =
        some (utf8 "olive", .active, false) ∧
      (keySetService.delete deleteSpare {} [] keyed).1 = .error driverFault := by
  constructor <;> decide +kernel

end KeySetService

end Vallet.Publishing
