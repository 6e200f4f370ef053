import Vallet.Publishing.Handles

/-!
# What handle calls do to the stored names

A rename that commits has made a tombstone of the owner's active handle and
either taken back one of the owner's holds or registered a fresh name; a
release that commits has dropped one hold whose quarantine is over.  Both are
committed together with their record.
-/

namespace Vallet.Publishing

open Audit Auth Effects Effects.Program Relational
open HandleRepository HandleStatement HandleService Table Catalog

/-! ## Repository calls -/

variable {catalog : Catalog} {ownerID : OwnerID} {handle : Handle}
  {name : GoString} {handles : Table Handle.id}

theorem Catalog.activeHandle_eq_some (found : catalog.activeHandle ownerID = some handle) :
    handle ∈ catalog.handles ∧ handle.ownerID = ownerID ∧ handle.state = .active := by
  simpa using mem_of_head?_select found

/-- The number of names an owner holds. -/
def namesHeld (handles : Table Handle.id) (ownerID : OwnerID) : Nat :=
  (handles.select fun handle => decide (handle.ownerID = ownerID)).length

theorem Catalog.length_handlesOf (catalog : Catalog) (ownerID : OwnerID) :
    (catalog.handlesOf ownerID).length = namesHeld catalog.handles ownerID :=
  List.length_insertionSort _ _

theorem Catalog.mem_handlesOf : handle ∈ catalog.handlesOf ownerID ↔
      handle ∈ catalog.handles ∧ handle.ownerID = ownerID := by
  rw [handlesOf, List.mem_insertionSort, mem_select, decide_eq_true_eq]

theorem yields_getActiveByOwner (ownerID : OwnerID) :
    (getActiveByOwner ownerID).Yields handleInterpreter
      (fun handle final => final = catalog ∧
        catalog.activeHandle ownerID = some handle) catalog := by
  refine ⟨yields_error, ?_⟩
  simp only [handleInterpreter, execute]
  cases catalog.activeHandle ownerID with
  | none => exact yields_error
  | some handle => exact yields_ok ⟨rfl, rfl⟩

theorem yields_listByOwner (ownerID : OwnerID) :
    (listByOwner ownerID).Yields handleInterpreter
      (fun held final => final = catalog ∧ held = catalog.handlesOf ownerID) catalog :=
  ⟨yields_error, yields_ok ⟨rfl, rfl⟩⟩

/-- A fault is not taken for a name that nobody has. -/
theorem ensures_getByName (name : GoString) :
    (getByName name).Ensures handleInterpreter
      (fun result final => final = catalog ∧
        (∀ handle, result = .ok handle → catalog.handleNamed name = some handle) ∧
        ∀ failure, result = .error failure → failure.is .notFound = true →
          catalog.handleNamed name = none) catalog := by
  refine ⟨⟨rfl, nofun, ?_⟩, rfl, ?_⟩
  · intro failure result missing
    cases result
    cases missing
  · cases found : catalog.handleNamed name with
    | none =>
      simp only [handleInterpreter, execute, found]
      exact ⟨nofun, fun _ _ _ => trivial⟩
    | some handle =>
      simp only [handleInterpreter, execute, found]
      refine ⟨fun other result => ?_, fun failure impossible => ?_⟩
      · cases result
        rfl
      · cases impossible

theorem yields_update (values : Handle) :
    (update values).Yields handleInterpreter
      (fun _ final => final = { catalog with
          handles := catalog.handles.update
            (Handle.ownedBy values.ownerID values.id) (Handle.written values)
            (Handle.id_written values) } ∧
        final.handles.Unique Handle.clashes) catalog := by
  refine ⟨yields_error, ?_⟩
  simp only [handleInterpreter, execute]
  generalize (catalog.handles.select
    (Handle.ownedBy values.ownerID values.id)).head?.map (·.name) = current
  cases current with
  | none => exact yields_error
  | some current =>
    simp only [Program.bind_done]
    by_cases same : current = values.name
    · rw [if_neg (not_not.mpr same)]
      refine ⟨yields_error, fun _ updated => ?_⟩
      simp only [execute, updateHandles] at updated ⊢
      split at updated
      · rename_i unique
        simp only [unique, if_true, and_true]
      · cases updated
    · rw [if_pos same]
      exact yields_error

theorem Catalog.insertHandle_inserted {final : Catalog}
    (inserted : catalog.insertHandle handle = (.inserted, final)) :
    ∃ extended, catalog.handles.insert? handle = some extended ∧ extended.Unique Handle.clashes ∧
      final = { catalog with handles := extended } := by
  unfold insertHandle at inserted
  split at inserted
  · cases inserted
  rename_i extended insertion
  split at inserted
  · cases inserted
  rename_i unique
  split at inserted
  · cases inserted
  · cases inserted
    exact ⟨extended, insertion, not_not.mp unique, rfl⟩

theorem yields_refuseIfFoldStale (folds : FoldTable) :
    (refuseIfFoldStale folds).Yields handleInterpreter
      (fun _ final => final = catalog ∧ ∀ row ∈ catalog.handles, row.foldVersion = folds.version)
      catalog := by
  refine ⟨yields_error, ?_⟩
  simp only [handleInterpreter, execute]
  cases stale : (catalog.handles.select fun row =>
      decide (row.foldVersion ≠ folds.version)).head? with
  | some row => exact yields_error
  | none =>
    refine yields_ok ⟨rfl, fun row stored => ?_⟩
    exact not_not.mp (of_decide_eq_false (head?_select_eq_none.mp stale row stored))

theorem yields_register (folds : FoldTable) (handle : Handle) :
    (register folds handle).Yields handleInterpreter
      (fun _ final => ∃ extended, catalog.handles.insert? (folds.stored handle) = some extended ∧
        extended.Unique Handle.clashes ∧
        (∀ row ∈ catalog.handles, row.foldVersion = folds.version) ∧
        final = { catalog with handles := extended }) catalog := by
  refine (yields_refuseIfFoldStale folds).bind ?_
  rintro _ _ ⟨rfl, current⟩
  refine ⟨yields_error, ?_⟩
  simp only [handleInterpreter, execute]
  rcases answer : insertHandle _ _ with ⟨outcome, final⟩
  cases outcome with
  | duplicateKey | constraintFailed => exact yields_error
  | inserted =>
    obtain ⟨extended, inserted, unique, same⟩ := insertHandle_inserted answer
    exact yields_ok ⟨extended, inserted, unique, current, same⟩

variable (service : HandleService)

theorem yields_emitTx (action : AuditAction) (ownerID : OwnerID) (id : HandleID)
    (details : List (DetailKey × GoString)) (auditID : AuditRecordID) (now : Int) :
    (service.emitTx action ownerID id details auditID now).Yields handleInterpreter
      (fun _ final => ∃ record extended, record.action = action ∧ record.targetID = id ∧
        catalog.auditRecords.insert? record = some extended ∧
        final = { catalog with auditRecords := extended }) catalog := by
  refine (ensures_emit_catalog (fun _ _ => rfl) _ _ _ _ catalog).mono
    fun result final cases _ recorded => ?_
  rcases cases with ⟨failed, _⟩ | ⟨_, emitted⟩
  · exact (failed recorded).elim
  · exact emitted

/-! ## Renaming -/

/-- What a rename makes of the stored names: the old claim is a tombstone, and
the claimed name is a hold taken back or a fresh one. -/
structure Renaming (service : HandleService) (call : RenameCall)
    (before after : Table Handle.id) (old claimed : Handle) : Prop where
  stored : old ∈ before
  owner : old.ownerID = call.ownerID
  active : old.state = .active
  differs : old.name ≠ call.name
  claim : (∃ existing ∈ before, existing.id ≠ old.id ∧
      existing.ownerID = call.ownerID ∧ existing.name = call.name ∧
      existing.state = .quarantined ∧
      claimed = Handle.reactivated call.now existing) ∨
    (claimed = service.folds.stored call.fresh ∧ (∀ row ∈ before, row.id ≠ claimed.id) ∧
      ∀ row ∈ before, row.foldVersion = service.folds.version)
  rows : ∀ row, row ∈ after ↔
    (row ∈ before ∧ row.id ≠ old.id ∧ row.id ≠ claimed.id) ∨
      row = Handle.vacated (call.vacatedAt + service.quarantine) call.now old ∨ row = claimed
  unique : after.Unique Handle.clashes
  counts : ∀ ownerID, namesHeld after ownerID = namesHeld before ownerID ∨
    (ownerID = call.ownerID ∧ namesHeld after ownerID = namesHeld before ownerID + 1 ∧
      namesHeld before ownerID < service.maxNames)

theorem mem_update_owned {target row : Handle} (stored : target ∈ handles)
    (values : Handle) (sameID : values.id = target.id)
    (sameOwner : values.ownerID = target.ownerID) :
    row ∈ handles.update (Handle.ownedBy values.ownerID values.id)
        (Handle.written values) (Handle.id_written values) ↔
      (row ∈ handles ∧ row.id ≠ target.id) ∨ row = Handle.written values target := by
  refine mem_update_single stored ?_ ?_
  · simp [Handle.ownedBy, sameID, sameOwner]
  · intro other _ owned
    simp only [Handle.ownedBy, Bool.and_eq_true, decide_eq_true_eq] at owned
    exact owned.1.trans sameID

theorem namesHeld_update (handles : Table Handle.id) (values : Handle) (ownerID : OwnerID) :
    namesHeld (handles.update (Handle.ownedBy values.ownerID values.id)
        (Handle.written values) (Handle.id_written values)) ownerID =
      namesHeld handles ownerID :=
  length_select_update _ _ _ _ fun _ => rfl

/-- The name is claimed from a table in which the old claim is a tombstone. -/
theorem yields_claim (call : RenameCall) :
    (service.claim call).Yields handleInterpreter
      (fun _ final =>
        (∃ existing ∈ catalog.handles, existing.ownerID = call.ownerID ∧
          existing.name = call.name ∧ existing.state = .quarantined ∧
          final.handles.Unique Handle.clashes ∧
          final = { catalog with
            handles := catalog.handles.update (Handle.ownedBy existing.ownerID existing.id)
              (Handle.written (Handle.reactivated call.now existing)) (Handle.id_written _) }) ∨
        ((∀ row ∈ catalog.handles, row.name ≠ call.name) ∧ ∃ extended,
          catalog.handles.insert? (service.folds.stored call.fresh) = some extended ∧
          extended.Unique Handle.clashes ∧
          (∀ row ∈ catalog.handles, row.foldVersion = service.folds.version) ∧
          final = { catalog with handles := extended })) catalog := by
  refine (ensures_getByName call.name).bind ?_
  rintro looked _ ⟨rfl, found, missing⟩
  cases looked with
  | ok existing =>
    obtain ⟨stored, named⟩ := (mem_of_head?_select (found existing rfl)).imp_right of_decide_eq_true
    simp only
    split
    · exact yields_error
    rename_i own
    push Not at own
    refine (yields_update _).bind ?_
    rintro _ final ⟨same, unique⟩
    exact yields_ok (.inl ⟨existing, stored, own.1, named, own.2, unique, same⟩)
  | error failure =>
    simp only
    split
    · rename_i absent
      refine (yields_register _ _).bind ?_
      exact fun _ final kept => yields_ok (.inr
        ⟨fun handle stored => of_decide_eq_false
          (head?_select_eq_none.mp (missing failure rfl absent) handle stored), kept⟩)
    · exact yields_error

section Rename

variable {service : HandleService} {call : RenameCall} {old : Handle} {before : Table Handle.id}

/-- The table in which the old claim is a tombstone. -/
def afterVacating (service : HandleService) (call : RenameCall)
    (old : Handle) (handles : Table Handle.id) : Table Handle.id :=
  handles.update (Handle.ownedBy old.ownerID old.id)
    (Handle.written (Handle.vacated (call.vacatedAt + service.quarantine)
      call.now old)) (Handle.id_written _)

variable {after : Table Handle.id}

theorem mem_afterVacating (stored : old ∈ before) {row : Handle} :
    row ∈ afterVacating service call old before ↔
      (row ∈ before ∧ row.id ≠ old.id) ∨
        row = Handle.vacated (call.vacatedAt + service.quarantine) call.now old :=
  mem_update_owned stored (Handle.vacated (call.vacatedAt +
    service.quarantine) call.now old) rfl rfl

theorem renaming_of_reclaim (stored : old ∈ before)
    (owner : old.ownerID = call.ownerID) (active : old.state = .active)
    (differs : old.name ≠ call.name) {existing : Handle}
    (member : existing ∈ afterVacating service call old before)
    (own : existing.ownerID = call.ownerID) (named : existing.name = call.name)
    (quarantined : existing.state = .quarantined) (unique : after.Unique Handle.clashes)
    (updated : after = (afterVacating service call old before).update
      (Handle.ownedBy existing.ownerID existing.id)
      (Handle.written (Handle.reactivated call.now existing)) (Handle.id_written _)) :
    Renaming service call before after old (Handle.reactivated call.now existing) := by
  obtain ⟨kept, different⟩ : existing ∈ before ∧ existing.id ≠ old.id := by
    rcases (mem_afterVacating stored).mp member with kept | rfl
    · exact kept
    · exact (differs named).elim
  subst updated
  refine ⟨stored, owner, active, differs, .inl ⟨existing, kept, different,
    own, named, quarantined, rfl⟩, fun row => ?_, unique, fun ownerID => ?_⟩
  · refine (mem_update_owned member (Handle.reactivated call.now existing) rfl rfl).trans ?_
    rw [mem_afterVacating stored]
    constructor
    · rintro (⟨⟨rowKept, rowDiffers⟩ | rfl, other⟩ | rfl)
      · exact .inl ⟨rowKept, rowDiffers, other⟩
      · exact .inr (.inl rfl)
      · exact .inr (.inr rfl)
    · rintro (⟨rowKept, rowDiffers, other⟩ | rfl | rfl)
      · exact .inl ⟨.inl ⟨rowKept, rowDiffers⟩, other⟩
      · exact .inl ⟨.inr rfl, Ne.symm different⟩
      · exact .inr rfl
  · refine .inl ?_
    exact (namesHeld_update _ (Handle.reactivated call.now existing)
      ownerID).trans (namesHeld_update before (Handle.vacated _ _ old) ownerID)

theorem renaming_of_register (stored : old ∈ before)
    (owner : old.ownerID = call.ownerID) (active : old.state = .active)
    (differs : old.name ≠ call.name) (room : namesHeld before call.ownerID < service.maxNames)
    (current : ∀ row ∈ afterVacating service call old before,
      row.foldVersion = service.folds.version) (unique : after.Unique Handle.clashes)
    (inserted : (afterVacating service call old before).insert?
      (service.folds.stored call.fresh) = some after) :
    Renaming service call before after old (service.folds.stored call.fresh) := by
  have vacated : Handle.vacated (call.vacatedAt + service.quarantine)
      call.now old ∈ afterVacating service call old before :=
    (mem_afterVacating stored).mpr (.inr rfl)
  have fresh := (insert?_eq_some_iff.mp inserted).1
  have absent : ∀ row ∈ before, row.id ≠ (service.folds.stored call.fresh).id := by
    intro row member
    by_cases same : row.id = old.id
    · rw [same]
      exact fresh (Handle.vacated _ _ old) vacated
    · exact fresh row ((mem_afterVacating stored).mpr (.inl ⟨member, same⟩))
  refine ⟨stored, owner, active, differs, .inr ⟨rfl, absent, ?_⟩,
    fun row => ?_, unique, fun ownerID => ?_⟩
  · intro row member
    by_cases same : row.id = old.id
    · rw [eq_of_key_eq member stored same]
      exact current (Handle.vacated _ _ old) vacated
    · exact current row ((mem_afterVacating stored).mpr (.inl ⟨member, same⟩))
  · rw [mem_insert inserted, mem_afterVacating stored]
    constructor
    · rintro ((⟨member, different⟩ | rfl) | rfl)
      · exact .inl ⟨member, different, absent row member⟩
      · exact .inr (.inl rfl)
      · exact .inr (.inr rfl)
    · rintro (⟨member, different, _⟩ | rfl | rfl)
      · exact .inl (.inl ⟨member, different⟩)
      · exact .inl (.inr rfl)
      · exact .inr rfl
  · have counted := length_select_insert inserted
      fun handle => decide (handle.ownerID = ownerID)
    have same := namesHeld_update before
      (Handle.vacated (call.vacatedAt + service.quarantine) call.now old) ownerID
    have whose : (service.folds.stored call.fresh).ownerID = call.ownerID := rfl
    by_cases mine : ownerID = call.ownerID
    · subst mine
      refine .inr ⟨rfl, ?_, room⟩
      simp only [whose, decide_true, if_true] at counted
      rw [← same]
      exact counted
    · refine .inl ?_
      simp only [whose, Ne.symm mine, decide_false, Bool.false_eq_true,
        if_false, Nat.add_zero] at counted
      rw [← same]
      exact counted

/-- A name that nobody has is not one of the owner's holds, so the cap was
applied. -/
theorem room_of_refusal {catalog : Catalog}
    (allowed : service.refusal call (catalog.handlesOf call.ownerID) = none)
    (stored : old ∈ catalog.handles) (differs : old.name ≠ call.name)
    (free : ∀ row ∈ afterVacating service call old catalog.handles, row.name ≠ call.name) :
    namesHeld catalog.handles call.ownerID < service.maxNames := by
  have fresh : reclaims (catalog.handlesOf call.ownerID) call.name = false := by
    rw [reclaims, List.any_eq_false]
    intro row held hold
    simp only [Bool.and_eq_true, decide_eq_true_eq] at hold
    have member := (mem_handlesOf.mp held).1
    by_cases same : row.id = old.id
    · rw [eq_of_key_eq member stored same] at hold
      exact differs hold.1
    · exact free row ((mem_afterVacating stored).mpr (.inl ⟨member, same⟩)) hold.1
  unfold refusal at allowed
  rw [fresh, length_handlesOf] at allowed
  by_contra full
  rw [if_pos ⟨rfl, by omega⟩] at allowed
  cases allowed

/-- A rename that is about to commit has moved the owner's name, with its
record. -/
theorem yields_renameTx (service : HandleService) (call : RenameCall) :
    (service.renameTx call).Yields handleInterpreter
      (fun _ final =>
        ∃ old claimed record, catalog.activeHandle call.ownerID = some old ∧
          Renaming service call catalog.handles final.handles old claimed ∧
          (record.action = .handleRenamed ∨ record.action = .handleReclaimed) ∧
          catalog.auditRecords.insert? record = some final.auditRecords)
      catalog := by
  refine (yields_getActiveByOwner call.ownerID).bind ?_
  rintro old _ ⟨rfl, found⟩
  obtain ⟨stored, owner, active⟩ := activeHandle_eq_some found
  simp only
  split
  · exact yields_error
  rename_i differs
  refine (yields_listByOwner call.ownerID).bind ?_
  rintro held _ ⟨rfl, rfl⟩
  simp only
  split
  · exact yields_error
  · exact yields_error
  · rename_i details allowed _
    refine (yields_update _).bind ?_
    rintro _ middle ⟨rfl, _⟩
    refine (yields_claim service call).bind ?_
    intro claimed reached claims
    refine (yields_emitTx service _ _ _ _ _ _).bind ?_
    rintro _ final ⟨record, extended, action, _, appended, rfl⟩
    have actions : record.action = .handleRenamed ∨ record.action = .handleReclaimed := by
      rw [action]
      split
      · exact .inr rfl
      · exact .inl rfl
    refine yields_ok ?_
    rcases claims with
      ⟨existing, member, own, named, quarantined, unique, rfl⟩ |
      ⟨free, after, inserted, unique, current, rfl⟩
    · exact ⟨old, _, record, found, renaming_of_reclaim stored owner active
        differs member own named quarantined unique rfl, actions, appended⟩
    · exact ⟨old, _, record, found, renaming_of_register stored owner
        active differs (room_of_refusal allowed stored differs free)
        current unique inserted, actions, appended⟩

/-- A rename changes nothing, or moves the owner's name with its record. -/
theorem rename_cases (service : HandleService) (call : RenameCall)
    (plan : FaultPlan) (catalog : Catalog) :
    ((∃ failure, (service.rename call plan catalog).1 = .error failure) ∧
      (service.rename call plan catalog).2 = catalog) ∨
    ∃ returned old claimed record, (service.rename call plan catalog).1 = .ok returned ∧
      catalog.activeHandle call.ownerID = some old ∧
      Renaming service call catalog.handles
        (service.rename call plan catalog).2.handles old claimed ∧
      (record.action = .handleRenamed ∨ record.action = .handleReclaimed) ∧
      catalog.auditRecords.insert? record =
        some (service.rename call plan catalog).2.auditRecords := by
  unfold rename
  split
  · exact .inl ⟨⟨_, rfl⟩, rfl⟩
  split
  · exact .inl ⟨⟨_, rfl⟩, rfl⟩
  rcases transact_ensures driverFault (yields_renameTx service call) plan with
    ⟨failure, failed⟩ | ⟨returned, final, committed, old, claimed, record,
      found, renamed, action, appended⟩
  · rw [failed]
    exact .inl ⟨⟨_, rfl⟩, rfl⟩
  · rw [committed]
    exact .inr ⟨returned, old, claimed, record, rfl, found, renamed, action, appended⟩

end Rename

/-! ## Releasing -/

/-- What a release makes of the tables: a hold whose quarantine is over is
dropped, with its record. -/
def Releasing (handle : Handle) (now : Int) (before after : Catalog) : Prop :=
  ∃ row ∈ before.handles, ∃ record, row.id = handle.id ∧ row.quarantineExpired now = true ∧
    after.handles = before.handles.delete (Handle.releasable handle.id now) ∧
    record.action = .handleReleased ∧ record.targetID = handle.id ∧
    before.auditRecords.insert? record = some after.auditRecords

theorem yields_releaseTx (handle : Handle) (now : Int) (details : List (DetailKey × GoString))
    (auditID : AuditRecordID) (recordedAt : Int) :
    (service.releaseTx handle now details auditID recordedAt).Yields handleInterpreter
      (fun _ final => Releasing handle now catalog final) catalog := by
  refine ⟨yields_error, ?_⟩
  simp only [handleInterpreter, execute, Except.map, Program.bind_done, requireUpdated]
  cases selected : catalog.handles.select (Handle.releasable handle.id now) with
  | nil => exact yields_error
  | cons row rest =>
    have member : row ∈ catalog.handles.select (Handle.releasable handle.id now) := by
      rw [selected]
      exact List.mem_cons_self
    obtain ⟨stored, matched⟩ := mem_select.mp member
    simp only [Handle.releasable, Handle.named, Bool.and_eq_true, decide_eq_true_eq] at matched
    rw [if_neg (by simp)]
    refine (yields_emitTx service _ _ _ _ _ _).mono ?_
    rintro _ final ⟨record, extended, action, target, appended, rfl⟩
    exact ⟨row, stored, record, matched.1, matched.2, rfl, action, target, appended⟩

theorem releaseTx_cases (handle : Handle)
    (now : Int) (details : List (DetailKey × GoString)) (draws : SweepDraws) (catalog : Catalog) :
    (transact handleInterpreter driverFault (service.releaseTx handle now
      details draws.auditID draws.recordedAt) draws.plan catalog).2 = catalog ∨
    Releasing handle now catalog (transact handleInterpreter driverFault
      (service.releaseTx handle now details draws.auditID draws.recordedAt)
      draws.plan catalog).2 := by
  rcases transact_ensures driverFault (yields_releaseTx service handle now
      details draws.auditID draws.recordedAt) draws.plan with
    ⟨failure, failed⟩ | ⟨value, final, committed, released⟩
  · refine .inl ?_
    rw [failed]
  · refine .inr ?_
    rw [committed]
    exact released

theorem mem_delete_releasable {id : HandleID} {now : Int} {row : Handle} :
    row ∈ handles.delete (Handle.releasable id now) ↔
      row ∈ handles ∧ ¬ (row.id = id ∧ row.quarantineExpired now = true) := by
  rw [mem_delete, ← Bool.not_eq_true, Handle.releasable, Handle.named,
    Bool.and_eq_true, decide_eq_true_eq]

/-! ## Sweeping -/

section Sweeps

variable {service : HandleService} {now : Int} {step : Catalog → Catalog → Prop}

variable (released : ∀ (catalog : Catalog) (handle : Handle)
  (details : List (DetailKey × GoString)) (draws : SweepDraws),
  step catalog (transact handleInterpreter driverFault (service.releaseTx
    handle now details draws.auditID draws.recordedAt) draws.plan catalog).2)

include released

theorem releaseEach_steps (listed : List (Handle × SweepDraws)) (count : Nat) (catalog : Catalog) :
    Relation.ReflTransGen step catalog (service.releaseEach now listed count catalog).2 := by
  induction listed generalizing count catalog with
  | nil => exact .refl
  | cons first rest induction =>
    obtain ⟨handle, draws⟩ := first
    unfold releaseEach
    split
    · exact .refl
    rename_i details _
    have single := released catalog handle details draws
    split
    · rename_i failure unchanged outcome
      rw [outcome] at single
      split
      · exact .head single (induction count _)
      · exact .single single
    · rename_i committed outcome
      rw [outcome] at single
      exact .head single (induction (count + 1) _)

theorem releaseExpired_steps (limit : Int) (faulted : Bool)
    (draws : Handle → SweepDraws) (catalog : Catalog) :
    Relation.ReflTransGen step catalog
      (service.releaseExpired limit now faulted draws catalog).2 := by
  have unchanged : ((listExpiredQuarantine now limit).run
      handleInterpreter [faulted] catalog).2 = catalog := by
    unfold listExpiredQuarantine
    split
    · rfl
    · cases faulted <;> rfl
  unfold releaseExpired
  split
  · rename_i failure reached outcome
    rw [outcome] at unchanged
    cases unchanged
    exact .refl
  · rename_i expired reached outcome
    rw [outcome] at unchanged
    cases unchanged
    exact releaseEach_steps released _ 0 _

end Sweeps

end Vallet.Publishing
