import Vallet.Publishing.FoldRecompute
import Vallet.Publishing.HandleLife

/-!
# Look-alikes after a recompute

What the pass holds for review has no skeleton in the index, so the index
keeps two active names apart only as long as no such hold is taken back.  A
rename may take back any hold of its owner, and it does not look at why the
name is held.
-/

namespace Vallet.Publishing

open Audit Auth Effects Relational

/-- The transactions that run after the pass, when renames are subject to a
condition. -/
inductive HandleStep (service : HandleService)
    (allowed : RenameCall → Prop) : Catalog → Catalog → Prop where
  | rename {catalog : Catalog} (call : RenameCall) (plan : FaultPlan) (permitted : allowed call) :
      HandleStep service allowed catalog (service.rename call plan catalog).2
  | release {catalog : Catalog} (handle : Handle) (now : Int)
      (details : List (DetailKey × GoString)) (draws : HandleService.SweepDraws) :
      HandleStep service allowed catalog
        (transact handleInterpreter driverFault (service.releaseTx handle now
          details draws.auditID draws.recordedAt) draws.plan catalog).2

def HandleRuns (service : HandleService) (allowed : RenameCall → Prop) : Catalog → Catalog → Prop :=
  Relation.ReflTransGen (HandleStep service allowed)

/-- The name asked for is not one of the owner's that an older row reads the
same as. -/
def Spares (folds : FoldTable) (initial : Table Handle.id) (call : RenameCall) : Prop :=
  ∀ row ∈ initial.rows, Lookalike folds initial row →
    row.ownerID = call.ownerID → row.name ≠ call.name

instance (folds : FoldTable) (initial : Table Handle.id) :
    DecidablePred (Spares folds initial) := fun _ =>
  inferInstanceAs (Decidable (∀ row ∈ initial.rows, _))

/-! ## What the steps preserve -/

/-- Every name is in the index under its skeleton or held for review, and what
was retired is not active. -/
structure Guarded (folds : FoldTable) (initial : Table Handle.id)
    (handles : Table Handle.id) : Prop where
  unique : handles.Unique Handle.clashes
  folded : ∀ row ∈ handles, row.nameFold = folds.skeleton row.name ∨ Detained folds initial row
  retired : ∀ old ∈ initial, old.state = .retired →
    ∃ row ∈ handles, row.id = old.id ∧ (row.state = .retired ∨ Detained folds initial row)

section Steps

variable {service : HandleService} {folds : FoldTable} {initial : Table Handle.id}

theorem Refolded.guarded {handles : Table Handle.id}
    (refolded : Refolded folds initial [] handles) :
    Guarded folds initial handles where
  unique := refolded.unique
  folded row stored := by
    obtain ⟨_, _, _, _, _, ⟨_, waiting | folded⟩ | detained⟩ := refolded.rows row stored
    · cases waiting
    · exact .inl folded
    · exact .inr detained
  retired old stored retired := by
    obtain ⟨row, member, same⟩ := refolded.kept old stored
    obtain ⟨other, otherStored, sameID, _, _, standing⟩ := refolded.rows row member
    obtain rfl := Table.eq_of_key_eq otherStored stored (sameID.symm.trans same)
    exact ⟨row, member, same, standing.imp_left fun kept =>
      kept.1.trans retired⟩

variable {row : Handle}

section

variable (detained : Detained folds initial row)

include detained

theorem Detained.not_active : row.state ≠ .active := by
  obtain ⟨_, _, _, _, _, _, quarantined, _⟩ := detained
  rw [quarantined]
  nofun

theorem Detained.not_expired (now : Int) : row.quarantineExpired now = false := by
  obtain ⟨_, _, _, _, _, _, _, indefinite⟩ := detained
  simp [Handle.quarantineExpired, indefinite]

/-- A rename that spares the look-alikes takes back no hold of the pass. -/
theorem Detained.not_reclaimed {call : RenameCall} (spared : Spares folds initial call)
    (owner : row.ownerID = call.ownerID) : row.name ≠ call.name := by
  obtain ⟨old, stored, lookalike, _, name, sameOwner, _, _⟩ := detained
  rw [name]
  exact spared old stored lookalike (sameOwner.symm.trans owner)

end

theorem Guarded.rename {before after : Table Handle.id} {call : RenameCall}
    {old claimed : Handle} (guarded : Guarded service.folds initial before)
    (renamed : Renaming service call before after old claimed)
    (spared : Spares service.folds initial call) : Guarded service.folds initial after := by
  -- No row that stands for a retired or held name is one of the two that move.
  have stays : ∀ row ∈ before, row.state = .retired ∨
      Detained service.folds initial row → row ∈ after := by
    intro row stored idle
    refine (renamed.rows row).mpr (.inl ⟨stored, fun same => ?_,
      fun same => ?_⟩)
    · obtain rfl := Table.eq_of_key_eq stored renamed.stored same
      rcases idle with retired | detained
      · rw [renamed.active] at retired
        cases retired
      · exact detained.not_active renamed.active
    · rcases renamed.claim with
        ⟨existing, member, _, own, named, quarantined, rfl⟩ | ⟨_, absent, _⟩
      · obtain rfl := Table.eq_of_key_eq stored member same
        rcases idle with retired | detained
        · rw [quarantined] at retired
          cases retired
        · exact detained.not_reclaimed spared own named
      · exact absent row stored same
  refine ⟨renamed.unique, fun row stored => ?_, fun retired stored state => ?_⟩
  · rcases (renamed.rows row).mp stored with ⟨kept, _, _⟩ | rfl | rfl
    · exact guarded.folded row kept
    · refine .inl ((guarded.folded old renamed.stored).resolve_right ?_)
      exact fun detained => detained.not_active renamed.active
    · rcases renamed.claim with
        ⟨existing, member, _, own, named, _, rfl⟩ | ⟨rfl, _, _⟩
      · refine .inl ((guarded.folded existing member).resolve_right ?_)
        exact fun detained => detained.not_reclaimed spared own named
      · exact .inl rfl
  · obtain ⟨row, member, same, idle⟩ := guarded.retired retired stored state
    exact ⟨row, stays row member idle, same, idle⟩

variable {before after : Catalog}

theorem Guarded.release {handle : Handle} {now : Int}
    (guarded : Guarded folds initial before.handles)
    (released : Releasing handle now before after) : Guarded folds initial after.handles := by
  obtain ⟨_, _, _, _, _, deleted, _, _, _⟩ := released
  rw [deleted]
  refine ⟨Table.Unique.delete guarded.unique _, fun row stored => ?_,
    fun retired stored state => ?_⟩
  · exact guarded.folded row (mem_delete_releasable.mp stored).1
  obtain ⟨row, member, same, idle⟩ := guarded.retired retired stored state
  refine ⟨row, mem_delete_releasable.mpr ⟨member, ?_⟩, same, idle⟩
  rintro ⟨_, expired⟩
  rcases idle with retired | detained
  · simp [Handle.quarantineExpired, retired] at expired
  · rw [detained.not_expired now] at expired
    cases expired

section

variable (guarded : Guarded service.folds initial before.handles)

include guarded

theorem Guarded.step (step : HandleStep service (Spares service.folds initial) before after) :
    Guarded service.folds initial after.handles := by
  cases step with
  | rename call plan spared =>
    rcases rename_cases service call plan before with
      ⟨_, unchanged⟩ | ⟨_, _, _, _, _, _, renamed, _, _⟩
    · rw [unchanged]
      exact guarded
    · exact guarded.rename renamed spared
  | release handle now details draws =>
    rcases releaseTx_cases service handle now details draws before with
      unchanged | released
    · rw [unchanged]
      exact guarded
    · exact guarded.release released

theorem Guarded.runs (runs : HandleRuns service (Spares service.folds initial) before after) :
    Guarded service.folds initial after.handles := by
  induction runs with
  | refl => exact guarded
  | tail _ step induction => exact induction.step step

end

end Steps

/-! ## Whole runs -/

/-- No two active names of different owners read the same, and no name that
was retired is active. -/
structure Apart (folds : FoldTable) (initial : Table Handle.id)
    (handles : Table Handle.id) : Prop where
  skeletons : ∀ row ∈ handles.rows, ∀ other ∈ handles.rows,
    row.state = .active → other.state = .active →
    row.ownerID ≠ other.ownerID →
    folds.skeleton row.name ≠ folds.skeleton other.name
  retired : ∀ old ∈ initial.rows, old.state = .retired →
    ∀ row ∈ handles.rows, row.id = old.id → row.state ≠ .active

theorem Guarded.apart {folds : FoldTable} {initial handles : Table Handle.id}
    (guarded : Guarded folds initial handles) :
    Apart folds initial handles where
  skeletons row stored other otherStored active otherActive different same := by
    have fold : ∀ handle ∈ handles, handle.state = .active →
        handle.nameFold = folds.skeleton handle.name :=
      fun handle member state => (guarded.folded handle member).resolve_right
        fun detained => detained.not_active state
    have apart := guarded.unique row stored other otherStored fun sameID =>
      different (congrArg Handle.ownerID (Table.eq_of_key_eq stored otherStored sameID))
    simp [Handle.clashes, fold row stored active, fold other otherStored otherActive, same] at apart
  retired old stored retired row member same active := by
    obtain ⟨kept, keptMember, keptSame, idle⟩ := guarded.retired old stored retired
    obtain rfl := Table.eq_of_key_eq member keptMember (same.trans keptSame.symm)
    rcases idle with still | detained
    · rw [active] at still
      cases still
    · exact detained.not_active active

namespace Sample

/-- What the skeleton does to the letters of a slug. -/
def foldLetter (letter : UInt8) : Option UInt8 :=
  if letter = 45 then none
  else if letter = 48 then some 111
  else if letter = 49 then some 105
  else if letter = 51 then some 101
  else if letter = 52 then some 97
  else if letter = 53 then some 115
  else if letter = 55 then some 116
  else some letter

def folds : FoldTable where
  skeleton := fun name => name.filterMap foldLetter
  version := 6

def foldingService : HandleService := { handleService with folds := folds }

def recomputer : Recomputer := ⟨handleService.emitter, folds⟩

/-- A row from before the index of skeletons. -/
def backfilled (owner name : String) (state : NameState) (createdAt : Int) : Handle :=
  { handle owner name with
    state := state
    createdAt := createdAt
    updatedAt := createdAt
    foldVersion := 0 }

/-- Two owners, and a withdrawn name that reads like one in use. -/
def backfilledCatalog : Catalog :=
  { catalog with
    owners := (catalog.owners.insert? {
      id := utf8 "rowan", status := .active, createdAt := 0, updatedAt := 0,
      deletedAt := none }).getD .empty
    handles := (((Table.empty.insert? (backfilled "rowan" "oak" .active 1)).bind fun table =>
      table.insert? (backfilled "olive" "olive" .active 2)).bind fun table =>
      table.insert? (backfilled "olive" "0ak" .retired 3)).getD .empty }

def recomputed : Except Err Unit × Catalog :=
  recomputer.run (fun id => utf8 "fold " ++ id) 5 false {} backfilledCatalog

/-- The withdrawn name is asked for again. -/
def takenBack : Except Err Handle × Catalog :=
  foldingService.rename (renameCall "olive" "0ak" 65 a_known 10) {} recomputed.2

def movedOn : Except Err Handle × Catalog :=
  foldingService.rename (renameCall "olive" "elm" 65 a_known 10) {} recomputed.2

end Sample

open Sample

/-- The hold of a look-alike can be taken back, also when the name had been
retired: then two active names read the same. -/
theorem lookalike_taken_back : backfilledCatalog.handles.Unique Handle.clashes ∧
      (∀ row ∈ backfilledCatalog.handles.rows, row.foldVersion ≠ recomputer.folds.version) ∧
      recomputed.1 = .ok () ∧
      HandleRuns foldingService (fun _ => True) recomputed.2 takenBack.2 ∧
      (∃ row ∈ takenBack.2.handles.rows,
        ∃ other ∈ takenBack.2.handles.rows, row.state = .active ∧ other.state = .active ∧
          row.ownerID ≠ other.ownerID ∧
          folds.skeleton row.name = folds.skeleton other.name) ∧
      ∃ old ∈ backfilledCatalog.handles.rows, old.state = .retired ∧
        ∃ row ∈ takenBack.2.handles.rows, row.id = old.id ∧ row.state = .active := by
  refine ⟨by decide +kernel, by decide +kernel, by decide +kernel, ?_,
    by decide +kernel, by decide +kernel⟩
  exact .single (.rename _ {} trivial)

/-- After a pass, renames that take back no look-alike leave the look-alikes
apart. -/
theorem lookalikes_stay_apart (service : HandleService) (emitter : Emitter)
    (auditID : HandleID → AuditRecordID) (now : Int) (faulted : Bool)
    (plan : FaultPlan) {initial final : Catalog} (unique : initial.handles.Unique Handle.clashes)
    (stale : ∀ row ∈ initial.handles, row.foldVersion ≠ service.folds.version)
    (passed : (Recomputer.run ⟨emitter, service.folds⟩ auditID now faulted
      plan initial).1 = .ok ()) (runs : HandleRuns service (Spares service.folds initial.handles)
      (Recomputer.run ⟨emitter, service.folds⟩ auditID now faulted plan initial).2 final) :
    Apart service.folds initial.handles final.handles :=
  ((run_refolded unique stale passed).guarded.runs runs).apart

/-- The owner of the look-alike moves to another name instead. -/
theorem lookalikes_stay_apart_moved :
    (movedOn.2.handles.rows.map fun row => (row.name, row.state)) =
        [(utf8 "oak", .active), (utf8 "olive", .quarantined),
          (utf8 "0ak", .quarantined), (utf8 "elm", .active)] ∧
      Apart folds backfilledCatalog.handles movedOn.2.handles := by
  refine ⟨by decide +kernel, ?_⟩
  exact lookalikes_stay_apart foldingService
    handleService.emitter (fun id => utf8 "fold " ++ id) 5 false {}
    (by decide +kernel) (show ∀ row ∈ backfilledCatalog.handles.rows, _ by decide +kernel)
    (by decide +kernel) (.single (.rename _ {} (by decide +kernel)))

end Vallet.Publishing
