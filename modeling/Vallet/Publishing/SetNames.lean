import Vallet.Publishing.KeySetLife

/-!
# The names of key sets over time

A rename leaves a tombstone that nothing ever removes, so the name is refused
from then on; a delete leaves nothing, so the name can be taken again at once.
-/

namespace Vallet.Publishing

open Audit Auth Effects Relational Table

/-! ## Tombstones -/

/-- A row of the owner holds the name without serving it. -/
def Catalog.HoldsName (catalog : Catalog) (ownerID : OwnerID) (name : GoString) : Prop :=
  ∃ set ∈ catalog.keySets, set.ownerID = ownerID ∧ set.name = name ∧ set.state ≠ .active

/-- An active set of the owner has the name. -/
def Catalog.ServesName (catalog : Catalog) (ownerID : OwnerID) (name : GoString) : Prop :=
  ∃ set ∈ catalog.keySets, set.ownerID = ownerID ∧ set.name = name ∧ set.state = .active

instance (catalog : Catalog) (ownerID : OwnerID) (name : GoString) :
    Decidable (catalog.ServesName ownerID name) :=
  inferInstanceAs (Decidable (∃ set ∈ catalog.keySets.rows, _))

namespace SetChange

variable {service : KeySetService} {operation : SetOperation} {before after : Catalog}

/-- No change is about a row that is not active, other than its
designation. -/
theorem holdsName (change : SetChange service operation before after)
    {ownerID : OwnerID} {name : GoString} (earlier : before.HoldsName ownerID name) :
    after.HoldsName ownerID name := by
  obtain ⟨set, stored, owner, named, resting⟩ := earlier
  have differs : ∀ {whose : OwnerID} {id : KeySetID} {target : KeySet},
      Addressed whose id target before → set.id ≠ target.id := by
    intro whose id target addressed same
    refine resting ?_
    rw [eq_of_key_eq stored addressed.stored same]
    exact addressed.active
  cases change with
  | created creation =>
    exact ⟨set, (mem_insert creation.inserted).mpr (.inl stored), owner, named, resting⟩
  | renamed replacement =>
    exact ⟨set, (replacement.sets set).mpr
      (.inl ⟨stored, differs replacement.toAddressed⟩), owner, named, resting⟩
  | deleted deletion =>
    refine ⟨set, ?_, owner, named, resting⟩
    rw [deletion.rest]
    refine mem_delete.mpr ⟨stored, ?_⟩
    exact Bool.eq_false_of_not_eq_true fun owned =>
      differs deletion.toAddressed ((KeySet.ownedBy_iff.mp owned).1.trans deletion.id.symm)
  | designated designation =>
    rw [designation.rest]
    refine ⟨_, mem_moveDefault.mpr ⟨set, stored, rfl⟩, ?_⟩
    split
    all_goals exact ⟨owner, named, resting⟩
  | shown showing =>
    exact ⟨set, (showing.sets set).mpr
      (.inl ⟨stored, differs showing.toAddressed⟩), owner, named, resting⟩
  | joined | left => exact ⟨set, stored, owner, named, resting⟩

end SetChange

variable {catalog : Catalog} {ownerID : OwnerID} {name : GoString}
  {set : KeySet} {service : KeySetService}

theorem KeySetService.performAll_holdsName (service : KeySetService)
    (attempts : List SetAttempt) (held : catalog.HoldsName ownerID name) :
    (service.performAll attempts catalog).HoldsName ownerID name := by
  refine performAll_keeps (fun reached => reached.HoldsName ownerID name)
    (fun change earlier => change.holdsName earlier)
    (fun {before after} logged earlier => ?_) attempts held
  rw [logged.rest]
  exact earlier

/-- The operation would give a set of the owner the name. -/
def SetOperation.Claims (ownerID : OwnerID) (name : GoString) : SetOperation → Prop
  | .create call => call.ownerID = ownerID ∧ call.name = name
  | .rename call => call.ownerID = ownerID ∧ call.name = name
  | _ => False

theorem KeySetService.claim_refused (service : KeySetService)
    (held : catalog.HoldsName ownerID name) {attempt : SetAttempt}
    (claims : attempt.operation.Claims ownerID name) :
    ∃ failure, service.perform attempt catalog = (.error failure, catalog) := by
  obtain ⟨set, stored, owner, named, _⟩ := held
  rcases service.perform_cases attempt catalog with
    failed | ⟨committed, change, _⟩
  · exact failed
  generalize attempt.operation = operation at claims change
  cases change with
  | created creation =>
    obtain ⟨rfl, rfl⟩ := claims
    exact (creation.free stored owner named).elim
  | renamed replacement =>
    obtain ⟨rfl, rfl⟩ := claims
    exact (replacement.free stored owner named).elim
  | _ => exact claims.elim

/-! ## How a name stops being served -/

/-- The operation takes a set of the owner away from the name. -/
def SetOperation.Leaves (ownerID : OwnerID) (name : GoString)
    (catalog : Catalog) : SetOperation → Prop
  | .rename call => ∃ set ∈ catalog.keySets, set.id = call.id ∧
      set.ownerID = ownerID ∧ set.name = name
  | _ => False

namespace SetChange

variable {service : KeySetService} {operation : SetOperation}
  {before after : Catalog} {ownerID : OwnerID} {name : GoString}

/-- A name stops being served when its set is renamed, and is then held, or
when its set is deleted, and is then free. -/
theorem servesName (change : SetChange service operation before after)
    (unique : before.keySets.Unique KeySet.clashes) (earlier : before.ServesName ownerID name) :
    after.ServesName ownerID name ∨
      ((∃ call, operation = .rename call) ∧ after.HoldsName ownerID name) ∨
      ((∃ call, operation = .delete call) ∧ ∀ set ∈ after.keySets,
        set.ownerID = ownerID → set.name ≠ name) := by
  obtain ⟨set, stored, owner, named, active⟩ := earlier
  cases change with
  | created creation =>
    exact .inl ⟨set, (mem_insert creation.inserted).mpr (.inl stored), owner, named, active⟩
  | @renamed call old _ _ replacement =>
    by_cases same : set.id = old.id
    · obtain rfl := eq_of_key_eq stored replacement.stored same
      exact .inr (.inl ⟨⟨call, rfl⟩, _, (replacement.sets _).mpr (.inr (.inl rfl)), owner, named,
        nofun⟩)
    · exact .inl ⟨set, (replacement.sets set).mpr (.inl ⟨stored, same⟩), owner, named, active⟩
  | @deleted call dropped _ _ deletion =>
    by_cases same : set.id = dropped.id
    · obtain rfl := eq_of_key_eq stored deletion.stored same
      refine .inr (.inr ⟨⟨call, rfl⟩, fun other kept whose called => ?_⟩)
      rw [deletion.rest] at kept
      obtain ⟨otherStored, foreign⟩ := mem_delete.mp kept
      have differs : other.id ≠ set.id := by
        intro sameID
        rw [eq_of_key_eq otherStored stored sameID] at foreign
        rw [KeySet.ownedBy_iff.mpr ⟨deletion.id, deletion.owner⟩] at foreign
        cases foreign
      have apart := unique other otherStored set stored differs
      simp [KeySet.clashes, whose, called, owner, named] at apart
    · refine .inl ⟨set, ?_, owner, named, active⟩
      rw [deletion.rest]
      refine mem_delete.mpr ⟨stored, ?_⟩
      exact Bool.eq_false_of_not_eq_true fun owned =>
        same ((KeySet.ownedBy_iff.mp owned).1.trans deletion.id.symm)
  | designated designation =>
    rw [designation.rest]
    refine .inl ⟨_, mem_moveDefault.mpr ⟨set, stored, rfl⟩, ?_⟩
    split
    all_goals exact ⟨owner, named, active⟩
  | @shown call visibility target _ _ showing =>
    by_cases same : set.id = target.id
    · obtain rfl := eq_of_key_eq stored showing.stored same
      exact .inl ⟨_, (showing.sets _).mpr (.inr rfl), owner, named, active⟩
    · exact .inl ⟨set, (showing.sets set).mpr (.inl ⟨stored, same⟩), owner, named, active⟩
  | joined | left => exact .inl ⟨set, stored, owner, named, active⟩

/-- Only a rename makes a tombstone. -/
theorem holdsName_cases (change : SetChange service operation before after)
    (later : after.HoldsName ownerID name) :
    before.HoldsName ownerID name ∨ operation.Leaves ownerID name before := by
  obtain ⟨set, stored, owner, named, resting⟩ := later
  cases change with
  | created creation =>
    rcases (mem_insert creation.inserted).mp stored with kept | rfl
    · exact .inl ⟨set, kept, owner, named, resting⟩
    · exact (resting rfl).elim
  | renamed replacement =>
    rcases (replacement.sets set).mp stored with ⟨kept, _⟩ | rfl | rfl
    · exact .inl ⟨set, kept, owner, named, resting⟩
    · exact .inr ⟨_, replacement.stored, replacement.id, owner, named⟩
    · exact (resting rfl).elim
  | deleted deletion =>
    rw [deletion.rest] at stored
    exact .inl ⟨set, (mem_delete.mp stored).1, owner, named, resting⟩
  | designated designation =>
    rw [designation.rest] at stored
    obtain ⟨previous, kept, rfl⟩ := mem_moveDefault.mp stored
    refine .inl ⟨previous, kept, ?_⟩
    split at owner
    · rename_i mine
      rw [if_pos mine] at named resting
      exact ⟨owner, named, resting⟩
    · rename_i foreign
      rw [if_neg foreign] at named resting
      exact ⟨owner, named, resting⟩
  | shown showing =>
    rcases (showing.sets set).mp stored with ⟨kept, _⟩ | rfl
    · exact .inl ⟨set, kept, owner, named, resting⟩
    · exact (resting showing.active).elim
  | joined | left => exact .inl ⟨set, stored, owner, named, resting⟩

end SetChange

/-- No operation of the run takes a set of the owner away from the name. -/
def KeySetService.Stays (service : KeySetService) (ownerID : OwnerID)
    (name : GoString) : List SetAttempt → Catalog → Prop
  | [], _ => True
  | attempt :: rest, catalog =>
    ¬ attempt.operation.Leaves ownerID name catalog ∧
      service.Stays ownerID name rest (service.perform attempt catalog).2

theorem KeySetService.not_holdsName_of_stays (service : KeySetService) (attempts : List SetAttempt)
    (stays : service.Stays ownerID name attempts catalog)
    (free : ¬ catalog.HoldsName ownerID name) :
    ¬ (service.performAll attempts catalog).HoldsName ownerID name := by
  induction attempts generalizing catalog with
  | nil => exact free
  | cons attempt rest induction =>
    obtain ⟨stay, later⟩ := stays
    have step : ¬ (service.perform attempt catalog).2.HoldsName ownerID name := by
      intro held
      rcases service.perform_cases attempt catalog with
        ⟨failure, failed⟩ | ⟨committed, change, logged⟩
      · rw [failed] at held
        exact free held
      · rw [logged.rest] at held
        rcases change.holdsName_cases held with earlier | leaves
        · exact free earlier
        · exact stay leaves
    exact induction later step

/-! ## Creating a set under a free name -/

/-- The owner may create the set and the record of it can be appended. -/
structure Creatable (service : KeySetService) (call : CreateSetCall)
    (catalog : Catalog) : Prop where
  named : call.ownerID ≠ []
  registered : ∃ owner ∈ catalog.owners, owner.id = call.ownerID
  allowed : service.guard call.name = .ok ()
  room : catalog.countKeySets call.ownerID < service.maxSets
  fresh : ∀ set ∈ catalog.keySets, set.id ≠ call.id.text
  recordable : ∃ details record, service.setDetails call.name call.requestID = .ok details ∧
      service.emitter.record (KeySetService.event .keySetCreated call.ownerID
        call.id.text details) call.auditID call.now = .ok record ∧
      ∀ other ∈ catalog.auditRecords, other.id ≠ call.auditID

/-- A set that is not a default clashes only by its name. -/
theorem unique_insert_of_free {sets extended : Table KeySet.id}
    (unique : sets.Unique KeySet.clashes) (inserted : sets.insert? set = some extended)
    (plain : set.isDefault = false)
    (free : ∀ row ∈ sets, row.ownerID = set.ownerID → row.name ≠ set.name) :
    extended.Unique KeySet.clashes := by
  have apart : ∀ row ∈ sets, KeySet.clashes row set = false := by
    intro row stored
    by_cases mine : row.ownerID = set.ownerID
    · simp [KeySet.clashes, mine, plain, free row stored mine]
    · simp [KeySet.clashes, mine]
  intro left leftStored right rightStored differs
  rcases (mem_insert inserted).mp leftStored with leftKept | rfl
  · rcases (mem_insert inserted).mp rightStored with rightKept | rfl
    · exact unique left leftKept right rightKept differs
    · exact apart left leftKept
  · rcases (mem_insert inserted).mp rightStored with rightKept | rfl
    · rw [KeySet.clashes_comm]
      exact apart right rightKept
    · exact (differs rfl).elim

theorem Catalog.insertKeySet_of_free (unique : catalog.keySets.Unique KeySet.clashes)
    (fresh : ∀ row ∈ catalog.keySets, row.id ≠ set.id) (plain : set.isDefault = false)
    (registered : ∃ owner ∈ catalog.owners, owner.id = set.ownerID)
    (free : ∀ row ∈ catalog.keySets, row.ownerID = set.ownerID → row.name ≠ set.name) :
    ∃ extended, catalog.insertKeySet set = (.inserted, { catalog with keySets := extended }) := by
  obtain ⟨extended, inserted⟩ := Option.isSome_iff_exists.mp (insert?_isSome_iff.mpr fresh)
  obtain ⟨owner, stored, owned⟩ := registered
  have known : (catalog.owners.find? set.ownerID) = some owner :=
    find?_eq_some_iff.mpr ⟨stored, owned⟩
  refine ⟨extended, ?_⟩
  simp [Catalog.insertKeySet, inserted, known, unique_insert_of_free unique inserted plain free]

theorem KeySetService.createLocked_of_free {reached : Catalog}
    (room : catalog.countKeySets set.ownerID < service.maxSets)
    (inserted : catalog.insertKeySet set = (.inserted, reached)) :
    (service.createLocked set.ownerID set).run keySetInterpreter [] catalog =
      (.ok (), reached) := by
  have below : ¬ catalog.countKeySets set.ownerID ≥ service.maxSets := by
    omega
  have locked : (KeySetRepository.lockOwnerForCreate service.engine
      set.ownerID).run keySetInterpreter [] catalog = (.ok (), catalog) := by
    cases service.engine with
    | sqlite | postgres => rfl
  have counted : (KeySetRepository.countByOwner set.ownerID).run keySetInterpreter [] catalog =
        (.ok (catalog.countKeySets set.ownerID), catalog) := rfl
  have created : (KeySetRepository.create set).run keySetInterpreter []
      catalog = (.ok (), reached) := by
    simp only [KeySetRepository.create, Program.ask_bind, Program.run_issue,
      Program.reply_false, List.headD_nil, keySetInterpreter, KeySetStatement.execute, inserted]
    rfl
  unfold createLocked
  rw [Program.run_bind_nil, locked]
  simp only
  rw [Program.run_bind_nil, counted]
  simp only [below, if_false]
  rw [Program.run_bind_nil, created]
  rfl

/-- Without faults, a set whose name no row of the owner has is created. -/
theorem KeySetService.create_of_free {call : CreateSetCall}
    (creatable : Creatable service call catalog) (unique : catalog.keySets.Unique KeySet.clashes)
    (free : ∀ set ∈ catalog.keySets, set.ownerID = call.ownerID → set.name ≠ call.name) :
    (service.create call {} [] catalog).1 = .ok call.created := by
  obtain ⟨details, record, accepted, recorded, newRecord⟩ := creatable.recordable
  obtain ⟨extended, inserted⟩ : ∃ extended, catalog.insertKeySet call.created =
      (.inserted, { catalog with keySets := extended }) :=
    Catalog.insertKeySet_of_free unique creatable.fresh rfl creatable.registered free
  have body : (service.createTx call details).run keySetInterpreter []
      catalog = (.ok ⟨call.created, call.created.id, details⟩,
        { catalog with keySets := extended }) := by
    have locked : (service.createLocked call.ownerID call.created).run
        keySetInterpreter [] catalog = (.ok (), { catalog with keySets := extended }) :=
      createLocked_of_free creatable.room inserted
    rw [createTx, Program.run_bind_nil, locked]
    rfl
  have committed : service.commitCreate call {} catalog =
      (.ok ⟨call.created, call.created.id, details⟩, { catalog with keySets := extended }) := by
    rw [commitCreate, if_neg creatable.named, creatable.allowed]
    simp only [accepted, commit, transact_commits body]
  obtain ⟨logged, appended⟩ := Option.isSome_iff_exists.mp
    (insert?_isSome_iff.mpr fun other stored =>
      (Emitter.record_ok recorded).1 ▸ newRecord other stored)
  have emitted : (service.emitter.emit KeySetStatement.appendAudit
      (event .keySetCreated call.ownerID call.created.id details) call.auditID
      call.now).run keySetInterpreter [] { catalog with keySets := extended } =
      (.ok (), { catalog with keySets := extended, auditRecords := logged }) :=
    run_emit_catalog (fun _ _ => rfl) recorded appended
  rw [create, committed]
  simp only [emit, emitted]

/-! ## The quarantine of names -/

section Quarantine

variable {service : KeySetService} {initial : Catalog} {attempt : SetAttempt}
  {ownerID : OwnerID} {name : GoString}

/-- A name that stops being served is held if its set was renamed and free if
its set was deleted. -/
theorem KeySetService.perform_servesName {catalog : Catalog}
    (unique : catalog.keySets.Unique KeySet.clashes) (served : catalog.ServesName ownerID name)
    (stopped : ¬ (service.perform attempt catalog).2.ServesName ownerID name) :
    ((∃ call, attempt.operation = .rename call) ∧
      (service.perform attempt catalog).2.HoldsName ownerID name) ∨
    ((∃ call, attempt.operation = .delete call) ∧
      ¬ (service.perform attempt catalog).2.HoldsName ownerID name) := by
  rcases service.perform_cases attempt catalog with
    ⟨failure, failed⟩ | ⟨committed, change, logged⟩
  · rw [failed] at stopped
    exact (stopped served).elim
  · rw [logged.rest] at stopped ⊢
    rcases change.servesName unique served with
      still | ⟨renamed, held⟩ | ⟨deleted, free⟩
    · exact (stopped still).elim
    · exact .inl ⟨renamed, held⟩
    · refine .inr ⟨deleted, ?_⟩
      rintro ⟨set, stored, owner, named, _⟩
      exact free set stored owner named

/-- A name given up by a rename is refused from then on.  A name given up by a
delete can be taken again as long as no rename gives it up later. -/
theorem set_names_quarantined (service : KeySetService)
    (earlier later : List SetAttempt) (attempt : SetAttempt) (sound : SetsSound initial)
    (served : (service.performAll earlier initial).ServesName ownerID name)
    (stopped : ¬ (service.perform attempt
      (service.performAll earlier initial)).2.ServesName ownerID name) :
    let vacated :=
      (service.perform attempt (service.performAll earlier initial)).2
    let reached := service.performAll later vacated
    ((∃ call, attempt.operation = .rename call) ∨ ∃ call, attempt.operation = .delete call) ∧
    ((∃ call, attempt.operation = .rename call) →
      ∀ claim : SetAttempt, claim.operation.Claims ownerID name →
        ∃ failure, service.perform claim reached = (.error failure, reached)) ∧
    ((∃ call, attempt.operation = .delete call) → service.Stays ownerID name later vacated →
      ∀ call : CreateSetCall, call.ownerID = ownerID → call.name = name →
        ¬ reached.ServesName ownerID name → Creatable service call reached →
        (service.create call {} [] reached).1 = .ok call.created) := by
  intro vacated reached
  have soundBefore : SetsSound (service.performAll earlier initial) :=
    KeySetService.performAll_sound earlier sound
  have soundReached : SetsSound reached :=
    KeySetService.performAll_sound (attempt :: later) soundBefore
  have how := KeySetService.perform_servesName soundBefore.unique served stopped
  refine ⟨?_, ?_, ?_⟩
  · exact how.imp And.left And.left
  · rintro ⟨call, renamed⟩ claim claims
    rcases how with ⟨_, held⟩ | ⟨⟨other, deleted⟩, _⟩
    · exact service.claim_refused (service.performAll_holdsName later held) claims
    · rw [renamed] at deleted
      cases deleted
  · rintro ⟨call, deleted⟩ stays create rfl rfl unserved creatable
    rcases how with ⟨⟨other, renamed⟩, _⟩ | ⟨_, free⟩
    · rw [deleted] at renamed
      cases renamed
    · have unheld := service.not_holdsName_of_stays later stays free
      refine KeySetService.create_of_free creatable soundReached.unique ?_
      intro set stored owner named
      by_cases active : set.state = .active
      · exact unserved ⟨set, stored, owner, named, active⟩
      · exact unheld ⟨set, stored, owner, named, active⟩

end Quarantine

namespace Sample

def deleteSet (id : KeySetID) (letter : UInt8) (now : Int) : DeleteSetCall where
  ownerID := utf8 "olive"
  id := id
  confirm := false
  requestID := []
  now := now
  auditID := [letter]

/-- A set that is created, and then deleted. -/
def deleted : List SetAttempt :=
  [⟨.create (createSet "home" 65 a_known 10), {}, []⟩,
    ⟨.delete (deleteSet (List.replicate 26 65) 66 20), {}, []⟩]

/-- A set that is created, and then renamed. -/
def renamedSet : List SetAttempt :=
  [⟨.create (createSet "home" 65 a_known 10), {}, []⟩,
    ⟨.rename (renameSet (List.replicate 26 65) "base" 66 b_known 20), {}, []⟩]

end Sample

open Sample

/-- A deleted name is taken again in the window, and a renamed one is refused
after it although no active set has it and the owner has room. -/
theorem set_names_not_quarantined : (Sample.keySetService.create
        (createSet "home" 67 (by decide) 21) {} []
        (Sample.keySetService.performAll Sample.deleted Sample.catalog)).1 =
      .ok (createSet "home" 67 (by decide) 21).created ∧
    (21 : Int) < 20 + Sample.keySetService.quarantine ∧
    (Sample.keySetService.create
        (createSet "home" 67 (by decide) (21 + Sample.keySetService.quarantine)) {} []
        (Sample.keySetService.performAll renamedSet Sample.catalog)).1 = .error duplicateSetName ∧
    ¬ (Sample.keySetService.performAll renamedSet
        Sample.catalog).ServesName (utf8 "olive") (utf8 "home") ∧
    (Sample.keySetService.performAll renamedSet Sample.catalog).countKeySets (utf8 "olive") <
      Sample.keySetService.maxSets := by
  decide +kernel

/-- The deleted name can be taken after the window. -/
theorem set_names_quarantined_deleted :
    let call := createSet "home" 67 (by decide) (21 + Sample.keySetService.quarantine)
    (Sample.keySetService.create call {} []
      (Sample.keySetService.performAll Sample.deleted Sample.catalog)).1 = .ok call.created := by
  have served : (Sample.keySetService.performAll (Sample.deleted.take 1)
      Sample.catalog).ServesName (utf8 "olive") (utf8 "home") := by
    decide +kernel
  have window := set_names_quarantined Sample.keySetService (Sample.deleted.take 1) []
    ⟨.delete (deleteSet (List.replicate 26 65) 66 20), {}, []⟩
    catalog_setsSound served (by decide +kernel)
  refine window.2.2 ⟨_, rfl⟩ trivial _ rfl rfl (by decide +kernel) ?_
  refine ⟨by decide, ⟨_, List.mem_singleton.mpr rfl, rfl⟩, rfl, ?_, ?_, ⟨_, _, rfl, rfl, ?_⟩⟩
  all_goals decide +kernel

end Vallet.Publishing
