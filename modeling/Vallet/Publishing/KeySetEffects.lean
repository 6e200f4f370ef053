import Vallet.Publishing.KeySets

/-!
# What key set calls do to the stored sets

Each transaction that commits has made one change: a set added, a set replaced
by its renamed copy, a set dropped with its members, the designation moved, or
a visibility written.  A transaction that fails has made none; the record of
the change is appended after it and touches no set.
-/

namespace Vallet.KeySet

open Relational

theorem ownedBy_iff {ownerID : OwnerID} {id : KeySetID} {set : KeySet} :
    set.ownedBy ownerID id = true ↔ set.id = id ∧ set.ownerID = ownerID := by
  rw [ownedBy, Bool.and_eq_true, decide_eq_true_eq, decide_eq_true_eq]

theorem designated_self (set : KeySet) : set.designated set.isDefault = set := rfl

theorem mem_update_owned {sets : Table KeySet.id} {target row : KeySet}
    (stored : target ∈ sets) (values : KeySet) (sameID : values.id = target.id)
    (sameOwner : values.ownerID = target.ownerID) :
    row ∈ sets.update (ownedBy values.ownerID values.id) (written values) (id_written values) ↔
      (row ∈ sets ∧ row.id ≠ target.id) ∨ row = written values target := by
  refine Table.mem_update_single stored ?_ ?_
  · exact ownedBy_iff.mpr ⟨sameID.symm, sameOwner.symm⟩
  · exact fun other _ owned => (ownedBy_iff.mp owned).1.trans sameID

end Vallet.KeySet

namespace Vallet.Publishing

open Audit Auth Effects Effects.Program Relational

/-! ## Repository calls -/

variable {catalog before after : Catalog} {ownerID : OwnerID} {id : KeySetID}
  {set row : KeySet} {service : KeySetService}

theorem Catalog.findKeySet_eq_some (found : catalog.findKeySet ownerID id = some set) :
    set ∈ catalog.keySets ∧ set.id = id ∧ set.ownerID = ownerID :=
  (Table.mem_of_head?_select found).imp_right KeySet.ownedBy_iff.mp

theorem Catalog.hasKeySet_of_mem (stored : set ∈ catalog.keySets)
    (sameID : set.id = id) (sameOwner : set.ownerID = ownerID) :
    catalog.hasKeySet ownerID id = true := by
  rw [Catalog.hasKeySet, Catalog.findKeySet, List.isSome_head?]
  exact List.ne_nil_of_mem (Table.mem_select.mpr
    ⟨stored, KeySet.ownedBy_iff.mpr ⟨sameID, sameOwner⟩⟩)

theorem Catalog.exists_of_hasKeySet (known : catalog.hasKeySet ownerID id = true) :
    ∃ set ∈ catalog.keySets, set.id = id ∧ set.ownerID = ownerID := by
  obtain ⟨set, found⟩ := Option.isSome_iff_exists.mp known
  exact ⟨set, Catalog.findKeySet_eq_some found⟩

theorem Catalog.exists_of_hasPublicKey {id : PublicKeyID}
    (known : catalog.hasPublicKey ownerID id = true) :
    ∃ key ∈ catalog.publicKeys, key.id = id ∧ key.ownerID = ownerID := by
  obtain ⟨key, found⟩ := Option.isSome_iff_exists.mp known
  obtain ⟨stored, owned⟩ := Table.mem_of_head?_select found
  rw [PublicKey.ownedBy, Bool.and_eq_true, decide_eq_true_eq, decide_eq_true_eq] at owned
  exact ⟨key, stored, owned⟩

theorem Catalog.mem_members {setID : KeySetID}
    (known : catalog.hasKeySet ownerID setID = true) {row : KeySetMembership} :
    row ∈ catalog.members ownerID setID ↔ row ∈ catalog.keySetMembers ∧ row.keySetID = setID := by
  rw [Catalog.members, if_pos known, List.mem_insertionSort,
    Table.mem_select, KeySetMembership.inSet, decide_eq_true_eq]

/-- Only the given set of the owner is the default. -/
def moveDefault (ownerID : OwnerID) (id : KeySetID) (sets : Table KeySet.id) : Table KeySet.id :=
  sets.update (fun set => decide (set.ownerID = ownerID))
    (fun set => set.designated (decide (set.id = id))) (fun set => set.id_designated _)

theorem moveDefault_eq (ownerID : OwnerID) (id : KeySetID) (sets : Table KeySet.id) :
    moveDefault ownerID id sets =
      (sets.update (KeySet.isDefaultOf ownerID) (KeySet.designated false)
        (KeySet.id_designated false)).update (KeySet.ownedBy ownerID id)
        (KeySet.designated true) (KeySet.id_designated true) := by
  ext1
  simp only [moveDefault, Table.rows_update, List.map_map]
  refine List.map_congr_left fun set _ => ?_
  by_cases mine : set.ownerID = ownerID
  · by_cases same : set.id = id
    · cases standing : set.isDefault <;>
        simp [mine, same, standing, KeySet.isDefaultOf, KeySet.ownedBy, KeySet.designated]
    · cases standing : set.isDefault <;>
        simp [mine, same, standing, KeySet.isDefaultOf, KeySet.ownedBy, KeySet.designated]
      cases set
      simp_all
  · simp [mine, KeySet.isDefaultOf, KeySet.ownedBy]

namespace KeySetRepository

variable {affected : Nat}

variable (ownerID : OwnerID)

theorem ensures_get (id : KeySetID) :
    (get ownerID id).Ensures keySetInterpreter
      (fun result final => final = catalog ∧ ∀ set, result = .ok set →
        catalog.findKeySet ownerID id = some set) catalog := by
  refine ⟨⟨rfl, nofun⟩, rfl, ?_⟩
  intro set result
  cases found : catalog.findKeySet ownerID id with
  | none =>
    simp only [keySetInterpreter, KeySetStatement.execute, found] at result
    cases result
  | some other =>
    simp only [keySetInterpreter, KeySetStatement.execute, found] at result
    cases result
    rfl

theorem ensures_getDefault :
    (getDefault ownerID).Ensures keySetInterpreter (fun _ final => final = catalog) catalog :=
  ⟨rfl, rfl⟩

theorem ensures_lockOwnerForCreate (engine : Engine) (ownerID : OwnerID) :
    (lockOwnerForCreate engine ownerID).Ensures keySetInterpreter
      (fun _ final => final = catalog) catalog := by
  cases engine with
  | sqlite => exact rfl
  | postgres => exact ⟨rfl, rfl⟩

theorem yields_countByOwner :
    (countByOwner ownerID).Yields keySetInterpreter
      (fun count final => final = catalog ∧ count = catalog.countKeySets ownerID) catalog :=
  ⟨yields_error, yields_ok ⟨rfl, rfl⟩⟩

theorem yields_listMembers (setID : KeySetID) :
    (listMembers ownerID setID).Yields keySetInterpreter
      (fun members final => final = catalog ∧ members = catalog.members ownerID setID) catalog :=
  ⟨yields_error, yields_ok ⟨rfl, rfl⟩⟩

theorem yields_create (set : KeySet) :
    (create set).Yields keySetInterpreter
      (fun _ final => ∃ extended, catalog.keySets.insert? set = some extended ∧
        extended.Unique KeySet.clashes ∧
        final = { catalog with keySets := extended }) catalog := by
  refine ⟨yields_error, ?_⟩
  simp only [keySetInterpreter, KeySetStatement.execute, Catalog.insertKeySet]
  split
  · exact yields_error
  rename_i extended insertion
  split
  · exact yields_error
  rename_i unique
  split
  · exact yields_error
  · exact yields_ok ⟨extended, insertion, not_not.mp unique, rfl⟩

theorem updateKeySets_some {catalog final : Catalog} {chosen : KeySet → Bool}
    {change : KeySet → KeySet} {keepsKey : ∀ row, (change row).id = row.id}
    (updated : catalog.updateKeySets chosen change keepsKey = (some affected, final)) :
    (catalog.keySets.update chosen change keepsKey).Unique KeySet.clashes ∧
      final = { catalog with
        keySets := catalog.keySets.update chosen change keepsKey } := by
  unfold Catalog.updateKeySets at updated
  split at updated
  · rename_i unique
    cases updated
    exact ⟨unique, rfl⟩
  · cases updated

theorem requireUpdated_eq_ok {reply : Except Fault Updated}
    (updated : requireUpdated reply = .ok ()) :
    ∃ affected, reply = .ok (some affected) ∧ affected ≠ 0 := by
  cases reply with
  | error fault => cases updated
  | ok answer =>
    cases answer with
    | none => cases updated
    | some affected =>
      rw [requireUpdated] at updated
      split at updated
      · cases updated
      · rename_i some
        exact ⟨affected, rfl, some⟩

theorem yields_update (values : KeySet) :
    (update values).Yields keySetInterpreter
      (fun _ final =>
        (catalog.keySets.update (KeySet.ownedBy values.ownerID values.id)
          (KeySet.written values) (KeySet.id_written values)).Unique KeySet.clashes ∧
        final = { catalog with
          keySets := catalog.keySets.update
            (KeySet.ownedBy values.ownerID values.id) (KeySet.written values)
            (KeySet.id_written values) }) catalog := by
  refine ⟨yields_error, fun _ updated => ?_⟩
  obtain ⟨affected, reply, _⟩ := requireUpdated_eq_ok updated
  exact updateKeySets_some (Prod.ext (Except.ok.inj reply) rfl)

/-- A statement that accepts an update has changed the rows it counts. -/
theorem yields_setDefault (id : KeySetID) :
    (setDefault ownerID id).Yields keySetInterpreter
      (fun _ final =>
        (moveDefault ownerID id catalog.keySets).Unique KeySet.clashes ∧
        final = { catalog with
          keySets := moveDefault ownerID id catalog.keySets }) catalog := by
  refine ⟨yields_error, ?_⟩
  simp only [keySetInterpreter, KeySetStatement.execute]
  rcases cleared : catalog.updateKeySets (KeySet.isDefaultOf ownerID)
    (KeySet.designated false) (KeySet.id_designated false) with
    ⟨answer, middle⟩
  cases answer with
  | none => exact yields_error
  | some affected =>
    obtain ⟨_, rfl⟩ := updateKeySets_some cleared
    refine ⟨yields_error, fun _ updated => ?_⟩
    obtain ⟨_, reply, _⟩ := requireUpdated_eq_ok updated
    obtain ⟨unique, final⟩ := updateKeySets_some (Prod.ext (Except.ok.inj reply) rfl)
    rw [moveDefault_eq]
    exact ⟨unique, final⟩

theorem deleteKeySet_some {catalog final : Catalog} {ownerID : OwnerID} {id : KeySetID}
    (deleted : catalog.deleteKeySet ownerID id = (some affected, final)) :
    final = { catalog with
      keySets := catalog.keySets.delete (KeySet.ownedBy ownerID id) } := by
  unfold Catalog.deleteKeySet at deleted
  simp only at deleted
  split at deleted
  · cases deleted
  · cases deleted
    rfl

theorem requireDeleted_eq_ok {reply : Except Fault (Option Nat)}
    (deleted : requireDeleted reply = .ok ()) : ∃ affected, reply = .ok (some affected) := by
  cases reply with
  | error fault => cases deleted
  | ok answer =>
    cases answer with
    | none => cases deleted
    | some affected => exact ⟨affected, rfl⟩

theorem yields_delete (id : KeySetID) :
    (delete ownerID id).Yields keySetInterpreter
      (fun _ final => (∃ set, catalog.findKeySet ownerID id = some set ∧ set.isDefault = false) ∧
        final = { catalog with
          keySets := catalog.keySets.delete (KeySet.ownedBy ownerID id)
          keySetMembers := catalog.keySetMembers.delete (KeySetMembership.inSet id) }) catalog := by
  refine ⟨yields_error, ?_⟩
  simp only [keySetInterpreter, KeySetStatement.execute]
  cases found : catalog.findKeySet ownerID id with
  | none => exact yields_error
  | some set =>
    cases standing : set.isDefault with
    | true =>
      simp only [Option.map_some, standing]
      exact yields_error
    | false =>
      simp only [Option.map_some, standing]
      refine ⟨yields_error, yields_error, fun _ deleted => ?_⟩
      obtain ⟨affected, reply⟩ := requireDeleted_eq_ok deleted
      refine ⟨⟨set, rfl, standing⟩, ?_⟩
      exact deleteKeySet_some (Prod.ext (Except.ok.inj reply) rfl)

theorem ensures_addMember (setID : KeySetID) (keyID : PublicKeyID) (now : Int) :
    (addMember ownerID setID keyID now).Ensures keySetInterpreter
      (fun result final => (result ≠ .ok () ∧ final = catalog) ∨
        (result = .ok () ∧ catalog.hasKeySet ownerID setID = true ∧
          catalog.hasPublicKey ownerID keyID = true ∧ ∃ extended,
          catalog.keySetMembers.insert? ⟨setID, keyID, now⟩ = some extended ∧
          final = { catalog with keySetMembers := extended })) catalog := by
  refine ⟨.inl ⟨nofun, rfl⟩, ?_⟩
  simp only [keySetInterpreter, KeySetStatement.execute, Catalog.insertMember]
  split
  · rename_i known
    rw [Bool.and_eq_true] at known
    split
    · exact .inl ⟨nofun, rfl⟩
    · rename_i extended inserted
      exact .inr ⟨rfl, known.1, known.2, extended, inserted, rfl⟩
  · exact .inl ⟨nofun, rfl⟩

theorem ensures_removeMember (setID : KeySetID) (keyID : PublicKeyID) :
    (removeMember ownerID setID keyID).Ensures keySetInterpreter
      (fun result final => (result ≠ .ok () ∧ final = catalog) ∨
        (result = .ok () ∧ catalog.hasKeySet ownerID setID = true ∧
          final = { catalog with
            keySetMembers := catalog.keySetMembers.delete
              (KeySetMembership.joins setID keyID) })) catalog := by
  refine ⟨.inl ⟨nofun, rfl⟩, ?_⟩
  simp only [keySetInterpreter, KeySetStatement.execute, Catalog.deleteMember]
  split
  · rename_i known
    rw [Bool.and_eq_true] at known
    by_cases none : catalog.keySetMembers.select (KeySetMembership.joins setID keyID) = []
    · rw [none, Table.delete_eq_self none]
      exact .inl ⟨nofun, rfl⟩
    · have some := mt List.length_eq_zero_iff.mp none
      refine .inr ⟨?_, known.1, rfl⟩
      simp only [Except.map, requireUpdated, if_neg some]
  · exact .inl ⟨nofun, rfl⟩

end KeySetRepository

/-- A set that a call of its owner can be about. -/
structure Addressed (ownerID : OwnerID) (id : KeySetID) (set : KeySet)
    (catalog : Catalog) : Prop where
  stored : set ∈ catalog.keySets
  id : set.id = id
  owner : set.ownerID = ownerID
  active : set.state = .active

theorem live_eq_ok {reply : Except Err KeySet} (addressable : live reply = .ok set) :
    reply = .ok set ∧ set.state = .active := by
  cases reply with
  | error failure => cases addressable
  | ok other =>
    rw [live] at addressable
    split at addressable
    · cases addressable
    · rename_i active
      cases addressable
      exact ⟨rfl, not_not.mp active⟩

/-- Every call on a stored set starts by reading it. -/
theorem ensures_get_live (ownerID : OwnerID) (id : KeySetID) :
    (KeySetRepository.get ownerID id).Ensures keySetInterpreter
      (fun result final => final = catalog ∧ ∀ set, live result = .ok set →
        Addressed ownerID id set catalog) catalog := by
  refine (KeySetRepository.ensures_get ownerID id).mono ?_
  rintro result final ⟨same, found⟩
  refine ⟨same, fun set addressable => ?_⟩
  obtain ⟨reply, active⟩ := live_eq_ok addressable
  obtain ⟨stored, sameID, owner⟩ := Catalog.findKeySet_eq_some (found set reply)
  exact ⟨stored, sameID, owner, active⟩

/-! ## Creating -/

/-- A set added below the cap. -/
structure SetCreation (service : KeySetService) (set : KeySet) (before after : Catalog) : Prop where
  room : before.countKeySets set.ownerID < service.maxSets
  inserted : before.keySets.insert? set = some after.keySets
  unique : after.keySets.Unique KeySet.clashes
  rest : after = { before with keySets := after.keySets }

theorem SetCreation.counts (creation : SetCreation service set before after) (ownerID : OwnerID) :
    after.countKeySets ownerID = before.countKeySets ownerID +
      if set.ownerID = ownerID then 1 else 0 := by
  rw [Catalog.countKeySets, Table.length_select_insert creation.inserted]
  exact congrArg _ (if_congr decide_eq_true_iff rfl rfl)

theorem SetCreation.free (creation : SetCreation service set before after)
    (stored : row ∈ before.keySets) (owner : row.ownerID = set.ownerID) : row.name ≠ set.name := by
  intro named
  have differs := (Table.insert?_eq_some_iff.mp creation.inserted).1 row stored
  have apart := creation.unique row ((Table.mem_insert creation.inserted).mpr (.inl stored)) set
    ((Table.mem_insert creation.inserted).mpr (.inr rfl)) differs
  simp [KeySet.clashes, owner, named] at apart

theorem KeySetService.yields_createLocked (service : KeySetService) (set : KeySet) :
    (service.createLocked set.ownerID set).Yields keySetInterpreter
      (fun _ final => SetCreation service set catalog final) catalog := by
  refine (KeySetRepository.ensures_lockOwnerForCreate _ _).bind ?_
  rintro locked _ rfl
  cases locked with
  | error failure => exact yields_error
  | ok _ =>
    refine (KeySetRepository.yields_countByOwner set.ownerID).bind ?_
    rintro count _ ⟨rfl, rfl⟩
    simp only
    split
    · exact yields_error
    rename_i room
    refine (KeySetRepository.yields_create set).bind ?_
    rintro _ _ ⟨extended, inserted, unique, rfl⟩
    exact yields_ok ⟨by omega, inserted, unique, rfl⟩

theorem KeySetService.yields_createTx (service : KeySetService)
    (call : CreateSetCall) (details : List (DetailKey × GoString)) :
    (service.createTx call details).Yields keySetInterpreter
      (fun recorded final => recorded.value = call.created ∧
          SetCreation service call.created catalog final) catalog :=
  (KeySetService.yields_createLocked service call.created).bind
    fun _ _ creation => yields_ok ⟨rfl, creation⟩

/-! ## Renaming -/

/-- The loop adds one membership for each key of the list. -/
theorem KeySetService.yields_addMembers (ownerID : OwnerID)
    (setID : KeySetID) (now : Int) (members : List KeySetMembership) :
    (KeySetService.addMembers ownerID setID now members).Yields keySetInterpreter
      (fun _ final =>
        final = { catalog with keySetMembers := final.keySetMembers } ∧
        (∀ row, row ∈ final.keySetMembers ↔ row ∈ catalog.keySetMembers ∨
          ∃ member ∈ members, row = ⟨setID, member.publicKeyID, now⟩) ∧
        ∀ member ∈ members, catalog.hasPublicKey ownerID member.publicKeyID = true) catalog := by
  induction members generalizing catalog with
  | nil => exact yields_ok ⟨rfl, by simp, by simp⟩
  | cons first rest induction =>
    refine (KeySetRepository.ensures_addMember ownerID setID
      first.publicKeyID now).bind fun added reached cases => ?_
    rcases cases with ⟨failed, _⟩ | ⟨rfl, _, known, extended, inserted, rfl⟩
    · cases added with
      | error failure => exact yields_error
      | ok _ => exact (failed rfl).elim
    · refine induction.mono ?_
      rintro _ final ⟨same, rows, keys⟩
      refine ⟨same, fun row => ?_, ?_⟩
      · rw [rows, Table.mem_insert inserted, List.exists_mem_cons_iff, or_assoc]
      · exact List.forall_mem_cons.mpr ⟨known, keys⟩

/-- What a rename makes of the stored sets: the old set is a tombstone, and
its renamed copy has its members and its standing. -/
structure SetRenaming (service : KeySetService) (call : RenameSetCall)
    (old : KeySet) (before after : Catalog) : Prop
    extends Addressed call.ownerID call.id old before where
  fresh : ∀ row ∈ before.keySets, row.id ≠ call.newID.text
  room : before.countKeySets call.ownerID < service.maxSets
  sets : ∀ row, row ∈ after.keySets ↔
    (row ∈ before.keySets ∧ row.id ≠ old.id) ∨
      row = (old.vacated (call.now + service.quarantine) call.now).designated false ∨
      row = (call.renamed old).designated old.isDefault
  unique : after.keySets.Unique KeySet.clashes
  counts : ∀ ownerID, after.countKeySets ownerID =
    before.countKeySets ownerID + if call.ownerID = ownerID then 1 else 0
  members : ∀ row, row ∈ after.keySetMembers ↔ row ∈ before.keySetMembers ∨
    ∃ member ∈ before.keySetMembers, member.keySetID = old.id ∧
      row = ⟨call.newID.text, member.publicKeyID, call.now⟩
  keys : ∀ member ∈ before.keySetMembers, member.keySetID = old.id →
    before.hasPublicKey call.ownerID member.publicKeyID = true
  rest : after = { before with
    keySets := after.keySets, keySetMembers := after.keySetMembers }

theorem mem_moveDefault {sets : Table KeySet.id} :
    row ∈ moveDefault ownerID id sets ↔ ∃ previous ∈ sets,
      row = if previous.ownerID = ownerID then
        previous.designated (decide (previous.id = id)) else previous := by
  rw [moveDefault, Table.mem_update]
  simp only [decide_eq_true_eq]

section Rename

variable {service : KeySetService} {call : RenameSetCall} {old : KeySet} {before : Table KeySet.id}

/-- The sets with the renamed copy, the old set being a tombstone. -/
def afterRenaming (service : KeySetService) (call : RenameSetCall)
    (old : KeySet) (extended : Table KeySet.id) : Table KeySet.id :=
  extended.update (KeySet.ownedBy old.ownerID old.id)
    (KeySet.written (old.vacated (call.now + service.quarantine) call.now)) (KeySet.id_written _)

variable {extended : Table KeySet.id} {catalog : Catalog}

theorem mem_afterRenaming (stored : old ∈ before)
    (inserted : before.insert? (call.renamed old) = some extended) {row : KeySet} :
    row ∈ afterRenaming service call old extended ↔
      (row ∈ before ∧ row.id ≠ old.id) ∨
        row = old.vacated (call.now + service.quarantine) call.now ∨
        row = call.renamed old := by
  have fresh : (call.renamed old).id ≠ old.id :=
    Ne.symm ((Table.insert?_eq_some_iff.mp inserted).1 old stored)
  refine (KeySet.mem_update_owned ((Table.mem_insert inserted).mpr
    (.inl stored)) (old.vacated _ _) rfl rfl).trans ?_
  rw [Table.mem_insert inserted]
  constructor
  · rintro (⟨kept | rfl, differs⟩ | rfl)
    · exact .inl ⟨kept, differs⟩
    · exact .inr (.inr rfl)
    · exact .inr (.inl rfl)
  · rintro (⟨kept, differs⟩ | rfl | rfl)
    · exact .inl ⟨.inl kept, differs⟩
    · exact .inr rfl
    · exact .inl ⟨.inr rfl, fresh⟩

/-- No other set of the owner of a default set is a default. -/
theorem not_default_of_unique {sets : Table KeySet.id}
    (unique : sets.Unique KeySet.clashes) {set other : KeySet}
    (stored : set ∈ sets) (otherStored : other ∈ sets)
    (standing : set.isDefault = true) (differs : other.id ≠ set.id)
    (same : other.ownerID = set.ownerID) : other.isDefault = false := by
  have apart := unique other otherStored set stored differs
  simp only [KeySet.clashes, same, standing, decide_true, Bool.true_and,
    Bool.and_true, Bool.or_eq_false_iff] at apart
  exact apart.2

/-- The designation goes from the tombstone to the copy. -/
theorem mem_moveDefault_afterRenaming (stored : old ∈ before)
    (owner : old.ownerID = call.ownerID) (standing : old.isDefault = true)
    (inserted : before.insert? (call.renamed old) = some extended)
    (unique : extended.Unique KeySet.clashes) {row : KeySet} :
    row ∈ moveDefault call.ownerID call.newID.text (afterRenaming service call old extended) ↔
      (row ∈ before ∧ row.id ≠ old.id) ∨
        row = (old.vacated (call.now + service.quarantine) call.now).designated false ∨
        row = (call.renamed old).designated true := by
  have fresh : ∀ row ∈ before, row.id ≠ call.newID.text := (Table.insert?_eq_some_iff.mp inserted).1
  have keeps : ∀ previous ∈ before, previous.id ≠ old.id →
      (if previous.ownerID = call.ownerID then
        previous.designated (decide (previous.id = call.newID.text))
        else previous) = previous := by
    intro previous kept differs
    split
    · rename_i same
      have plain : previous.isDefault = false :=
        not_default_of_unique unique ((Table.mem_insert inserted).mpr
          (.inl stored)) ((Table.mem_insert inserted).mpr (.inl kept))
          standing differs (same.trans owner.symm)
      rw [decide_eq_false (fresh previous kept), ← plain]
      exact previous.designated_self
    · rfl
  have vacates : (if old.ownerID = call.ownerID then
        (old.vacated (call.now + service.quarantine) call.now).designated
          (decide (old.id = call.newID.text))
      else old.vacated (call.now + service.quarantine) call.now) =
      (old.vacated (call.now + service.quarantine) call.now).designated false := by
    rw [if_pos owner, decide_eq_false (fresh old stored)]
  rw [mem_moveDefault]
  constructor
  · rintro ⟨previous, member, rfl⟩
    rcases (mem_afterRenaming stored inserted).mp member with
      ⟨kept, differs⟩ | rfl | rfl
    · rw [keeps previous kept differs]
      exact .inl ⟨kept, differs⟩
    · exact .inr (.inl vacates)
    · refine .inr (.inr ?_)
      simp [RenameSetCall.renamed]
  · rintro (⟨kept, differs⟩ | rfl | rfl)
    · exact ⟨row, (mem_afterRenaming stored inserted).mpr
        (.inl ⟨kept, differs⟩), (keeps row kept differs).symm⟩
    · exact ⟨_, (mem_afterRenaming stored inserted).mpr (.inr (.inl rfl)), vacates.symm⟩
    · refine ⟨_, (mem_afterRenaming stored inserted).mpr (.inr (.inr rfl)), ?_⟩
      simp [RenameSetCall.renamed]

/-- The owner's sets are one more, whatever the updates wrote. -/
theorem count_afterRenaming (inserted : before.insert? (call.renamed old) = some extended)
    (ownerID : OwnerID) :
    ((afterRenaming service call old extended).select
        fun set => decide (set.ownerID = ownerID)).length =
      (before.select fun set => decide (set.ownerID = ownerID)).length +
        if call.ownerID = ownerID then 1 else 0 := by
  have updated : ((afterRenaming service call old extended).select
      fun set => decide (set.ownerID = ownerID)).length =
      (extended.select fun set => decide (set.ownerID = ownerID)).length :=
    Table.length_select_update _ _ _ _ fun _ => rfl
  rw [updated, Table.length_select_insert inserted]
  exact congrArg _ (if_congr decide_eq_true_iff rfl rfl)

theorem count_moveDefault (sets : Table KeySet.id) (ownerID mover : OwnerID) (id : KeySetID) :
    ((moveDefault mover id sets).select
        fun set => decide (set.ownerID = ownerID)).length =
      (sets.select fun set => decide (set.ownerID = ownerID)).length :=
  Table.length_select_update _ _ _ _ fun _ => rfl

theorem KeySetService.yields_carryDefault
    (details : List (DetailKey × GoString)) (stored : old ∈ before)
    (owner : old.ownerID = call.ownerID)
    (inserted : before.insert? (call.renamed old) = some extended)
    (extendedUnique : extended.Unique KeySet.clashes)
    (sets : catalog.keySets = afterRenaming service call old extended)
    (unique : catalog.keySets.Unique KeySet.clashes) :
    (KeySetService.carryDefault call old details).Yields keySetInterpreter
      (fun recorded final =>
        recorded.value = (call.renamed old).designated old.isDefault ∧
        final = { catalog with keySets := final.keySets } ∧
        final.keySets.Unique KeySet.clashes ∧
        (∀ row, row ∈ final.keySets ↔ (row ∈ before ∧ row.id ≠ old.id) ∨
          row = (old.vacated (call.now + service.quarantine) call.now).designated false ∨
          row = (call.renamed old).designated old.isDefault) ∧
        ∀ ownerID, final.countKeySets ownerID =
          (before.select fun set => decide (set.ownerID = ownerID)).length +
            if call.ownerID = ownerID then 1 else 0) catalog := by
  unfold KeySetService.carryDefault
  split
  · rename_i plain
    have vacated : (old.vacated (call.now + service.quarantine) call.now).designated false =
        old.vacated (call.now + service.quarantine) call.now :=
      plain ▸ (old.vacated _ _).designated_self
    refine yields_ok ⟨?_, rfl, unique, fun row => ?_, fun ownerID => ?_⟩
    · rw [plain]
      exact ((call.renamed old).designated_self).symm
    · rw [sets, mem_afterRenaming stored inserted, vacated, plain]
      exact Iff.rfl
    · rw [Catalog.countKeySets, sets, count_afterRenaming inserted]
  · rename_i standing
    rw [Bool.not_eq_false] at standing
    refine (KeySetRepository.yields_setDefault _ _).bind ?_
    rintro _ _ ⟨movedUnique, rfl⟩
    refine yields_ok ⟨by rw [standing], rfl, movedUnique, fun row => ?_,
      fun ownerID => ?_⟩
    · rw [sets, standing]
      exact mem_moveDefault_afterRenaming stored owner standing inserted extendedUnique
    · rw [Catalog.countKeySets, count_moveDefault, sets, count_afterRenaming inserted]

theorem KeySetService.yields_replace (details : List (DetailKey × GoString))
    (addressed : Addressed call.ownerID call.id old catalog) :
    (service.replace call old details).Yields keySetInterpreter
      (fun recorded final =>
        recorded.value = (call.renamed old).designated old.isDefault ∧
          SetRenaming service call old catalog final) catalog := by
  have stored := addressed.stored
  have id := addressed.id
  have owner := addressed.owner
  refine (KeySetService.yields_createLocked service (call.renamed old)).bind ?_
  rintro _ reached ⟨room, inserted, extendedUnique, rest⟩
  generalize reached.keySets = extended at *
  subst rest
  refine (KeySetRepository.yields_listMembers _ _).bind ?_
  rintro members _ ⟨rfl, rfl⟩
  refine (KeySetService.yields_addMembers _ _ _ _).bind ?_
  rintro _ joined ⟨same, rows, keys⟩
  refine (KeySetRepository.yields_update _).bind ?_
  rintro _ _ ⟨unique, rfl⟩
  generalize joined.keySetMembers = after at *
  subst same
  refine (KeySetService.yields_carryDefault details stored owner inserted
    extendedUnique rfl unique).mono ?_
  rintro recorded final ⟨value, rest, finalUnique, sets, counts⟩
  have known : Catalog.hasKeySet { catalog with keySets := extended } call.ownerID call.id = true :=
    Catalog.hasKeySet_of_mem ((Table.mem_insert inserted).mpr (.inl stored)) id owner
  have gone : final.keySetMembers = after := by rw [rest]
  refine ⟨value, addressed, (Table.insert?_eq_some_iff.mp inserted).1, room,
    sets, finalUnique, counts, fun row => ?_, ?_, ?_⟩
  · rw [gone, rows]
    simp only [Catalog.mem_members known, and_assoc, id]
  · intro member stored same
    exact keys member ((Catalog.mem_members known).mpr ⟨stored, same.trans id⟩)
  · rw [rest]

end Rename

theorem KeySetService.yields_renameTx (service : KeySetService) (call : RenameSetCall) :
    (service.renameTx call).Yields keySetInterpreter
      (fun recorded final =>
        ∃ old, recorded.value = (call.renamed old).designated old.isDefault ∧
          SetRenaming service call old catalog final) catalog := by
  refine (ensures_get_live call.ownerID call.id).bind ?_
  rintro reply _ ⟨rfl, addressed⟩
  cases target : live reply with
  | error failure => exact yields_error
  | ok old =>
    simp only
    split
    · exact yields_error
    · exact (KeySetService.yields_replace _ (addressed old target)).mono
        fun recorded final replaced => ⟨old, replaced⟩

theorem SetRenaming.free {call : RenameSetCall} {old : KeySet}
    (replacement : SetRenaming service call old before after)
    (stored : row ∈ before.keySets) (owner : row.ownerID = call.ownerID) :
    row.name ≠ call.name := by
  intro named
  have copied := (replacement.sets _).mpr (.inr (.inr rfl))
  obtain ⟨version, kept, sameID, sameOwner, sameName⟩ :
      ∃ version ∈ after.keySets, version.id = row.id ∧
        version.ownerID = row.ownerID ∧ version.name = row.name := by
    by_cases same : row.id = old.id
    · obtain rfl := Table.eq_of_key_eq stored replacement.stored same
      exact ⟨_, (replacement.sets _).mpr (.inr (.inl rfl)), rfl, rfl, rfl⟩
    · exact ⟨row, (replacement.sets row).mpr (.inl ⟨stored, same⟩), rfl, rfl, rfl⟩
  have differs : version.id ≠ call.newID.text := sameID ▸ replacement.fresh row stored
  have apart := replacement.unique version kept _ copied differs
  simp [KeySet.clashes, KeySet.designated, RenameSetCall.renamed, sameOwner,
    sameName, owner, named] at apart

/-! ## Deleting -/

/-- A set dropped with its members. -/
structure SetDeletion (call : DeleteSetCall) (set : KeySet) (before after : Catalog) : Prop
    extends Addressed call.ownerID call.id set before where
  plain : set.isDefault = false
  rest : after = { before with
    keySets := before.keySets.delete (KeySet.ownedBy call.ownerID call.id)
    keySetMembers := before.keySetMembers.delete (KeySetMembership.inSet call.id) }

theorem KeySetService.yields_deleteTx (service : KeySetService) (call : DeleteSetCall) :
    (service.deleteTx call).Yields keySetInterpreter
      (fun _ final => ∃ set, SetDeletion call set catalog final) catalog := by
  refine (ensures_get_live call.ownerID call.id).bind ?_
  rintro reply _ ⟨rfl, addressed⟩
  cases target : live reply with
  | error failure => exact yields_error
  | ok set =>
    refine (KeySetRepository.yields_listMembers _ _).bind ?_
    rintro members _ ⟨rfl, _⟩
    simp only
    split
    · exact yields_error
    split
    · exact yields_error
    refine (KeySetRepository.yields_delete _ _).bind ?_
    rintro _ final ⟨⟨found, stored, plain⟩, rest⟩
    obtain ⟨foundStored, foundID, _⟩ := Catalog.findKeySet_eq_some stored
    obtain rfl : found = set :=
      Table.eq_of_key_eq foundStored (addressed set target).stored
        (foundID.trans (addressed set target).id.symm)
    exact yields_ok ⟨found, addressed found target, plain, rest⟩

/-! ## Designating -/

/-- The designation moved to a set. -/
structure SetDesignation (call : SetDefaultCall) (target : KeySet) (before after : Catalog) : Prop
    extends Addressed call.ownerID call.id target before where
  unique : after.keySets.Unique KeySet.clashes
  rest : after = { before with
    keySets := moveDefault call.ownerID call.id before.keySets }

theorem KeySetService.yields_setDefaultTx (service : KeySetService) (call : SetDefaultCall) :
    (service.setDefaultTx call).Yields keySetInterpreter
      (fun _ final => ∃ target, SetDesignation call target catalog final)
      catalog := by
  refine (ensures_get_live call.ownerID call.id).bind ?_
  rintro reply _ ⟨rfl, addressed⟩
  cases found : live reply with
  | error failure => exact yields_error
  | ok target =>
    refine (KeySetRepository.ensures_getDefault _).bind ?_
    rintro previous _ rfl
    split
    · exact yields_error
    split
    · exact yields_error
    · refine (KeySetRepository.yields_setDefault _ _).bind ?_
      rintro _ _ ⟨unique, rfl⟩
      exact yields_ok ⟨target, addressed target found, unique, rfl⟩

/-! ## Showing -/

/-- A visibility written to a set. -/
structure SetShowing (call : SetVisibilityCall) (visibility : Visibility)
    (target : KeySet) (before after : Catalog) : Prop
    extends Addressed call.ownerID call.id target before where
  sets : ∀ row, row ∈ after.keySets ↔
    (row ∈ before.keySets ∧ row.id ≠ target.id) ∨ row = target.shown visibility call.now
  unique : after.keySets.Unique KeySet.clashes
  counts : ∀ ownerID, after.countKeySets ownerID = before.countKeySets ownerID
  rest : after = { before with keySets := after.keySets }

theorem KeySetService.yields_setVisibilityTx (service : KeySetService)
    (call : SetVisibilityCall) (visibility : Visibility) :
    (service.setVisibilityTx call visibility).Yields keySetInterpreter
      (fun _ final => ∃ target, SetShowing call visibility target catalog final)
      catalog := by
  refine (ensures_get_live call.ownerID call.id).bind ?_
  rintro reply _ ⟨rfl, addressed⟩
  cases found : live reply with
  | error failure => exact yields_error
  | ok target =>
    simp only
    split
    · exact yields_error
    refine (KeySetRepository.yields_update _).bind ?_
    rintro _ _ ⟨unique, rfl⟩
    refine yields_ok ⟨target, addressed target found, fun row => ?_, unique, fun ownerID => ?_, rfl⟩
    · exact KeySet.mem_update_owned (addressed target found).stored
        (target.shown visibility call.now) rfl rfl
    · exact Table.length_select_update _ _ _ (KeySet.id_written _)
        fun _ => rfl

/-! ## Operations -/

/-- Audit records have been appended, and nothing else has changed. -/
structure Logged (before after : Catalog) : Prop where
  kept : ∀ record ∈ before.auditRecords, record ∈ after.auditRecords
  rest : after = { before with auditRecords := after.auditRecords }

namespace KeySetService

variable {α : Type} {service : KeySetService} {plan : FaultPlan} {catalog : Catalog}

theorem commit_cases (mapErr : Err → Err) {body : Program KeySetStatement (Except Err (Recorded α))}
    {post : Recorded α → Catalog → Prop}
    (ensured : body.Yields keySetInterpreter post catalog) (plan : FaultPlan) :
    Settles catalog post (commit mapErr body plan catalog) := by
  rcases transact_ensures driverFault ensured plan with
    ⟨failure, failed⟩ | ⟨recorded, committed, done, holds⟩
  · exact .inl ⟨mapErr failure, by rw [commit, failed]⟩
  · exact .inr ⟨recorded, committed, by rw [commit, done], holds⟩

theorem emit_cases (service : KeySetService) (action : AuditAction)
    (ownerID : OwnerID) (auditID : AuditRecordID) (now : Int)
    (auditFaults : List Bool) (recorded : Recorded α) (committed : Catalog) :
    Logged committed (service.emit action ownerID auditID now auditFaults
        (.ok recorded, committed)).2 ∧
      ∀ value, (service.emit action ownerID auditID now auditFaults
        (.ok recorded, committed)).1 = .ok value → value = recorded.value := by
  have cases := (ensures_emit_catalog (fun _ _ => rfl) service.emitter
    (event action ownerID recorded.targetID recorded.details) auditID now
    committed : (service.emitter.emit KeySetStatement.appendAudit _ _
      _).Ensures keySetInterpreter _ _).run auditFaults
  simp only [emit]
  rcases outcome : Program.run _ _ _ _ with ⟨result, final⟩
  rw [outcome] at cases
  have logged : Logged committed final := by
    rcases cases with ⟨_, rfl⟩ | ⟨_, _, extended, _, _, inserted, rfl⟩
    · exact ⟨fun _ stored => stored, rfl⟩
    · exact ⟨fun _ stored => (Table.mem_insert inserted).mpr (.inl stored), rfl⟩
  cases result with
  | error failure => exact ⟨logged, nofun⟩
  | ok _ =>
    refine ⟨logged, fun value result => ?_⟩
    cases result
    rfl

variable (service)

theorem commitCreate_cases (call : CreateSetCall) (plan : FaultPlan) (catalog : Catalog) :
    Settles catalog (fun recorded committed => recorded.value = call.created ∧
      SetCreation service call.created catalog committed)
      (service.commitCreate call plan catalog) := by
  unfold commitCreate
  split
  · exact .inl ⟨_, rfl⟩
  split
  · exact .inl ⟨_, rfl⟩
  split
  · exact .inl ⟨_, rfl⟩
  · exact commit_cases _ (KeySetService.yields_createTx service call _) plan

theorem commitRename_cases (call : RenameSetCall) (plan : FaultPlan) (catalog : Catalog) :
    Settles catalog (fun recorded committed => ∃ old,
      recorded.value = (call.renamed old).designated old.isDefault ∧
      SetRenaming service call old catalog committed) (service.commitRename call plan catalog) := by
  unfold commitRename
  split
  · exact .inl ⟨_, rfl⟩
  split
  · exact .inl ⟨_, rfl⟩
  split
  · exact .inl ⟨_, rfl⟩
  · exact commit_cases _ (KeySetService.yields_renameTx service call) plan

theorem commitDelete_cases (call : DeleteSetCall) (plan : FaultPlan) (catalog : Catalog) :
    Settles catalog (fun _ committed => ∃ set, SetDeletion call set catalog committed)
      (service.commitDelete call plan catalog) := by
  unfold commitDelete
  split
  · exact .inl ⟨_, rfl⟩
  split
  · exact .inl ⟨_, rfl⟩
  · exact commit_cases _ (KeySetService.yields_deleteTx service call) plan

theorem commitSetDefault_cases (call : SetDefaultCall) (plan : FaultPlan) (catalog : Catalog) :
    Settles catalog (fun _ committed => ∃ target, SetDesignation call target catalog committed)
      (service.commitSetDefault call plan catalog) := by
  unfold commitSetDefault
  split
  · exact .inl ⟨_, rfl⟩
  split
  · exact .inl ⟨_, rfl⟩
  · exact commit_cases _ (KeySetService.yields_setDefaultTx service call) plan

theorem commitSetVisibility_cases (call : SetVisibilityCall) (plan : FaultPlan)
    (catalog : Catalog) :
    Settles catalog (fun _ committed => ∃ visibility target,
      SetShowing call visibility target catalog committed)
      (service.commitSetVisibility call plan catalog) := by
  unfold commitSetVisibility
  split
  · exact .inl ⟨_, rfl⟩
  split
  · exact .inl ⟨_, rfl⟩
  split
  · exact .inl ⟨_, rfl⟩
  rename_i visibility _
  rcases commit_cases hideMissingSet
    (KeySetService.yields_setVisibilityTx service call visibility) plan with
    failed | ⟨recorded, committed, done, showing⟩
  · exact .inl failed
  · exact .inr ⟨recorded, committed, done, visibility, showing⟩

end KeySetService

end Vallet.Publishing
