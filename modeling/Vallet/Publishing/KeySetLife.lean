import Vallet.Publishing.KeySetEffects

/-!
# Key sets over whole runs

Operations of all owners run one after another, each with faults of the
storage at any of its statements.  What a run keeps follows from the one change
that a committed operation makes: names stay distinct, caps are respected, each
owner has exactly one default set and it is active, and memberships join sets
and keys of one owner.
-/

namespace Vallet.Publishing

open Auth Effects Relational KeySetRepository Table

/-- A call of the key set service. -/
inductive SetOperation where
  | create (call : CreateSetCall)
  | rename (call : RenameSetCall)
  | delete (call : DeleteSetCall)
  | setDefault (call : SetDefaultCall)
  | setVisibility (call : SetVisibilityCall)
  | addMember (ownerID : OwnerID) (setID : KeySetID) (keyID : PublicKeyID) (now : Int)
  | removeMember (ownerID : OwnerID) (setID : KeySetID) (keyID : PublicKeyID)

def SetOperation.ownerID : SetOperation → OwnerID
  | .create call => call.ownerID
  | .rename call => call.ownerID
  | .delete call => call.ownerID
  | .setDefault call => call.ownerID
  | .setVisibility call => call.ownerID
  | .addMember ownerID _ _ _ => ownerID
  | .removeMember ownerID _ _ => ownerID

/-- An operation with the faults it meets, in its transaction and when its
record is appended. -/
structure SetAttempt where
  operation : SetOperation
  plan : FaultPlan
  auditFaults : List Bool

/-- Whether a call succeeded, without the value it returned. -/
def outcome {α : Type} : Except Err α × Catalog → Except Err Unit × Catalog
  | (.error failure, final) => (.error failure, final)
  | (.ok _, final) => (.ok (), final)

namespace KeySetService

/-- The operation up to its commit. -/
def commitOperation (service : KeySetService) (operation : SetOperation)
    (plan : FaultPlan) (catalog : Catalog) : Except Err Unit × Catalog :=
  match operation with
  | .create call => outcome (service.commitCreate call plan catalog)
  | .rename call => outcome (service.commitRename call plan catalog)
  | .delete call => outcome (service.commitDelete call plan catalog)
  | .setDefault call => outcome (service.commitSetDefault call plan catalog)
  | .setVisibility call => outcome (service.commitSetVisibility call plan catalog)
  | .addMember ownerID setID keyID now =>
    (addMember ownerID setID keyID now).run keySetInterpreter plan.statements catalog
  | .removeMember ownerID setID keyID =>
    (removeMember ownerID setID keyID).run keySetInterpreter plan.statements catalog

def perform (service : KeySetService) (attempt : SetAttempt)
    (catalog : Catalog) : Except Err Unit × Catalog :=
  match attempt.operation with
  | .create call => outcome (service.create call attempt.plan attempt.auditFaults catalog)
  | .rename call => outcome (service.rename call attempt.plan attempt.auditFaults catalog)
  | .delete call => outcome (service.delete call attempt.plan attempt.auditFaults catalog)
  | .setDefault call => outcome (service.setDefault call attempt.plan attempt.auditFaults catalog)
  | .setVisibility call =>
    outcome (service.setVisibility call attempt.plan attempt.auditFaults catalog)
  | .addMember ownerID setID keyID now =>
    (addMember ownerID setID keyID now).run keySetInterpreter attempt.plan.statements catalog
  | .removeMember ownerID setID keyID =>
    (removeMember ownerID setID keyID).run keySetInterpreter attempt.plan.statements catalog

def performAll (service : KeySetService) (attempts : List SetAttempt)
    (catalog : Catalog) : Catalog :=
  attempts.foldl (fun reached attempt => (service.perform attempt reached).2) catalog

end KeySetService

/-! ## One change -/

/-- What an operation does when it commits. -/
inductive SetChange (service : KeySetService) : SetOperation → Catalog → Catalog → Prop where
  | created {call : CreateSetCall} {before after : Catalog}
      (creation : SetCreation service call.created before after) :
      SetChange service (.create call) before after
  | renamed {call : RenameSetCall} {old : KeySet} {before after : Catalog}
      (replacement : SetRenaming service call old before after) :
      SetChange service (.rename call) before after
  | deleted {call : DeleteSetCall} {set : KeySet} {before after : Catalog}
      (deletion : SetDeletion call set before after) :
      SetChange service (.delete call) before after
  | designated {call : SetDefaultCall} {target : KeySet} {before after : Catalog}
      (designation : SetDesignation call target before after) :
      SetChange service (.setDefault call) before after
  | shown {call : SetVisibilityCall} {visibility : Visibility}
      {target : KeySet} {before after : Catalog}
      (showing : SetShowing call visibility target before after) :
      SetChange service (.setVisibility call) before after
  | joined {ownerID : OwnerID} {setID : KeySetID} {keyID : PublicKeyID}
      {now : Int} {before : Catalog} {extended : Table KeySetMembership.key}
      (set : before.hasKeySet ownerID setID = true) (key : before.hasPublicKey ownerID keyID = true)
      (inserted : before.keySetMembers.insert? ⟨setID, keyID, now⟩ = some extended) :
      SetChange service (.addMember ownerID setID keyID now) before
        { before with keySetMembers := extended }
  | left {ownerID : OwnerID} {setID : KeySetID} {keyID : PublicKeyID}
      {before : Catalog} (set : before.hasKeySet ownerID setID = true) :
      SetChange service (.removeMember ownerID setID keyID) before { before with
        keySetMembers := before.keySetMembers.delete (KeySetMembership.joins setID keyID) }

variable {reaches : Catalog → Prop} {service : KeySetService} {call : RenameSetCall}

theorem outcome_cases {α : Type} {stored : Except Err α × Catalog}
    {catalog : Catalog} {post : α → Catalog → Prop} (cases : Settles catalog post stored)
    (implied : ∀ value committed, post value committed → reaches committed) :
    Settles catalog (fun _ => reaches) (outcome stored) := by
  rcases cases with ⟨failure, rfl⟩ | ⟨value, committed, rfl, holds⟩
  · exact .inl ⟨failure, rfl⟩
  · exact .inr ⟨(), committed, rfl, implied value committed holds⟩

theorem settled_cases {answer : Except Err Unit × Catalog} {catalog : Catalog}
    (cases : (answer.1 ≠ .ok () ∧ answer.2 = catalog) ∨ (answer.1 = .ok () ∧ reaches answer.2)) :
    Settles catalog (fun _ => reaches) answer := by
  obtain ⟨result, final⟩ := answer
  rcases cases with ⟨failed, rfl⟩ | ⟨rfl, changed⟩
  · cases result with
    | error failure => exact .inl ⟨failure, rfl⟩
    | ok _ => exact (failed rfl).elim
  · exact .inr ⟨(), final, rfl, changed⟩

/-- An operation that does not commit leaves everything as it was, and one
that does makes one change. -/
theorem KeySetService.commitOperation_cases (service : KeySetService)
    (operation : SetOperation) (plan : FaultPlan) (catalog : Catalog) :
    Settles catalog (fun _ => SetChange service operation catalog)
      (service.commitOperation operation plan catalog) := by
  cases operation with
  | create call =>
    exact outcome_cases (service.commitCreate_cases call plan catalog)
      fun _ _ ⟨_, creation⟩ => .created creation
  | rename call =>
    exact outcome_cases (service.commitRename_cases call plan catalog)
      fun _ _ ⟨_, _, replacement⟩ => .renamed replacement
  | delete call =>
    exact outcome_cases (service.commitDelete_cases call plan catalog)
      fun _ _ ⟨_, deletion⟩ => .deleted deletion
  | setDefault call =>
    exact outcome_cases (service.commitSetDefault_cases call plan catalog)
      fun _ _ ⟨_, designation⟩ => .designated designation
  | setVisibility call =>
    exact outcome_cases (service.commitSetVisibility_cases call plan catalog)
      fun _ _ ⟨_, _, showing⟩ => .shown showing
  | addMember ownerID setID keyID now =>
    refine settled_cases (((ensures_addMember ownerID setID
      keyID now).run plan.statements).imp_right ?_)
    rintro ⟨done, set, key, extended, inserted, final⟩
    refine ⟨done, ?_⟩
    simp only [commitOperation, final]
    exact .joined set key inserted
  | removeMember ownerID setID keyID =>
    refine settled_cases (((ensures_removeMember ownerID
      setID keyID).run plan.statements).imp_right ?_)
    rintro ⟨done, set, final⟩
    refine ⟨done, ?_⟩
    simp only [commitOperation, final]
    exact .left set

theorem Logged.refl (catalog : Catalog) : Logged catalog catalog :=
  ⟨fun _ stored => stored, rfl⟩

theorem KeySetService.outcome_emit {α : Type} (service : KeySetService)
    (action : AuditAction) (ownerID : OwnerID) (auditID : AuditRecordID)
    (now : Int) (auditFaults : List Bool) (stored : Except Err (Recorded α) × Catalog) :
    Logged (outcome stored).2 (outcome (service.emit action ownerID auditID
        now auditFaults stored)).2 ∧
      ∀ failure, (outcome stored).1 = .error failure →
        outcome (service.emit action ownerID auditID now auditFaults stored) = outcome stored := by
  obtain ⟨result, committed⟩ := stored
  cases result with
  | error failure => exact ⟨.refl _, fun _ _ => rfl⟩
  | ok recorded =>
    have logged := (service.emit_cases action ownerID auditID now auditFaults recorded committed).1
    refine ⟨?_, nofun⟩
    have same : ∀ answer : Except Err α × Catalog, (outcome answer).2 = answer.2 := by
      rintro ⟨_ | _, _⟩ <;> rfl
    rw [same]
    exact logged

theorem KeySetService.perform_commitOperation (service : KeySetService)
    (attempt : SetAttempt) (catalog : Catalog) :
    Logged (service.commitOperation attempt.operation attempt.plan catalog).2
        (service.perform attempt catalog).2 ∧
      ∀ failure, (service.commitOperation attempt.operation attempt.plan
          catalog).1 = .error failure →
        service.perform attempt catalog =
          service.commitOperation attempt.operation attempt.plan catalog := by
  obtain ⟨operation, plan, auditFaults⟩ := attempt
  cases operation with
  | create | rename | delete | setDefault | setVisibility => exact service.outcome_emit _ _ _ _ _ _
  | addMember | removeMember => exact ⟨.refl _, fun _ _ => rfl⟩

/-- What is known of the commit is known of the performed operation. -/
theorem KeySetService.perform_of_commit {attempt : SetAttempt} {catalog : Catalog}
    (cases : Settles catalog (fun _ => reaches)
      (service.commitOperation attempt.operation attempt.plan catalog)) :
    (∃ failure, service.perform attempt catalog = (.error failure, catalog)) ∨
    ∃ committed, reaches committed ∧ Logged committed (service.perform attempt catalog).2 := by
  obtain ⟨logged, undone⟩ := service.perform_commitOperation attempt catalog
  rcases cases with ⟨failure, failed⟩ | ⟨_, committed, done, changed⟩
  · exact .inl ⟨failure, (undone failure (by rw [failed])).trans failed⟩
  · rw [done] at logged
    exact .inr ⟨committed, changed, logged⟩

theorem KeySetService.perform_cases (service : KeySetService)
    (attempt : SetAttempt) (catalog : Catalog) :
    (∃ failure, service.perform attempt catalog = (.error failure, catalog)) ∨
    ∃ committed, SetChange service attempt.operation catalog committed ∧
      Logged committed (service.perform attempt catalog).2 :=
  perform_of_commit (service.commitOperation_cases attempt.operation attempt.plan catalog)

/-! ## What every change keeps -/

/-- A membership joins a set and a key of one owner. -/
def Joins (catalog : Catalog) (member : KeySetMembership) : Prop :=
  ∃ set ∈ catalog.keySets, ∃ key ∈ catalog.publicKeys,
    set.id = member.keySetID ∧ key.id = member.publicKeyID ∧ set.ownerID = key.ownerID

/-- The owner has a default set that can be resolved. -/
def HasDefault (catalog : Catalog) (ownerID : OwnerID) : Prop :=
  ∃ set ∈ catalog.keySets, set.ownerID = ownerID ∧ set.isDefault = true ∧ set.state = .active

namespace SetChange

variable {service : KeySetService} {operation : SetOperation}
  {before after : Catalog} {set : KeySet}

variable (change : SetChange service operation before after)

include change

theorem rest : after = { before with
      keySets := after.keySets, keySetMembers := after.keySetMembers } := by
  cases change with
  | created creation => rw [creation.rest]
  | renamed replacement => exact replacement.rest
  | deleted deletion => rw [deletion.rest]
  | designated designation => rw [designation.rest]
  | shown showing => rw [showing.rest]
  | joined | left => rfl

theorem unique (earlier : before.keySets.Unique KeySet.clashes) :
    after.keySets.Unique KeySet.clashes := by
  cases change with
  | created creation => exact creation.unique
  | renamed replacement => exact replacement.unique
  | deleted deletion =>
    rw [deletion.rest]
    exact earlier.delete _
  | designated designation => exact designation.unique
  | shown showing => exact showing.unique
  | joined | left => exact earlier

theorem countKeySets (ownerID : OwnerID) :
    after.countKeySets ownerID ≤ before.countKeySets ownerID ∨
      after.countKeySets ownerID ≤ service.maxSets := by
  cases change with
  | created creation =>
    have counted := creation.counts ownerID
    have room := creation.room
    split at counted
    · rename_i mine
      rw [mine] at room
      exact .inr (by omega)
    · exact .inl (by omega)
  | renamed replacement =>
    have counted := replacement.counts ownerID
    have room := replacement.room
    split at counted
    · rename_i mine
      rw [mine] at room
      exact .inr (by omega)
    · exact .inl (by omega)
  | deleted deletion =>
    rw [deletion.rest]
    exact .inl (length_select_delete_le _ _ _)
  | designated designation =>
    rw [designation.rest]
    exact .inl (count_moveDefault _ _ _ _).le
  | shown showing => exact .inl (showing.counts ownerID).le
  | joined | left => exact .inl le_rfl

theorem hasDefault
    {ownerID : OwnerID} (earlier : HasDefault before ownerID) : HasDefault after ownerID := by
  obtain ⟨set, stored, owner, standing, active⟩ := earlier
  cases change with
  | created creation =>
    exact ⟨set, (mem_insert creation.inserted).mpr (.inl stored), owner, standing, active⟩
  | @renamed call old _ _ replacement =>
    by_cases same : set.id = old.id
    · obtain rfl := eq_of_key_eq stored replacement.stored same
      exact ⟨_, (replacement.sets _).mpr (.inr (.inr rfl)),
        replacement.owner.symm.trans owner, standing, rfl⟩
    · exact ⟨set, (replacement.sets set).mpr (.inl ⟨stored, same⟩), owner, standing, active⟩
  | @deleted call dropped _ _ deletion =>
    refine ⟨set, ?_, owner, standing, active⟩
    rw [deletion.rest]
    refine mem_delete.mpr ⟨stored, ?_⟩
    by_contra owned
    rw [Bool.not_eq_false, KeySet.ownedBy_iff] at owned
    have same := eq_of_key_eq stored deletion.stored (owned.1.trans deletion.id.symm)
    rw [same, deletion.plain] at standing
    cases standing
  | @designated call target _ _ designation =>
    by_cases mine : ownerID = call.ownerID
    · refine ⟨target.designated true, ?_, designation.owner.trans mine.symm,
        rfl, designation.active⟩
      rw [designation.rest]
      refine mem_moveDefault.mpr ⟨target, designation.stored, ?_⟩
      rw [if_pos designation.owner, decide_eq_true designation.id]
    · refine ⟨set, ?_, owner, standing, active⟩
      rw [designation.rest]
      refine mem_moveDefault.mpr ⟨set, stored, ?_⟩
      rw [if_neg fun same => mine (owner.symm.trans same)]
  | @shown call visibility target _ _ showing =>
    by_cases same : set.id = target.id
    · obtain rfl := eq_of_key_eq stored showing.stored same
      exact ⟨_, (showing.sets _).mpr (.inr rfl), owner, standing, active⟩
    · exact ⟨set, (showing.sets set).mpr (.inl ⟨stored, same⟩), owner, standing, active⟩
  | joined | left => exact ⟨set, stored, owner, standing, active⟩

/-- A set that is gone has no members left. -/
theorem version (stored : set ∈ before.keySets) :
    (∃ later ∈ after.keySets, later.id = set.id ∧ later.ownerID = set.ownerID) ∨
      (set.ownerID = operation.ownerID ∧
        ∀ member ∈ after.keySetMembers, member.keySetID ≠ set.id) := by
  cases change with
  | created creation =>
    exact .inl ⟨set, (mem_insert creation.inserted).mpr (.inl stored), rfl, rfl⟩
  | @renamed call old _ _ replacement =>
    refine .inl ?_
    by_cases same : set.id = old.id
    · obtain rfl := eq_of_key_eq stored replacement.stored same
      exact ⟨_, (replacement.sets _).mpr (.inr (.inl rfl)), rfl, rfl⟩
    · exact ⟨set, (replacement.sets set).mpr (.inl ⟨stored, same⟩), rfl, rfl⟩
  | @deleted call dropped _ _ deletion =>
    rw [deletion.rest]
    by_cases owned : set.ownedBy call.ownerID call.id = true
    · have same := KeySet.ownedBy_iff.mp owned
      refine .inr ⟨same.2, fun member kept => ?_⟩
      have outside := (mem_delete.mp kept).2
      rw [KeySetMembership.inSet, decide_eq_false_iff_not] at outside
      rw [same.1]
      exact outside
    · exact .inl ⟨set, mem_delete.mpr ⟨stored, Bool.eq_false_of_not_eq_true owned⟩, rfl, rfl⟩
  | @designated call target _ _ designation =>
    rw [designation.rest]
    refine .inl ⟨_, mem_moveDefault.mpr ⟨set, stored, rfl⟩, ?_⟩
    split
    all_goals exact ⟨rfl, rfl⟩
  | @shown call visibility target _ _ showing =>
    refine .inl ?_
    by_cases same : set.id = target.id
    · obtain rfl := eq_of_key_eq stored showing.stored same
      exact ⟨_, (showing.sets _).mpr (.inr rfl), rfl, rfl⟩
    · exact ⟨set, (showing.sets set).mpr (.inl ⟨stored, same⟩), rfl, rfl⟩
  | joined | left => exact .inl ⟨set, stored, rfl, rfl⟩

theorem member {member : KeySetMembership} (stored : member ∈ after.keySetMembers) :
    member ∈ before.keySetMembers ∨ Joins after member := by
  cases change with
  | created creation =>
    rw [creation.rest] at stored
    exact .inl stored
  | @renamed call old _ _ replacement =>
    rcases (replacement.members member).mp stored with
      kept | ⟨source, sourceStored, same, rfl⟩
    · exact .inl kept
    obtain ⟨key, keyStored, keyID, keyOwner⟩ :=
      Catalog.exists_of_hasPublicKey (replacement.keys source sourceStored same)
    refine .inr ⟨_, (replacement.sets _).mpr (.inr (.inr rfl)), key, ?_, rfl, keyID, keyOwner.symm⟩
    rw [replacement.rest]
    exact keyStored
  | deleted deletion =>
    rw [deletion.rest] at stored
    exact .inl (mem_delete.mp stored).1
  | designated designation =>
    rw [designation.rest] at stored
    exact .inl stored
  | shown showing =>
    rw [showing.rest] at stored
    exact .inl stored
  | joined set key inserted =>
    rcases (mem_insert inserted).mp stored with kept | rfl
    · exact .inl kept
    obtain ⟨row, rowStored, rowID, rowOwner⟩ := Catalog.exists_of_hasKeySet set
    obtain ⟨entry, entryStored, entryID, entryOwner⟩ := Catalog.exists_of_hasPublicKey key
    exact .inr ⟨row, rowStored, entry, entryStored, rowID, entryID, rowOwner.trans entryOwner.symm⟩
  | left => exact .inl (mem_delete.mp stored).1

theorem joins (earlier : ∀ member ∈ before.keySetMembers, Joins before member) :
    ∀ member ∈ after.keySetMembers, Joins after member := by
  intro member stored
  rcases change.member stored with kept | joins
  · obtain ⟨set, setStored, key, keyStored, setID, keyID, owner⟩ := earlier member kept
    rcases change.version setStored with
      ⟨later, laterStored, laterID, laterOwner⟩ | ⟨_, gone⟩
    · refine ⟨later, laterStored, key, ?_, laterID.trans setID, keyID, laterOwner.trans owner⟩
      rw [change.rest]
      exact keyStored
    · exact (gone member stored setID.symm).elim
  · exact joins

/-! ### Other owners -/

theorem mem_keySets_iff
    (other : set.ownerID ≠ operation.ownerID) : set ∈ after.keySets ↔ set ∈ before.keySets := by
  cases change with
  | created creation =>
    rw [mem_insert creation.inserted, or_iff_left]
    rintro rfl
    exact other rfl
  | @renamed call old _ _ replacement =>
    rw [replacement.sets]
    constructor
    · rintro (⟨kept, _⟩ | rfl | rfl)
      · exact kept
      · exact (other replacement.owner).elim
      · exact (other rfl).elim
    · refine fun stored => .inl ⟨stored, fun same => other ?_⟩
      rw [eq_of_key_eq stored replacement.stored same]
      exact replacement.owner
  | deleted deletion =>
    rw [deletion.rest, mem_delete, and_iff_left]
    exact Bool.eq_false_of_not_eq_true fun owned =>
      other (KeySet.ownedBy_iff.mp owned).2
  | designated designation =>
    rw [designation.rest, mem_moveDefault]
    constructor
    · rintro ⟨previous, stored, rfl⟩
      split at other
      · rename_i mine
        exact (other mine).elim
      · rename_i foreign
        rw [if_neg foreign]
        exact stored
    · exact fun stored => ⟨set, stored, (if_neg other).symm⟩
  | shown showing =>
    rw [showing.sets]
    constructor
    · rintro (⟨kept, _⟩ | rfl)
      · exact kept
      · exact (other showing.owner).elim
    · refine fun stored => .inl ⟨stored, fun same => other ?_⟩
      rw [eq_of_key_eq stored showing.stored same]
      exact showing.owner
  | joined | left => exact Iff.rfl

theorem mem_keySetMembers_iff
    (stored : set ∈ before.keySets) (other : set.ownerID ≠ operation.ownerID)
    {member : KeySetMembership} (inside : member.keySetID = set.id) :
    member ∈ after.keySetMembers ↔ member ∈ before.keySetMembers := by
  cases change with
  | created creation => rw [creation.rest]
  | @renamed call old _ _ replacement =>
    rw [replacement.members, or_iff_left]
    rintro ⟨source, _, _, rfl⟩
    exact replacement.fresh set stored inside.symm
  | deleted deletion =>
    rw [deletion.rest, mem_delete, and_iff_left]
    rw [KeySetMembership.inSet, decide_eq_false_iff_not]
    intro same
    refine other ?_
    rw [eq_of_key_eq stored deletion.stored ((inside.symm.trans same).trans deletion.id.symm)]
    exact deletion.owner
  | designated designation => rw [designation.rest]
  | shown showing => rw [showing.rest]
  | joined known key inserted =>
    rw [mem_insert inserted, or_iff_left]
    rintro rfl
    obtain ⟨row, rowStored, rowID, rowOwner⟩ := Catalog.exists_of_hasKeySet known
    refine other ?_
    rw [eq_of_key_eq stored rowStored (inside.symm.trans rowID.symm)]
    exact rowOwner
  | left known =>
    rw [mem_delete, and_iff_left]
    rw [KeySetMembership.joins, Bool.and_eq_false_iff, decide_eq_false_iff_not]
    refine .inl fun same => other ?_
    obtain ⟨row, rowStored, rowID, rowOwner⟩ := Catalog.exists_of_hasKeySet known
    rw [eq_of_key_eq stored rowStored ((inside.symm.trans same).trans rowID.symm)]
    exact rowOwner

end SetChange

/-! ## Runs -/

/-- The unique indexes, the designations and the memberships of the store. -/
structure SetsSound (catalog : Catalog) : Prop where
  unique : catalog.keySets.Unique KeySet.clashes
  defaults : ∀ owner ∈ catalog.owners, HasDefault catalog owner.id
  joined : ∀ member ∈ catalog.keySetMembers, Joins catalog member

/-- One owner's rows are as they were. -/
structure Untouched (ownerID : OwnerID) (before after : Catalog) : Prop where
  sets : ∀ set, set.ownerID = ownerID → (set ∈ after.keySets ↔ set ∈ before.keySets)
  members : ∀ set ∈ before.keySets, set.ownerID = ownerID →
    ∀ member, member.keySetID = set.id →
      (member ∈ after.keySetMembers ↔ member ∈ before.keySetMembers)
  owners : after.owners = before.owners
  handles : after.handles = before.handles
  devices : after.devices = before.devices
  publicKeys : after.publicKeys = before.publicKeys
  accessKeys : after.accessKeys = before.accessKeys
  records : ∀ record ∈ before.auditRecords, record ∈ after.auditRecords

theorem SetChange.untouched {operation : SetOperation} {before committed after : Catalog}
    (change : SetChange service operation before committed)
    (logged : Logged committed after) {ownerID : OwnerID} (other : ownerID ≠ operation.ownerID) :
    Untouched ownerID before after := by
  have rest := change.rest
  rw [logged.rest]
  refine ⟨?_, ?_, ?_, ?_, ?_, ?_, ?_, ?_⟩
  · rintro set rfl
    exact change.mem_keySets_iff other
  · rintro set stored rfl member inside
    exact change.mem_keySetMembers_iff stored other inside
  · rw [rest]
  · rw [rest]
  · rw [rest]
  · rw [rest]
  · rw [rest]
  · intro record stored
    refine logged.kept record ?_
    rw [rest]
    exact stored

namespace KeySetService

variable {service : KeySetService}

section Keeps

variable (property : Catalog → Prop) (changes : ∀ {operation before after},
    SetChange service operation before after → property before → property after)
  (logs : ∀ {before after}, Logged before after → property before → property after)

include changes logs

/-- What every change and every record keep, a performed operation keeps. -/
theorem perform_keeps (attempt : SetAttempt) {catalog : Catalog} (holds : property catalog) :
    property (service.perform attempt catalog).2 := by
  rcases service.perform_cases attempt catalog with
    ⟨failure, failed⟩ | ⟨committed, change, logged⟩
  · rw [failed]
    exact holds
  · exact logs logged (changes change holds)

theorem performAll_keeps (attempts : List SetAttempt) {catalog : Catalog}
    (holds : property catalog) : property (service.performAll attempts catalog) := by
  induction attempts generalizing catalog with
  | nil => exact holds
  | cons attempt rest induction =>
    exact induction (perform_keeps property changes logs attempt holds)

end Keeps

variable (attempts : List SetAttempt)

theorem performAll_sound {catalog : Catalog}
    (sound : SetsSound catalog) : SetsSound (service.performAll attempts catalog) := by
  refine performAll_keeps SetsSound (fun {operation before after} change earlier => ?_)
    (fun {before after} logged earlier => ?_) attempts sound
  · refine ⟨change.unique earlier.unique, fun owner stored => ?_, change.joins earlier.joined⟩
    have same : after.owners = before.owners := by rw [change.rest]
    exact change.hasDefault (earlier.defaults owner (same ▸ stored))
  · rw [logged.rest]
    exact ⟨earlier.unique, earlier.defaults, earlier.joined⟩

theorem performAll_countKeySets (catalog : Catalog) (ownerID : OwnerID)
    (capped : catalog.countKeySets ownerID ≤ service.maxSets) :
    (service.performAll attempts catalog).countKeySets ownerID ≤ service.maxSets := by
  refine performAll_keeps (fun reached =>
    reached.countKeySets ownerID ≤ service.maxSets)
    (fun {operation before after} change earlier => ?_)
    (fun {before after} logged earlier => ?_) attempts capped
  · rcases change.countKeySets ownerID with fewer | bounded
    · exact fewer.trans earlier
    · exact bounded
  · rw [logged.rest]
    exact earlier

theorem performAll_owners (catalog : Catalog) :
    (service.performAll attempts catalog).owners = catalog.owners := by
  refine performAll_keeps (fun reached =>
    reached.owners = catalog.owners)
    (fun {operation before after} change earlier => ?_)
    (fun {before after} logged earlier => ?_) attempts rfl
  · rw [change.rest]
    exact earlier
  · rw [logged.rest]
    exact earlier

end KeySetService

/-! ## The contract -/

/-- The keys a set has as members. -/
def Catalog.HasMember (catalog : Catalog) (setID : KeySetID) (keyID : PublicKeyID) : Prop :=
  ∃ member ∈ catalog.keySetMembers, member.keySetID = setID ∧ member.publicKeyID = keyID

/-- What holds in every state that operations lead to, and of every operation
performed there. -/
structure SetContract (service : KeySetService) (initial reached : Catalog) : Prop where
  names : ∀ left ∈ reached.keySets, ∀ right ∈ reached.keySets,
    left.ownerID = right.ownerID → left.name = right.name → left = right
  capped : ∀ ownerID, initial.countKeySets ownerID ≤ service.maxSets →
    reached.countKeySets ownerID ≤ service.maxSets
  default : ∀ owner ∈ initial.owners, ∃ set ∈ reached.keySets,
    set.ownerID = owner.id ∧ set.isDefault = true ∧ set.state = .active ∧
      ∀ other ∈ reached.keySets, other.ownerID = owner.id → other.isDefault = true → other = set
  joined : ∀ member ∈ reached.keySetMembers, Joins reached member
  renamed : ∀ call plan auditFaults set,
    (service.rename call plan auditFaults reached).1 = .ok set →
    set ∈ (service.rename call plan auditFaults reached).2.keySets ∧
      set.id = call.newID.text ∧ set.name = call.name ∧
      set.ownerID = call.ownerID ∧ set.state = .active ∧
      (∀ row ∈ reached.keySets, row.id ≠ set.id) ∧
      ∃ old ∈ reached.keySets, old.id = call.id ∧ old.ownerID = call.ownerID ∧
        (old.vacated (call.now + service.quarantine) call.now).designated false ∈
          (service.rename call plan auditFaults reached).2.keySets ∧
        set.visibility = old.visibility ∧ set.isDefault = old.isDefault ∧
        ∀ keyID, (service.rename call plan auditFaults reached).2.HasMember
          set.id keyID ↔ reached.HasMember old.id keyID
  atomic : ∀ attempt failure, (service.commitOperation attempt.operation attempt.plan reached).1 =
      .error failure →
    service.perform attempt reached = (.error failure, reached)
  framed : ∀ attempt ownerID, ownerID ≠ attempt.operation.ownerID →
    Untouched ownerID reached (service.perform attempt reached).2

theorem SetsSound.names {catalog : Catalog} (sound : SetsSound catalog)
    {left right : KeySet} (leftStored : left ∈ catalog.keySets)
    (rightStored : right ∈ catalog.keySets) (sameOwner : left.ownerID = right.ownerID)
    (sameName : left.name = right.name) : left = right := by
  by_contra differs
  have apart := sound.unique left leftStored right rightStored
    fun same => differs (eq_of_key_eq leftStored rightStored same)
  simp [KeySet.clashes, sameOwner, sameName] at apart

theorem SetsSound.default {catalog : Catalog} (sound : SetsSound catalog)
    {owner : Owner} (stored : owner ∈ catalog.owners) :
    ∃ set ∈ catalog.keySets, set.ownerID = owner.id ∧ set.isDefault = true ∧
      set.state = .active ∧ ∀ other ∈ catalog.keySets,
        other.ownerID = owner.id → other.isDefault = true → other = set := by
  obtain ⟨set, setStored, whose, standing, active⟩ := sound.defaults owner stored
  refine ⟨set, setStored, whose, standing, active, ?_⟩
  intro other otherStored otherWhose otherStanding
  by_contra differs
  have plain := not_default_of_unique sound.unique setStored otherStored
    standing (fun same => differs (eq_of_key_eq otherStored setStored same))
    (otherWhose.trans whose.symm)
  rw [plain] at otherStanding
  cases otherStanding

/-- No membership refers to an id that is not in use. -/
theorem SetRenaming.hasMember_iff {old : KeySet} {before after : Catalog}
    (replacement : SetRenaming service call old before after)
    (joined : ∀ member ∈ before.keySetMembers, Joins before member) (keyID : PublicKeyID) :
    after.HasMember call.newID.text keyID ↔ before.HasMember old.id keyID := by
  constructor
  · rintro ⟨member, stored, inside, same⟩
    rcases (replacement.members member).mp stored with
      kept | ⟨source, sourceStored, sourceInside, rfl⟩
    · obtain ⟨set, setStored, _, _, setID, _⟩ := joined member kept
      exact (replacement.fresh set setStored (setID.trans inside)).elim
    · exact ⟨source, sourceStored, sourceInside, same⟩
  · rintro ⟨member, stored, inside, same⟩
    exact ⟨_, (replacement.members _).mpr (.inr ⟨member, stored, inside, rfl⟩), rfl, same⟩

theorem KeySetService.rename_ok {plan : FaultPlan} {auditFaults : List Bool}
    {catalog : Catalog} {set : KeySet}
    (returned : (service.rename call plan auditFaults catalog).1 = .ok set) :
    ∃ old committed, set = (call.renamed old).designated old.isDefault ∧
      SetRenaming service call old catalog committed ∧
      Logged committed (service.rename call plan auditFaults catalog).2 := by
  unfold KeySetService.rename at returned ⊢
  rcases service.commitRename_cases call plan catalog with
    ⟨failure, failed⟩ | ⟨recorded, committed, done, old, value, replacement⟩
  · rw [failed] at returned
    cases returned
  · rw [done] at returned ⊢
    obtain ⟨logged, value'⟩ := service.emit_cases .keySetRenamed call.ownerID
      call.auditID call.now auditFaults recorded committed
    exact ⟨old, committed, (value' set returned).trans value, replacement, logged⟩

/-- Whatever operations of all owners run, with faults of the storage at any
statement, the sets keep their contract. -/
theorem key_sets_keep_contract (service : KeySetService)
    (attempts : List SetAttempt) {initial : Catalog} (sound : SetsSound initial) :
    SetContract service initial (service.performAll attempts initial) := by
  have reached : SetsSound (service.performAll attempts initial) :=
    KeySetService.performAll_sound attempts sound
  have owners : (service.performAll attempts initial).owners =
      initial.owners := KeySetService.performAll_owners attempts initial
  refine ⟨?_, ?_, ?_, reached.joined, ?_, ?_, ?_⟩
  · exact fun left leftStored right rightStored =>
      reached.names leftStored rightStored
  · exact KeySetService.performAll_countKeySets attempts initial
  · exact fun owner stored => reached.default (owners ▸ stored)
  · intro call plan auditFaults set returned
    obtain ⟨old, committed, rfl, replacement, logged⟩ := KeySetService.rename_ok returned
    rw [logged.rest]
    exact ⟨(replacement.sets _).mpr (.inr (.inr rfl)), rfl, rfl, rfl, rfl,
      replacement.fresh, old, replacement.stored, replacement.id, replacement.owner,
      (replacement.sets _).mpr (.inr (.inl rfl)), rfl, rfl,
      replacement.hasMember_iff reached.joined⟩
  · intro attempt failure failed
    obtain ⟨_, undone⟩ := service.perform_commitOperation attempt
      (service.performAll attempts initial)
    rw [undone failure failed]
    rcases service.commitOperation_cases attempt.operation attempt.plan
      (service.performAll attempts initial) with
      ⟨other, same⟩ | ⟨_, committed, done, _⟩
    · rw [same] at failed ⊢
      cases failed
      rfl
    · rw [done] at failed
      cases failed
  · intro attempt ownerID other
    rcases service.perform_cases attempt (service.performAll attempts initial) with
      ⟨failure, same⟩ | ⟨committed, change, logged⟩
    · rw [same]
      exact ⟨fun _ _ => Iff.rfl, fun _ _ _ _ _ => Iff.rfl, rfl, rfl, rfl,
        rfl, rfl, fun _ stored => stored⟩
    · exact change.untouched logged other

namespace Sample

def keySetService : KeySetService where
  engine := .sqlite
  emitter := Audit.Sample.silentEmitter
  guard := fun _ => .ok ()
  maxSets := 10
  quarantine := 30 * 24 * Duration.hour
  positive := by decide
  lasting := month_pos

def createSet (name : String) (letter : UInt8)
    (known : letter ∈ randTextAlphabet) (now : Int) : CreateSetCall where
  ownerID := utf8 "olive"
  name := utf8 name
  requestID := []
  now := now
  id := randText letter known
  auditID := [letter]

def renameSet (id : KeySetID) (name : String) (letter : UInt8)
    (known : letter ∈ randTextAlphabet) (now : Int) : RenameSetCall where
  ownerID := utf8 "olive"
  id := id
  name := utf8 name
  requestID := []
  now := now
  newID := randText letter known
  auditID := [letter]

theorem catalog_setsSound : SetsSound catalog := by
  refine ⟨by decide +kernel, ?_, fun member impossible => ?_⟩
  · intro owner stored
    obtain rfl := List.mem_singleton.mp stored
    exact ⟨_, List.mem_singleton.mpr rfl, rfl, rfl, rfl⟩
  · cases impossible

end Sample

open Sample

/-- The default set is renamed after another one was created. -/
theorem key_sets_keep_contract_renamed : let attempts : List SetAttempt :=
      [⟨.create (createSet "home" 65 (by decide) 10), {}, []⟩,
        ⟨.rename (renameSet (utf8 "work") "base" 66 (by decide) 20), {}, []⟩]
    SetContract keySetService catalog (keySetService.performAll attempts catalog) ∧
      (keySetService.performAll attempts
        catalog).keySets.rows.map (fun set =>
          (set.name, set.state, set.isDefault)) =
        [(utf8 "work", .quarantined, false), (utf8 "home", .active, false),
          (utf8 "base", .active, true)] :=
  ⟨key_sets_keep_contract _ _ catalog_setsSound, by decide +kernel⟩

end Vallet.Publishing
