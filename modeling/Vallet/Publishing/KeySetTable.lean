import Vallet.Publishing.KeySetEffects

/-!
# Key sets under concurrent transactions

A transaction on key sets uses three kinds of rows: the row of the owner, which
it locks before it counts, the sets, and their members.  They form one table
here, with the unique indexes of the sets; all other tables stay as they are
and only answer whether a row is there.
-/

namespace Vallet.Publishing

open Auth Effects Relational KeySetMembership Table

/-! ## Rows -/

/-- A row of one of the tables that the transactions on key sets share. -/
inductive SetRow where
  | owner (id : OwnerID)
  | keySet (set : KeySet)
  | membership (member : KeySetMembership)
deriving DecidableEq, Repr

inductive SetKey where
  | owner (id : OwnerID)
  | keySet (id : KeySetID)
  | membership (key : KeySetID × PublicKeyID)
deriving DecidableEq, Repr

namespace SetRow

def key : SetRow → SetKey
  | .owner id => .owner id
  | .keySet set => .keySet set.id
  | .membership member => .membership member.key

def set? : SetRow → Option KeySet
  | .keySet set => some set
  | _ => none

def member? : SetRow → Option KeySetMembership
  | .membership member => some member
  | _ => none

def clashes : SetRow → SetRow → Bool
  | .keySet left, .keySet right => left.clashes right
  | _, _ => false

theorem clashes_comm (left right : SetRow) : left.clashes right = right.clashes left := by
  cases left <;> cases right <;> first | rfl | exact KeySet.clashes_comm _ _

def isOwner (ownerID : OwnerID) : SetRow → Bool
  | .owner id => decide (id = ownerID)
  | _ => false

/-- A condition on sets. -/
def onSet (chosen : KeySet → Bool) : SetRow → Bool
  | .keySet set => chosen set
  | _ => false

/-- A condition on memberships. -/
def onMember (chosen : KeySetMembership → Bool) : SetRow → Bool
  | .membership member => chosen member
  | _ => false

def mapSet (change : KeySet → KeySet) : SetRow → SetRow
  | .keySet set => .keySet (change set)
  | row => row

theorem key_mapSet {change : KeySet → KeySet}
    (keepsID : ∀ set, (change set).id = set.id) (row : SetRow) :
    (row.mapSet change).key = row.key := by
  cases row with
  | keySet set => exact congrArg SetKey.keySet (keepsID set)
  | owner | membership => rfl

theorem eq_set_of_set? {row : SetRow} {set : KeySet}
    (found : row.set? = some set) : row = .keySet set := by
  cases row <;> cases found
  rfl

theorem eq_member_of_member? {row : SetRow} {member : KeySetMembership}
    (found : row.member? = some member) : row = .membership member := by
  cases row <;> cases found
  rfl

end SetRow

def setsOf (rows : Table SetRow.key) : Table KeySet.id :=
  rows.parts SetRow.set? KeySet.id SetKey.keySet fun row set found => by
    rw [SetRow.eq_set_of_set? found, SetRow.key]

def membersOf (rows : Table SetRow.key) : Table key :=
  rows.parts SetRow.member? key SetKey.membership
    fun row member found => by
      rw [SetRow.eq_member_of_member? found, SetRow.key]

variable {rows : Table SetRow.key}

theorem mem_setsOf {set : KeySet} : set ∈ setsOf rows ↔ SetRow.keySet set ∈ rows := by
  rw [setsOf, mem_parts]
  constructor
  · rintro ⟨row, stored, found⟩
    exact SetRow.eq_set_of_set? found ▸ stored
  · exact fun stored => ⟨_, stored, rfl⟩

namespace Catalog

/-- The rows that transactions on key sets share. -/
def setRows (catalog : Catalog) : Table SetRow.key where
  rows := catalog.owners.rows.map (fun owner => .owner owner.id) ++
    (catalog.keySets.rows.map .keySet ++ catalog.keySetMembers.rows.map .membership)
  distinct := by
    simp only [List.map_append, List.map_map, Function.comp_def, SetRow.key]
    rw [List.nodup_append, List.nodup_append]
    have owners : ((catalog.owners.rows.map Owner.id).map SetKey.owner).Nodup :=
      catalog.owners.distinct.map fun _ _ => SetKey.owner.inj
    have sets : ((catalog.keySets.rows.map KeySet.id).map SetKey.keySet).Nodup :=
      catalog.keySets.distinct.map fun _ _ => SetKey.keySet.inj
    have members : ((catalog.keySetMembers.rows.map key).map SetKey.membership).Nodup :=
      catalog.keySetMembers.distinct.map fun _ _ => SetKey.membership.inj
    rw [List.map_map] at owners sets members
    refine ⟨owners, ⟨sets, members, by simp⟩, ?_⟩
    simp only [List.mem_append, List.mem_map]
    rintro _ ⟨owner, _, rfl⟩ _ (⟨_, _, rfl⟩ | ⟨_, _, rfl⟩)
    all_goals nofun

/-- The catalog with the given rows. -/
def withRows (catalog : Catalog) (rows : Table SetRow.key) : Catalog :=
  { catalog with keySets := setsOf rows, keySetMembers := membersOf rows }

end Catalog

/-! ## Statements -/

/-- How each statement uses the rows.  Foreign keys to rows of this table can
only refuse a statement and are left out, and so is the condition that the set
of a member is the owner's: a rename has just inserted it as such. -/
def KeySetStatement.access (catalog : Catalog) {β : Type} : KeySetStatement β → Access SetRow.key β
  | .selectKeySet ownerID id => .read fun rows => (catalog.withRows rows).findKeySet ownerID id
  | .selectDefault ownerID => .read fun rows => (catalog.withRows rows).defaultKeySet ownerID
  | .countByOwner ownerID => .read fun rows => (catalog.withRows rows).countKeySets ownerID
  | .lockOwner ownerID =>
    .update (SetRow.isOwner ownerID) (fun row => row) (fun _ => rfl)
      fun locked => decide (locked > 0)
  | .insertKeySet set =>
    if (catalog.owners.find? set.ownerID).isNone then
      .read fun rows => ((catalog.withRows rows).insertKeySet set).1
    else
      .insert (.keySet set) fun inserted =>
        if inserted then .inserted else .duplicateKey
  | .updateKeySet ownerID id values =>
    .update (SetRow.onSet (KeySet.ownedBy ownerID id)) (SetRow.mapSet (KeySet.written values))
      (SetRow.key_mapSet (KeySet.id_written values)) some
  | .clearDefault ownerID =>
    .update (SetRow.onSet (KeySet.isDefaultOf ownerID)) (SetRow.mapSet (KeySet.designated false))
      (SetRow.key_mapSet (KeySet.id_designated false)) some
  | .designate ownerID id =>
    .update (SetRow.onSet (KeySet.ownedBy ownerID id)) (SetRow.mapSet (KeySet.designated true))
      (SetRow.key_mapSet (KeySet.id_designated true)) some
  | .selectIsDefault ownerID id => .read fun rows =>
    ((catalog.withRows rows).findKeySet ownerID id).map (·.isDefault)
  | .deleteMembers setID =>
    .delete (SetRow.onMember (inSet setID))
      fun affected => affected
  | .deleteKeySet ownerID id => .delete (SetRow.onSet (KeySet.ownedBy ownerID id)) some
  | .insertMember ownerID setID keyID now =>
    if catalog.hasPublicKey ownerID keyID then
      .insert (.membership ⟨setID, keyID, now⟩) fun inserted =>
        if inserted then some 1 else none
    else .read fun _ => some 0
  | .deleteMember ownerID setID keyID =>
    if catalog.hasPublicKey ownerID keyID then
      .delete (SetRow.onMember (joins setID keyID))
        fun affected => affected
    else .read fun _ => 0
  | .selectMembers ownerID setID => .read fun rows => (catalog.withRows rows).members ownerID setID
  | .appendAudit record => .read fun _ => (catalog.appendAudit record).1

def keySetSchema (catalog : Catalog) : Schema KeySetStatement SetRow.key where
  access := KeySetStatement.access catalog
  clashes := SetRow.clashes
  symmetric := SetRow.clashes_comm

variable (catalog : Catalog)

theorem Catalog.setsOf_setRows : setsOf catalog.setRows = catalog.keySets := by
  ext1
  simp [setsOf, parts, setRows, List.filterMap_append,
    List.filterMap_map, Function.comp_def, SetRow.set?]

theorem unique_iff : rows.Unique SetRow.clashes ↔ (setsOf rows).Unique KeySet.clashes := by
  constructor
  · intro unique left leftStored right rightStored differs
    exact unique (.keySet left) (mem_setsOf.mp leftStored) (.keySet right)
      (mem_setsOf.mp rightStored) fun same => differs (SetKey.keySet.inj same)
  · intro unique left leftStored right rightStored differs
    cases left with
    | keySet left =>
      cases right with
      | keySet right =>
        exact unique left (mem_setsOf.mpr leftStored) right (mem_setsOf.mpr rightStored)
          fun same => differs (congrArg SetKey.keySet same)
      | owner | membership => rfl
    | owner | membership => rfl

end Vallet.Publishing
