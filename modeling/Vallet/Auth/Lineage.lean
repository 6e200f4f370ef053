import Vallet.Auth.Credentials
import Vallet.Auth.Token
import Mathlib.Data.List.Chain

/-!
# Lineages

A lineage is the list of its credentials in the order they were created.  The
root is first, each credential names the one it was rotated from, and only the
last one may be active.  A replay revokes the lineage as a whole.
-/

namespace Vallet.Auth

open Relational RefreshCredential

/-- The credentials of one lineage, oldest first. -/
def CredentialTables.lineage (tables : CredentialTables)
    (lineageID : LineageID) : List RefreshCredential :=
  tables.refreshCredentials.select fun credential =>
    decide (credential.lineageID = lineageID)

theorem CredentialTables.mem_lineage {tables : CredentialTables}
    {lineageID : LineageID} {credential : RefreshCredential} :
    credential ∈ tables.lineage lineageID ↔
      credential ∈ tables.refreshCredentials ∧ credential.lineageID = lineageID := by
  simp [CredentialTables.lineage]

/-- The invariant of a lineage that has been started. -/
structure Lineage.WellFormed (lineageID : LineageID) (rows : List RefreshCredential) : Prop where
  started : ∃ root, rows.head? = some root ∧ root.id = lineageID ∧ root.rotatedFromID = none ∧
    root.expiresAt = root.issuedAt + refreshLineageLifetime
  linked : rows.IsChain fun parent child =>
    child.rotatedFromID = some parent.id
  uniform : ∀ credential ∈ rows, ∀ other ∈ rows,
    credential.ownerID = other.ownerID ∧ credential.scopes = other.scopes ∧
      credential.expiresAt = other.expiresAt
  retired : ∀ credential ∈ rows.dropLast, credential.status ≠ .active
  burned : ∀ credential ∈ rows, credential.status = .revoked →
    ∀ other ∈ rows, other.status = .revoked

/-- Every lineage of the table is empty or well formed. -/
def CredentialTables.Sound (tables : CredentialTables) : Prop :=
  ∀ lineageID, tables.lineage lineageID = [] ∨
    Lineage.WellFormed lineageID (tables.lineage lineageID)

/-- A change of status, and nothing else. -/
structure StatusChange (change : RefreshCredential → RefreshCredential) : Prop where
  id : ∀ credential, (change credential).id = credential.id
  ownerID : ∀ credential, (change credential).ownerID = credential.ownerID
  lineageID : ∀ credential, (change credential).lineageID = credential.lineageID
  scopes : ∀ credential, (change credential).scopes = credential.scopes
  rotatedFromID : ∀ credential, (change credential).rotatedFromID = credential.rotatedFromID
  issuedAt : ∀ credential, (change credential).issuedAt = credential.issuedAt
  expiresAt : ∀ credential, (change credential).expiresAt = credential.expiresAt
  staysInactive : ∀ credential, credential.status ≠ .active → (change credential).status ≠ .active
  staysRevoked : ∀ credential, credential.status = .revoked → (change credential).status = .revoked

theorem statusChange_rotated (ownerID : OwnerID) (id : RefreshCredentialID) :
    StatusChange fun credential =>
      if rotatable ownerID id credential then
        credential.rotated
      else credential := by
  constructor
  case staysInactive =>
    intro credential inactive
    simp [rotatable, inactive]
  case staysRevoked =>
    intro credential revoked
    simp [rotatable, revoked]
  all_goals
    intro credential
    split <;> rfl

theorem statusChange_revoked (ownerID : OwnerID) (lineageID : LineageID) (now : Int) :
    StatusChange fun credential =>
      if RefreshCredential.revocable ownerID lineageID credential then
        credential.revoked now
      else credential := by
  constructor
  case staysInactive =>
    intro credential inactive
    split
    · simp [RefreshCredential.revoked]
    · exact inactive
  case staysRevoked =>
    intro credential revoked
    split
    · rfl
    · exact revoked
  all_goals
    intro credential
    split <;> rfl

namespace Lineage

variable {lineageID : LineageID} {rows : List RefreshCredential}
  {credential root : RefreshCredential}

section

variable (formed : WellFormed lineageID rows)

include formed

theorem WellFormed.ne_nil : rows ≠ [] := by
  obtain ⟨root, first, _⟩ := formed.started
  rintro rfl
  cases first

theorem WellFormed.eq_getLast_of_active
    (member : credential ∈ rows) (active : credential.status = .active) :
    credential = rows.getLast formed.ne_nil := by
  rw [← List.dropLast_append_getLast formed.ne_nil, List.mem_append, List.mem_singleton] at member
  rcases member with earlier | last
  · exact (formed.retired credential earlier active).elim
  · exact last

theorem WellFormed.active_unique {other : RefreshCredential} (member : credential ∈ rows)
    (otherMember : other ∈ rows) (active : credential.status = .active)
    (otherActive : other.status = .active) : credential = other :=
  (formed.eq_getLast_of_active member active).trans
    (formed.eq_getLast_of_active otherMember otherActive).symm

/-- The lineage's deadline is the root's, counted from its issue. -/
theorem WellFormed.deadline (first : rows.head? = some root) (member : credential ∈ rows) :
    credential.expiresAt = root.issuedAt + refreshLineageLifetime := by
  obtain ⟨start, startFirst, _, _, deadline⟩ := formed.started
  have same : start = root := Option.some.inj (startFirst.symm.trans first)
  subst start
  have rootMember : root ∈ rows := List.mem_of_head? first
  rw [(formed.uniform credential member root rootMember).2.2, deadline]

/-- A change of status keeps a lineage well formed when it burns the lineage
as a whole or leaves revocation alone. -/
theorem WellFormed.map
    {change : RefreshCredential → RefreshCredential} (statusOnly : StatusChange change)
    (whole : (∀ credential ∈ rows, (change credential).status = .revoked) ∨
      ∀ credential ∈ rows, (change credential).status = .revoked → credential.status = .revoked) :
    WellFormed lineageID (rows.map change) := by
  constructor
  · obtain ⟨root, first, rootID, orphan, deadline⟩ := formed.started
    refine ⟨change root, by simp [first], ?_, ?_, ?_⟩
    · rw [statusOnly.id, rootID]
    · rw [statusOnly.rotatedFromID, orphan]
    · rw [statusOnly.expiresAt, statusOnly.issuedAt, deadline]
  · rw [List.isChain_map]
    refine formed.linked.imp fun parent child link => ?_
    rw [statusOnly.rotatedFromID, statusOnly.id, link]
  · simp only [List.mem_map, forall_exists_index, and_imp,
      forall_apply_eq_imp_iff₂, statusOnly.ownerID, statusOnly.scopes, statusOnly.expiresAt]
    exact formed.uniform
  · rw [← List.map_dropLast]
    simp only [List.mem_map, forall_exists_index, and_imp, forall_apply_eq_imp_iff₂]
    intro credential member
    exact statusOnly.staysInactive credential (formed.retired credential member)
  · simp only [List.mem_map, forall_exists_index, and_imp, forall_apply_eq_imp_iff₂]
    intro credential member revoked other otherMember
    rcases whole with all | unrevoked
    · exact all other otherMember
    · have before := unrevoked credential member revoked
      exact statusOnly.staysRevoked other (formed.burned credential member before other otherMember)

/-- A lineage without active credentials can be extended by a child of its
last credential. -/
theorem WellFormed.extend {child : RefreshCredential}
    (inactive : ∀ credential ∈ rows, credential.status ≠ .active)
    (unburned : ∀ credential ∈ rows, credential.status ≠ .revoked) (active : child.status = .active)
    (parent : child.rotatedFromID = some (rows.getLast formed.ne_nil).id)
    (inherits : ∀ credential ∈ rows, child.ownerID = credential.ownerID ∧
      child.scopes = credential.scopes ∧
      child.expiresAt = credential.expiresAt) :
    WellFormed lineageID (rows ++ [child]) := by
  constructor
  · obtain ⟨root, first, facts⟩ := formed.started
    exact ⟨root, by simp [List.head?_append, first], facts⟩
  · rw [List.isChain_append]
    refine ⟨formed.linked, by simp, ?_⟩
    intro last lastFound next nextFound
    rw [List.getLast?_eq_some_getLast formed.ne_nil, Option.mem_some_iff] at lastFound
    rw [List.head?_cons, Option.mem_some_iff] at nextFound
    rw [← nextFound, ← lastFound, parent]
  · intro credential member other otherMember
    rw [List.mem_append, List.mem_singleton] at member otherMember
    rcases member with member | rfl
    · rcases otherMember with otherMember | rfl
      · exact formed.uniform credential member other otherMember
      · obtain ⟨owner, scopes, deadline⟩ := inherits credential member
        exact ⟨owner.symm, scopes.symm, deadline.symm⟩
    · rcases otherMember with otherMember | rfl
      · exact inherits other otherMember
      · exact ⟨rfl, rfl, rfl⟩
  · rw [List.dropLast_concat]
    exact inactive
  · intro credential member revoked
    rw [List.mem_append, List.mem_singleton] at member
    rcases member with member | rfl
    · exact (unburned credential member revoked).elim
    · rw [active] at revoked
      cases revoked

end

theorem wellFormed_root (rootID : root.id = lineageID) (orphan : root.rotatedFromID = none)
    (deadline : root.expiresAt = root.issuedAt + refreshLineageLifetime)
    (active : root.status = .active) : WellFormed lineageID [root] := by
  constructor
  · exact ⟨root, rfl, rootID, orphan, deadline⟩
  · simp
  · simp
  · simp
  · simp [active]

end Lineage

/-! ## Lineages under the writes of the token service -/

namespace CredentialTables

variable {tables extended : CredentialTables} {credential : RefreshCredential}
  {lineageID : LineageID}

variable (ownerID : OwnerID)

theorem lineage_rotateCredential (id : RefreshCredentialID) (lineageID : LineageID) :
    (tables.rotateCredential ownerID id).lineage lineageID =
      (tables.lineage lineageID).map fun credential =>
        if rotatable ownerID id credential then
          credential.rotated
        else credential :=
  Table.select_update _ _ _ id_rotated fun _ => rfl

theorem lineage_revokeLineageRows (burned lineageID : LineageID) (now : Int) :
    (tables.revokeLineageRows ownerID burned now).lineage lineageID =
      (tables.lineage lineageID).map fun credential =>
        if RefreshCredential.revocable ownerID burned credential then
          credential.revoked now
        else credential :=
  Table.select_update _ _ _ (id_revoked now) fun _ => rfl

theorem lineage_insertCredential
    (insertion : tables.insertCredential credential = (.inserted, extended))
    (lineageID : LineageID) :
    extended.lineage lineageID =
      if credential.lineageID = lineageID then
        tables.lineage lineageID ++ [credential]
      else tables.lineage lineageID := by
  obtain ⟨_, _, _, rows⟩ := insertCredential_eq_inserted_iff.mp insertion
  rw [lineage, Table.select, rows, List.filter_append]
  by_cases same : credential.lineageID = lineageID
  all_goals simp [same, lineage, Table.select]

theorem sound_empty {owners : Table Owner.id} : Sound { owners, refreshCredentials := .empty } :=
  fun _ => .inl rfl

/-- Without a credential of that owner in that lineage, revoking the lineage
changes nothing. -/
theorem revokeLineageRows_of_absent {ownerID : OwnerID} (now : Int)
    (absent : ∀ credential ∈ tables.refreshCredentials,
      RefreshCredential.inLineage ownerID lineageID credential = false) :
    tables.revokeLineageRows ownerID lineageID now = tables := by
  have rows : (tables.revokeLineageRows ownerID lineageID
      now).refreshCredentials = tables.refreshCredentials := by
    apply Table.ext
    rw [rows_revokeLineageRows]
    conv => rhs; rw [← List.map_id tables.refreshCredentials.rows]
    apply List.map_congr_left
    intro credential member
    simp [RefreshCredential.revocable, absent credential member]
  cases tables
  simpa [revokeLineageRows] using rows

variable (sound : tables.Sound)

include sound

theorem Sound.lineage_eq_nil (fresh : ∀ other ∈ tables.refreshCredentials, other.id ≠ lineageID) :
    tables.lineage lineageID = [] := by
  rcases sound lineageID with empty | formed
  · exact empty
  · obtain ⟨root, first, rootID, _⟩ := formed.started
    have member := mem_lineage.mp (List.mem_of_head? first)
    exact (fresh root member.1 rootID).elim

theorem Sound.wellFormed (stored : credential ∈ tables.refreshCredentials) :
    Lineage.WellFormed credential.lineageID (tables.lineage credential.lineageID) := by
  rcases sound credential.lineageID with empty | formed
  · have member := mem_lineage.mpr ⟨stored, rfl⟩
    rw [empty] at member
    cases member
  · exact formed

theorem Sound.oneActive {other : RefreshCredential}
    (stored : credential ∈ tables.refreshCredentials)
    (otherStored : other ∈ tables.refreshCredentials)
    (sameLineage : credential.lineageID = other.lineageID) (active : credential.status = .active)
    (otherActive : other.status = .active) : credential = other :=
  (sound.wellFormed stored).active_unique (mem_lineage.mpr ⟨stored, rfl⟩)
    (mem_lineage.mpr ⟨otherStored, sameLineage.symm⟩) active otherActive

theorem Sound.oneChain (started : tables.lineage lineageID ≠ []) : ∃ root descendants,
      tables.lineage lineageID = root :: descendants ∧
      root.id = lineageID ∧ root.rotatedFromID = none ∧
      (root :: descendants).IsChain (fun parent child =>
        child.rotatedFromID = some parent.id) ∧
      ∀ credential ∈ root :: descendants, credential.ownerID = root.ownerID ∧
        credential.scopes = root.scopes ∧
        credential.expiresAt = root.expiresAt := by
  rcases sound lineageID with empty | formed
  · exact (started empty).elim
  obtain ⟨root, first, rootID, orphan, _⟩ := formed.started
  cases rows : tables.lineage lineageID with
  | nil => exact (started rows).elim
  | cons head descendants =>
    rw [rows] at formed first
    cases first
    refine ⟨root, descendants, rfl, rootID, orphan, formed.linked, ?_⟩
    intro credential member
    exact formed.uniform credential member root List.mem_cons_self

theorem Sound.insertRoot {root : RefreshCredential}
    (rootID : root.lineageID = root.id) (orphan : root.rotatedFromID = none)
    (deadline : root.expiresAt = root.issuedAt + refreshLineageLifetime)
    (active : root.status = .active)
    (insertion : tables.insertCredential root = (.inserted, extended)) : extended.Sound := by
  intro lineageID
  have fresh := (insertCredential_eq_inserted_iff.mp insertion).1
  rw [lineage_insertCredential insertion]
  by_cases same : root.lineageID = lineageID
  · subst lineageID
    rw [if_pos rfl, rootID, sound.lineage_eq_nil fresh]
    exact .inr (Lineage.wellFormed_root rfl orphan deadline active)
  · rw [if_neg same]
    exact sound lineageID

/-- Burning revokes every credential of the lineage it is aimed at. -/
theorem Sound.all_revoked_of_burn (stored : credential ∈ tables.refreshCredentials) (now : Int) :
    ∀ other ∈ (tables.revokeLineageRows credential.ownerID
      credential.lineageID now).lineage credential.lineageID,
      other.status = .revoked := by
  rw [lineage_revokeLineageRows]
  simp only [List.mem_map, forall_exists_index, and_imp, forall_apply_eq_imp_iff₂]
  intro other member
  have formed := sound.wellFormed stored
  have sameOwner : other.ownerID = credential.ownerID :=
    (formed.uniform other member credential (mem_lineage.mpr ⟨stored, rfl⟩)).1
  have sameLineage : other.lineageID = credential.lineageID := (mem_lineage.mp member).2
  by_cases revoked : other.status = .revoked
  · simp [RefreshCredential.revocable, revoked]
  · simp [RefreshCredential.revocable, RefreshCredential.inLineage, sameOwner,
      sameLineage, revoked, RefreshCredential.revoked]

theorem Sound.burn (stored : credential ∈ tables.refreshCredentials) (now : Int) :
    (tables.revokeLineageRows credential.ownerID credential.lineageID now).Sound := by
  intro lineageID
  rw [lineage_revokeLineageRows]
  rcases sound lineageID with empty | formed
  · exact .inl (by simp [empty])
  refine .inr (formed.map (statusChange_revoked _ _ now) ?_)
  by_cases same : lineageID = credential.lineageID
  · subst lineageID
    have burned := sound.all_revoked_of_burn stored now
    rw [lineage_revokeLineageRows] at burned
    exact .inl fun other member => burned _ (List.mem_map_of_mem member)
  · refine .inr fun other member revoked => ?_
    have elsewhere : other.lineageID ≠ credential.lineageID := fun here =>
      same ((mem_lineage.mp member).2.symm.trans here)
    simpa [RefreshCredential.revocable, RefreshCredential.inLineage,
      elsewhere] using revoked

theorem Sound.revokeLineageRows (lineageID : LineageID) (now : Int) :
    (tables.revokeLineageRows ownerID lineageID now).Sound := by
  by_cases present : ∃ credential ∈ tables.refreshCredentials,
      RefreshCredential.inLineage ownerID lineageID credential = true
  · obtain ⟨credential, stored, selected⟩ := present
    simp only [RefreshCredential.inLineage, Bool.and_eq_true, decide_eq_true_eq] at selected
    obtain ⟨rfl, rfl⟩ := selected
    exact sound.burn stored now
  · rw [revokeLineageRows_of_absent now]
    · exact sound
    · intro credential stored
      simpa using fun selected => present ⟨credential, stored, selected⟩

theorem Sound.rotate (id : RefreshCredentialID) : (tables.rotateCredential ownerID id).Sound := by
  intro lineageID
  rw [lineage_rotateCredential]
  rcases sound lineageID with empty | formed
  · exact .inl (by simp [empty])
  refine .inr (formed.map (statusChange_rotated _ _) (.inr ?_))
  intro credential _
  split
  · intro impossible
    cases impossible
  · exact fun revoked => revoked

variable (stored : credential ∈ tables.refreshCredentials) (active : credential.status = .active)

include stored active

theorem Sound.rotated_inactive : ∀ other ∈ (tables.rotateCredential credential.ownerID
      credential.id).lineage credential.lineageID,
      other.status ≠ .active ∧ other.status ≠ .revoked := by
  rw [lineage_rotateCredential]
  simp only [List.mem_map, forall_exists_index, and_imp, forall_apply_eq_imp_iff₂]
  intro other member
  have formed := sound.wellFormed stored
  have credentialMember := mem_lineage.mpr ⟨stored, rfl⟩
  have unburned : other.status ≠ .revoked := by
    intro revoked
    have credentialRevoked := formed.burned other member revoked credential credentialMember
    rw [active] at credentialRevoked
    cases credentialRevoked
  by_cases otherActive : other.status = .active
  · have same : other = credential :=
      formed.active_unique member credentialMember otherActive active
    simp [same, rotatable, ownedBy, active, rotated]
  · simp [rotatable, otherActive, unburned]

theorem Sound.getLast_rotated (started : (tables.rotateCredential credential.ownerID
      credential.id).lineage credential.lineageID ≠ []) :
    (((tables.rotateCredential credential.ownerID credential.id).lineage
      credential.lineageID).getLast started).id = credential.id := by
  have formed := sound.wellFormed stored
  have last := formed.eq_getLast_of_active (mem_lineage.mpr ⟨stored, rfl⟩) active
  simp only [lineage_rotateCredential, List.getLast_map]
  rw [(statusChange_rotated _ _).id, ← last]

theorem Sound.insertSuccessor {child : RefreshCredential}
    (sameLineage : child.lineageID = credential.lineageID) (childActive : child.status = .active)
    (parent : child.rotatedFromID = some credential.id)
    (inherits : child.ownerID = credential.ownerID ∧ child.scopes = credential.scopes ∧
      child.expiresAt = credential.expiresAt)
    (insertion : (tables.rotateCredential credential.ownerID
      credential.id).insertCredential child = (.inserted, extended)) :
    extended.Sound := by
  have rotatedSound := sound.rotate credential.ownerID credential.id
  intro lineageID
  rw [lineage_insertCredential insertion]
  by_cases same : child.lineageID = lineageID
  · subst lineageID
    rw [if_pos rfl, sameLineage]
    have inactive := sound.rotated_inactive stored active
    have formed := sound.wellFormed stored
    rcases rotatedSound credential.lineageID with empty | rotatedFormed
    · rw [lineage_rotateCredential, List.map_eq_nil_iff] at empty
      exact (formed.ne_nil empty).elim
    · refine .inr (rotatedFormed.extend (fun other member =>
        (inactive other member).1) (fun other member =>
        (inactive other member).2) childActive ?_ ?_)
      · rw [parent, sound.getLast_rotated stored active]
      rw [lineage_rotateCredential]
      simp only [List.mem_map, forall_exists_index, and_imp,
        forall_apply_eq_imp_iff₂, (statusChange_rotated _ _).ownerID,
        (statusChange_rotated _ _).scopes, (statusChange_rotated _ _).expiresAt]
      intro other member
      obtain ⟨owner, scopes, deadline⟩ := formed.uniform credential
        (mem_lineage.mpr ⟨stored, rfl⟩) other member
      exact ⟨inherits.1.trans owner, inherits.2.1.trans scopes, inherits.2.2.trans deadline⟩
  · rw [if_neg same]
    exact rotatedSound lineageID

end CredentialTables

end Vallet.Auth
