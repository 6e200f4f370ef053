import Vallet.Domain.Publishing
import Vallet.Foundation.Encoding

/-!
# Tombstones

An erased identifier is replaced by a keyed digest of itself.  What is left of
a record says what happened and when; the two identifier columns and the
identifying details hold tombstones.
-/

namespace Vallet.Erasure

open Encoding

def tombstonePrefix : GoString := utf8 "anon:"

def tombstone (salt : List UInt8) (id : GoString) : GoString :=
  tombstonePrefix ++ base64Encode (hmacSha256 salt id)

/-- The exact shape `tombstone` produces. -/
def isTombstone (text : GoString) : Bool :=
  match text.cutPrefix? tombstonePrefix with
  | none => false
  | some rest =>
    match base64Decode? rest with
    | none => false
    | some raw => raw.length = 32

/-- The keys whose values name nobody are kept; all others are erased. -/
def isErasableDetail : DetailKey → Bool
  | .algorithm | .visibility | .scope | .reason | .result | .requestID
  | .count => false
  | _ => true

/-- A value `scrubDetails` does not pass over. -/
def identifies (detail : DetailKey × GoString) : Bool :=
  !(detail.2 = [] || isTombstone detail.2 || !isErasableDetail detail.1)

def scrubDetail (salt : List UInt8) (detail : DetailKey × GoString) : DetailKey × GoString :=
  if identifies detail then (detail.1, tombstone salt detail.2) else detail

/-- The details without what identifies an owner, and whether there was any. -/
def scrubDetails (salt : List UInt8) (details : List (DetailKey × GoString)) :
    List (DetailKey × GoString) × Bool :=
  (details.map (scrubDetail salt), details.any identifies)

/-! ## Shapes -/

variable {details : List (DetailKey × GoString)} {salt : List UInt8}
  {ids : List GoString} {record : AuditRecord}

theorem isTombstone_tombstone (salt : List UInt8) (id : GoString) :
    isTombstone (tombstone salt id) = true := by
  simp [isTombstone, tombstone, GoString.cutPrefix?_append,
    base64Decode?_encode, hmacSha256, length_sha256]

theorem identifies_scrubDetail (salt : List UInt8) (detail : DetailKey × GoString) :
    identifies (scrubDetail salt detail) = false := by
  unfold scrubDetail
  split
  · simp [identifies, isTombstone_tombstone]
  · rename_i plain
    simpa using plain

/-- Details in which nothing identifies an owner. -/
def Anonymous (details : List (DetailKey × GoString)) : Prop :=
  ∀ detail ∈ details, identifies detail = false

theorem anonymous_map_scrubDetail (salt : List UInt8) (details : List (DetailKey × GoString)) :
    Anonymous (details.map (scrubDetail salt)) := by
  intro detail member
  obtain ⟨original, _, rfl⟩ := List.mem_map.mp member
  exact identifies_scrubDetail salt original

theorem Anonymous.map_scrubDetail (anonymous : Anonymous details) (salt : List UInt8) :
    details.map (scrubDetail salt) = details := by
  calc
    details.map (scrubDetail salt) = details.map id := by
      apply List.map_congr_left
      intro detail member
      rw [scrubDetail, if_neg (by simp [anonymous detail member]), id]
    _ = details := List.map_id _

/-- Nothing is changed exactly where nothing identifies an owner. -/
theorem scrubDetails_unchanged (unchanged : (scrubDetails salt details).2 = false) :
    Anonymous details := by
  intro detail member
  have none := List.any_eq_false.mp unchanged detail member
  simpa using none

/-! ## Records -/

/-- `WHERE actor_id IN (…) OR target_id IN (…)`. -/
def names (ids : List GoString) (record : AuditRecord) : Bool :=
  decide (record.actorID ∈ ids) || decide (record.targetID ∈ ids)

/-- What the `UPDATE` makes of a row that it matches. -/
def pseudonymized (ids : List GoString) (pseudonym : GoString)
    (record : AuditRecord) : AuditRecord :=
  { record with
    actorID := if record.actorID ∈ ids then pseudonym else record.actorID
    targetID :=
      if record.targetID ∈ ids then pseudonym else record.targetID
    pseudonymized := true }

theorem id_pseudonymized (ids : List GoString) (pseudonym : GoString) (record : AuditRecord) :
    (pseudonymized ids pseudonym record).id = record.id := rfl

def scrubbed (salt : List UInt8) (record : AuditRecord) : AuditRecord :=
  { record with metadata := record.metadata.map (scrubDetail salt) }

def erasedColumn (salt : List UInt8) (ids : List GoString) (column : GoString) : GoString :=
  if column ∈ ids then tombstone salt column else column

/-- What erasure is to make of a record. -/
def erased (salt : List UInt8) (ids : List GoString) (record : AuditRecord) : AuditRecord :=
  { record with
    actorID := erasedColumn salt ids record.actorID
    targetID := erasedColumn salt ids record.targetID
    metadata := if names ids record then
        record.metadata.map (scrubDetail salt)
      else record.metadata
    pseudonymized := names ids record || record.pseudonymized }

theorem names_eq_true_iff : names ids record = true ↔
      record.actorID ∈ ids ∨ record.targetID ∈ ids := by
  simp [names]

theorem names_eq_false_iff : names ids record = false ↔
      record.actorID ∉ ids ∧ record.targetID ∉ ids := by
  simp [names]

theorem names_of_names_single {id : GoString} (member : id ∈ ids)
    (matched : names [id] record = true) : names ids record = true := by
  rw [names_eq_true_iff, List.mem_singleton, List.mem_singleton] at matched
  rw [names_eq_true_iff]
  rcases matched with rfl | rfl
  · exact .inl member
  · exact .inr member

/-- No tombstone is an identifier. -/
def Unmarked (ids : List GoString) : Prop :=
  ∀ id ∈ ids, isTombstone id = false

theorem Unmarked.tombstone_not_mem (unmarked : Unmarked ids) (salt : List UInt8) (id : GoString) :
    tombstone salt id ∉ ids := by
  intro member
  have plain := unmarked _ member
  rw [isTombstone_tombstone] at plain
  cases plain

/-- A record on the way to its erased form.  Its columns are only replaced
once its details have been, and together with its flag. -/
structure Partway (salt : List UInt8) (ids : List GoString)
    (origin record : AuditRecord) : Prop where
  event : { record with
      actorID := origin.actorID
      targetID := origin.targetID
      metadata := origin.metadata
      pseudonymized := origin.pseudonymized } = origin
  actor : record.actorID = origin.actorID ∨ record.actorID = erasedColumn salt ids origin.actorID
  target : record.targetID = origin.targetID ∨
    record.targetID = erasedColumn salt ids origin.targetID
  details : record.metadata = origin.metadata ∨ record.metadata = (erased salt ids origin).metadata
  flag : record.pseudonymized = origin.pseudonymized ∨
    record.pseudonymized = (erased salt ids origin).pseudonymized
  ordered : record.actorID ≠ origin.actorID ∨ record.targetID ≠ origin.targetID →
    record.metadata = (erased salt ids origin).metadata ∧
      record.pseudonymized = (erased salt ids origin).pseudonymized

namespace Partway

variable {salt : List UInt8} {ids : List GoString} {origin record : AuditRecord}

theorem refl (salt : List UInt8) (ids : List GoString)
    (record : AuditRecord) : Partway salt ids record record where
  event := rfl
  actor := .inl rfl
  target := .inl rfl
  details := .inl rfl
  flag := .inl rfl
  ordered := by
    rintro (moved | moved)
    all_goals exact absurd rfl moved

/-- A record that names no identifier any more has its erased form. -/
theorem eq_erased (partway : Partway salt ids origin record) (unnamed : names ids record = false) :
    record = erased salt ids origin := by
  obtain ⟨actorClear, targetClear⟩ := names_eq_false_iff.mp unnamed
  have replaced : ∀ {column original : GoString}, column ∉ ids →
      (column = original ∨ column = erasedColumn salt ids original) →
      column = erasedColumn salt ids original := by
    intro column original clear held
    rcases held with rfl | erasedHeld
    · rw [erasedColumn, if_neg clear]
    · exact erasedHeld
  have actor := replaced actorClear partway.actor
  have target := replaced targetClear partway.target
  have rest : record.metadata = (erased salt ids origin).metadata ∧
      record.pseudonymized = (erased salt ids origin).pseudonymized := by
    by_cases named : names ids origin = true
    · apply partway.ordered
      rcases names_eq_true_iff.mp named with member | member
      · left
        exact fun same => actorClear (same ▸ member)
      · right
        exact fun same => targetClear (same ▸ member)
    · have details := partway.details
      have flag := partway.flag
      simp only [erased, named, Bool.false_eq_true, if_false, Bool.false_or, or_self]
        at details flag ⊢
      exact ⟨details, flag⟩
  have event := partway.event
  cases record
  cases origin
  simp only [AuditRecord.mk.injEq] at event
  simp_all [erased]

variable (unmarked : Unmarked ids)

include unmarked

theorem column_original {column original : GoString}
    (held : column = original ∨ column = erasedColumn salt ids original)
    (member : column ∈ ids) : column = original := by
  rcases held with same | replaced
  · exact same
  unfold erasedColumn at replaced
  split at replaced
  · rw [replaced] at member
    exact absurd member (unmarked.tombstone_not_mem salt original)
  · exact replaced

theorem column_pass {column original id : GoString} (member : id ∈ ids)
    (held : column = original ∨ column = erasedColumn salt ids original) :
    (if column ∈ [id] then tombstone salt id else column) = original ∨
      (if column ∈ [id] then tombstone salt id else column) = erasedColumn salt ids original := by
  by_cases matched : column = id
  · right
    have kept := column_original unmarked held (matched ▸ member)
    rw [if_pos (by simp [matched]), erasedColumn, if_pos (kept ▸ matched ▸ member), ← kept, matched]
  · rw [if_neg (by simpa using matched)]
    exact held

variable (partway : Partway salt ids origin record)

include partway

theorem names_origin (named : names ids record = true) : names ids origin = true := by
  rw [names_eq_true_iff] at named ⊢
  rcases named with actor | target
  · left
    rw [← column_original unmarked partway.actor actor]
    exact actor
  · right
    rw [← column_original unmarked partway.target target]
    exact target

theorem flag_erased {id : GoString} (member : id ∈ ids) (matched : names [id] record = true) :
    (erased salt ids origin).pseudonymized = true := by
  have named := partway.names_origin unmarked (names_of_names_single member matched)
  simp [erased, named]

/-- The details of a record that is scrubbed while it names an identifier. -/
theorem scrub (named : names ids record = true) : Partway salt ids origin (scrubbed salt record) ∧
      (scrubbed salt record).metadata = (erased salt ids origin).metadata := by
  have originNamed := partway.names_origin unmarked named
  have scrubbedDetails : (scrubbed salt record).metadata = (erased salt ids origin).metadata := by
    have whole : (erased salt ids origin).metadata = origin.metadata.map (scrubDetail salt) := by
      simp [erased, originNamed]
    rw [whole]
    change record.metadata.map (scrubDetail salt) = _
    rcases partway.details with same | done
    · rw [same]
    · rw [done, whole, (anonymous_map_scrubDetail _ _).map_scrubDetail]
  refine ⟨?_, scrubbedDetails⟩
  exact
    { partway with
      details := .inr scrubbedDetails
      ordered := fun moved => ⟨scrubbedDetails, (partway.ordered moved).2⟩ }

theorem pass {id : GoString} (member : id ∈ ids) (matched : names [id] record = true)
    (done : names ids origin = true → record.metadata = (erased salt ids origin).metadata) :
    Partway salt ids origin (pseudonymized [id] (tombstone salt id) record) where
  event := partway.event
  actor := column_pass unmarked member partway.actor
  target := column_pass unmarked member partway.target
  details := partway.details
  flag := .inr (partway.flag_erased unmarked member matched).symm
  ordered := fun _ => ⟨done (partway.names_origin unmarked (names_of_names_single member matched)),
    (partway.flag_erased unmarked member matched).symm⟩

end Partway

end Vallet.Erasure
