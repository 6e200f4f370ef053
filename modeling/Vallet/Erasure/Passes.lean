import Vallet.Erasure.Eraser

/-!
# What each pass does to the log

Others may append records while an erasure runs.  Each pass is described by
what it makes of one record, whatever the record came from: a fate is a
relation between a record as it was and as it is now that every pass respects.
-/

namespace Vallet.Erasure

open Audit Auth Effects Publishing Relational Eraser

/-! ## Appends in between -/

/-- Others append records of a given kind and do nothing else. -/
structure Grown (foreign : AuditRecord → Prop) (before after : Archive) : Prop where
  kept : ∀ record ∈ before.log, record ∈ after.log
  added : ∀ record ∈ after.log, record ∈ before.log ∨ foreign record
  rows : after.listByOwner = before.listByOwner
  salts : after.salts = before.salts

namespace Grown

variable {foreign : AuditRecord → Prop} {before middle after : Archive}

theorem refl (foreign : AuditRecord → Prop) (archive : Archive) :
    Grown foreign archive archive where
  kept := fun _ member => member
  added := fun _ member => .inl member
  rows := rfl
  salts := rfl

theorem trans (first : Grown foreign before middle)
    (second : Grown foreign middle after) : Grown foreign before after where
  kept := fun record member => second.kept record (first.kept record member)
  added := by
    intro record member
    rcases second.added record member with old | new
    · exact first.added record old
    · exact .inr new
  rows := second.rows.trans first.rows
  salts := second.salts.trans first.salts

end Grown

/-- What others do between two calls. -/
def appendMove (record : AuditRecord) (archive : Archive) : Archive :=
  (archive.append record).2

variable {foreign : AuditRecord → Prop} {record : AuditRecord}
  {salt : List UInt8} {ids : List GoString} {read : Archive}

theorem grown_appendMove (kind : foreign record) (archive : Archive) :
    Grown foreign archive (appendMove record archive) := by
  unfold appendMove Archive.append
  split
  · exact .refl foreign archive
  rename_i extended inserted
  exact
    { kept := fun other member =>
        (Table.mem_insert inserted).mpr (.inl member)
      added := by
        intro other member
        rcases (Table.mem_insert inserted).mp member with old | rfl
        · exact .inl old
        · exact .inr kind
      rows := rfl
      salts := rfl }

theorem grown_disturb {moves : List AuditRecord}
    (kind : ∀ record ∈ moves, foreign record) (archive : Archive) :
    Grown foreign archive (disturb appendMove moves archive) := by
  unfold disturb
  induction moves generalizing archive with
  | nil => exact .refl foreign archive
  | cons record rest induction =>
    rw [List.foldl_cons]
    apply (grown_appendMove (kind record List.mem_cons_self) archive).trans
    apply induction
    exact fun other member => kind other (List.mem_cons_of_mem _ member)

/-! ## Fates -/

/-- What the metadata pass makes of a record. -/
def scrubStep (salt : List UInt8) (ids : List GoString) (record : AuditRecord) : AuditRecord :=
  if names ids record then scrubbed salt record else record

/-- What the pass for one identifier makes of a record. -/
def passStep (salt : List UInt8) (id : GoString) (record : AuditRecord) : AuditRecord :=
  if names [id] record then pseudonymized [id] (tombstone salt id) record
  else record

theorem scrubStep_eq_self (unnamed : names ids record = false) :
    scrubStep salt ids record = record := by
  simp [scrubStep, unnamed]

theorem passStep_eq_self (unnamed : names ids record = false) {id : GoString} (member : id ∈ ids) :
    passStep salt id record = record := by
  obtain ⟨actor, target⟩ := names_eq_false_iff.mp unnamed
  have single : names [id] record = false := by
    rw [names_eq_false_iff]
    constructor
    · intro same
      exact actor (List.mem_singleton.mp same ▸ member)
    · intro same
      exact target (List.mem_singleton.mp same ▸ member)
  simp [passStep, single]

/-- Relations between records as they were and as they are that the passes
under one salt respect, with what holds of records that were not there. -/
structure Fates (salt : List UInt8) (ids : List GoString)
    (stage settled : AuditRecord → AuditRecord → Prop) (extra : AuditRecord → Prop) : Prop where
  scrub : ∀ origin record, stage origin record → settled origin (scrubStep salt ids record)
  pass : ∀ id ∈ ids, ∀ origin record, settled origin record →
    settled origin (passStep salt id record)
  weaken : ∀ origin record, settled origin record → stage origin record
  extraScrub : ∀ record, extra record → extra (scrubStep salt ids record)
  extraPass : ∀ id ∈ ids, ∀ record, extra record → extra (passStep salt id record)

/-- Every origin is still in the log, and every record comes from one or is
extra. -/
structure Tracks (origins : AuditRecord → Prop) (stage : AuditRecord → AuditRecord → Prop)
    (extra : AuditRecord → Prop) (archive : Archive) : Prop where
  found : ∀ origin, origins origin → ∃ record ∈ archive.log, stage origin record
  known : ∀ record ∈ archive.log, (∃ origin, origins origin ∧ stage origin record) ∨ extra record

namespace Tracks

variable {origins : AuditRecord → Prop} {stage settled : AuditRecord → AuditRecord → Prop}
  {extra : AuditRecord → Prop} {before after : Archive}

section

variable (tracks : Tracks origins stage extra before)

include tracks

theorem mono {weaker : AuditRecord → AuditRecord → Prop} {more : AuditRecord → Prop}
    (implied : ∀ origin record, stage origin record → weaker origin record)
    (included : ∀ record, extra record → more record) :
    Tracks origins weaker more before where
  found := by
    intro origin listed
    obtain ⟨record, member, held⟩ := tracks.found origin listed
    exact ⟨record, member, implied origin record held⟩
  known := by
    intro record member
    rcases tracks.known record member with ⟨origin, listed, held⟩ | other
    · exact .inl ⟨origin, listed, implied origin record held⟩
    · exact .inr (included record other)

theorem grown {foreign : AuditRecord → Prop}
    (grew : Grown foreign before after) (included : ∀ record, foreign record → extra record) :
    Tracks origins stage extra after where
  found := by
    intro origin listed
    obtain ⟨record, member, held⟩ := tracks.found origin listed
    exact ⟨record, grew.kept record member, held⟩
  known := by
    intro record member
    rcases grew.added record member with old | new
    · exact tracks.known record old
    · exact .inr (included record new)

theorem map {change : AuditRecord → AuditRecord}
    (image : ∀ record, record ∈ after.log ↔ ∃ original ∈ before.log, change original = record)
    (moved : ∀ origin record, stage origin record → settled origin (change record))
    (extraMoved : ∀ record, extra record → extra (change record)) :
    Tracks origins settled extra after where
  found := by
    intro origin listed
    obtain ⟨record, member, held⟩ := tracks.found origin listed
    exact ⟨change record, (image _).mpr ⟨record, member, rfl⟩, moved origin record held⟩
  known := by
    intro record member
    obtain ⟨original, stored, rfl⟩ := (image record).mp member
    rcases tracks.known original stored with ⟨origin, listed, held⟩ | other
    · exact .inl ⟨origin, listed, moved origin original held⟩
    · exact .inr (extraMoved original other)

end

end Tracks

/-! ## The metadata pass -/

theorem updatesOf_cons (salt : List UInt8) (record : AuditRecord) (rest : List AuditRecord) :
    updatesOf salt (record :: rest) =
      if record.metadata.any identifies then
        ⟨record.id, record.metadata.map (scrubDetail salt)⟩ :: updatesOf salt rest
      else updatesOf salt rest := by
  cases changed : record.metadata.any identifies with
  | false | true => simp [updatesOf, scrubDetails, changed]

/-- The updates for records that were read, seen from one of them or from one
that was not read. -/
theorem applyUpdates_updatesOf_list {current : AuditRecord} {records : List AuditRecord}
    (same : ∀ other ∈ records, other.id = record.id → other = record)
    (held : current = record ∨ current = scrubbed salt record) :
    applyUpdates (updatesOf salt records) current =
      if record ∈ records then scrubbed salt record else current := by
  induction records generalizing current with
  | nil => simp [updatesOf, applyUpdates]
  | cons first rest induction =>
    have sameID : current.id = record.id := by
      rcases held with rfl | rfl
      all_goals exact rfl
    have rewritten : { current with
        metadata := record.metadata.map (scrubDetail salt) } =
        scrubbed salt record := by
      rcases held with rfl | rfl
      all_goals exact rfl
    have unread : ∀ other ∈ rest, other.id = record.id → other = record :=
      fun other member => same other (List.mem_cons_of_mem _ member)
    rw [updatesOf_cons]
    by_cases matched : first = record
    · subst matched
      rw [if_pos List.mem_cons_self]
      split
      · change applyUpdates (updatesOf salt rest) (if current.id = first.id then _ else _) = _
        rw [if_pos sameID, rewritten, induction unread (.inr rfl)]
        split <;> exact rfl
      · rename_i plain
        have anonymous : scrubbed salt first = first := by
          have details : Anonymous first.metadata :=
            @scrubDetails_unchanged _ salt (by simpa [scrubDetails] using plain)
          rw [scrubbed, details.map_scrubDetail]
        rw [induction unread held, anonymous]
        rw [anonymous, or_self] at held
        rw [held, ite_self]
    · have differs : first.id ≠ record.id := fun equal =>
        matched (same first List.mem_cons_self equal)
      have onward : applyUpdates (updatesOf salt rest) current =
          if record ∈ first :: rest then scrubbed salt record
          else current := by
        rw [induction unread held]
        simp [Ne.symm matched]
      split
      · change applyUpdates (updatesOf salt rest) (if current.id = first.id then _ else _) = _
        rw [if_neg (by rw [sameID]; exact differs.symm), onward]
      · exact onward

/-- The metadata pass over a log that has only grown since it was read. -/
theorem applyUpdates_updatesOf {log : Table AuditRecord.id}
    (kept : ∀ record ∈ read.log, record ∈ log) (member : record ∈ log)
    (unread : record ∈ read.log ∨ scrubStep salt ids record = record) :
    applyUpdates (updatesOf salt (read.recordsForErasure ids)) record =
      scrubStep salt ids record := by
  rw [applyUpdates_updatesOf_list _ (.inl rfl)]
  · split
    · rename_i returned
      rw [scrubStep, if_pos (Archive.mem_recordsForErasure.mp returned).2]
    · rename_i passedOver
      rcases unread with old | plain
      · rw [scrubStep, if_neg fun named =>
          passedOver (Archive.mem_recordsForErasure.mpr ⟨old, named⟩)]
      · exact plain.symm
  · intro other returned equal
    have stored := (Archive.mem_recordsForErasure.mp returned).1
    exact Table.eq_of_key_eq (kept other stored) member equal

/-- Where there is nothing to update the pass would change nothing. -/
theorem scrubStep_of_updatesOf_nil (none : updatesOf salt (read.recordsForErasure ids) = [])
    (member : record ∈ read.log) : scrubStep salt ids record = record := by
  have applied := @applyUpdates_updatesOf record salt ids read read.log
    (fun _ stored => stored) member (.inl member)
  rw [← applied, none]
  exact rfl

/-- Nothing but the log has changed. -/
structure SameRows (before after : Archive) : Prop where
  rows : after.listByOwner = before.listByOwner
  salts : after.salts = before.salts

namespace SameRows

theorem refl (archive : Archive) : SameRows archive archive := ⟨rfl, rfl⟩

theorem trans {before middle after : Archive}
    (first : SameRows before middle) (second : SameRows middle after) : SameRows before after :=
  ⟨second.rows.trans first.rows, second.salts.trans first.salts⟩

theorem of_grown {foreign : AuditRecord → Prop} {before after : Archive}
    (grew : Grown foreign before after) : SameRows before after :=
  ⟨grew.rows, grew.salts⟩

end SameRows

section Passes

variable {salt : List UInt8} {ids : List GoString}
  {stage settled : AuditRecord → AuditRecord → Prop}
  {extra foreign origins : AuditRecord → Prop} {archive : Archive}
  {gone : GoString → Prop} {id : GoString} {record : AuditRecord}

/-- The metadata pass settles every record or leaves all of them. -/
theorem scrubMetadata_ensures (fates : Fates salt ids stage settled extra)
    (included : ∀ record, foreign record → extra record)
    (plain : ∀ record, foreign record → scrubStep salt ids record = record)
    (tracks : Tracks origins stage extra archive) :
    (scrubMetadata ids salt).EnsuresAmid erasureInterpreter
      (Grown foreign) (fun result final => SameRows archive final ∧
        Tracks origins stage extra final ∧
        (result = .ok () → Tracks origins settled extra final))
      archive := by
  intro read grew
  have readTracks := tracks.grown grew included
  have readRows := SameRows.of_grown grew
  refine ⟨⟨readRows, readTracks, fun done => by cases done⟩, ?_⟩
  change Program.EnsuresAmid _ _ _ (if updatesOf salt
    (read.recordsForErasure ids) = [] then _ else _) read
  split
  · rename_i none
    refine ⟨readRows, readTracks, fun _ => ?_⟩
    refine readTracks.map ?_ fates.scrub fates.extraScrub
    intro record
    constructor
    · intro member
      exact ⟨record, member, scrubStep_of_updatesOf_nil none member⟩
    · rintro ⟨original, member, rfl⟩
      rw [scrubStep_of_updatesOf_nil none member]
      exact member
  · intro written grewOn
    have writtenTracks := readTracks.grown grewOn included
    have writtenRows := readRows.trans (.of_grown grewOn)
    refine ⟨⟨writtenRows, writtenTracks, fun done => by cases done⟩, ?_⟩
    simp only [erasureInterpreter, ErasureStatement.execute, Archive.scrubMetadata]
    split
    · exact ⟨writtenRows, writtenTracks, fun done => by cases done⟩
    · have moved : ∀ original ∈ written.log, applyUpdates (updatesOf salt
            (read.recordsForErasure ids)) original = scrubStep salt ids original := by
        intro original member
        apply applyUpdates_updatesOf grewOn.kept member
        rcases grewOn.added original member with old | new
        · exact .inl old
        · exact .inr (plain original new)
      have settledTracks : Tracks origins settled extra (written.withLog
          (written.log.update (fun _ => true) (applyUpdates (updatesOf salt
              (read.recordsForErasure ids))) (id_applyUpdates _))) := by
        refine writtenTracks.map ?_ fates.scrub fates.extraScrub
        intro record
        rw [Archive.log_withLog, Table.mem_update]
        apply exists_congr
        intro original
        apply and_congr_right
        intro member
        rw [if_pos rfl, moved original member, eq_comm]
      exact ⟨⟨writtenRows.rows, writtenRows.salts⟩,
        settledTracks.mono fates.weaken (fun _ other => other),
        fun _ => settledTracks⟩

/-! ## The column passes -/

/-- No column holds one of the identifiers that are gone. -/
def Clear (gone : GoString → Prop) (archive : Archive) : Prop :=
  ∀ record ∈ archive.log, ¬gone record.actorID ∧ ¬gone record.targetID

/-- A column after the pass for one identifier. -/
theorem passStep_clear (replaced : ¬gone (tombstone salt id) ∧ tombstone salt id ≠ id)
    (clear : ¬gone record.actorID ∧ ¬gone record.targetID) :
    ¬(gone (passStep salt id record).actorID ∨ (passStep salt id record).actorID = id) ∧
      ¬(gone (passStep salt id record).targetID ∨ (passStep salt id record).targetID = id) := by
  unfold passStep
  split
  · simp only [pseudonymized, List.mem_singleton]
    constructor
    · split
      · exact not_or.mpr replaced
      · exact not_or.mpr ⟨clear.1, ‹_›⟩
    · split
      · exact not_or.mpr replaced
      · exact not_or.mpr ⟨clear.2, ‹_›⟩
  · rename_i unmatched
    simp only [names_eq_true_iff, List.mem_singleton, not_or] at unmatched
    exact ⟨not_or.mpr ⟨clear.1, unmatched.1⟩, not_or.mpr ⟨clear.2, unmatched.2⟩⟩

theorem mem_log_pseudonymize : record ∈ (archive.pseudonymize [id] (tombstone salt id)).2.log ↔
      ∃ original ∈ archive.log, passStep salt id original = record := by
  rw [Archive.pseudonymize_singleton, Archive.pseudonymizeBatch, Archive.log_withLog,
    Table.mem_update]
  apply exists_congr
  intro original
  apply and_congr_right
  intro _
  exact eq_comm

theorem sameRows_pseudonymize (archive : Archive) (id pseudonym : GoString) :
    SameRows archive (archive.pseudonymize [id] pseudonym).2 := by
  rw [Archive.pseudonymize_singleton]
  exact ⟨rfl, rfl⟩

theorem Clear.grown {after : Archive} (clear : Clear gone archive)
    (grew : Grown foreign archive after)
    (unnamed : ∀ record, foreign record → ¬gone record.actorID ∧ ¬gone record.targetID) :
    Clear gone after := by
  intro record member
  rcases grew.added record member with old | new
  · exact clear record old
  · exact unnamed record new

theorem Clear.pass (clear : Clear gone archive) (unmarked : Unmarked ids)
    (goneWithin : ∀ id, gone id → id ∈ ids) (member : id ∈ ids) :
    Clear (fun other => gone other ∨ other = id)
      (archive.pseudonymize [id] (tombstone salt id)).2 := by
  intro record stored
  obtain ⟨original, old, rfl⟩ := mem_log_pseudonymize.mp stored
  have fresh := unmarked.tombstone_not_mem salt id
  apply passStep_clear
  · constructor
    · exact fun lost => fresh (goneWithin _ lost)
    · intro same
      rw [same] at fresh
      exact fresh member
  · exact clear original old

theorem Tracks.pass (fates : Fates salt ids stage settled extra) (member : id ∈ ids)
    (tracks : Tracks origins settled extra archive) :
    Tracks origins settled extra (archive.pseudonymize [id] (tombstone salt id)).2 :=
  tracks.map (fun _ => mem_log_pseudonymize) (fates.pass id member) (fates.extraPass id member)

/-- The passes clear the log of their identifiers one after the other. -/
theorem pseudonymizeAll_ensures (fates : Fates salt ids stage settled extra)
    (unmarked : Unmarked ids) (included : ∀ record, foreign record → extra record)
    (unnamed : ∀ record, foreign record → names ids record = false)
    {rest : List GoString} (within : ∀ id ∈ rest, id ∈ ids)
    (goneWithin : ∀ id, gone id → id ∈ ids) (rewritten : Nat)
    (tracks : Tracks origins settled extra archive) (clear : Clear gone archive) :
    (pseudonymizeAll salt rest rewritten).EnsuresAmid
      erasureInterpreter (Grown foreign) (fun report final => SameRows archive final ∧
        Tracks origins settled extra final ∧
        (report.failure = none → Clear (fun id => gone id ∨ id ∈ rest) final)) archive := by
  induction rest generalizing archive rewritten gone with
  | nil =>
    refine ⟨.refl archive, tracks, fun _ record member => ?_⟩
    simpa using clear record member
  | cons id rest induction =>
    have member : id ∈ ids := within id List.mem_cons_self
    have untouched : ∀ report : Report, report.failure ≠ none →
        SameRows archive archive ∧ Tracks origins settled extra archive ∧
        (report.failure = none → Clear (fun other => gone other ∨ other ∈ id :: rest) archive) :=
      fun report failed => ⟨.refl archive, tracks,
        fun done => absurd done failed⟩
    unfold pseudonymizeAll AuditRepository.pseudonymize
    split
    · exact untouched _ (by simp)
    split
    · exact untouched _ (by simp)
    split
    · rename_i none
      cases none
    · intro reached grew
      have reachedTracks := tracks.grown grew included
      have reachedRows := SameRows.of_grown grew
      refine ⟨⟨reachedRows, reachedTracks, fun done => ?_⟩, ?_⟩
      · cases done
      have reachedClear : Clear gone reached := by
        refine clear.grown grew fun record new => ?_
        obtain ⟨actor, target⟩ := names_eq_false_iff.mp (unnamed record new)
        exact ⟨fun lost => actor (goneWithin _ lost), fun lost => target (goneWithin _ lost)⟩
      refine (induction (fun other listed => within other (List.mem_cons_of_mem _ listed))
        (fun other lost => ?_) _ (reachedTracks.pass fates member)
        (reachedClear.pass unmarked goneWithin member)).mono ?_
      · rcases lost with lost | rfl
        · exact goneWithin other lost
        · exact member
      · rintro report final ⟨rows, finalTracks, done⟩
        refine ⟨reachedRows.trans ((sameRows_pseudonymize _ _ _).trans rows), finalTracks,
          fun finished record stored => ?_⟩
        have finalClear := done finished record stored
        simpa [or_assoc] using finalClear

end Passes

end Vallet.Erasure
