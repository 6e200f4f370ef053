import Vallet.Erasure.Passes

/-!
# One attempt

An attempt collects the identifiers, records itself, and rewrites the log
under the salt it finds or mints.  If it fails the salt it found is still
there, and the log is such that another attempt can take over.
-/

namespace Vallet.Erasure

open Audit Auth Effects Publishing Relational Program.EnsuresAmid

def Archive.salt? (archive : Archive) (ownerID : OwnerID) : Option (List UInt8) :=
  (archive.salts.find? ownerID).map OwnerSalt.salt

/-- The salt is the stored one, if there is one. -/
def Agrees (archive : Archive) (ownerID : OwnerID) (salt : List UInt8) : Prop :=
  ∀ stored, archive.salt? ownerID = some stored → stored = salt

theorem salt?_congr {left right : Archive} (same : left.salts = right.salts)
    (ownerID : OwnerID) : left.salt? ownerID = right.salt? ownerID := by
  rw [Archive.salt?, Archive.salt?, same]

theorem Agrees.congr {left right : Archive} {ownerID : OwnerID}
    {salt : List UInt8} (same : left.salts = right.salts)
    (agrees : Agrees left ownerID salt) : Agrees right ownerID salt := by
  intro stored found
  apply agrees
  rw [salt?_congr same, found]

/-- A salt that is ensured is the stored one from then on. -/
theorem Archive.ensureSalt_spec (archive : Archive) (ownerID : OwnerID) (fresh : List UInt8) :
    Agrees archive ownerID (archive.ensureSalt ownerID fresh).1 ∧
      (archive.ensureSalt ownerID fresh).2.salt? ownerID =
        some (archive.ensureSalt ownerID fresh).1 ∧
      (archive.ensureSalt ownerID fresh).2.log = archive.log ∧
      (archive.ensureSalt ownerID fresh).2.listByOwner = archive.listByOwner := by
  unfold Archive.ensureSalt
  cases found : archive.salts.find? ownerID with
  | some stored =>
    have known : archive.salt? ownerID = some stored.salt := by
      simp [Archive.salt?, found]
    refine ⟨?_, known, rfl, rfl⟩
    intro other again
    exact Option.some.inj (again.symm.trans known)
  | none =>
    refine ⟨?_, ?_, rfl, rfl⟩
    · intro other again
      simp [Archive.salt?, found] at again
    · have put := Table.find?_put_self archive.salts (⟨ownerID, fresh⟩ : OwnerSalt)
      change (Table.find? (archive.salts.put _) ownerID).map _ = _
      rw [put]
      exact rfl

theorem Tracks.congr {origins : AuditRecord → Prop} {stage : AuditRecord → AuditRecord → Prop}
    {extra : AuditRecord → Prop} {left right : Archive}
    (same : left.log = right.log) (tracks : Tracks origins stage extra left) :
    Tracks origins stage extra right := by
  constructor
  · rw [← same]
    exact tracks.found
  · rw [← same]
    exact tracks.known

section Attempts

variable {ids : List GoString} {foreign origins : AuditRecord → Prop}
  {stage settled : List UInt8 → AuditRecord → AuditRecord → Prop}
  {extra : List UInt8 → AuditRecord → Prop} {ownerID : OwnerID}

/-- Fates under every salt, and what others append. -/
structure Family (ids : List GoString) (foreign : AuditRecord → Prop)
    (stage settled : List UInt8 → AuditRecord → AuditRecord → Prop)
    (extra : List UInt8 → AuditRecord → Prop) : Prop where
  fates : ∀ salt, Fates salt ids (stage salt) (settled salt) (extra salt)
  included : ∀ salt record, foreign record → extra salt record
  unnamed : ∀ record, foreign record → names ids record = false

/-- How an attempt can end. -/
structure Attempted (ids : List GoString) (origins : AuditRecord → Prop)
    (stage settled : List UInt8 → AuditRecord → AuditRecord → Prop)
    (extra : List UInt8 → AuditRecord → Prop) (ownerID : OwnerID)
    (archive : Archive) (report : Report) (final : Archive) : Prop where
  rows : final.listByOwner = archive.listByOwner
  failed : report.failure ≠ none →
    (∀ salt, Agrees final ownerID salt → Tracks origins (stage salt) (extra salt) final) ∧
    ∀ salt, archive.salt? ownerID = some salt → final.salt? ownerID = some salt
  finished : report.failure = none → final.salt? ownerID = none ∧ Clear (· ∈ ids) final ∧
    ∃ salt, Agrees archive ownerID salt ∧ Tracks origins (settled salt) (extra salt) final

theorem Attempted.early {archive final : Archive} {report : Report}
    (failure : report.failure ≠ none) (same : SameRows archive final)
    (tracks : ∀ salt, Agrees archive ownerID salt →
      Tracks origins (stage salt) (extra salt) final) :
    Attempted ids origins stage settled extra ownerID archive report final where
  rows := same.rows
  failed := fun _ => ⟨fun salt agrees => tracks salt (agrees.congr same.salts),
    fun salt found => by rw [salt?_congr same.salts, found]⟩
  finished := fun done => absurd done failure

theorem Attempted.late {archive final : Archive} {report : Report}
    {salt : List UInt8} (failure : report.failure ≠ none)
    (rows : final.listByOwner = archive.listByOwner) (agrees : Agrees archive ownerID salt)
    (stored : final.salt? ownerID = some salt)
    (tracks : Tracks origins (stage salt) (extra salt) final) :
    Attempted ids origins stage settled extra ownerID archive report final where
  rows := rows
  failed := by
    intro _
    constructor
    · intro other otherAgrees
      rw [← otherAgrees salt stored]
      exact tracks
    · intro other found
      rw [stored, agrees other found]
  finished := fun done => absurd done failure

/-- A salt that was ensured, in a log that may have grown. -/
structure Salted (foreign : AuditRecord → Prop) (ownerID : OwnerID)
    (archive : Archive) (salt : List UInt8) (final : Archive) : Prop where
  agrees : Agrees archive ownerID salt
  stored : final.salt? ownerID = some salt
  rows : final.listByOwner = archive.listByOwner
  log : ∃ reached, Grown foreign archive reached ∧ final.log = reached.log

theorem OwnerSaltRepository.ensure_ensures (fresh : List UInt8) (archive : Archive) :
    (OwnerSaltRepository.ensure ownerID fresh).EnsuresAmid
      erasureInterpreter (Grown foreign) (fun result final =>
        (∃ failure, result = .error failure ∧ Grown foreign archive final) ∨
        ∃ salt, result = .ok salt ∧ Salted foreign ownerID archive salt final) archive := by
  unfold OwnerSaltRepository.ensure
  split
  · exact .inl ⟨_, rfl, .refl foreign archive⟩
  intro reached grew
  refine ⟨.inl ⟨_, rfl, grew⟩, ?_⟩
  obtain ⟨agrees, stored, sameLog, sameRows⟩ := reached.ensureSalt_spec ownerID fresh
  exact .inr ⟨_, rfl,
    { agrees := agrees.congr grew.salts
      stored := stored
      rows := sameRows.trans grew.rows
      log := ⟨reached, grew, sameLog⟩ }⟩

/-- The passes under a salt that is stored. -/
theorem Eraser.rewriteLog_ensures (family : Family ids foreign stage settled extra)
    (unmarked : Unmarked ids) {salt : List UInt8} {salted : Archive}
    (stored : salted.salt? ownerID = some salt)
    (tracks : Tracks origins (stage salt) (extra salt) salted) :
    (Eraser.rewriteLog ownerID ids salt).EnsuresAmid erasureInterpreter
      (Grown foreign) (fun report final =>
        final.listByOwner = salted.listByOwner ∧
        (report.failure ≠ none → final.salt? ownerID = some salt ∧
          Tracks origins (stage salt) (extra salt) final) ∧
        (report.failure = none → final.salt? ownerID = none ∧ Clear (· ∈ ids) final ∧
          Tracks origins (settled salt) (extra salt) final)) salted := by
  refine bind (scrubMetadata_ensures
    (family.fates salt) (family.included salt)
    (fun record new => scrubStep_eq_self (family.unnamed record new)) tracks) ?_
  rintro result scrubbedArchive ⟨scrubRows, scrubTracks, settledTracks⟩
  have stillStored : scrubbedArchive.salt? ownerID = some salt := by
    rw [salt?_congr scrubRows.salts, stored]
  cases result with
  | error failure =>
    exact ⟨scrubRows.rows, fun _ => ⟨stillStored, scrubTracks⟩,
      fun done => by cases done⟩
  | ok _ =>
    have nothing : Clear (fun _ => False) scrubbedArchive :=
      fun _ _ => ⟨id, id⟩
    refine bind (pseudonymizeAll_ensures
      (family.fates salt) unmarked (family.included salt) family.unnamed
      (fun _ listed => listed) (fun _ => False.elim) 0 (settledTracks rfl) nothing) ?_
    rintro ⟨rewritten, failure⟩ passed ⟨passRows, passTracks, clear⟩
    have passStored : passed.salt? ownerID = some salt := by
      rw [salt?_congr passRows.salts, stillStored]
    have passedRows : passed.listByOwner = salted.listByOwner := passRows.rows.trans scrubRows.rows
    have weakTracks : Tracks origins (stage salt) (extra salt) passed :=
      passTracks.mono (family.fates salt).weaken (fun _ other => other)
    cases failure with
    | some failure =>
      exact ⟨passedRows, fun _ => ⟨passStored, weakTracks⟩,
        fun done => by cases done⟩
    | none =>
      intro last grew
      have lastRows := grew.rows.trans passedRows
      refine ⟨⟨lastRows, fun _ => ⟨?_, ?_⟩, fun done => by cases done⟩,
        lastRows, fun failed => absurd rfl failed, fun _ => ⟨?_, ?_, ?_⟩⟩
      · rw [salt?_congr grew.salts, passStored]
      · exact weakTracks.grown grew (family.included salt)
      · change (Table.find? (last.salts.delete _) ownerID).map _ = _
        rw [Table.find?_eq_none_iff.mpr]
        · exact rfl
        · intro row kept same
          obtain ⟨_, differs⟩ := Table.mem_delete.mp kept
          simp [same] at differs
      · have passedClear : Clear (· ∈ ids) passed := by simpa using clear rfl
        have lastClear := passedClear.grown grew fun record new =>
          names_eq_false_iff.mp (family.unnamed record new)
        exact lastClear
      · exact @Tracks.congr _ _ _ last _ rfl (passTracks.grown grew (family.included salt))

theorem Eraser.eraseOwner_ensures (family : Family ids foreign stage settled extra)
    (unmarked : Unmarked ids) (fresh : List UInt8) {archive : Archive}
    (tracks : ∀ salt, Agrees archive ownerID salt →
      Tracks origins (stage salt) (extra salt) archive) :
    (Eraser.eraseOwner ownerID ids fresh).EnsuresAmid erasureInterpreter
      (Grown foreign) (Attempted ids origins stage settled extra ownerID archive)
      archive := by
  unfold Eraser.eraseOwner
  split
  · exact .early (by simp) (.refl archive) tracks
  refine bind (OwnerSaltRepository.ensure_ensures fresh archive) ?_
  rintro result salted (⟨failure, rfl, grew⟩ | ⟨salt, rfl, holds⟩)
  · exact .early (by simp) (.of_grown grew) fun salt agrees =>
      (tracks salt agrees).grown grew (family.included salt)
  · obtain ⟨agreed, stored, saltedRows, reached, grew, sameLog⟩ := holds
    have saltedTracks : Tracks origins (stage salt) (extra salt) salted :=
      ((tracks salt agreed).grown grew (family.included salt)).congr sameLog.symm
    refine (Eraser.rewriteLog_ensures family unmarked stored saltedTracks).mono ?_
    rintro report final ⟨rows, failed, finished⟩
    have finalRows := rows.trans saltedRows
    by_cases failure : report.failure = none
    · obtain ⟨gone, clear, settledTracks⟩ := finished failure
      exact
        { rows := finalRows
          failed := fun other => absurd failure other
          finished := fun _ => ⟨gone, clear, salt, agreed, settledTracks⟩ }
    · obtain ⟨stillStored, stageTracks⟩ := failed failure
      exact .late failure finalRows agreed stillStored stageTracks

/-! ## The traversal and the record -/

theorem Graph.collectTables_ensures (tables : List OwnerTable)
    (out : List GoString) (archive : Archive) :
    (Graph.collectTables ownerID tables out).EnsuresAmid erasureInterpreter
      (Grown foreign) (fun result final => Grown foreign archive final ∧
        ∀ found, result = .ok found →
          found = archive.identifiersFrom ownerID tables out) archive := by
  induction tables generalizing out archive with
  | nil =>
    refine ⟨.refl foreign archive, ?_⟩
    rintro found ⟨⟩
    exact rfl
  | cons table rest induction =>
    intro reached grew
    refine ⟨⟨grew, fun found done => by cases done⟩, ?_⟩
    refine (induction ((reached.listByOwner ownerID table).foldl addID out) reached).mono ?_
    rintro result final ⟨grewOn, collected⟩
    refine ⟨grew.trans grewOn, fun found done => ?_⟩
    rw [collected found done, Archive.identifiersFrom,
      Archive.identifiersFrom, List.foldl_cons, grew.rows]

theorem Graph.collect_ensures (archive : Archive) :
    (Graph.collect ownerID).EnsuresAmid erasureInterpreter (Grown foreign)
      (fun result final => Grown foreign archive final ∧
        ∀ found, result = .ok found → found = archive.identifiers ownerID) archive := by
  unfold Graph.collect
  split
  · exact ⟨.refl foreign archive, fun found done => by cases done⟩
  · exact Graph.collectTables_ensures OwnerTable.all _ archive

/-- The record of an erasure, as it is written. -/
structure Emitted (ownerID : OwnerID) (record : AuditRecord) : Prop where
  actorType : record.actorType = .system
  actor : record.actorID = []
  action : record.action = .ownerErased
  targetType : record.targetType = .owner
  target : record.targetID = ownerID
  details : record.metadata = []

theorem OwnerEraser.record_ensures (eraser : OwnerEraser) (call : Call) (archive : Archive) :
    (eraser.record ownerID call).EnsuresAmid erasureInterpreter
      (Grown foreign) (fun _ final => Grown (fun record => foreign record ∨ Emitted ownerID record)
        archive final) archive := by
  have weaken : ∀ {reached : Archive}, Grown foreign archive reached →
      Grown (fun record => foreign record ∨ Emitted ownerID record) archive reached := by
    intro reached grew
    exact { grew with added := fun record member => (grew.added record member).imp_right .inl }
  unfold OwnerEraser.record Emitter.emit
  split
  · exact weaken (.refl foreign archive)
  rename_i record recorded
  intro reached grew
  refine ⟨weaken grew, ?_⟩
  obtain ⟨_, action, targetType, target⟩ := Emitter.record_ok recorded
  obtain ⟨actorType, actor, details⟩ := Emitter.record_origin recorded
  have emitted : Emitted ownerID record := ⟨actorType, actor, action, targetType, target, details⟩
  have grewOn : Grown (fun other => foreign other ∨ Emitted ownerID other) archive
      (appendMove record reached) :=
    (weaken grew).trans (grown_appendMove (.inr emitted) reached)
  change Program.EnsuresAmid _ _ _ _ (appendMove record reached)
  cases answer : (reached.append record).1 with
  | inserted | duplicateKey | constraintFailed =>
    simp only [erasureInterpreter, ErasureStatement.execute, answer]
    exact grewOn

theorem OwnerEraser.eraseOwner_ensures (family : Family ids foreign stage settled extra)
    (emitted : ∀ salt record, Emitted ownerID record → extra salt record)
    (unmarked : Unmarked ids) (eraser : OwnerEraser) (call : Call)
    {archive : Archive} (collected : archive.identifiers ownerID = ids)
    (tracks : ∀ salt, Agrees archive ownerID salt →
      Tracks origins (stage salt) (extra salt) archive) :
    (eraser.eraseOwner ownerID call).EnsuresAmid erasureInterpreter
      (Grown foreign) (Attempted ids origins stage settled extra ownerID archive)
      archive := by
  unfold OwnerEraser.eraseOwner
  split
  · exact .early (by simp) (.refl archive) tracks
  refine bind (Graph.collect_ensures archive) ?_
  rintro result walked ⟨grew, found⟩
  have walkedTracks : ∀ salt, Agrees archive ownerID salt →
      Tracks origins (stage salt) (extra salt) walked :=
    fun salt agrees => (tracks salt agrees).grown grew (family.included salt)
  cases result with
  | error failure => exact .early (by simp) (.of_grown grew) walkedTracks
  | ok listed =>
    cases (found listed rfl).trans collected
    refine bind (eraser.record_ensures call walked) ?_
    intro result noted grewOn
    have notedTracks : ∀ salt, Agrees archive ownerID salt →
        Tracks origins (stage salt) (extra salt) noted := by
      intro salt agrees
      apply (walkedTracks salt agrees).grown grewOn
      rintro record (new | written)
      · exact family.included salt record new
      · exact emitted salt record written
    have notedRows : SameRows archive noted := (SameRows.of_grown grew).trans (.of_grown grewOn)
    cases result with
    | error failure => exact .early (by simp) notedRows notedTracks
    | ok _ =>
      have agreeing : ∀ {salt}, Agrees noted ownerID salt → Agrees archive ownerID salt :=
        fun agrees => agrees.congr notedRows.salts
      refine (Eraser.eraseOwner_ensures family unmarked call.fresh
        fun salt agrees => notedTracks salt (agreeing agrees)).mono ?_
      rintro report final ⟨rows, failed, finished⟩
      refine ⟨rows.trans notedRows.rows, ?_, ?_⟩
      · intro failure
        obtain ⟨kept, stored⟩ := failed failure
        refine ⟨kept, fun salt held => stored salt ?_⟩
        rw [salt?_congr notedRows.salts, held]
      · intro done
        obtain ⟨gone, clear, salt, agrees, settledTracks⟩ := finished done
        exact ⟨gone, clear, salt, agreeing agrees, settledTracks⟩

end Attempts

end Vallet.Erasure
