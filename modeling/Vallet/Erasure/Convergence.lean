import Vallet.Erasure.Attempt

/-!
# Repeated attempts converge

An erasure that fails is tried again.  Whichever calls fail, and however often,
an attempt that returns without an error leaves a log in which every record
has its erased form.  The attempts between two that return share one salt.
-/

namespace Vallet.Erasure

open Audit Auth Effects Publishing Relational

/-- A call of the owner eraser with what happens around its statements. -/
structure Attempt where
  call : Call
  turns : List (Turn AuditRecord)
deriving DecidableEq, Repr

namespace OwnerEraser

def attempt (eraser : OwnerEraser) (ownerID : OwnerID) (attempt : Attempt)
    (archive : Archive) : Report × Archive :=
  let answer := (eraser.eraseOwner ownerID attempt.call).runAmid
    erasureInterpreter appendMove attempt.turns archive
  (answer.1, answer.2.2)

def afterAll (eraser : OwnerEraser) (ownerID : OwnerID)
    (attempts : List Attempt) (archive : Archive) : Archive :=
  attempts.foldl (fun reached attempt =>
    (eraser.attempt ownerID attempt reached).2) archive

end OwnerEraser

/-! ## The fates of records under erasure -/

/-- Records that were not there: those of others, and those of the attempts,
erased or not. -/
def Extra (foreign : AuditRecord → Prop) (ids : List GoString)
    (ownerID : OwnerID) (allowed : List UInt8 → Prop)
    (record : AuditRecord) : Prop :=
  foreign record ∨ ∃ written, Emitted ownerID written ∧
    (record = written ∨ ∃ salt, allowed salt ∧ record = erased salt ids written)

/-- On the way, with the details done. -/
def Detailed (salt : List UInt8) (ids : List GoString) (origin record : AuditRecord) : Prop :=
  Partway salt ids origin record ∧ (names ids origin = true →
    record.metadata = (erased salt ids origin).metadata)

theorem names_erased {ids : List GoString} (unmarked : Unmarked ids)
    (salt : List UInt8) (record : AuditRecord) : names ids (erased salt ids record) = false := by
  have column : ∀ text, erasedColumn salt ids text ∉ ids := by
    intro text
    unfold erasedColumn
    split
    · exact unmarked.tombstone_not_mem salt text
    · assumption
  exact names_eq_false_iff.mpr ⟨column _, column _⟩

section Families

variable {ids : List GoString} {foreign : AuditRecord → Prop}
  {ownerID : OwnerID} {allowed : List UInt8 → Prop}
  {written record : AuditRecord} {id : GoString} {salt : List UInt8}

theorem Emitted.scrubStep (emitted : Emitted ownerID written) (salt : List UInt8) :
    scrubStep salt ids written = written := by
  have none : Anonymous written.metadata := by
    rw [emitted.details]
    intro detail member
    cases member
  unfold Erasure.scrubStep
  split
  · rw [scrubbed, none.map_scrubDetail]
  · exact rfl

/-- The pass for one identifier leaves the record of an erasure or erases
it. -/
theorem Emitted.passStep (emitted : Emitted ownerID written)
    (filled : [] ∉ ids) (salt : List UInt8) (member : id ∈ ids) :
    passStep salt id written = written ∨ passStep salt id written = erased salt ids written := by
  by_cases matched : written.targetID = id
  · right
    have actor : written.actorID ∉ ids := by
      rw [emitted.actor]
      exact filled
    have actorKept : written.actorID ≠ id := fun same =>
      actor (same ▸ member)
    have named : names [id] written = true := by
      simp [names, matched]
    have whole : names ids written = true := by
      simp [names, matched, member]
    have none : Anonymous written.metadata := by
      rw [emitted.details]
      intro detail listed
      cases listed
    simp [Erasure.passStep, named, pseudonymized, erased, whole, erasedColumn,
      matched, member, actor, actorKept, none.map_scrubDetail]
  · left
    by_cases actor : written.actorID = id
    · rw [emitted.actor] at actor
      exact absurd (actor ▸ member) filled
    · have unnamed : names [id] written = false := by
        simp [names, matched, actor]
      simp [Erasure.passStep, unnamed]

variable (unmarked : Unmarked ids)

include unmarked

theorem Partway.scrubStep {origin : AuditRecord} (partway : Partway salt ids origin record) :
    Detailed salt ids origin (scrubStep salt ids record) := by
  unfold Erasure.scrubStep
  split
  · rename_i named
    obtain ⟨onward, done⟩ := partway.scrub unmarked named
    exact ⟨onward, fun _ => done⟩
  · rename_i unmatched
    refine ⟨partway, fun _ => ?_⟩
    rw [← partway.eq_erased (by simpa using unmatched)]

theorem Detailed.passStep {origin : AuditRecord} (member : id ∈ ids)
    (detailed : Detailed salt ids origin record) :
    Detailed salt ids origin (passStep salt id record) := by
  obtain ⟨partway, done⟩ := detailed
  unfold Erasure.passStep
  split
  · rename_i matched
    exact ⟨partway.pass unmarked member matched done, done⟩
  · exact ⟨partway, done⟩

variable (unnamed : ∀ record, foreign record → names ids record = false)

include unnamed

theorem Extra.scrubStep (salt : List UInt8) (extra : Extra foreign ids ownerID allowed record) :
    Extra foreign ids ownerID allowed (scrubStep salt ids record) := by
  rcases extra with new | ⟨written, emitted, rfl | ⟨other, permitted, rfl⟩⟩
  · rw [scrubStep_eq_self (unnamed record new)]
    exact .inl new
  · rw [emitted.scrubStep]
    exact .inr ⟨record, emitted, .inl rfl⟩
  · rw [scrubStep_eq_self (names_erased unmarked other written)]
    exact .inr ⟨written, emitted, .inr ⟨other, permitted, rfl⟩⟩

variable (filled : [] ∉ ids) (working : allowed salt)

include filled working

theorem Extra.passStep (member : id ∈ ids) (extra : Extra foreign ids ownerID allowed record) :
    Extra foreign ids ownerID allowed (passStep salt id record) := by
  rcases extra with new | ⟨written, emitted, rfl | ⟨other, permitted, rfl⟩⟩
  · rw [passStep_eq_self (unnamed record new) member]
    exact .inl new
  · rcases emitted.passStep filled salt member with kept | replaced
    · rw [kept]
      exact .inr ⟨record, emitted, .inl rfl⟩
    · exact .inr ⟨record, emitted, .inr ⟨salt, working, replaced⟩⟩
  · rw [passStep_eq_self (names_erased unmarked other written) member]
    exact .inr ⟨written, emitted, .inr ⟨other, permitted, rfl⟩⟩

/-- Records on their way are brought on by every pass. -/
theorem partway_fates :
    Fates salt ids (Partway salt ids) (Detailed salt ids) (Extra foreign ids ownerID allowed) where
  scrub := fun _ _ partway => partway.scrubStep unmarked
  pass := fun _ member _ _ detailed => detailed.passStep unmarked member
  weaken := fun _ _ detailed => detailed.1
  extraScrub := fun _ extra => extra.scrubStep unmarked unnamed salt
  extraPass := fun _ member _ extra =>
    extra.passStep unmarked unnamed filled working member

theorem erased_fates (done : List UInt8) :
    Fates salt ids (fun origin record => record = erased done ids origin)
      (fun origin record => record = erased done ids origin)
      (Extra foreign ids ownerID allowed) where
  scrub := by
    rintro origin record rfl
    exact scrubStep_eq_self (names_erased unmarked done origin)
  pass := by
    rintro id member origin record rfl
    exact passStep_eq_self (names_erased unmarked done origin) member
  weaken := fun _ _ held => held
  extraScrub := fun _ extra => extra.scrubStep unmarked unnamed salt
  extraPass := fun _ member _ extra =>
    extra.passStep unmarked unnamed filled working member

end Families

/-! ## What an attempt leaves -/

theorem identifiers_congr {left right : Archive}
    (same : left.listByOwner = right.listByOwner) (ownerID : OwnerID) :
    left.identifiers ownerID = right.identifiers ownerID := by
  unfold Archive.identifiers Archive.identifiersFrom
  rw [same]

/-- Every record of a log in its erased form, next to records of a given
kind. -/
structure Rewrites (salt : List UInt8) (ids : List GoString)
    (before : Archive) (others : AuditRecord → Prop) (after : Archive) :
    Prop where
  kept : ∀ record ∈ before.log, erased salt ids record ∈ after.log
  known : ∀ record ∈ after.log,
    (∃ origin ∈ before.log, record = erased salt ids origin) ∨ others record

/-- The records appended by others during the attempts. -/
def Appended (attempts : List Attempt) (record : AuditRecord) : Prop :=
  ∃ attempt ∈ attempts, ∃ turn ∈ attempt.turns, record ∈ turn.moves

/-- The record of an erasure in its erased form. -/
def ErasedRecord (salt : List UInt8) (ids : List GoString)
    (ownerID : OwnerID) (record : AuditRecord) : Prop :=
  ∃ written, Emitted ownerID written ∧ record = erased salt ids written

section Attempts

variable {ids : List GoString} {foreign origins : AuditRecord → Prop}
  {ownerID : OwnerID} {allowed : List UInt8 → List UInt8 → Prop}

/-- What the identifiers of an owner and the appends of others are like. -/
structure Setting (ids : List GoString) (foreign : AuditRecord → Prop) : Prop where
  unmarked : Unmarked ids
  filled : [] ∉ ids
  unnamed : ∀ record, foreign record → names ids record = false

/-- Another attempt can take over. -/
structure Resumable (ids : List GoString) (foreign origins : AuditRecord → Prop)
    (ownerID : OwnerID) (allowed : List UInt8 → List UInt8 → Prop) (archive : Archive) : Prop where
  collected : archive.identifiers ownerID = ids
  tracks : ∀ salt, Agrees archive ownerID salt →
    Tracks origins (Partway salt ids) (Extra foreign ids ownerID (allowed salt)) archive

/-- All that was there has been erased. -/
structure Finished (ids : List GoString) (foreign origins : AuditRecord → Prop)
    (ownerID : OwnerID) (allowed : List UInt8 → Prop) (salt : List UInt8)
    (archive : Archive) : Prop where
  collected : archive.identifiers ownerID = ids
  tracks : Tracks origins (fun origin record => record = erased salt ids origin)
    (Extra foreign ids ownerID allowed) archive

variable {archive : Archive} {permitted : List UInt8 → Prop}
  {salt : List UInt8} {attempts : List Attempt}

theorem Resumable.start (collected : archive.identifiers ownerID = ids) :
    Resumable ids foreign (· ∈ archive.log) ownerID allowed archive where
  collected := collected
  tracks := fun salt _ =>
    { found := fun origin member => ⟨origin, member, .refl salt ids origin⟩
      known := fun record member =>
        .inl ⟨record, member, .refl salt ids record⟩ }

/-- What an attempt whose turns only append such records ensures. -/
theorem attempt_ends {stage settled : List UInt8 → AuditRecord →
      AuditRecord → Prop} {extra : List UInt8 → AuditRecord → Prop}
    (family : Family ids foreign stage settled extra)
    (emitted : ∀ salt record, Emitted ownerID record → extra salt record)
    (unmarked : Unmarked ids) (eraser : OwnerEraser) {attempt : Attempt}
    (quiet : ∀ turn ∈ attempt.turns, ∀ record ∈ turn.moves, foreign record)
    (collected : archive.identifiers ownerID = ids) (tracks : ∀ salt, Agrees archive ownerID salt →
      Tracks origins (stage salt) (extra salt) archive) :
    Attempted ids origins stage settled extra ownerID archive
      (eraser.attempt ownerID attempt archive).1
      (eraser.attempt ownerID attempt archive).2 :=
  (eraser.eraseOwner_ensures family emitted unmarked attempt.call collected tracks).runAmid
    (fun turn member archive => grown_disturb (quiet turn member) archive) (Grown.refl foreign)

theorem emitted_extra {record : AuditRecord} (emitted : Emitted ownerID record) :
    Extra foreign ids ownerID permitted record :=
  .inr ⟨record, emitted, .inl rfl⟩

/-- Records whose details are done and whose columns are clear are erased. -/
theorem Tracks.finish {extra : AuditRecord → Prop}
    (tracks : Tracks origins (Detailed salt ids) extra archive) (clear : Clear (· ∈ ids) archive) :
    Tracks origins (fun origin record => record = erased salt ids origin) extra archive where
  found := by
    intro origin listed
    obtain ⟨record, member, partway, _⟩ := tracks.found origin listed
    exact ⟨record, member, partway.eq_erased (names_eq_false_iff.mpr (clear record member))⟩
  known := by
    intro record member
    rcases tracks.known record member with ⟨origin, listed, partway, _⟩ | other
    · exact .inl ⟨origin, listed, partway.eq_erased (names_eq_false_iff.mpr (clear record member))⟩
    · exact .inr other

section Setting

variable (setting : Setting ids foreign) (eraser : OwnerEraser)

include setting

section OneAttempt

variable {made : Attempt} {report : Report} {final : Archive}
  (quiet : ∀ turn ∈ made.turns, ∀ record ∈ turn.moves, foreign record)
  (ran : eraser.attempt ownerID made archive = (report, final))

include quiet ran

/-- An attempt over a log another attempt may have left half done. -/
theorem Resumable.attempt (own : ∀ salt, allowed salt salt)
    (resumable : Resumable ids foreign origins ownerID allowed archive) :
    (report.failure ≠ none → Resumable ids foreign origins ownerID allowed final ∧
      ∀ salt, archive.salt? ownerID = some salt → final.salt? ownerID = some salt) ∧
    (report.failure = none → final.salt? ownerID = none ∧ Clear (· ∈ ids) final ∧
      ∃ salt, Finished ids foreign origins ownerID (allowed salt) salt final) := by
  have family : Family ids foreign (fun salt => Partway salt ids) (fun salt => Detailed salt ids)
      (fun salt => Extra foreign ids ownerID (allowed salt)) :=
    { fates := fun salt => partway_fates setting.unmarked setting.unnamed setting.filled (own salt)
      included := fun _ _ new => .inl new
      unnamed := setting.unnamed }
  have ends := attempt_ends family (fun _ _ => emitted_extra)
    setting.unmarked eraser quiet resumable.collected resumable.tracks
  rw [ran] at ends
  have collected := (identifiers_congr ends.rows ownerID).trans resumable.collected
  constructor
  · intro failure
    obtain ⟨tracks, stored⟩ := ends.failed failure
    exact ⟨⟨collected, tracks⟩, stored⟩
  · intro done
    obtain ⟨gone, clear, salt, _, tracks⟩ := ends.finished done
    exact ⟨gone, clear, salt, collected, tracks.finish clear⟩

/-- An attempt over a log that has been erased before. -/
theorem Finished.attempt {done : List UInt8}
    (finished : Finished ids foreign origins ownerID (fun _ => True) done archive) :
    Finished ids foreign origins ownerID (fun _ => True) done final ∧
    (report.failure ≠ none → ∀ salt, archive.salt? ownerID = some salt →
      final.salt? ownerID = some salt) ∧
    (report.failure = none → final.salt? ownerID = none ∧ Clear (· ∈ ids) final) := by
  have family : Family ids foreign (fun _ origin record => record = erased done ids origin)
      (fun _ origin record => record = erased done ids origin)
      (fun _ => Extra foreign ids ownerID (fun _ => True)) :=
    { fates := fun salt => erased_fates setting.unmarked setting.unnamed setting.filled trivial done
      included := fun _ _ new => .inl new
      unnamed := setting.unnamed }
  have ends := attempt_ends family (fun _ _ => emitted_extra)
    setting.unmarked eraser quiet finished.collected (fun _ _ => finished.tracks)
  rw [ran] at ends
  have collected := (identifiers_congr ends.rows ownerID).trans finished.collected
  by_cases outcome : report.failure = none
  · obtain ⟨gone, clear, _, _, tracks⟩ := ends.finished outcome
    exact ⟨⟨collected, tracks⟩, fun failed => absurd outcome failed, fun _ => ⟨gone, clear⟩⟩
  · obtain ⟨tracks, stored⟩ := ends.failed outcome
    refine ⟨⟨collected, ?_⟩, fun _ => stored, fun done => absurd done outcome⟩
    cases held : final.salt? ownerID with
    | none => exact tracks [] fun _ found => by cases held.symm.trans found
    | some salt => exact tracks salt fun _ found => Option.some.inj (found.symm.trans held)

/-- Some attempt has finished, or another one can take over. -/
def Sound (ids : List GoString) (foreign origins : AuditRecord → Prop)
    (ownerID : OwnerID) (archive : Archive) : Prop :=
  Resumable ids foreign origins ownerID (fun _ _ => True) archive ∨
    ∃ done, Finished ids foreign origins ownerID (fun _ => True) done archive

theorem Sound.attempt (sound : Sound ids foreign origins ownerID archive) :
    Sound ids foreign origins ownerID final ∧
    (report.failure ≠ none → ∀ salt, archive.salt? ownerID = some salt →
      final.salt? ownerID = some salt) ∧
    (report.failure = none → final.salt? ownerID = none ∧ Clear (· ∈ ids) final ∧
      ∃ done, Finished ids foreign origins ownerID (fun _ => True) done final) := by
  rcases sound with resumable | ⟨done, finished⟩
  · obtain ⟨failed, succeeded⟩ := resumable.attempt setting eraser quiet ran (fun _ => trivial)
    refine ⟨?_, fun failure => (failed failure).2, succeeded⟩
    by_cases failure : report.failure = none
    · obtain ⟨_, _, salt, finished⟩ := succeeded failure
      exact .inr ⟨salt, finished⟩
    · exact .inl (failed failure).1
  · obtain ⟨still, failed, succeeded⟩ := finished.attempt setting eraser quiet ran
    refine ⟨.inr ⟨done, still⟩, failed, fun success => ?_⟩
    obtain ⟨gone, clear⟩ := succeeded success
    exact ⟨gone, clear, done, still⟩

end OneAttempt

/-! ## Sequences of attempts -/

/-! ## Sequences of attempts -/

theorem Sound.afterAll (quiet : ∀ attempt ∈ attempts, ∀ turn ∈ attempt.turns,
      ∀ record ∈ turn.moves, foreign record) (sound : Sound ids foreign origins ownerID archive) :
    Sound ids foreign origins ownerID (eraser.afterAll ownerID attempts archive) := by
  induction attempts generalizing archive with
  | nil => exact sound
  | cons attempt rest induction =>
    apply induction
    · intro other member
      exact quiet other (List.mem_cons_of_mem _ member)
    · exact (sound.attempt setting eraser (quiet attempt List.mem_cons_self) rfl).1

/-- Each of the attempts fails in its place. -/
def OwnerEraser.Fails (eraser : OwnerEraser) (ownerID : OwnerID) : List Attempt → Archive → Prop
  | [], _ => True
  | attempt :: rest, archive =>
    (eraser.attempt ownerID attempt archive).1.failure ≠ none ∧
      eraser.Fails ownerID rest (eraser.attempt ownerID attempt archive).2

theorem Resumable.afterAll (own : ∀ salt, allowed salt salt)
    (quiet : ∀ attempt ∈ attempts, ∀ turn ∈ attempt.turns,
      ∀ record ∈ turn.moves, foreign record) (fails : eraser.Fails ownerID attempts archive)
    (resumable : Resumable ids foreign origins ownerID allowed archive) :
    Resumable ids foreign origins ownerID allowed (eraser.afterAll ownerID attempts archive) := by
  induction attempts generalizing archive with
  | nil => exact resumable
  | cons attempt rest induction =>
    obtain ⟨failure, later⟩ := fails
    apply induction
    · intro other member
      exact quiet other (List.mem_cons_of_mem _ member)
    · exact later
    · have taken := resumable.attempt setting eraser (quiet attempt List.mem_cons_self) rfl own
      exact (taken.1 failure).1

end Setting

/-- A finished and cleared log holds erased records only. -/
theorem Finished.rewrites {before after : Archive}
    (finished : Finished ids foreign (· ∈ before.log) ownerID permitted salt
      after) (clear : Clear (· ∈ ids) after) (owner : ownerID ∈ ids) :
    Rewrites salt ids before (fun record => foreign record ∨
      ∃ other, permitted other ∧ ErasedRecord other ids ownerID record)
      after where
  kept := by
    intro origin member
    obtain ⟨record, stored, rfl⟩ := finished.tracks.found origin member
    exact stored
  known := by
    intro record member
    rcases finished.tracks.known record member with origin | extra
    · exact .inl origin
    rcases extra with
      new | ⟨written, emitted, rfl | ⟨other, allowed, same⟩⟩
    · exact .inr (.inl new)
    · have named := (clear record member).2
      rw [emitted.target] at named
      exact absurd owner named
    · exact .inr (.inr ⟨other, allowed, written, emitted, same⟩)

end Attempts

theorem owner_ne_nil_of_returns {eraser : OwnerEraser} {ownerID : OwnerID}
    {attempt : Attempt} {archive : Archive}
    (returns : (eraser.attempt ownerID attempt archive).1.failure = none) : ownerID ≠ [] := by
  rintro rfl
  cases returns

/-- An attempt that returns without an error leaves no identifier of the owner
in a column, no salt, and every record that was there in its erased form; the
failed attempts just before it share its salt with it.  No failed attempt takes
a salt away. -/
theorem erasure_converges (eraser : OwnerEraser) (ownerID : OwnerID)
    (archive : Archive) (before series : List Attempt) (last : Attempt)
    (unmarked : Unmarked (archive.identifiers ownerID))
    (quiet : ∀ record, Appended (before ++ series ++ [last]) record →
      names (archive.identifiers ownerID) record = false) (fails : eraser.Fails ownerID series
      (eraser.afterAll ownerID before archive))
    (returns : (eraser.attempt ownerID last (eraser.afterAll ownerID
      (before ++ series) archive)).1.failure = none) :
    let ids := archive.identifiers ownerID
    let attempts := before ++ series ++ [last]
    let middle := eraser.afterAll ownerID before archive
    let final := eraser.afterAll ownerID attempts archive
    (∀ record ∈ final.log, record.actorID ∉ ids ∧ record.targetID ∉ ids) ∧
    final.salt? ownerID = none ∧
    (∃ salt, Rewrites salt ids middle (fun record =>
      Appended attempts record ∨ ErasedRecord salt ids ownerID record)
      final) ∧
    (∃ salt, Rewrites salt ids archive (fun record =>
      Appended attempts record ∨ ∃ other, ErasedRecord other ids ownerID record) final) ∧
    ∀ earlier attempt later, attempts = earlier ++ attempt :: later →
      (eraser.attempt ownerID attempt (eraser.afterAll ownerID earlier archive)).1.failure ≠ none →
      ∀ salt, (eraser.afterAll ownerID earlier archive).salt? ownerID = some salt →
        (eraser.attempt ownerID attempt (eraser.afterAll ownerID earlier archive)).2.salt? ownerID =
          some salt := by
  intro ids attempts middle final
  have owner : ownerID ∈ ids := Archive.mem_identifiers.mpr
    ⟨owner_ne_nil_of_returns returns, .inl rfl⟩
  have setting : Setting ids (Appended attempts) :=
    { unmarked := unmarked
      filled := fun member => (Archive.mem_identifiers.mp member).1 rfl
      unnamed := quiet }
  have appended : ∀ attempt ∈ attempts, ∀ turn ∈ attempt.turns,
      ∀ record ∈ turn.moves, Appended attempts record :=
    fun attempt member turn listed record moved =>
      ⟨attempt, member, turn, listed, moved⟩
  have inBefore : ∀ attempt ∈ before, attempt ∈ attempts :=
    fun attempt member => List.mem_append_left _ (List.mem_append_left _ member)
  have inSeries : ∀ attempt ∈ series, attempt ∈ attempts :=
    fun attempt member => List.mem_append_left _ (List.mem_append_right _ member)
  have isLast : last ∈ attempts := List.mem_append_right _ (List.mem_singleton_self last)
  have start : Sound ids (Appended attempts) (· ∈ archive.log) ownerID archive := .inl (.start rfl)
  have finalEq : final = (eraser.attempt ownerID last (eraser.afterAll ownerID
      (before ++ series) archive)).2 := by
    exact List.foldl_append
  have reached : Sound ids (Appended attempts) (· ∈ archive.log) ownerID
      (eraser.afterAll ownerID (before ++ series) archive) :=
    start.afterAll setting eraser fun attempt member =>
      appended attempt (List.mem_append_left _ member)
  obtain ⟨gone, clear, done, finished⟩ := (reached.attempt setting eraser
    (appended last isLast) rfl).2.2 returns
  have middleCollected : middle.identifiers ownerID = ids := by
    rcases start.afterAll setting eraser
        (fun attempt member => appended attempt (inBefore attempt member)) with
      resumable | ⟨_, finished⟩
    · exact resumable.collected
    · exact finished.collected
  have resumed : Resumable ids (Appended attempts) (· ∈ middle.log) ownerID
      Eq (eraser.afterAll ownerID series middle) :=
    (Resumable.start middleCollected).afterAll setting eraser (fun _ => rfl)
      (fun attempt member => appended attempt (inSeries attempt member)) fails
  have seriesEnd : eraser.afterAll ownerID (before ++ series) archive =
      eraser.afterAll ownerID series middle :=
    List.foldl_append
  obtain ⟨_, _, salt, seriesFinished⟩ := (resumed.attempt setting
    eraser (appended last isLast) rfl (fun _ => rfl)).2 (seriesEnd ▸ returns)
  rw [← seriesEnd] at seriesFinished
  rw [finalEq]
  refine ⟨clear, gone, ⟨salt, ?_⟩, ⟨done, ?_⟩, ?_⟩
  · have rewrites := seriesFinished.rewrites clear owner
    refine ⟨rewrites.kept, fun record member => ?_⟩
    rcases rewrites.known record member with origin | new | ⟨_, rfl, noted⟩
    · exact .inl origin
    · exact .inr (.inl new)
    · exact .inr (.inr noted)
  · have rewrites := finished.rewrites clear owner
    refine ⟨rewrites.kept, fun record member => ?_⟩
    rcases rewrites.known record member with origin | new | ⟨other, _, noted⟩
    · exact .inl origin
    · exact .inr (.inl new)
    · exact .inr (.inr ⟨other, noted⟩)
  · intro earlier attempt later split failure
    have sound : Sound ids (Appended attempts) (· ∈ archive.log) ownerID
        (eraser.afterAll ownerID earlier archive) := by
      apply start.afterAll setting eraser
      intro other member
      apply appended
      rw [split]
      exact List.mem_append_left _ member
    have member : attempt ∈ attempts := by
      rw [split]
      exact List.mem_append_right _ List.mem_cons_self
    exact (sound.attempt setting eraser (appended attempt member) rfl).2.1 failure

namespace Sample

def eraser : OwnerEraser where
  emitter := Audit.Sample.silentEmitter

def aliceHandle : Handle where
  id := utf8 "h"
  ownerID := utf8 "o"
  name := utf8 "alice"
  state := .active
  quarantineUntil := none
  flaggedForReview := false
  quarantineOnRelease := false
  createdAt := 1
  updatedAt := 1
  nameFold := utf8 "alice"
  foldVersion := 1

/-- The owner has taken a handle. -/
def handleRecord : AuditRecord where
  id := utf8 "r"
  actorType := .owner
  actorID := utf8 "o"
  action := .handleRenamed
  targetType := .handle
  targetID := utf8 "h"
  occurredAt := 1
  metadata := [(.toName, utf8 "alice"), (.reason, utf8 "move")]

def archive : Archive where
  catalog :=
    { owners := .empty
      handles := ⟨[aliceHandle], by decide⟩
      keySets := .empty
      keySetMembers := .empty
      devices := .empty
      publicKeys := .empty
      accessKeys := .empty
      auditRecords := ⟨[handleRecord], by decide⟩ }
  refreshCredentials := .empty
  linkedIdentities := .empty
  pairings := .empty
  salts := .empty

/-- The pass for the handle fails. -/
def interrupted : Attempt where
  call := ⟨[1], utf8 "e1", 2⟩
  turns := List.replicate 13 {} ++ [{ faulted := true }]

def repeated : Attempt where
  call := ⟨[2], utf8 "e2", 3⟩
  turns := []

end Sample

open Sample in
theorem erasure_converges_repeated :
    (eraser.attempt (utf8 "o") interrupted archive).1.failure ≠ none ∧
      ∃ salt, erased salt [utf8 "o", utf8 "h"] handleRecord ∈
        (eraser.afterAll (utf8 "o") [interrupted, repeated] archive).log := by
  have collected : archive.identifiers (utf8 "o") = [utf8 "o", utf8 "h"] := by decide +kernel
  have unmarked : Unmarked (archive.identifiers (utf8 "o")) := by
    rw [collected]
    unfold Unmarked
    decide +kernel
  have silent : ∀ record, Appended [interrupted, repeated] record →
      names (archive.identifiers (utf8 "o")) record = false := by
    rintro record ⟨attempt, member, turn, listed, moved⟩
    have none : ∀ attempt ∈ [interrupted, repeated],
        ∀ turn ∈ attempt.turns, turn.moves = [] := by decide +kernel
    rw [none attempt member turn listed] at moved
    cases moved
  have failure : (eraser.attempt (utf8 "o") interrupted archive).1.failure ≠
      none := by decide +kernel
  have converges := erasure_converges eraser (utf8 "o") archive []
    [interrupted] repeated unmarked silent ⟨failure, trivial⟩ (by decide +kernel)
  obtain ⟨_, _, ⟨salt, rewrites⟩, _⟩ := converges
  rw [collected] at rewrites
  exact ⟨failure, salt, rewrites.kept handleRecord (by decide)⟩

open Sample in
/-- Erasure leaves its mark on the records it has rewritten. -/
theorem erasure_marks_records :
    (eraser.attempt (utf8 "o") repeated archive).1.failure = none ∧
      handleRecord ∈ archive.log ∧ handleRecord.pseudonymized = false ∧
      ∀ record ∈ (eraser.attempt (utf8 "o") repeated archive).2.log,
        record.id = handleRecord.id → record.pseudonymized = true := by
  decide +kernel

end Vallet.Erasure
