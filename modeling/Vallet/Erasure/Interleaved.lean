import Vallet.Erasure.Convergence

/-!
# Appends while an erasure runs

Requests of the owner may still append records while their erasure runs.  A
record that is appended after the metadata pass has read the log is missed by
that pass, and one that is appended after the pass for its identifier is
missed by that one too.
-/

namespace Vallet.Erasure

open Audit Auth Effects Publishing Relational

/-- The records others append in some turn. -/
def AppendedIn (turns : List (Turn AuditRecord)) (record : AuditRecord) : Prop :=
  ∃ turn ∈ turns, record ∈ turn.moves

/-- The calls up to the one that reads the log: those of the traversal, the
record of the erasure, the salt, and the read. -/
def readingCalls : Nat := OwnerTable.all.length + 3

section Phases

variable {ownerID : OwnerID} {turns all : List (Turn AuditRecord)}

theorem grown_headD (within : ∀ turn ∈ turns, turn ∈ all) (archive : Archive) :
    Grown (AppendedIn all) archive (disturb appendMove (turns.headD {}).moves archive) := by
  apply grown_disturb
  intro record moved
  cases turns with
  | nil => cases moved
  | cons turn rest => exact ⟨turn, within turn List.mem_cons_self, moved⟩

theorem Graph.collectTables_runAmid
    (steady : ∀ turn ∈ all, turn.faulted = false) (tables : List OwnerTable)
    (out : List GoString) (within : ∀ turn ∈ turns, turn ∈ all) (archive : Archive) :
    ∃ reached, Grown (AppendedIn all) archive reached ∧
      (Graph.collectTables ownerID tables out).runAmid erasureInterpreter appendMove turns archive =
        (.ok (archive.identifiersFrom ownerID tables out), turns.drop tables.length, reached) := by
  induction tables generalizing out turns archive with
  | nil => exact ⟨archive, .refl _ archive, by simp [Graph.collectTables, Archive.identifiersFrom]⟩
  | cons table rest induction =>
    have grew := grown_headD within archive
    set disturbed := disturb appendMove (turns.headD {}).moves archive
    obtain ⟨reached, grewOn, runs⟩ := induction
      ((disturbed.listByOwner ownerID table).foldl addID out)
      (fun turn member => within turn (List.mem_of_mem_drop member)) disturbed
    refine ⟨reached, grew.trans grewOn, ?_⟩
    have first : (Graph.collectTables ownerID (table :: rest) out).runAmid
        erasureInterpreter appendMove turns archive =
        (Graph.collectTables ownerID rest
          ((disturbed.listByOwner ownerID table).foldl addID out)).runAmid
          erasureInterpreter appendMove (turns.drop 1) disturbed :=
      Program.runAmid_issue_ok _ _ (fun turn member => steady turn (within turn member)) archive
    rw [first, runs]
    simp [Archive.identifiersFrom, grew.rows]

theorem Graph.collect_runAmid (filled : ownerID ≠ [])
    (steady : ∀ turn ∈ turns, turn.faulted = false) (archive : Archive) :
    ∃ reached, Grown (AppendedIn turns) archive reached ∧
      (Graph.collect ownerID).runAmid erasureInterpreter appendMove turns archive =
        (.ok (archive.identifiers ownerID), turns.drop OwnerTable.all.length, reached) := by
  unfold Graph.collect
  rw [if_neg filled]
  exact Graph.collectTables_runAmid steady OwnerTable.all _ (fun _ member => member) archive

theorem OwnerEraser.record_runAmid (steady : ∀ turn ∈ all, turn.faulted = false)
    (within : ∀ turn ∈ turns, turn ∈ all) (eraser : OwnerEraser) (call : Call) (archive : Archive)
    (written : ((eraser.record ownerID call).runAmid erasureInterpreter
      appendMove turns archive).1 = .ok ()) :
    ∃ reached, Grown (fun record => AppendedIn all record ∨ Emitted ownerID record)
        archive reached ∧
      (eraser.record ownerID call).runAmid erasureInterpreter appendMove
        turns archive = (.ok (), turns.drop 1, reached) := by
  have grew : Grown (fun record => AppendedIn all record ∨ Emitted ownerID record) archive
      ((eraser.record ownerID call).runAmid erasureInterpreter appendMove turns archive).2.2 :=
    (eraser.record_ensures call archive).runAmid (fun turn member state => grown_disturb
        (fun record moved => ⟨turn, within turn member, moved⟩) state) (Grown.refl (AppendedIn all))
  refine ⟨_, grew, Prod.ext written (Prod.ext ?_ rfl)⟩
  revert written
  unfold OwnerEraser.record Emitter.emit
  split
  · intro written
    cases written
  · rename_i record recorded
    intro written
    change (Program.runAmid _ _ (Program.issue _ _) _ _).2.1 = turns.drop 1
    rw [Program.runAmid_issue_ok _ _ (fun turn member => steady turn (within turn member))]
    cases (erasureInterpreter.execute (.appendAudit record)
      (disturb appendMove (turns.headD {}).moves archive)).1 <;> exact rfl

theorem OwnerSaltRepository.ensure_runAmid (filled : ownerID ≠ [])
    (steady : ∀ turn ∈ all, turn.faulted = false)
    (within : ∀ turn ∈ turns, turn ∈ all) (fresh : List UInt8) (archive : Archive) :
    ∃ salt salted, Salted (AppendedIn all) ownerID archive salt salted ∧
      (OwnerSaltRepository.ensure ownerID fresh).runAmid erasureInterpreter
        appendMove turns archive = (.ok salt, turns.drop 1, salted) := by
  have grew := grown_headD within archive
  set disturbed := disturb appendMove (turns.headD {}).moves archive
  obtain ⟨agrees, stored, sameLog, sameRows⟩ := disturbed.ensureSalt_spec ownerID fresh
  refine ⟨_, _,
    { agrees := agrees.congr grew.salts
      stored := stored
      rows := sameRows.trans grew.rows
      log := ⟨disturbed, grew, sameLog⟩ }, ?_⟩
  unfold OwnerSaltRepository.ensure
  rw [if_neg filled]
  exact Program.runAmid_issue_ok _ _ (fun turn member => steady turn (within turn member)) archive

end Phases

/-- Where a record of the log may have come from. -/
def Known (archive : Archive) (turns : List (Turn AuditRecord))
    (ownerID : OwnerID) (record : AuditRecord) : Prop :=
  record ∈ archive.log ∨ AppendedIn turns record ∨ Emitted ownerID record

/-- What is appended when some of the passes may be over names none of their
identifiers, and has no details to erase if it names another. -/
def InTime (ids : List GoString) (turns : List (Turn AuditRecord)) : Prop :=
  ∀ passed turn, turns[passed]? = some turn → ∀ record ∈ turn.moves,
    names (ids.take passed) record = false ∧ (names ids record = true → Anonymous record.metadata)

section Rewriting

variable {ownerID : OwnerID} {ids : List GoString} {salt : List UInt8} {late : AuditRecord → Prop}
  {origins : AuditRecord → Prop} {turns : List (Turn AuditRecord)}

/-- A record with its details done, from one that was appended late. -/
def LateFate (salt : List UInt8) (ids : List GoString) (late : AuditRecord → Prop)
    (record : AuditRecord) : Prop :=
  ∃ origin, late origin ∧ Detailed salt ids origin record

theorem late_fates (unmarked : Unmarked ids) :
    Fates salt ids (Partway salt ids) (Detailed salt ids) (LateFate salt ids late) where
  scrub := fun _ _ partway => partway.scrubStep unmarked
  pass := fun _ member _ _ detailed => detailed.passStep unmarked member
  weaken := fun _ _ detailed => detailed.1
  extraScrub := fun _ ⟨origin, new, detailed⟩ => ⟨origin, new, detailed.1.scrubStep unmarked⟩
  extraPass := fun _ member _ ⟨origin, new, detailed⟩ =>
    ⟨origin, new, detailed.passStep unmarked member⟩

theorem scrubStep_of_anonymous {record : AuditRecord}
    (plain : names ids record = true → Anonymous record.metadata) :
    scrubStep salt ids record = record := by
  unfold scrubStep
  split
  · rename_i named
    rw [scrubbed, (plain named).map_scrubDetail]
  · exact rfl

section InTime

variable (inTime : InTime ids turns)

include inTime

theorem InTime.scrubStep {record : AuditRecord} (new : AppendedIn turns record) :
    Erasure.scrubStep salt ids record = record := by
  obtain ⟨turn, listed, moved⟩ := new
  obtain ⟨index, found⟩ := List.mem_iff_getElem?.mp listed
  exact scrubStep_of_anonymous (inTime index turn found record moved).2

theorem InTime.lateFate (unmarked : Unmarked ids) {record : AuditRecord}
    (new : AppendedIn turns record) : LateFate salt ids (AppendedIn turns) record := by
  have detailed := (Partway.refl salt ids record).scrubStep unmarked
  rw [inTime.scrubStep new] at detailed
  exact ⟨record, new, detailed⟩

/-- Calls that are no passes only leave more identifiers to come. -/
theorem InTime.after (unmarked : Unmarked ids) (count index : Nat) (turn : Turn AuditRecord)
    (found : (turns.drop count)[index]? = some turn) (record : AuditRecord)
    (moved : record ∈ turn.moves) :
    names (ids.take index) record = false ∧ LateFate salt ids (AppendedIn turns) record := by
  rw [List.getElem?_drop] at found
  obtain ⟨actor, target⟩ := names_eq_false_iff.mp (inTime _ turn found record moved).1
  have sooner := List.take_subset_take_left ids (Nat.le_add_left index count)
  exact ⟨names_eq_false_iff.mpr ⟨fun named => actor (sooner named), fun named =>
    target (sooner named)⟩, inTime.lateFate unmarked ⟨turn, List.mem_of_getElem? found, moved⟩⟩

end InTime

theorem settled_headD {gone : List GoString} {archive : Archive}
    (first : ∀ turn, turns[0]? = some turn → ∀ record ∈ turn.moves,
      names gone record = false ∧ LateFate salt ids late record)
    (tracks : Tracks origins (Detailed salt ids) (LateFate salt ids late) archive)
    (clear : Clear (· ∈ gone) archive) :
    Tracks origins (Detailed salt ids) (LateFate salt ids late)
        (disturb appendMove (turns.headD {}).moves archive) ∧
      Clear (· ∈ gone) (disturb appendMove (turns.headD {}).moves archive) := by
  have head : ∀ record ∈ (turns.headD {}).moves,
      names gone record = false ∧ LateFate salt ids late record := by
    cases turns with
    | nil => simp
    | cons turn rest => exact first turn rfl
  have grew : Grown (· ∈ (turns.headD {}).moves) archive _ :=
    grown_disturb (fun _ moved => moved) archive
  exact ⟨tracks.grown grew fun record moved => (head record moved).2,
    clear.grown grew fun record moved => names_eq_false_iff.mp (head record moved).1⟩

/-- The passes over a log to which nothing is appended that they have passed. -/
theorem Eraser.pseudonymizeAll_runAmid (unmarked : Unmarked ids)
    (steady : ∀ turn ∈ turns, turn.faulted = false) {done rest : List GoString}
    (whole : ids = done ++ rest) {rewritten : Nat} {archive : Archive}
    (inTime : ∀ index turn, turns[index]? = some turn → ∀ record ∈ turn.moves,
      names (done ++ rest.take index) record = false ∧ LateFate salt ids late record)
    (tracks : Tracks origins (Detailed salt ids) (LateFate salt ids late) archive)
    (clear : Clear (· ∈ done) archive) {report : Report} {left : List (Turn AuditRecord)}
    {final : Archive} (run : (Eraser.pseudonymizeAll salt rest rewritten).runAmid
      erasureInterpreter appendMove turns archive = (report, left, final))
    (returns : report.failure = none) : left = turns.drop rest.length ∧
      Tracks origins (Detailed salt ids) (LateFate salt ids late) final ∧
      Clear (· ∈ ids) final := by
  induction rest generalizing done turns rewritten archive with
  | nil =>
    cases run
    rw [List.append_nil] at whole
    exact ⟨rfl, tracks, whole ▸ clear⟩
  | cons id rest induction =>
    have member : id ∈ ids := by simp [whole]
    unfold Eraser.pseudonymizeAll AuditRepository.pseudonymize at run
    split at run
    · cases run
      cases returns
    split at run
    · cases run
      cases returns
    split at run
    · rename_i none
      cases none
    change Program.runAmid _ _ (Program.issue _ _) _ _ = _ at run
    rw [Program.runAmid_issue_ok _ _ steady] at run
    obtain ⟨reachedTracks, reachedClear⟩ := settled_headD (by simpa using inTime 0) tracks clear
    have passedClear := @Clear.pass salt _ _ _ id reachedClear unmarked
      (by simp +contextual [whole]) member
    have later : ∀ index turn, (turns.drop 1)[index]? = some turn → ∀ record ∈ turn.moves,
        names (done ++ [id] ++ rest.take index) record = false ∧
          LateFate salt ids late record := by
      intro index turn found record moved
      rw [List.getElem?_drop, Nat.add_comm] at found
      simpa using inTime (index + 1) turn found record moved
    obtain ⟨used, after⟩ := induction
      (fun turn listed => steady turn (List.mem_of_mem_drop listed)) (by simp [whole]) later
      (reachedTracks.pass (late_fates unmarked) member) (by simpa using passedClear) run
    exact ⟨by rw [used, List.drop_drop, List.length_cons, Nat.add_comm], after⟩

/-- The passes over a log to which, once it has been read, records are only
appended in time. -/
theorem Eraser.rewriteLog_runAmid (unmarked : Unmarked ids) {faulted : Bool} {read : Archive}
    (steady : ∀ turn ∈ turns, turn.faulted = false) (inTime : InTime ids turns)
    {report : Report} {left : List (Turn AuditRecord)} {final : Archive}
    (run : (Eraser.rewriteLog ownerID ids salt).runAmid erasureInterpreter appendMove
      ({ faulted } :: turns) read = (report, left, final)) (returns : report.failure = none) :
    Clear (· ∈ ids) final ∧ Tracks (· ∈ read.log) (Detailed salt ids)
      (LateFate salt ids (AppendedIn turns)) final := by
  have start : Tracks (· ∈ read.log) (Partway salt ids)
      (LateFate salt ids (AppendedIn turns)) read :=
    { found := fun origin member => ⟨origin, member, .refl salt ids origin⟩
      known := fun record member => .inl ⟨record, member, .refl salt ids record⟩ }
  have made : ∀ turn ∈ ({ faulted } : Turn AuditRecord) :: turns, ∀ state,
      Grown (AppendedIn turns) state (disturb appendMove turn.moves state) := by
    intro turn member state
    apply grown_disturb
    intro record moved
    rcases List.mem_cons.mp member with rfl | later
    · cases moved
    · exact ⟨turn, later, moved⟩
  obtain ⟨_, _, settled⟩ := (scrubMetadata_ensures (late_fates unmarked)
    (fun _ => inTime.lateFate unmarked) (fun _ => inTime.scrubStep) start).runAmid made
    (Grown.refl _)
  unfold Eraser.rewriteLog at run
  rw [Program.runAmid_bind] at run
  obtain ⟨count, used⟩ : ∃ count, ((scrubMetadata ids salt).runAmid erasureInterpreter
      appendMove ({ faulted } :: turns) read).2.1 = turns.drop count :=
    Program.runAmid_turns _ turns _
  have steadyLeft : ∀ turn ∈ turns.drop count, turn.faulted = false :=
    fun turn listed => steady turn (List.mem_of_mem_drop listed)
  rw [used] at run
  cases result : ((scrubMetadata ids salt).runAmid erasureInterpreter appendMove
      ({ faulted } :: turns) read).1 with
  | error failure =>
    rw [result] at run
    cases run
    cases returns
  | ok _ =>
    rw [result] at run
    change Program.runAmid _ _ (Eraser.pseudonymizeAll salt ids 0 >>= _) _ _ = _ at run
    rw [Program.runAmid_bind] at run
    generalize passes : (Eraser.pseudonymizeAll salt ids 0).runAmid erasureInterpreter
      appendMove _ _ = answer at run
    obtain ⟨⟨rewritten, failure⟩, remaining, passed⟩ := answer
    cases failure with
    | some failure =>
      cases run
      cases returns
    | none =>
      obtain ⟨rfl, tracks, clear⟩ := Eraser.pseudonymizeAll_runAmid unmarked steadyLeft
        (List.nil_append ids).symm (inTime.after unmarked count) (settled result)
        (fun _ _ => ⟨nofun, nofun⟩) passes rfl
      change Program.runAmid _ _ (Program.issue _ _) _ _ = _ at run
      rw [Program.runAmid_issue_ok _ _
        fun turn listed => steadyLeft turn (List.mem_of_mem_drop listed)] at run
      cases run
      have first : ∀ turn, ((turns.drop count).drop ids.length)[0]? = some turn →
          ∀ record ∈ turn.moves,
            names ids record = false ∧ LateFate salt ids (AppendedIn turns) record := by
        intro turn found record moved
        rw [List.getElem?_drop] at found
        simpa using inTime.after unmarked count _ turn found record moved
      obtain ⟨lastTracks, lastClear⟩ := settled_headD first tracks clear
      exact ⟨lastClear, lastTracks.congr (by rfl)⟩

end Rewriting

/-- The archive in which the passes of a run start. -/
structure Reaches (eraser : OwnerEraser) (ownerID : OwnerID) (call : Call)
    (turns : List (Turn AuditRecord)) (archive : Archive)
    (salt : List UInt8) (salted : Archive) : Prop where
  run : (eraser.eraseOwner ownerID call).runAmid erasureInterpreter appendMove turns archive =
    (Eraser.rewriteLog ownerID (archive.identifiers ownerID) salt).runAmid
      erasureInterpreter appendMove (turns.drop (OwnerTable.all.length + 2)) salted
  kept : ∀ record ∈ archive.log, record ∈ salted.log
  known : ∀ record ∈ salted.log, Known archive turns ownerID record

/-- A run without faults that returns without an error has a salt after the
traversal, its record and one more call. -/
theorem OwnerEraser.eraseOwner_reaches {eraser : OwnerEraser}
    {ownerID : OwnerID} {call : Call} {turns : List (Turn AuditRecord)}
    {archive : Archive} (filled : ownerID ≠ []) (steady : ∀ turn ∈ turns, turn.faulted = false)
    (returns : ((eraser.eraseOwner ownerID call).runAmid erasureInterpreter
      appendMove turns archive).1.failure = none) :
    ∃ salt salted, Reaches eraser ownerID call turns archive salt salted := by
  obtain ⟨walked, grewWalking, collects⟩ := Graph.collect_runAmid filled steady archive
  obtain ⟨rest, collected, gives, goes⟩ : ∃ rest, (eraser.eraseOwner ownerID call).runAmid
        erasureInterpreter appendMove turns archive =
        (eraser.record ownerID call >>= rest).runAmid erasureInterpreter appendMove
          (turns.drop OwnerTable.all.length) walked ∧
      (∀ failure, rest (.error failure) = pure ⟨0, some failure⟩) ∧
      rest (.ok ()) = Eraser.eraseOwner ownerID (archive.identifiers ownerID) call.fresh := by
    unfold OwnerEraser.eraseOwner
    rw [if_neg filled, Program.runAmid_bind, collects]
    exact ⟨_, rfl, fun _ => rfl, rfl⟩
  rw [collected, Program.runAmid_bind] at returns
  have inWalk : ∀ turn ∈ turns.drop OwnerTable.all.length, turn ∈ turns :=
    fun turn member => List.mem_of_mem_drop member
  have written : ((eraser.record ownerID call).runAmid erasureInterpreter
      appendMove (turns.drop OwnerTable.all.length) walked).1 = .ok () := by
    cases answer : ((eraser.record ownerID call).runAmid erasureInterpreter
        appendMove (turns.drop OwnerTable.all.length) walked).1 with
    | error failure =>
      rw [answer, gives] at returns
      cases returns
    | ok _ => exact rfl
  obtain ⟨noted, grewNoting, notes⟩ :=
    OwnerEraser.record_runAmid steady inWalk eraser call walked written
  obtain ⟨salt, salted, held, ensures⟩ :=
    @OwnerSaltRepository.ensure_runAmid ownerID
      ((turns.drop OwnerTable.all.length).drop 1) turns filled steady
      (fun turn member => inWalk turn (List.mem_of_mem_drop member)) call.fresh noted
  obtain ⟨reached, grewSalting, sameLog⟩ := held.log
  refine ⟨salt, salted, ?_, ?_, ?_⟩
  · rw [collected, Program.runAmid_bind, notes]
    simp only [goes]
    unfold Eraser.eraseOwner
    rw [if_neg filled, Program.runAmid_bind, ensures, List.drop_drop, List.drop_drop]
  · intro record member
    rw [sameLog]
    exact grewSalting.kept record (grewNoting.kept record (grewWalking.kept record member))
  · intro record member
    rw [sameLog] at member
    rcases grewSalting.added record member with before | new
    · rcases grewNoting.added record before with earlier | new | emitted
      · rcases grewWalking.added record earlier with old | new
        · exact .inl old
        · exact .inr (.inl new)
      · exact .inr (.inl new)
      · exact .inr (.inr emitted)
    · exact .inr (.inl new)

/-- A run without faults to which, once it has read the log, records are only
appended in time: when it returns without an error no record names an
identifier of the owner, and every record is the erased form of the one it
was, its details included. -/
theorem interleaved_appends_erased (eraser : OwnerEraser) (ownerID : OwnerID)
    (call : Call) (turns : List (Turn AuditRecord)) (archive : Archive)
    (unmarked : Unmarked (archive.identifiers ownerID))
    (steady : ∀ turn ∈ turns, turn.faulted = false)
    (settled : InTime (archive.identifiers ownerID) (turns.drop readingCalls))
    (returns : (eraser.attempt ownerID ⟨call, turns⟩ archive).1.failure = none) :
    let ids := archive.identifiers ownerID
    let final := (eraser.attempt ownerID ⟨call, turns⟩ archive).2
    (∀ record ∈ final.log, record.actorID ∉ ids ∧ record.targetID ∉ ids) ∧
    ∃ salt, (∀ origin ∈ archive.log, erased salt ids origin ∈ final.log) ∧
      ∀ record ∈ final.log, ∃ origin, Known archive turns ownerID origin ∧
        record = erased salt ids origin ∧
        (names ids origin = true → Anonymous record.metadata) := by
  intro ids final
  have filled := owner_ne_nil_of_returns returns
  obtain ⟨salt, salted, reaches⟩ := OwnerEraser.eraseOwner_reaches filled steady returns
  have late : (turns.drop (OwnerTable.all.length + 2)).tail = turns.drop readingCalls :=
    List.tail_drop
  set first := (turns.drop (OwnerTable.all.length + 2)).headD {}
  have run : (Eraser.rewriteLog ownerID ids salt).runAmid erasureInterpreter appendMove
      ({ faulted := first.faulted } :: (turns.drop (OwnerTable.all.length + 2)).tail)
      (disturb appendMove first.moves salted) = _ := reaches.run.symm
  rw [late] at run
  obtain ⟨clear, tracks⟩ := Eraser.rewriteLog_runAmid unmarked
    (fun turn listed => steady turn (List.mem_of_mem_drop listed)) settled run returns
  have grew : Grown (AppendedIn turns) salted (disturb appendMove first.moves salted) :=
    grown_headD (fun _ => List.mem_of_mem_drop) salted
  have erasures := tracks.finish clear
  have comes : ∀ record ∈ final.log, ∃ origin, Known archive turns ownerID origin ∧
      record = erased salt ids origin := by
    intro record member
    rcases erasures.known record member with
      ⟨origin, listed, same⟩ | ⟨origin, ⟨turn, listed, moved⟩, detailed⟩
    · refine ⟨origin, ?_, same⟩
      rcases grew.added origin listed with old | new
      · exact reaches.known origin old
      · exact .inr (.inl new)
    · exact ⟨origin, .inr (.inl ⟨turn, List.mem_of_mem_drop listed, moved⟩),
        detailed.1.eq_erased (names_eq_false_iff.mpr (clear record member))⟩
  refine ⟨clear, salt, ?_, ?_⟩
  · intro origin member
    obtain ⟨record, stored, rfl⟩ :=
      erasures.found origin (grew.kept origin (reaches.kept origin member))
    exact stored
  · intro record member
    obtain ⟨origin, known, rfl⟩ := comes record member
    refine ⟨origin, known, rfl, fun named => ?_⟩
    simp only [erased, named, if_true]
    exact anonymous_map_scrubDetail salt origin.metadata

namespace Sample

/-- A request of the owner, recorded while their erasure runs. -/
def concurrentRecord (id : String) : AuditRecord :=
  { handleRecord with
    id := utf8 id
    metadata := [(.fromName, utf8 "alice"), (.toName, utf8 "bob")] }

def idle : Turn AuditRecord := {}

/-- One record comes after the log has been read and before the first pass, the
other before the salt is destroyed. -/
def lateTurns : List (Turn AuditRecord) :=
  List.replicate 12 idle ++ [{ moves := [concurrentRecord "c1"] }, idle,
    { moves := [concurrentRecord "c2"] }]

/-- A record that names the handle only, without details. -/
def plainRecord : AuditRecord :=
  { concurrentRecord "c2" with
    actorID := utf8 "x"
    metadata := [] }

/-- One record comes before the log is read, and one between that and the
first pass. -/
def earlyTurns : List (Turn AuditRecord) :=
  List.replicate 10 idle ++ [{ moves := [concurrentRecord "c1"] }, idle,
    { moves := [plainRecord] }]

def erasureCall : Call := ⟨[1], utf8 "e", 2⟩

end Sample

open Sample in
/-- A record that comes between the passes keeps its details, and one that
comes after them keeps everything. -/
theorem interleaved_appends_missed :
    (eraser.attempt (utf8 "o") ⟨erasureCall, lateTurns⟩ archive).1.failure = none ∧
    (∀ turn ∈ lateTurns, turn.faulted = false) ∧
    archive.identifiers (utf8 "o") = [utf8 "o", utf8 "h"] ∧
    (∃ record ∈ (eraser.attempt (utf8 "o") ⟨erasureCall, lateTurns⟩ archive).2.log,
      record.id = utf8 "c1" ∧ record.actorID = tombstone [1] (utf8 "o") ∧
      (.toName, utf8 "bob") ∈ record.metadata) ∧
    ∃ record ∈ (eraser.attempt (utf8 "o") ⟨erasureCall, lateTurns⟩ archive).2.log,
      record.id = utf8 "c2" ∧ record.actorID = utf8 "o" ∧
      record.targetID = utf8 "h" := by
  decide +kernel

open Sample in
theorem interleaved_appends_erased_early : ∃ salt, ∀ record ∈ (eraser.attempt (utf8 "o")
        ⟨erasureCall, earlyTurns⟩ archive).2.log,
      ∃ origin, Known archive earlyTurns (utf8 "o") origin ∧
        record = erased salt [utf8 "o", utf8 "h"] origin := by
  have collected : archive.identifiers (utf8 "o") = [utf8 "o", utf8 "h"] := by decide +kernel
  have unmarked : Unmarked (archive.identifiers (utf8 "o")) := by
    rw [collected]
    unfold Unmarked
    decide +kernel
  have settled : InTime (archive.identifiers (utf8 "o")) (earlyTurns.drop readingCalls) := by
    have late : earlyTurns.drop readingCalls = [idle, { moves := [plainRecord] }] := rfl
    rw [late, collected]
    rintro (_ | _ | passed) turn found record moved
    · cases found
      cases moved
    · cases found
      obtain rfl := List.mem_singleton.mp moved
      exact ⟨by decide +kernel, fun _ => nofun⟩
    · cases found
  have erases := interleaved_appends_erased eraser (utf8 "o") erasureCall
    earlyTurns archive unmarked (by decide +kernel) settled (by decide +kernel)
  obtain ⟨_, salt, _, known⟩ := erases
  refine ⟨salt, fun record member => ?_⟩
  obtain ⟨origin, comes, same, _⟩ := known record member
  rw [collected] at same
  exact ⟨origin, comes, same⟩

end Vallet.Erasure
