import Vallet.ManagedBlock.Apply

/-!
# Applying a second time

A file that an application wrote is merged to itself by the next one with the
same keys.  The next one has to read it first, though: reading is bounded and
needs the read permission, and writing is neither.
-/

namespace Vallet.ManagedBlock

open Effects Program

variable {ssh : Keys.SSH}

/-- The bytes a merge keeps or adds outside the block. -/
def outsideLength (existing : GoString) : Nat :=
  match locate existing with
  | .ok (some span) => (existing.take span.start).length + (existing.drop span.stop).length
  | _ => existing.length + (separator existing).length

variable {block merged dir base : GoString} {call : Call} {files : FileSystem} {file : File}

variable {existing : GoString}

theorem length_merge (merges : merge existing block = .ok merged) :
    merged.length = outsideLength existing + block.length := by
  unfold merge at merges
  split at merges
  · cases merges
  · rename_i span located
    cases merges
    simp only [outsideLength, located, List.length_append]
    omega
  · rename_i located
    cases merges
    simp only [outsideLength, located, List.length_append]

/-- The result of a merge is merged to itself. -/
theorem merge_again {pubkeys : List GoString} (rendered : render ssh pubkeys = .ok block)
    (merges : merge existing block = .ok merged) (other : GoString) :
    merge merged other = merge existing other := by
  obtain ⟨entries, count, valid, rfl⟩ := render_ok rendered
  obtain ⟨frame, framed⟩ := exists_frame (markers_of_merge merges)
  rw [framed] at merges
  cases merges
  rw [frame.merge_around valid, framed]

/-! ## Runs without faults -/

section Runs

variable {process : Process} {files : FileSystem} {dir base : GoString}

theorem ensureDir_run (directory : files.IsDirectory dir) :
    (ensureDir dir).run (fileInterpreter process) [] files = (.ok (), files) := by
  obtain ⟨mode, nodes, place⟩ := directory
  simp [ensureDir, run_issue, fileInterpreter, FileCall.execute, place]

theorem readExisting_run {file : File} (present : files.node dir base = some (.regular file)) :
    (readExisting dir base).run (fileInterpreter process) [] files =
      (if process.mayRead file then
        if file.content.length ≤ maxFileBytes then
          .ok ⟨file.content, file.mode, true⟩
        else .error errTooLarge
      else .error (osError "managedblock: open target"), files) := by
  cases readable : process.mayRead file with
  | false =>
    simp [readExisting, run_issue, fileInterpreter, FileCall.execute, present, readable]
  | true =>
    by_cases small : file.content.length ≤ maxFileBytes
    · have whole : file.content.take (maxFileBytes + 1) = file.content :=
        List.take_of_length_le (by omega)
      simp [readExisting, run_issue, fileInterpreter,
        FileCall.execute, present, readable, whole, small, Nat.not_lt.mpr small]
    · simp [readExisting, run_issue, fileInterpreter,
        FileCall.execute, present, readable, small, Nat.lt_of_not_le small]

/-- A file that its own keys merge to is found unchanged if it can be read at
all. -/
theorem applyIn_run {file : File} {block : GoString} {pubkeys : List GoString}
    {opts : Options} (random : List UInt8) (report : Report)
    (present : files.node dir base = some (.regular file))
    (rendered : render ssh pubkeys = .ok block)
    (stable : merge file.content block = .ok file.content) :
    let outcome := ((applyIn random block dir base opts report).run
      (fileInterpreter process) [] files).1
    (outcome.2 = none ∧ outcome.1.changed = false) ↔
      process.mayRead file = true ∧ file.content.length ≤ maxFileBytes := by
  have kept : ¬ (blockKeyCount file.content > 0 ∧ blockKeyCount block = 0) := by
    rw [blockKeyCount_merge rendered stable, blockKeyCount_render rendered]
    omega
  have unemptied : (!opts.allowEmpty && decide (blockKeyCount file.content > 0) &&
      decide (blockKeyCount block = 0)) = false := by
    rw [Bool.and_assoc, ← Bool.decide_and, decide_eq_false kept, Bool.and_false]
  simp only [applyIn]
  rw [run_bind_nil, readExisting_run present]
  cases readable : process.mayRead file with
  | false => simp
  | true =>
    by_cases small : file.content.length ≤ maxFileBytes
    · simp [small, stable, unemptied]
    · simp [small]

theorem writeAtomic_run (base content : GoString) (mode : Mode)
    {random : List UInt8} (complete : process.shortWrite = none) (directory : files.IsDirectory dir)
    (fresh : files.node dir (tempName base random) = none) :
    ((writeAtomic random dir base content mode).run (fileInterpreter process)
      [] files).1 = .ok () := by
  have beside : Beside files dir (tempName base random) ⟨[], mode &&& ~~~process.umask, true⟩
      (files.setNode dir (tempName base random)
        (some (.regular ⟨[], mode &&& ~~~process.umask, true⟩))) :=
    ⟨directory.setNode _ _, FileSystem.node_setNode directory _⟩
  have filled := (beside.modify fun file => { file with mode }).modify
    fun file => { file with content }
  have present := filled.node_temporary
  obtain ⟨dirMode, nodes, place⟩ := directory
  have fillRun : ∀ middle : FileSystem, (fill dir (tempName base random) content mode).run
        (fileInterpreter process) [] middle =
      (.ok (), (middle.modify dir (tempName base random)
        fun file => { file with mode }).modify dir (tempName base random)
          fun file => { file with content }) := by
    intro middle
    simp [fill, run_issue, fileInterpreter, FileCall.execute, complete]
  have installRun : ∀ middle : FileSystem, ∀ file : File,
      middle.node dir (tempName base random) = some (.regular file) →
      ((install dir (tempName base random) base).run (fileInterpreter process)
        [] middle).1 = .ok () := by
    intro middle file stored
    simp [install, run_issue, fileInterpreter, FileCall.execute, stored]
  have created : (fileInterpreter process).execute
      (.createExclusive dir (tempName base random) mode) files =
      (true, files.setNode dir (tempName base random)
        (some (.regular ⟨[], mode &&& ~~~process.umask, true⟩))) := by
    simp [fileInterpreter, FileCall.execute, place, fresh]
  have drawn : (fileInterpreter process).execute .randRead files = ((), files) := rfl
  simp only [writeAtomic, ask_bind, run_issue, List.headD_nil, List.tail_nil,
    reply_false, drawn, created]
  rw [run_bind_nil, fillRun]
  exact installRun _ _ present

end Runs

section Calls

variable (targeted : target call.opts.path = some (dir, base))
  (rendered : render ssh call.pubkeys = .ok block)
  (written : call.opts.dryRun = false) (directory : files.IsDirectory dir)
  (undisturbed : call.faults = [])

include targeted rendered written directory undisturbed

/-- Where the directory exists, a call without faults starts by reading the
target. -/
theorem Call.run_eq_applyIn : call.run ssh files =
      (applyIn call.random block dir base call.opts { path := cleanPath call.opts.path }).run
        (fileInterpreter call.process) [] files := by
  have opened : ∀ report, (openAndApply call.random block dir base call.opts report).run
        (fileInterpreter call.process) [] files =
      (applyIn call.random block dir base call.opts report).run
        (fileInterpreter call.process) [] files := by
    obtain ⟨mode, nodes, place⟩ := directory
    intro report
    simp [openAndApply, run_issue, fileInterpreter, FileCall.execute, place]
  rw [← opened]
  simp only [Call.run, apply, rendered, targeted, written, undisturbed]
  rw [if_neg (by decide), run_bind_nil, ensureDir_run directory]

variable (present : files.node dir base = some (.regular file))

include present

/-- The second call, on what the first one wrote. -/
theorem Call.run_again (stable : merge file.content block = .ok file.content) :
    ((call.run ssh files).1.2 = none ∧ (call.run ssh files).1.1.changed = false) ↔
      call.process.mayRead file = true ∧ file.content.length ≤ maxFileBytes := by
  rw [Call.run_eq_applyIn targeted rendered written directory undisturbed]
  exact applyIn_run call.random _ present rendered stable

theorem Call.run_refuses
    (readable : call.process.mayRead file = true) (long : ¬ file.content.length ≤ maxFileBytes) :
    (call.run ssh files).1.2 = some errTooLarge := by
  rw [Call.run_eq_applyIn targeted rendered written directory undisturbed]
  simp only [applyIn]
  rw [run_bind_nil, readExisting_run present]
  simp [readable, long]

/-- A call without faults on a readable file that its keys change writes the
file. -/
theorem Call.run_writes (complete : call.process.shortWrite = none)
    (readable : call.process.mayRead file = true) (small : file.content.length ≤ maxFileBytes)
    (merges : merge file.content block = .ok merged) (changed : file.content ≠ merged)
    (unfilled : blockKeyCount file.content = 0)
    (fresh : files.node dir (tempName base call.random) = none) :
    (call.run ssh files).1.2 = none ∧ .renamed ∈ call.events ssh files := by
  have quiet : Quiet [] := by simp [Quiet]
  have left := Traces.run (writeAtomic_leaves call.process
    call.random directory quiet : Leaves call.process _ (writeAtomic
      call.random dir base merged (finalMode file.mode true)) files []) []
  have finished := writeAtomic_run base merged (finalMode file.mode true) complete directory fresh
  cases outcome : (writeAtomic call.random dir base merged
      (finalMode file.mode true)).run (fileInterpreter call.process) [] files with
  | mk result final =>
    rw [outcome] at left finished
    cases finished
    have whole : (call.run ssh files).1.2 = none ∧ (call.run ssh files).2 = final := by
      rw [Call.run_eq_applyIn targeted rendered written directory undisturbed]
      simp only [applyIn]
      rw [run_bind_nil, readExisting_run present]
      simp [readable, small, merges, changed, unfilled, written, run_bind_nil, outcome]
    refine ⟨whole.1, ?_⟩
    have replaced := left.resolve_left fun failed => by
      obtain ⟨failure, impossible, _⟩ := failed
      cases impossible
    have different : (call.run ssh files).2.node dir base ≠ files.node dir base := by
      rw [whole.2, replaced.target, present]
      intro same
      have file' := Node.regular.inj (Option.some.inj same)
      exact changed (by rw [← file'])
    rcases call.treated files with
      ⟨same, _⟩ | ⟨otherDir, otherBase, _, sameTarget, _, treated⟩
    · exact absurd (same dir base) different
    cases targeted.symm.trans sameTarget
    rcases treated with unrenamed | ⟨_, _, overwritten⟩
    · exact absurd unrenamed.target different
    · exact overwritten.replaced.renamed

end Calls

/-- What lets the next call read the file: it is not too long, and whoever
wrote it may read it. -/
structure Rereadable (process : Process) (existing : Existing) (block : GoString) : Prop where
  small : outsideLength existing.content + block.length ≤ maxFileBytes
  readable : process.superuser = true ∨ existing.existed = false ∨ existing.mode.getLsbD 8 = true

theorem mayRead_written (process : Process) (existing : Existing) (content : GoString) :
    process.mayRead ⟨content, finalMode existing.mode existing.existed, true⟩ = true ↔
      process.superuser = true ∨ existing.existed = false ∨ existing.mode.getLsbD 8 = true := by
  have new : fileMode.getLsbD 8 = true := by decide
  cases existed : existing.existed with
  | false | true => simp [Process.mayRead, finalMode, new]

theorem Found.unique {first second : Existing}
    (one : Found files dir base first) (other : Found files dir base second) : first = second := by
  cases one with
  | nothing absent =>
    cases other with
    | nothing => rfl
    | file present => cases absent.symm.trans present
  | file present small =>
    cases other with
    | nothing absent => cases absent.symm.trans present
    | file again =>
      cases present.symm.trans again
      rfl

theorem Call.overwritten_of_renamed {before : FileSystem} {existing : Existing}
    (wrote : .renamed ∈ call.events ssh before)
    (targeted : target call.opts.path = some (dir, base))
    (rendered : render ssh call.pubkeys = .ok block) (found : Found before dir base existing) :
    ∃ merged, Overwritten before (call.run ssh before).2
      (call.events ssh before) dir base block call.opts existing merged := by
  rcases call.treated before with
    ⟨_, quiet⟩ | ⟨otherDir, otherBase, otherBlock, sameTarget, sameBlock, treated⟩
  · exact absurd wrote (quiet.not_mem (by decide))
  cases targeted.symm.trans sameTarget
  cases rendered.symm.trans sameBlock
  rcases treated with left | ⟨read, merged, overwritten⟩
  · exact absurd wrote left.renamed
  · exact ⟨merged, overwritten.found.unique found ▸ overwritten⟩

/-- A call that wrote the file is followed by one that finds it unchanged
exactly when the file it wrote can be read again; and then every later merge
succeeds as well. -/
theorem reapply_unchanged_iff {call again : Call} {before : FileSystem}
    {dir base block : GoString} {existing : Existing} (wrote : .renamed ∈ call.events ssh before)
    (targeted : target call.opts.path = some (dir, base))
    (rendered : render ssh call.pubkeys = .ok block) (found : Found before dir base existing)
    (sameKeys : again.pubkeys = call.pubkeys)
    (sameOptions : again.opts = call.opts) (undisturbed : again.faults = []) :
    let after := (call.run ssh before).2
    (((again.run ssh after).1.2 = none ∧ (again.run ssh after).1.1.changed = false) ↔
      Rereadable again.process existing block) ∧
    (Rereadable again.process existing block →
      ∃ content mode,
        ((readExisting dir base).run (fileInterpreter again.process) []
          after).1 = .ok ⟨content, mode, true⟩ ∧
        ∀ other, ∃ merged, merge content other = .ok merged) := by
  obtain ⟨merged, overwritten⟩ := call.overwritten_of_renamed wrote targeted rendered found
  have stable : merge merged block = .ok merged := by
    rw [merge_again rendered overwritten.merges, overwritten.merges]
  have length := length_merge overwritten.merges
  have present := overwritten.replaced.target
  have readable := mayRead_written again.process existing merged
  have targetedAgain : target again.opts.path = some (dir, base) := by
    rw [sameOptions, targeted]
  have renderedAgain : render ssh again.pubkeys = .ok block := by
    rw [sameKeys, rendered]
  have writtenAgain : again.opts.dryRun = false := by
    rw [sameOptions, overwritten.written]
  have second := Call.run_again targetedAgain renderedAgain writtenAgain
    overwritten.replaced.directory undisturbed present stable
  constructor
  · rw [second, readable, length]
    constructor
    · rintro ⟨allowed, small⟩
      exact ⟨small, allowed⟩
    · rintro ⟨small, allowed⟩
      exact ⟨allowed, small⟩
  · intro rereadable
    refine ⟨merged, finalMode existing.mode existing.existed, ?_, ?_⟩
    · rw [readExisting_run present]
      simp [readable.mpr rereadable.readable, length, rereadable.small]
    · obtain ⟨frame, framed⟩ := exists_frame (markers_of_merge stable)
      exact fun other => ⟨_, framed other⟩

/-! ## A file of the largest readable size -/

namespace Sample

def sshDir : GoString := utf8 "/home/me/.ssh/"
def authorizedKeys : GoString := utf8 "authorized_keys"

def homeWith (file : File) : FileSystem := fun dir =>
  if dir = sshDir then
    .directory 0o700 fun name =>
      if name = authorizedKeys then some (.regular file) else none
  else .missing

/-- Install no keys. -/
def emptyCall : Call where
  process := ⟨false, false, 0o022, none⟩
  random := [1, 2, 3, 4, 5, 6, 7, 8]
  pubkeys := []
  opts := ⟨utf8 "/home/me/.ssh/authorized_keys", false, false⟩
  faults := []

theorem lines_newlines (count : Nat) : Text.lines 10 (List.replicate count (10 : UInt8)) =
      List.replicate count [10] := by
  induction count with
  | zero => rfl
  | succ count induction => simp [List.replicate_succ, Text.lines, induction]

theorem markers_newlines (count : Nat) : markers (List.replicate count 10) = [] := by
  rw [markers, lines_newlines, List.filterMap_eq_nil_iff]
  intro line member
  rw [(List.mem_replicate.mp member).2]
  decide +kernel

theorem emptyCall_target : target emptyCall.opts.path = some (sshDir, authorizedKeys) := by
  decide +kernel

theorem emptyCall_render : render Keys.Sample.edLibrary emptyCall.pubkeys = .ok emptyBlock := by
  decide +kernel

theorem homeWith_node (file : File) (name : GoString) : (homeWith file).node sshDir name =
      if name = authorizedKeys then some (.regular file) else none := by
  simp [FileSystem.node, homeWith]

/-- A file at the size limit that has no block is written back longer than
the limit, and the next call refuses it. -/
theorem refuses_written_file {content : GoString}
    (full : content.length = maxFileBytes) (unmarked : markers content = []) :
    let files := homeWith ⟨content, 0o600, true⟩
    let written := (emptyCall.run Keys.Sample.edLibrary files).2
    Found files sshDir authorizedKeys ⟨content, 0o600, true⟩ ∧
    (emptyCall.run Keys.Sample.edLibrary files).1.2 = none ∧
    .renamed ∈ emptyCall.events Keys.Sample.edLibrary files ∧
    (emptyCall.run Keys.Sample.edLibrary written).1.2 = some errTooLarge := by
  intro files written
  have directory : files.IsDirectory sshDir := ⟨_, _, if_pos rfl⟩
  have present : files.node sshDir authorizedKeys = some (.regular ⟨content, 0o600, true⟩) := by
    rw [homeWith_node, if_pos rfl]
  have located := locate_of_markers_nil unmarked
  have found : Found files sshDir authorizedKeys ⟨content, 0o600, true⟩ :=
    .file present (Nat.le_of_eq full)
  have merges : merge content emptyBlock = .ok (content ++ separator content ++ emptyBlock) := by
    simp only [merge, located]
  have filled : 0 < emptyBlock.length := by decide +kernel
  have longer : maxFileBytes < (content ++ separator content ++ emptyBlock).length := by
    rw [List.length_append, List.length_append, full]
    omega
  have changed : content ≠ content ++ separator content ++ emptyBlock := by
    intro same
    rw [← same, full] at longer
    exact Nat.lt_irrefl _ longer
  have unfilled : blockKeyCount content = 0 := by
    simp only [blockKeyCount, located]
  have fresh : files.node sshDir (tempName authorizedKeys emptyCall.random) = none := by
    rw [homeWith_node, if_neg (ne_tempName _ _).symm]
  have readable : emptyCall.process.mayRead ⟨content, 0o600, true⟩ = true := by
    simp [Process.mayRead]
  obtain ⟨succeeded, wrote⟩ := Call.run_writes emptyCall_target
    emptyCall_render rfl directory rfl present rfl readable
    (Nat.le_of_eq full) merges changed unfilled fresh
  refine ⟨found, succeeded, wrote, ?_⟩
  obtain ⟨merged, overwritten⟩ := Call.overwritten_of_renamed wrote
    emptyCall_target emptyCall_render found
  have same : merged = content ++ separator content ++ emptyBlock :=
    Except.ok.inj (overwritten.merges.symm.trans merges)
  have rereadable := (mayRead_written emptyCall.process
    ⟨content, 0o600, true⟩ merged).mpr (.inr (.inr (by simp)))
  exact Call.run_refuses emptyCall_target emptyCall_render rfl
    overwritten.replaced.directory rfl overwritten.replaced.target rereadable
    (Nat.not_le.mpr (same ▸ longer))

end Sample

open Sample in
/-- A file of newlines at the size limit is written back longer than the
limit, and the next call refuses it. -/
theorem reapply_refuses_written_file :
    let files := homeWith ⟨List.replicate maxFileBytes 10, 0o600, true⟩
    let written := (emptyCall.run Keys.Sample.edLibrary files).2
    Found files sshDir authorizedKeys ⟨List.replicate maxFileBytes 10, 0o600, true⟩ ∧
    (emptyCall.run Keys.Sample.edLibrary files).1.2 = none ∧
    .renamed ∈ emptyCall.events Keys.Sample.edLibrary files ∧
    (emptyCall.run Keys.Sample.edLibrary written).1.2 = some errTooLarge :=
  refuses_written_file List.length_replicate (markers_newlines _)

open Sample in
theorem reapply_unchanged_own_line : (emptyCall.run Keys.Sample.edLibrary
        (emptyCall.run Keys.Sample.edLibrary (homeWith ⟨ownLine, 0o644, false⟩)).2).1 =
      (⟨utf8 "/home/me/.ssh/authorized_keys", true, false, 0o600, 121⟩,
        none) ∧
    Rereadable emptyCall.process ⟨ownLine, 0o644, true⟩ emptyBlock := by
  have found : Found (homeWith ⟨ownLine, 0o644, false⟩) sshDir authorizedKeys
      ⟨ownLine, 0o644, true⟩ := by
    have small : ownLine.length ≤ maxFileBytes := by decide +kernel
    have present : (homeWith ⟨ownLine, 0o644, false⟩).node sshDir
        authorizedKeys = some (.regular ⟨ownLine, 0o644, false⟩) := by
      rw [homeWith_node, if_pos rfl]
    exact .file present small
  have wrote : .renamed ∈ emptyCall.events Keys.Sample.edLibrary
      (homeWith ⟨ownLine, 0o644, false⟩) := by decide +kernel
  have same : emptyCall.pubkeys = emptyCall.pubkeys := rfl
  have second := (reapply_unchanged_iff wrote emptyCall_target
    emptyCall_render found same rfl rfl).1
  exact ⟨by decide +kernel, second.mp (by decide +kernel)⟩

end Vallet.ManagedBlock
