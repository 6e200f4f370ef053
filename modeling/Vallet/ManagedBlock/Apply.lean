import Vallet.ManagedBlock.Files

/-!
# What an application leaves behind

Until the rename, only the temporary file differs from the file system before;
a failed step removes it again, unless the removal fails as well.  After the
rename, only the target differs, and it holds the merged file.
-/

namespace Vallet.ManagedBlock

open Effects FileCall Program

/-! ## Nodes -/

def FileSystem.IsDirectory (files : FileSystem) (dir : GoString) : Prop :=
  ∃ mode nodes, files dir = .directory mode nodes

namespace FileSystem

variable {files : FileSystem} {dir name : GoString}

theorem node_setNode (directory : files.IsDirectory dir)
    (changed : Option Node) (otherDir other : GoString) :
    (files.setNode dir name changed).node otherDir other =
      if otherDir = dir ∧ other = name then changed
      else files.node otherDir other := by
  obtain ⟨mode, nodes, place⟩ := directory
  by_cases sameDir : otherDir = dir
  · subst sameDir
    by_cases same : other = name
    all_goals simp [setNode, place, node, setPlace, same]
  · simp [setNode, place, node, setPlace, sameDir]

theorem IsDirectory.setNode (directory : files.IsDirectory dir)
    (name : GoString) (changed : Option Node) :
    (files.setNode dir name changed).IsDirectory dir := by
  obtain ⟨mode, nodes, place⟩ := directory
  simp [IsDirectory, FileSystem.setNode, place, setPlace]

/-- Two file systems that differ in nothing a path can name. -/
def SameNodes (before after : FileSystem) : Prop :=
  ∀ dir name, after.node dir name = before.node dir name

end FileSystem

/-! ## Traces -/

/-- What a trace keeps of a call. -/
inductive FileEvent where
  | renamed
  | removeFailed
  | quiet
deriving DecidableEq, Repr

def FileCall.event : {β : Type} → FileCall β → Except Fault β → FileEvent
  | _, .rename _ _ _, .ok true => .renamed
  | _, .remove _ _, .ok true => .quiet
  | _, .remove _ _, _ => .removeFailed
  | _, _, _ => .quiet

/-- Nothing was renamed and nothing failed to be removed. -/
def Quiet (trace : List FileEvent) : Prop := ∀ event ∈ trace, event = .quiet

variable {trace : List FileEvent} {before files : FileSystem}
  {dir base block : GoString} {opts : Options} {pubkeys : List GoString}

theorem Quiet.snoc (quiet : Quiet trace) : Quiet (trace ++ [.quiet]) := by
  intro event member
  rcases List.mem_append.mp member with earlier | last
  · exact quiet event earlier
  · exact List.mem_singleton.mp last

theorem Quiet.not_mem (quiet : Quiet trace) {event : FileEvent}
    (loud : event ≠ .quiet) : event ∉ trace :=
  fun member => loud (quiet event member)

/-- The postcondition of a program that touches files, over its result, the
files and the trace. -/
abbrev Leaves {α : Type} (process : Process) (post : α → FileSystem → List FileEvent → Prop)
    (program : Program FileCall α) (files : FileSystem)
    (trace : List FileEvent) : Prop :=
  program.Traces (fileInterpreter process) @event post files trace

/-! ## Reading -/

/-- What was found at the target. -/
inductive Found (files : FileSystem) (dir base : GoString) : Existing → Prop where
  | nothing (absent : files.node dir base = none) : Found files dir base ⟨[], 0, false⟩
  | file {file : File} (present : files.node dir base = some (.regular file))
      (small : file.content.length ≤ maxFileBytes) :
      Found files dir base ⟨file.content, file.mode, true⟩

variable (process : Process)

theorem readExisting_leaves (files : FileSystem) (dir base : GoString) (quiet : Quiet trace) :
    Leaves process (fun result final whole =>
      final = files ∧ Quiet whole ∧
        ∀ existing, result = .ok existing → Found files dir base existing)
      (readExisting dir base) files trace := by
  have refused : ∀ (failure : Err) (existing : Existing),
      (.error failure : Except Err Existing) = .ok existing → Found files dir base existing := by
    intro failure existing impossible
    cases impossible
  rw [Leaves, readExisting, traces_ask_bind]
  refine ⟨⟨rfl, quiet.snoc, refused _⟩, ?_⟩
  simp only [fileInterpreter, execute]
  cases found : files.node dir base with
  | none =>
    refine ⟨rfl, quiet.snoc, fun existing same => ?_⟩
    cases same
    exact .nothing found
  | some node =>
    cases node with
    | special => exact ⟨rfl, quiet.snoc, refused _⟩
    | regular file =>
      simp only
      rw [traces_ask_bind]
      refine ⟨⟨rfl, quiet.snoc.snoc, refused _⟩, ?_⟩
      simp only [execute, found]
      cases process.mayRead file with
      | false => exact ⟨rfl, quiet.snoc.snoc, refused _⟩
      | true =>
        simp only
        rw [traces_ask_bind]
        refine ⟨⟨rfl, quiet.snoc.snoc.snoc, refused _⟩, ?_⟩
        simp only [execute, found]
        split
        · exact ⟨rfl, quiet.snoc.snoc.snoc, refused _⟩
        rename_i small
        refine ⟨rfl, quiet.snoc.snoc.snoc, fun existing same => ?_⟩
        have short : file.content.length ≤ maxFileBytes := by
          rw [List.length_take] at small
          omega
        have whole : file.content.take (maxFileBytes + 1) =
            file.content := List.take_of_length_le (by omega)
        rw [whole] at same
        cases same
        exact .file found short

theorem ensureDir_leaves (files : FileSystem) (dir : GoString) (quiet : Quiet trace) :
    Leaves process (fun _ final whole =>
      FileSystem.SameNodes files final ∧ Quiet whole)
      (ensureDir dir) files trace := by
  rw [Leaves, ensureDir, traces_ask_bind]
  refine ⟨⟨fun _ _ => rfl, quiet.snoc⟩, ?_⟩
  simp only [fileInterpreter, execute]
  cases place : files dir with
  | special | directory => exact ⟨fun _ _ => rfl, quiet.snoc⟩
  | missing =>
    simp only
    rw [traces_ask_bind]
    refine ⟨⟨fun _ _ => rfl, quiet.snoc.snoc⟩, ?_⟩
    simp only [execute, place]
    rw [traces_ask_bind]
    have created : ∀ mode, FileSystem.SameNodes files
        (files.setPlace dir (.directory mode fun _ => none)) := by
      intro mode other name
      by_cases same : other = dir
      · simp [FileSystem.node, FileSystem.setPlace, same, place]
      · simp [FileSystem.node, FileSystem.setPlace, same]
    refine ⟨⟨created _, quiet.snoc.snoc.snoc⟩, ?_⟩
    have stands : files.setPlace dir (.directory (dirMode &&& ~~~process.umask)
        fun _ => none) dir =
        .directory (dirMode &&& ~~~process.umask) fun _ => none := by
      simp [FileSystem.setPlace]
    simp only [execute, stands]
    refine ⟨fun other name => ?_, quiet.snoc.snoc.snoc⟩
    rw [← created dirMode other name]
    by_cases same : other = dir
    all_goals simp [FileSystem.node, FileSystem.setPlace, same]

/-! ## Writing -/

/-- The files before, with the temporary file beside the target. -/
structure Beside (before : FileSystem) (dir temporary : GoString) (file : File)
    (files : FileSystem) : Prop where
  directory : files.IsDirectory dir
  nodes : ∀ otherDir other, files.node otherDir other =
    if otherDir = dir ∧ other = temporary then some (.regular file)
    else before.node otherDir other

namespace Beside

variable {before files : FileSystem} {dir temporary : GoString} {file : File}

theorem node_temporary (beside : Beside before dir temporary file files) :
    files.node dir temporary = some (.regular file) := by
  rw [beside.nodes, if_pos ⟨rfl, rfl⟩]

theorem modify (beside : Beside before dir temporary file files) (change : File → File) :
    Beside before dir temporary (change file) (files.modify dir temporary change) := by
  have modified : files.modify dir temporary change =
      files.setNode dir temporary (some (.regular (change file))) := by
    rw [FileSystem.modify, beside.node_temporary]
  rw [modified]
  refine ⟨beside.directory.setNode _ _, fun otherDir other => ?_⟩
  rw [FileSystem.node_setNode beside.directory, beside.nodes]
  split
  · rfl
  · rfl

end Beside

theorem fill_leaves {temporary content : GoString} {mode : Mode} {file : File}
    (beside : Beside before dir temporary file files)
    (owned : file.owned = true) (quiet : Quiet trace) :
    Leaves process (fun result final whole =>
      Quiet whole ∧ ∃ written, Beside before dir temporary written final ∧
        (result = .ok () → written = ⟨content, mode, true⟩))
      (fill dir temporary content mode) files trace := by
  have failed : ∀ (failure : Err) (written : File), (.error failure : Except Err Unit) = .ok () →
        written = ⟨content, mode, true⟩ := by
    intro failure written impossible
    cases impossible
  rw [Leaves, fill, traces_ask_bind]
  refine ⟨⟨quiet.snoc, file, beside, failed _ _⟩, ?_⟩
  simp only [fileInterpreter, execute]
  have narrowed := beside.modify fun file => { file with mode }
  rw [traces_ask_bind]
  refine ⟨⟨quiet.snoc.snoc, _, narrowed, failed _ _⟩, ?_⟩
  simp only [execute]
  cases process.shortWrite with
  | some count => exact ⟨quiet.snoc.snoc, _, narrowed.modify _, failed _ _⟩
  | none =>
    have complete := narrowed.modify fun file => { file with content }
    simp only
    rw [traces_ask_bind]
    refine ⟨⟨quiet.snoc.snoc.snoc, _, complete, failed _ _⟩, ?_⟩
    simp only [execute]
    rw [traces_ask_bind]
    refine ⟨⟨quiet.snoc.snoc.snoc.snoc, _, complete, failed _ _⟩, ?_⟩
    refine ⟨quiet.snoc.snoc.snoc.snoc, _, complete, fun _ => ?_⟩
    simp [owned]

/-- The files as before, but for a temporary file that could not be
removed. -/
structure Unrenamed (before : FileSystem) (files : FileSystem)
    (trace : List FileEvent) (dir base : GoString) : Prop where
  renamed : .renamed ∉ trace
  target : files.node dir base = before.node dir base
  cleaned : .removeFailed ∉ trace → FileSystem.SameNodes before files
  kept : ∀ otherDir other, before.node otherDir other ≠ none →
    files.node otherDir other = before.node otherDir other

/-- The files as before, but for the target. -/
structure Replaced (before : FileSystem) (files : FileSystem)
    (trace : List FileEvent) (dir base : GoString) (file : File) : Prop where
  renamed : .renamed ∈ trace
  directory : files.IsDirectory dir
  target : files.node dir base = some (.regular file)
  kept : ∀ otherDir other, ¬ (otherDir = dir ∧ other = base) →
    files.node otherDir other = before.node otherDir other

theorem Unrenamed.of_same (same : FileSystem.SameNodes before files)
    (quiet : Quiet trace) (dir base : GoString) : Unrenamed before files trace dir base :=
  ⟨quiet.not_mem (by decide), same dir base, fun _ => same,
    fun otherDir other _ => same otherDir other⟩

namespace Beside

variable {before files : FileSystem} {dir temporary base : GoString}
  {file : File} {trace : List FileEvent}

variable (beside : Beside before dir temporary file files)
  (fresh : before.node dir temporary = none)

include beside fresh

theorem remove_same : FileSystem.SameNodes before (files.setNode dir temporary none) := by
  intro otherDir other
  rw [FileSystem.node_setNode beside.directory, beside.nodes]
  split
  · rename_i same
    rw [same.1, same.2, fresh]
  · rfl

variable (different : base ≠ temporary)

include different

/-- A temporary file that stays harms nothing that was there. -/
theorem unrenamed (quiet : Quiet trace) :
    Unrenamed before files (trace ++ [.removeFailed]) dir base := by
  refine ⟨?_, ?_, ?_, ?_⟩
  · intro member
    rcases List.mem_append.mp member with earlier | last
    · exact quiet.not_mem (by decide) earlier
    · exact absurd (List.mem_singleton.mp last) (by decide)
  · rw [beside.nodes, if_neg fun same => different same.2]
  · intro removed
    exact absurd (List.mem_append_right _ (List.mem_singleton.mpr rfl)) removed
  · intro otherDir other present
    rw [beside.nodes, if_neg]
    rintro ⟨rfl, rfl⟩
    exact present fresh

variable (process : Process)

theorem remove_leaves (quiet : Quiet trace) (failure : Err) :
    Leaves process (fun result final whole =>
      result = .error failure ∧ Unrenamed before final whole dir base)
      (do
        let _ ← ask (.remove dir temporary)
        pure (.error failure : Except Err Unit)) files trace := by
  rw [Leaves, traces_ask_bind]
  refine ⟨⟨rfl, beside.unrenamed fresh different quiet⟩, ?_⟩
  simp only [fileInterpreter, execute, beside.node_temporary]
  exact ⟨rfl, .of_same (beside.remove_same fresh) quiet.snoc _ _⟩

theorem abandon_leaves (quiet : Quiet trace) (cause : Err) :
    Leaves process (fun result final whole =>
      result = .error cause ∧ Unrenamed before final whole dir base)
      (abandon dir temporary cause) files trace := by
  rw [Leaves, abandon, traces_ask_bind]
  exact ⟨beside.remove_leaves fresh different process quiet.snoc cause,
    beside.remove_leaves fresh different process quiet.snoc cause⟩

/-- The rename puts the temporary file in the place of the target. -/
theorem rename_replaced (member : .renamed ∈ trace) :
    Replaced before ((files.setNode dir base (some (.regular file))).setNode dir
      temporary none) trace dir base file := by
  have directory := beside.directory.setNode base (some (.regular file))
  have nodes : ∀ otherDir other,
      ((files.setNode dir base (some (.regular file))).setNode dir temporary
        none).node otherDir other =
      if otherDir = dir ∧ other = base then some (.regular file)
      else before.node otherDir other := by
    intro otherDir other
    rw [FileSystem.node_setNode directory, FileSystem.node_setNode beside.directory, beside.nodes]
    by_cases atTarget : otherDir = dir ∧ other = base
    · have apart : ¬ (otherDir = dir ∧ other = temporary) := fun same =>
        different (atTarget.2.symm.trans same.2)
      rw [if_neg apart, if_pos atTarget, if_pos atTarget]
    · by_cases atTemporary : otherDir = dir ∧ other = temporary
      · rw [if_pos atTemporary, if_neg atTarget, atTemporary.1, atTemporary.2, fresh]
      · rw [if_neg atTemporary, if_neg atTarget, if_neg atTemporary, if_neg atTarget]
  refine ⟨member, directory.setNode _ _, ?_, fun otherDir other elsewhere => ?_⟩
  · rw [nodes, if_pos ⟨rfl, rfl⟩]
  · rw [nodes, if_neg elsewhere]

theorem install_leaves (quiet : Quiet trace) :
    Leaves process (fun result final whole =>
      (∃ failure, result = .error failure ∧ Unrenamed before final whole dir base) ∨
      Replaced before final whole dir base file)
      (install dir temporary base) files trace := by
  rw [Leaves, install, traces_ask_bind]
  constructor
  · apply (beside.remove_leaves fresh different process quiet.snoc _).mono
    exact fun result final whole left => .inl ⟨_, left⟩
  · simp only [fileInterpreter, execute, beside.node_temporary]
    rw [traces_ask_bind]
    have member : .renamed ∈ trace ++ [.renamed] ++ [.quiet] := by simp
    exact ⟨.inr (beside.rename_replaced fresh different member),
      .inr (beside.rename_replaced fresh different member)⟩

end Beside

theorem ne_tempName (base : GoString) (random : List UInt8) : base ≠ tempName base random := by
  intro same
  have lengths := congrArg List.length same
  have dot : (utf8 ".").length = 1 := by decide
  simp only [tempName, List.length_append, dot] at lengths
  omega

variable (random : List UInt8)

theorem writeAtomic_leaves
    {content : GoString} {mode : Mode} (directory : before.IsDirectory dir) (quiet : Quiet trace) :
    Leaves process (fun result final whole =>
      (∃ failure, result = .error failure ∧ Unrenamed before final whole dir base) ∨
      Replaced before final whole dir base ⟨content, mode, true⟩)
      (writeAtomic random dir base content mode) before trace := by
  have untouched : ∀ {trace : List FileEvent}, Quiet trace →
      Unrenamed before before trace dir base := fun quiet =>
    .of_same (fun _ _ => rfl) quiet _ _
  rw [Leaves, writeAtomic, traces_ask_bind]
  refine ⟨.inl ⟨_, rfl, untouched quiet.snoc⟩, ?_⟩
  simp only [fileInterpreter, execute]
  rw [traces_ask_bind]
  refine ⟨.inl ⟨_, rfl, untouched quiet.snoc.snoc⟩, ?_⟩
  obtain ⟨dirMode, nodes, place⟩ := directory
  have directory : before.IsDirectory dir := ⟨dirMode, nodes, place⟩
  simp only [execute, place]
  cases fresh : before.node dir (tempName base random) with
  | some node => exact .inl ⟨_, rfl, untouched quiet.snoc.snoc⟩
  | none =>
    have beside : Beside before dir (tempName base random) ⟨[], mode &&& ~~~process.umask, true⟩
        (before.setNode dir (tempName base random)
          (some (.regular ⟨[], mode &&& ~~~process.umask, true⟩))) :=
      ⟨directory.setNode _ _, FileSystem.node_setNode directory _⟩
    apply (fill_leaves process beside rfl quiet.snoc.snoc).bind
    rintro result reached sofar ⟨quiet, written, beside, complete⟩
    cases result with
    | error cause =>
      apply (beside.abandon_leaves fresh (ne_tempName base random) process quiet cause).mono
      exact fun result final whole left => .inl ⟨cause, left⟩
    | ok =>
      rw [complete rfl] at beside
      exact beside.install_leaves fresh (ne_tempName base random) process quiet

/-! ## Applying -/

/-- The target was found as it says, and was replaced by the merged file. -/
structure Overwritten (before files : FileSystem) (trace : List FileEvent)
    (dir base block : GoString) (opts : Options) (existing : Existing)
    (merged : GoString) : Prop where
  found : Found before dir base existing
  merges : merge existing.content block = .ok merged
  differs : existing.existed = true → existing.content ≠ merged
  written : opts.dryRun = false
  allowed : opts.allowEmpty = true ∨
    ¬ (blockKeyCount existing.content > 0 ∧ blockKeyCount block = 0)
  replaced : Replaced before files trace dir base
    ⟨merged, finalMode existing.mode existing.existed, true⟩

/-- What an application does to its target. -/
def Treated (before files : FileSystem) (trace : List FileEvent)
    (dir base block : GoString) (opts : Options) : Prop :=
  Unrenamed before files trace dir base ∨
    ∃ existing merged, Overwritten before files trace dir base block opts existing merged

theorem applyIn_leaves
    (report : Report) (directory : before.IsDirectory dir) (quiet : Quiet trace) :
    Leaves process (fun _ final whole =>
      Treated before final whole dir base block opts)
      (applyIn random block dir base opts report) before trace := by
  apply (readExisting_leaves process before dir base quiet).bind
  rintro result reached sofar ⟨rfl, quiet, read⟩
  have untouched : Treated reached reached sofar dir base block opts :=
    .inl (.of_same (fun _ _ => rfl) quiet _ _)
  cases result with
  | error failure => exact untouched
  | ok existing =>
    simp only
    cases merges : merge existing.content block with
    | error failure => exact untouched
    | ok merged =>
      simp only
      split
      · exact untouched
      rename_i allowed
      split
      · exact untouched
      rename_i changes
      apply (writeAtomic_leaves process random directory quiet).bind
      rintro written final whole outcome
      have treated : Treated reached final whole dir base block opts := by
        rcases outcome with ⟨failure, _, unrenamed⟩ | replaced
        · exact .inl unrenamed
        simp only [Bool.or_eq_true, Bool.not_eq_true',
          decide_eq_true_eq, not_or, Bool.not_eq_false, Bool.not_eq_true] at changes
        simp only [Bool.and_eq_true, Bool.not_eq_true', decide_eq_true_eq, not_and] at allowed
        refine .inr ⟨existing, merged, read existing rfl, merges, ?_, changes.1, ?_, replaced⟩
        · intro existed
          simpa [existed] using changes.2
        · cases permitted : opts.allowEmpty with
          | true => exact .inl rfl
          | false =>
            exact .inr fun empties =>
              allowed ⟨permitted, empties.1⟩ empties.2
      cases written with
      | error | ok => exact treated

theorem Treated.of_same {middle : FileSystem} (same : FileSystem.SameNodes before middle)
    (treated : Treated middle files trace dir base block opts) :
    Treated before files trace dir base block opts := by
  rcases treated with unrenamed | ⟨existing, merged, overwritten⟩
  · refine .inl ⟨unrenamed.renamed, ?_, ?_, ?_⟩
    · rw [unrenamed.target, same]
    · intro removed otherDir other
      rw [unrenamed.cleaned removed, same]
    · intro otherDir other present
      rw [unrenamed.kept otherDir other (by rwa [same]), same]
  · refine .inr ⟨existing, merged, ?_, overwritten.merges,
      overwritten.differs, overwritten.written, overwritten.allowed, ?_⟩
    · cases overwritten.found with
      | nothing absent => exact .nothing (by rw [← same, absent])
      | file present small => exact .file (by rw [← same, present]) small
    · obtain ⟨renamed, directory, target, kept⟩ := overwritten.replaced
      refine ⟨renamed, directory, target, fun otherDir other elsewhere => ?_⟩
      rw [kept otherDir other elsewhere, same]

theorem openAndApply_leaves {middle : FileSystem} (report : Report)
    (same : FileSystem.SameNodes before middle) (quiet : Quiet trace) :
    Leaves process (fun _ final whole =>
      Treated before final whole dir base block opts)
      (openAndApply random block dir base opts report) middle trace := by
  have untouched : Treated before middle (trace ++ [.quiet]) dir base block
      opts := .inl (.of_same same quiet.snoc _ _)
  rw [Leaves, openAndApply, traces_ask_bind]
  refine ⟨untouched, ?_⟩
  simp only [fileInterpreter, execute]
  cases place : middle dir with
  | missing | special => exact untouched
  | directory mode nodes =>
    apply (applyIn_leaves process random report ⟨mode, nodes, place⟩ quiet.snoc).mono
    exact fun _ _ _ treated => treated.of_same same

/-- Nothing happens to any file, or the target is treated. -/
theorem apply_leaves (ssh : Keys.SSH)
    (random : List UInt8) (pubkeys : List GoString) (opts : Options) (before : FileSystem) :
    Leaves process (fun _ final whole =>
      (FileSystem.SameNodes before final ∧ Quiet whole) ∨
      ∃ dir base block, target opts.path = some (dir, base) ∧ render ssh pubkeys = .ok block ∧
        Treated before final whole dir base block opts)
      (apply ssh random pubkeys opts) before [] := by
  have quiet : Quiet [] := by simp [Quiet]
  have same : FileSystem.SameNodes before before := fun _ _ => rfl
  unfold apply
  cases rendered : render ssh pubkeys with
  | error failure => exact .inl ⟨same, quiet⟩
  | ok block =>
    cases targeted : target opts.path with
    | none => exact .inl ⟨same, quiet⟩
    | some place =>
      obtain ⟨dir, base⟩ := place
      simp only
      split
      · rw [Leaves, traces_ask_bind]
        constructor
        · apply (openAndApply_leaves process random _ same quiet.snoc).mono
          exact fun _ _ _ treated => .inr ⟨dir, base, block, rfl, rfl, treated⟩
        · simp only [fileInterpreter, execute]
          cases before dir with
          | missing => exact .inl ⟨same, quiet.snoc⟩
          | special | directory =>
            apply (openAndApply_leaves process random _ same quiet.snoc).mono
            exact fun _ _ _ treated =>
              .inr ⟨dir, base, block, rfl, rfl, treated⟩
      · apply (ensureDir_leaves process before dir quiet).bind
        rintro result reached sofar ⟨same, quiet⟩
        cases result with
        | error failure => exact .inl ⟨same, quiet⟩
        | ok =>
          apply (openAndApply_leaves process random _ same quiet).mono
          exact fun _ _ _ treated =>
            .inr ⟨dir, base, block, rfl, rfl, treated⟩

/-! ## Runs -/

/-- One call of `Apply`, with the faults it meets. -/
structure Call where
  process : Process
  random : List UInt8
  pubkeys : List GoString
  opts : Options
  faults : List Bool
deriving DecidableEq, Repr

namespace Call

def run (ssh : Keys.SSH) (call : Call) (files : FileSystem) : Outcome × FileSystem :=
  (apply ssh call.random call.pubkeys call.opts).run
    (fileInterpreter call.process) call.faults files

def events (ssh : Keys.SSH) (call : Call) (files : FileSystem) : List FileEvent :=
  (apply ssh call.random call.pubkeys call.opts).events
    (fileInterpreter call.process) @event call.faults files

end Call

def applyAll (ssh : Keys.SSH) (calls : List Call) (files : FileSystem) : FileSystem :=
  calls.foldl (fun files call => (call.run ssh files).2) files

/-- The number of keys in the block of a file. -/
def keyCount (files : FileSystem) (dir base : GoString) : Nat :=
  match files.node dir base with
  | some (.regular file) => blockKeyCount file.content
  | _ => 0

variable {ssh : Keys.SSH}

theorem Call.treated (call : Call) (before : FileSystem) :
    (FileSystem.SameNodes before (call.run ssh before).2 ∧ Quiet (call.events ssh before)) ∨
    ∃ dir base block, target call.opts.path = some (dir, base) ∧
      render ssh call.pubkeys = .ok block ∧
      Treated before (call.run ssh before).2 (call.events ssh before) dir base block call.opts :=
  (apply_leaves call.process ssh call.random call.pubkeys call.opts before).run call.faults

theorem blockKeyCount_render (rendered : render ssh pubkeys = .ok block) :
    blockKeyCount block = pubkeys.length := by
  obtain ⟨entries, count, valid, rfl⟩ := render_ok rendered
  have alone := Frame.blockKeyCount_around ⟨[], [], by simp [Text.lines], by simp [Text.lines],
      by simp [Text.lines]⟩ valid
  rw [Frame.around, List.nil_append, List.append_nil] at alone
  rw [alone, count]

theorem blockKeyCount_merge {existing merged : GoString} (rendered : render ssh pubkeys = .ok block)
    (merges : merge existing block = .ok merged) : blockKeyCount merged = pubkeys.length := by
  obtain ⟨entries, count, valid, rfl⟩ := render_ok rendered
  obtain ⟨frame, framed⟩ := exists_frame (markers_of_merge merges)
  rw [framed] at merges
  cases merges
  rw [frame.blockKeyCount_around valid, count]

/-- One call never empties a block it may not empty, of whichever file. -/
theorem Call.keyCount_pos {call : Call} (strict : call.opts.allowEmpty = false)
    (filled : 0 < keyCount before dir base) : 0 < keyCount (call.run ssh before).2 dir base := by
  have present : before.node dir base ≠ none := by
    intro absent
    simp [keyCount, absent] at filled
  have unchanged : (call.run ssh before).2.node dir base =
      before.node dir base → 0 < keyCount (call.run ssh before).2 dir base := by
    intro same
    rwa [keyCount, same]
  rcases call.treated before with
    ⟨same, _⟩ | ⟨targetDir, targetBase, block, _, rendered, treated⟩
  · exact unchanged (same dir base)
  rcases treated with unrenamed | ⟨existing, merged, overwritten⟩
  · exact unchanged (unrenamed.kept dir base present)
  by_cases atTarget : dir = targetDir ∧ base = targetBase
  · obtain ⟨rfl, rfl⟩ := atTarget
    have was : blockKeyCount existing.content = keyCount before dir base := by
      cases overwritten.found with
      | nothing absent => exact absurd absent present
      | file stored small => simp [keyCount, stored]
    have allowed := overwritten.allowed.resolve_left (by simp [strict])
    rw [was, blockKeyCount_render rendered] at allowed
    rw [keyCount, overwritten.replaced.target]
    simp only [blockKeyCount_merge rendered overwritten.merges]
    exact Nat.pos_of_ne_zero fun none => allowed ⟨filled, none⟩
  · exact unchanged (overwritten.replaced.kept dir base atTarget)

/-- Without a rename every file is as before, but for a temporary file that
could not be removed.  With one, the target is the merged file, at a mode that
widens nothing.  And where emptying is not allowed, no sequence of calls ever
empties a block. -/
theorem apply_replaces_or_leaves : (∀ (call : Call) (before : FileSystem),
      (.renamed ∉ call.events ssh before →
        (∀ dir base, target call.opts.path = some (dir, base) →
          (call.run ssh before).2.node dir base = before.node dir base) ∧
        (.removeFailed ∉ call.events ssh before →
          FileSystem.SameNodes before (call.run ssh before).2)) ∧
      (.renamed ∈ call.events ssh before →
        ∃ dir base block existing merged mode, target call.opts.path = some (dir, base) ∧
          render ssh call.pubkeys = .ok block ∧
          Found before dir base existing ∧
          merge existing.content block = .ok merged ∧
          (call.run ssh before).2.node dir base = some (.regular ⟨merged, mode, true⟩) ∧
          mode &&& fileMode = mode ∧
          (existing.existed = true → mode &&& existing.mode = mode) ∧
          call.opts.dryRun = false ∧
          (existing.existed = true → existing.content ≠ merged) ∧
          (call.opts.allowEmpty = true ∨
            ¬ (blockKeyCount existing.content > 0 ∧ blockKeyCount block = 0)))) ∧
    ∀ (calls : List Call) (before : FileSystem) (dir base : GoString),
      (∀ call ∈ calls, call.opts.allowEmpty = false) →
      0 < keyCount before dir base →
      0 < keyCount (applyAll ssh calls before) dir base := by
  refine ⟨fun call before => ⟨fun unrenamed => ?_, fun renamed => ?_⟩, ?_⟩
  · rcases call.treated before with
      ⟨same, _⟩ | ⟨dir, base, block, targeted, _, treated⟩
    · exact ⟨fun dir base _ => same dir base, fun _ => same⟩
    rcases treated with left | ⟨_, _, overwritten⟩
    · refine ⟨fun otherDir other otherTargeted => ?_, left.cleaned⟩
      cases targeted.symm.trans otherTargeted
      exact left.target
    · exact absurd overwritten.replaced.renamed unrenamed
  · rcases call.treated before with
      ⟨_, quiet⟩ | ⟨dir, base, block, targeted, rendered, treated⟩
    · exact absurd renamed (quiet.not_mem (by decide))
    rcases treated with left | ⟨existing, merged, overwritten⟩
    · exact absurd renamed left.renamed
    refine ⟨dir, base, block, existing, merged, _, targeted, rendered,
      overwritten.found, overwritten.merges, overwritten.replaced.target,
      ?_, ?_, overwritten.written, overwritten.differs, overwritten.allowed⟩
    · unfold finalMode
      split
      · rw [BitVec.and_assoc, BitVec.and_self]
      · rw [BitVec.and_self]
    · intro existed
      rw [finalMode, if_pos existed, BitVec.and_comm (existing.mode &&& fileMode) existing.mode,
        ← BitVec.and_assoc, BitVec.and_self]
  · intro calls
    induction calls with
    | nil => exact fun before dir base _ filled => filled
    | cons call calls induction =>
      intro before dir base strict filled
      exact induction _ dir base
        (fun other member => strict other (List.mem_cons_of_mem call member))
        (Call.keyCount_pos (strict call List.mem_cons_self) filled)

end Vallet.ManagedBlock
