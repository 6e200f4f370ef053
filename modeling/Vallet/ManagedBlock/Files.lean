import Vallet.Foundation.Hoare
import Vallet.ManagedBlock.Block

/-!
# Installing the block in a file

The file system is what its primitives can observe of it: directories by name,
in each the nodes by name, and of a regular file the bytes, the permission
bits and whether it belongs to the calling user.  Every primitive may fault
without an effect; a write may also stop short.  The installation itself is a
temporary file beside the target, renamed over it.
-/

namespace Vallet.ManagedBlock

open Effects Program

/-- Permission bits. -/
abbrev Mode := BitVec 9

def fileMode : Mode := 0o600
def dirMode : Mode := 0o700

structure File where
  content : GoString
  mode : Mode
  /-- Whether the calling user owns it. -/
  owned : Bool
deriving DecidableEq, Repr

inductive Node where
  | regular (file : File)
  | special
deriving DecidableEq, Repr

inductive Place where
  | missing
  | special
  | directory (mode : Mode) (nodes : GoString → Option Node)

/-- What stands at each directory name. -/
abbrev FileSystem := GoString → Place

namespace FileSystem

def node (files : FileSystem) (dir name : GoString) : Option Node :=
  match files dir with
  | .directory _ nodes => nodes name
  | _ => none

def setPlace (files : FileSystem) (dir : GoString) (place : Place) : FileSystem :=
  fun other => if other = dir then place else files other

def setNode (files : FileSystem) (dir name : GoString) (node : Option Node) : FileSystem :=
  match files dir with
  | .directory mode nodes =>
    files.setPlace dir (.directory mode fun other =>
      if other = name then node else nodes other)
  | _ => files

end FileSystem

/-- The calling process: its rights, its umask, and how many bytes a write
stores if it stops short. -/
structure Process where
  superuser : Bool
  sharesGroup : Bool
  umask : Mode
  shortWrite : Option Nat
deriving DecidableEq, Repr

def Process.mayRead (process : Process) (file : File) : Bool :=
  process.superuser ||
    (if file.owned then file.mode.getLsbD 8
      else if process.sharesGroup then file.mode.getLsbD 5
      else file.mode.getLsbD 2)

inductive FileCall : Type → Type where
  | stat (dir : GoString) : FileCall Bool
  | mkdirAll (dir : GoString) (mode : Mode) : FileCall Bool
  | chmodPath (dir : GoString) (mode : Mode) : FileCall Bool
  | openRoot (dir : GoString) : FileCall Bool
  | lstat (dir name : GoString) : FileCall (Option Node)
  | openRead (dir name : GoString) : FileCall Bool
  | readAll (dir name : GoString) (limit : Nat) : FileCall GoString
  | randRead : FileCall Unit
  | createExclusive (dir name : GoString) (mode : Mode) : FileCall Bool
  | chmodFile (dir name : GoString) (mode : Mode) : FileCall Unit
  | write (dir name : GoString) (content : GoString) : FileCall Bool
  | sync (dir name : GoString) : FileCall Unit
  | close (dir name : GoString) : FileCall Unit
  | rename (dir old new : GoString) : FileCall Bool
  | remove (dir name : GoString) : FileCall Bool
  | syncDir (dir : GoString) : FileCall Unit

/-- The file that is being written. -/
def FileSystem.modify (files : FileSystem) (dir name : GoString)
    (change : File → File) : FileSystem :=
  match files.node dir name with
  | some (.regular file) => files.setNode dir name (some (.regular (change file)))
  | _ => files

def FileCall.execute (process : Process) : {β : Type} → FileCall β → FileSystem → β × FileSystem
  | _, .stat dir, files => (match files dir with | .missing => false | _ => true, files)
  | _, .mkdirAll dir mode, files =>
    match files dir with
    | .missing => (true, files.setPlace dir (.directory (mode &&& ~~~process.umask) fun _ => none))
    | .directory _ _ => (true, files)
    | .special => (false, files)
  | _, .chmodPath dir mode, files =>
    match files dir with
    | .directory _ nodes => (true, files.setPlace dir (.directory mode nodes))
    | _ => (false, files)
  | _, .openRoot dir, files => (match files dir with | .directory _ _ => true | _ => false, files)
  | _, .lstat dir name, files => (files.node dir name, files)
  | _, .openRead dir name, files =>
    (match files.node dir name with
      | some (.regular file) => process.mayRead file
      | _ => false, files)
  | _, .readAll dir name limit, files =>
    (match files.node dir name with
      | some (.regular file) => file.content.take limit
      | _ => [], files)
  | _, .randRead, files => ((), files)
  | _, .createExclusive dir name mode, files =>
    match files dir, files.node dir name with
    | .directory _ _, none =>
      (true, files.setNode dir name (some (.regular ⟨[], mode &&& ~~~process.umask, true⟩)))
    | _, _ => (false, files)
  | _, .chmodFile dir name mode, files => ((), files.modify dir name fun file => { file with mode })
  | _, .write dir name content, files =>
    match process.shortWrite with
    | none => (true, files.modify dir name fun file => { file with content })
    | some count =>
      (false, files.modify dir name fun file =>
        { file with content := content.take count })
  | _, .sync _ _, files => ((), files)
  | _, .close _ _, files => ((), files)
  | _, .rename dir old new, files =>
    match files.node dir old with
    | some node => (true, (files.setNode dir new (some node)).setNode dir old none)
    | none => (false, files)
  | _, .remove dir name, files =>
    match files.node dir name with
    | some _ => (true, files.setNode dir name none)
    | none => (false, files)
  | _, .syncDir _, files => ((), files)

def fileInterpreter (process : Process) : Interpreter FileCall FileSystem where
  execute := FileCall.execute process

/-! ## Paths -/

/-- One component of `filepath.Clean`; the components kept so far are in
reverse order. -/
def cleanStep (rooted : Bool) (kept : List GoString) (part : GoString) : List GoString :=
  if part = [] ∨ part = utf8 "." then kept
  else if part = utf8 ".." then
    match kept with
    | last :: others => if last = utf8 ".." then part :: kept else others
    | [] => if rooted then [] else [part]
  else part :: kept

/-- `filepath.Clean`. -/
def cleanPath (path : GoString) : GoString :=
  let rooted := path.head? = some 47
  let body := List.intercalate [47] ((path.splitOn 47).foldl (cleanStep rooted) []).reverse
  if rooted then 47 :: body else if body = [] then utf8 "." else body

/-- `filepath.Split`. -/
def splitPath (path : GoString) : GoString × GoString :=
  let base := (path.reverse.takeWhile fun byte => byte ≠ 47).reverse
  (path.take (path.length - base.length), base)

/-! ## Apply -/

structure Options where
  path : GoString
  dryRun : Bool
  allowEmpty : Bool
deriving DecidableEq, Repr

structure Report where
  path : GoString := []
  existed : Bool := false
  changed : Bool := false
  mode : Mode := 0
  size : Nat := 0
deriving DecidableEq, Repr

def errNotRegularFile : Err := plainError
  "managedblock: target is not a regular file; refusing to replace it"

def errTooLarge : Err := plainError "managedblock: existing file exceeds the maximum permitted size"

def errBadPath : Err := plainError "managedblock: target path must name a file"

def errWouldEmpty (count : Nat) : Err := plainError
  (s!"managedblock: refusing to empty the managed block (was {count} keys, " ++
    "now 0); re-run with --allow-empty to apply this revocation")

/-- An error of the operating system in its context. -/
def osError (context : String) : Err := .errorf context .driver

/-- The file as found: its bytes, its permission bits, and whether there was
one. -/
structure Existing where
  content : GoString
  mode : Mode
  existed : Bool
deriving DecidableEq, Repr

def finalMode (mode : Mode) (existed : Bool) : Mode :=
  if existed then mode &&& fileMode else fileMode

/-- `"." + base + "." + hex + ".tmp"`. -/
def tempName (base : GoString) (random : List UInt8) : GoString :=
  utf8 "." ++ base ++ utf8 "." ++ random.flatMap hexByte ++ utf8 ".tmp"
where
  hexDigit (value : UInt8) : UInt8 := if value < 10 then 48 + value else 87 + value
  hexByte (byte : UInt8) : List UInt8 := [hexDigit (byte / 16), hexDigit (byte % 16)]

def ensureDir (dir : GoString) : Program FileCall (Except Err Unit) := do
  match ← ask (.stat dir) with
  | .ok true => pure (.ok ())
  | .error _ => pure (.error (osError "managedblock: stat directory"))
  | .ok false =>
    match ← ask (.mkdirAll dir dirMode) with
    | .ok true =>
      match ← ask (.chmodPath dir dirMode) with
      | .ok true => pure (.ok ())
      | _ => pure (.error (osError "managedblock: set directory mode"))
    | _ => pure (.error (osError "managedblock: create directory"))

def readExisting (dir base : GoString) : Program FileCall (Except Err Existing) := do
  match ← ask (.lstat dir base) with
  | .error _ => pure (.error (osError "managedblock: stat target"))
  | .ok none => pure (.ok ⟨[], 0, false⟩)
  | .ok (some .special) => pure (.error errNotRegularFile)
  | .ok (some (.regular file)) =>
    match ← ask (.openRead dir base) with
    | .ok true =>
      match ← ask (.readAll dir base (maxFileBytes + 1)) with
      | .error _ => pure (.error (osError "managedblock: read target"))
      | .ok content =>
        if content.length > maxFileBytes then pure (.error errTooLarge)
        else pure (.ok ⟨content, file.mode, true⟩)
    | _ => pure (.error (osError "managedblock: open target"))

/-- Close and remove the temporary file; both may fail unnoticed. -/
def abandon (dir temporary : GoString) (cause : Err) : Program FileCall (Except Err Unit) := do
  let _ ← ask (.close dir temporary)
  let _ ← ask (.remove dir temporary)
  pure (.error cause)

/-- Give the temporary file its mode and its bytes. -/
def fill (dir temporary content : GoString) (mode : Mode) : Program FileCall (Except Err Unit) := do
  match ← ask (.chmodFile dir temporary mode) with
  | .error _ => pure (.error (osError "managedblock: set temp file mode"))
  | .ok () =>
    match ← ask (.write dir temporary content) with
    | .ok true =>
      match ← ask (.sync dir temporary) with
      | .error _ => pure (.error (osError "managedblock: sync temp file"))
      | .ok () =>
        match ← ask (.close dir temporary) with
        | .error _ => pure (.error (osError "managedblock: close temp file"))
        | .ok () => pure (.ok ())
    | _ => pure (.error (osError "managedblock: write temp file"))

/-- Put the temporary file in the place of the target. -/
def install (dir temporary base : GoString) : Program FileCall (Except Err Unit) := do
  match ← ask (.rename dir temporary base) with
  | .ok true =>
    match ← ask (.syncDir dir) with
    | .ok () => pure (.ok ())
    | .error _ => pure (.error (osError "managedblock: sync directory"))
  | _ =>
    let _ ← ask (.remove dir temporary)
    pure (.error (osError "managedblock: rename temp file"))

def writeAtomic (random : List UInt8) (dir base content : GoString)
    (mode : Mode) : Program FileCall (Except Err Unit) := do
  match ← ask .randRead with
  | .error _ => pure (.error (osError "managedblock: generate temp name"))
  | .ok () =>
    let temporary := tempName base random
    match ← ask (.createExclusive dir temporary mode) with
    | .ok true =>
      match ← fill dir temporary content mode with
      | .error cause => abandon dir temporary cause
      | .ok () => install dir temporary base
    | _ => pure (.error (osError "managedblock: create temp file"))

/-- What `Apply` returns: its report, and the error if there is one. -/
abbrev Outcome := Report × Option Err

/-- `Apply` from the open directory on. -/
def applyIn (random : List UInt8) (block dir base : GoString) (opts : Options)
    (report : Report) : Program FileCall Outcome := do
  match ← readExisting dir base with
  | .error failure => pure (report, some failure)
  | .ok existing =>
    let report := { report with
      existed := existing.existed
      mode := finalMode existing.mode existing.existed }
    match merge existing.content block with
    | .error failure => pure (report, some failure)
    | .ok merged =>
      let report := { report with
        size := merged.length
        changed := !existing.existed || decide (existing.content ≠ merged) }
      if !opts.allowEmpty && decide (blockKeyCount existing.content > 0) &&
          decide (blockKeyCount block = 0) then
        pure (report, some (errWouldEmpty (blockKeyCount existing.content)))
      else if opts.dryRun || !report.changed then pure (report, none)
      else
        match ← writeAtomic random dir base merged report.mode with
        | .error failure => pure (report, some failure)
        | .ok () => pure (report, none)

/-- `Apply` after the directory was made sure of. -/
def openAndApply (random : List UInt8) (block dir base : GoString)
    (opts : Options) (report : Report) : Program FileCall Outcome := do
  match ← ask (.openRoot dir) with
  | .ok true => applyIn random block dir base opts report
  | _ => pure (report, some (osError "managedblock: open directory"))

/-- The directory and the name of the target, if the path names a file. -/
def target (path : GoString) : Option (GoString × GoString) :=
  let parts := splitPath (cleanPath path)
  if parts.2 = [] ∨ parts.2 = utf8 "." ∨ parts.2 = utf8 ".." then none
  else some (if parts.1 = [] then utf8 "." else parts.1, parts.2)

def apply (ssh : Keys.SSH) (random : List UInt8) (pubkeys : List GoString)
    (opts : Options) : Program FileCall Outcome :=
  match render ssh pubkeys with
  | .error failure => pure ({}, some failure)
  | .ok block =>
    match target opts.path with
    | none => pure ({}, some errBadPath)
    | some (dir, base) =>
      let report : Report := { path := cleanPath opts.path }
      if opts.dryRun then do
        match ← ask (.stat dir) with
        | .ok false => pure ({ report with
            mode := fileMode
            size := block.length
            changed := true }, none)
        | _ => openAndApply random block dir base opts report
      else do
        match ← ensureDir dir with
        | .error failure => pure (report, some failure)
        | .ok () => openAndApply random block dir base opts report

end Vallet.ManagedBlock
