import Mathlib.Data.List.Basic

/-!
# Strings, times and errors

Go strings are byte sequences, so they are compared, cut and measured byte by
byte.  Times and durations are integers that count nanoseconds.  An error is what callers can
observe of it: the contexts it was wrapped in, outermost first, and the
sentinels `errors.Is` finds below them.
-/

namespace Vallet

abbrev GoString := List UInt8

instance : LawfulBEq GoString := inferInstance

/-- The bytes of a source literal. -/
def utf8 (text : String) : GoString := text.toByteArray.data.toList

/-- The characters of a string that is valid UTF-8. -/
def GoString.runes (text : GoString) : Option (List Char) :=
  (String.fromUTF8? ⟨text.toArray⟩).map String.toList

/-- An identifier as the text of a message. -/
def textOf (id : GoString) : String := String.ofList (id.runes.getD [])

/-- `strings.CutPrefix` when the text starts with the literal. -/
def GoString.cutPrefix? (text : GoString) (literal : GoString) : Option GoString :=
  if literal.isPrefixOf text then some (text.drop literal.length) else none

/-- `strings.Cut` around the first occurrence of a one-byte separator. -/
def GoString.cut? (text : GoString) (separator : UInt8) : Option (GoString × GoString) :=
  match text with
  | [] => none
  | first :: rest =>
    if first = separator then
      some ([], rest)
    else
      (GoString.cut? rest separator).map fun parts =>
        (first :: parts.1, parts.2)

theorem GoString.cutPrefix?_append (start rest : GoString) :
    GoString.cutPrefix? (start ++ rest) start = some rest := by
  simp [GoString.cutPrefix?]

theorem GoString.cut?_append {left : GoString} {separator : UInt8}
    (absent : separator ∉ left) (right : GoString) :
    GoString.cut? (left ++ separator :: right) separator = some (left, right) := by
  induction left with
  | nil => simp [GoString.cut?]
  | cons first rest induction =>
    have different : first ≠ separator := fun same =>
      absent (same ▸ List.mem_cons_self)
    have tail := induction fun member =>
      absent (List.mem_cons_of_mem first member)
    simp [GoString.cut?, different, tail]

theorem GoString.cutPrefix?_eq_some {text literal rest : GoString}
    (cut : text.cutPrefix? literal = some rest) : text = literal ++ rest := by
  unfold GoString.cutPrefix? at cut
  split at cut
  · rename_i starts
    obtain ⟨tail, rfl⟩ := List.isPrefixOf_iff_prefix.mp starts
    cases cut
    simp
  · cases cut

theorem GoString.cut?_eq_some {text : GoString} {separator : UInt8}
    {left right : GoString} (cut : text.cut? separator = some (left, right)) :
    text = left ++ separator :: right ∧ separator ∉ left := by
  induction text generalizing left with
  | nil => cases cut
  | cons first rest induction =>
    unfold GoString.cut? at cut
    split at cut
    · rename_i same
      cases cut
      exact ⟨by rw [same, List.nil_append], List.not_mem_nil⟩
    · rename_i different
      obtain ⟨⟨before, after⟩, found, same⟩ := Option.map_eq_some_iff.mp cut
      cases same
      obtain ⟨whole, absent⟩ := induction found
      refine ⟨by rw [whole, List.cons_append], fun member => ?_⟩
      rcases List.mem_cons.mp member with begins | later
      · exact different begins.symm
      · exact absent later

namespace Duration

def second : Int := 1000000000
def minute : Int := 60 * second
def hour : Int := 60 * minute

end Duration

/-- `Time.Unix`: whole seconds, rounded down. -/
def unixSeconds (time : Int) : Int := time / Duration.second

/-- `time.Unix(seconds, 0)`. -/
def ofUnixSeconds (seconds : Int) : Int := seconds * Duration.second

/-- Rounding to whole seconds never moves a time forward. -/
theorem ofUnixSeconds_unixSeconds_le (time : Int) : ofUnixSeconds (unixSeconds time) ≤ time :=
  Int.ediv_mul_le time (by decide)

/-- The errors `errors.Is` is asked about. -/
inductive Sentinel where
  | notFound
  | conflict
  | invalidInput
  | limitExceeded
  | defaultKeySet
  | blockedName
  | authFailed
  | forbidden
  | pollPending
  | invalidKey
  | storeUnavailable
  | contextDone
  | publishNotFound
  | immutable
  | foldStale
  | unauthorized
  | notPermitted
  | driver
deriving DecidableEq, Repr

/-- The text of the sentinel where the source fixes one; driver and context
errors bring their own. -/
def Sentinel.text : Sentinel → String
  | .notFound => "domain: not found"
  | .conflict => "domain: conflict"
  | .invalidInput => "domain: invalid input"
  | .limitExceeded => "domain: limit exceeded"
  | .defaultKeySet => "domain: default key set"
  | .blockedName => "domain: blocked name"
  | .authFailed => "auth: authentication failed"
  | .forbidden => "auth: not authorized"
  | .pollPending => "auth: pairing not yet approved"
  | .invalidKey => "counter: invalid key"
  | .storeUnavailable => "counter: store unavailable"
  | .contextDone => "context canceled"
  | .publishNotFound => "publish: not found"
  | .immutable => "domain: immutable"
  | .foldStale => "domain: fold table stale"
  | .unauthorized => "domain: unauthorized"
  | .notPermitted => "domain: forbidden"
  | .driver => "driver error"

structure Err where
  contexts : List String := []
  wraps : List Sentinel
deriving DecidableEq, Repr

namespace Err

def message (failure : Err) : String :=
  String.intercalate ": " (failure.contexts ++ failure.wraps.map Sentinel.text)

/-- `errors.Is`. -/
def is (failure : Err) (sentinel : Sentinel) : Bool :=
  decide (sentinel ∈ failure.wraps)

/-- `fmt.Errorf("context: %w", err)`. -/
def wrap (context : String) (failure : Err) : Err :=
  { failure with contexts := context :: failure.contexts }

def of (sentinel : Sentinel) : Err where
  wraps := [sentinel]

/-- `fmt.Errorf("context: %w", sentinel)`. -/
def errorf (context : String) (sentinel : Sentinel) : Err where
  contexts := [context]
  wraps := [sentinel]

@[simp] theorem is_of (sentinel asked : Sentinel) :
    (of sentinel).is asked = decide (asked = sentinel) := by
  simp [of, is]

@[simp] theorem is_errorf (context : String) (sentinel asked : Sentinel) :
    (errorf context sentinel).is asked = decide (asked = sentinel) := by
  simp [errorf, is]

def authFailed : Err := of .authFailed

end Err

end Vallet
