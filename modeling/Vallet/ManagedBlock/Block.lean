import Mathlib.Data.List.TakeWhile
import Vallet.Keys.Canonical

/-!
# The managed block of an authorized_keys file

The block is the range from a BEGIN line to an END line.  It is found by
counting whole-line markers, and replaced by splicing bytes.  What a file is
outside its block, its frame, is all that a merge depends on: merging a second
block gives the same file as if the first had never been there.
-/

namespace Vallet.ManagedBlock

open Text (Span slice tile lines Terminated)

def beginMarker : GoString :=
  utf8 "# >>> sshpilot-vallet managed keys BEGIN >>>"

def endMarker : GoString :=
  utf8 "# <<< sshpilot-vallet managed keys END <<<"

def maxFileBytes : Nat := Keys.maxFileBytes

/-- An error that wraps nothing. -/
def plainError (text : String) : Err where
  contexts := [text]
  wraps := []

def errMalformedBlock : Err := plainError
  "managedblock: ambiguous BEGIN/END markers; refusing to modify the file"

/-- `strings.TrimSuffix` of one byte. -/
def trimSuffix (line : GoString) (byte : UInt8) : GoString :=
  if line.getLast? = some byte then line.dropLast else line

/-- `strings.Trim(line, " \t")`. -/
def trimBlanks (line : GoString) : GoString :=
  ((line.dropWhile fun byte => byte = 32 || byte = 9).reverse.dropWhile
    fun byte => byte = 32 || byte = 9).reverse

/-- A line without its end and the blanks around it. -/
def lineContent (line : GoString) : GoString :=
  trimBlanks (trimSuffix (trimSuffix line 10) 13)

def isMarker (line marker : GoString) : Bool := lineContent line = marker

def lineSpans (text : GoString) : List Span := tile 0 (lines 10 text)

def checkEmitted (line : GoString) : Except Err Unit :=
  if line.getLast? ≠ some 10 ∨
      line.dropLast.any (fun byte => byte = 10 || byte = 13 || byte = 0) then
    .error errMalformedBlock
  else if isMarker line beginMarker || isMarker line endMarker then
    .error errMalformedBlock
  else .ok ()

/-- One entry of the key set, as it is written into the block. -/
def emit (ssh : Keys.SSH) (raw : GoString) : Except Err GoString :=
  match Keys.parse ssh raw with
  | .error failure => .error failure
  | .ok key =>
    match Keys.authorizedKeyLine ssh key with
    | .error failure => .error failure
    | .ok line =>
      match checkEmitted line with
      | .error failure => .error failure
      | .ok () => .ok line

/-- The entries in turn; an error names the position of its entry. -/
def emitFrom (ssh : Keys.SSH) : Nat → List GoString → Except Err GoString
  | _, [] => .ok []
  | index, raw :: others =>
    match emit ssh raw with
    | .error failure => .error (failure.wrap s!"managedblock: key {index + 1}")
    | .ok line =>
      match emitFrom ssh (index + 1) others with
      | .error failure => .error failure
      | .ok following => .ok (line ++ following)

def render (ssh : Keys.SSH) (pubkeys : List GoString) : Except Err GoString :=
  match emitFrom ssh 0 pubkeys with
  | .error failure => .error failure
  | .ok body => .ok (beginMarker ++ 10 :: (body ++ (endMarker ++ [10])))

/-- The range of the block, if there is one. -/
def locate (existing : GoString) : Except Err (Option Span) :=
  let begins := (lineSpans existing).filter fun span =>
    isMarker (slice existing span) beginMarker
  let ends := (lineSpans existing).filter fun span =>
    !isMarker (slice existing span) beginMarker && isMarker (slice existing span) endMarker
  match begins, ends with
  | [], [] => .ok none
  | [opening], [closing] =>
    if closing.start > opening.start then
      .ok (some ⟨opening.start, closing.stop⟩)
    else .error errMalformedBlock
  | _, _ => .error errMalformedBlock

def blockKeyCount (text : GoString) : Nat :=
  match locate text with
  | .error _ => 0
  | .ok none => 0
  | .ok (some span) =>
    let inner := slice text span
    ((lineSpans inner).filter fun span =>
      let line := slice inner span
      !(isMarker line beginMarker || isMarker line endMarker) &&
        decide (lineContent line ≠ [])).length

/-- The newline that is written in front of a first block. -/
def separator (existing : GoString) : GoString :=
  if existing.length > 0 ∧ existing.getLast? ≠ some 10 then [10] else []

def merge (existing block : GoString) : Except Err GoString :=
  match locate existing with
  | .error failure => .error failure
  | .ok (some span) => .ok (existing.take span.start ++ (block ++ existing.drop span.stop))
  | .ok none => .ok (existing ++ separator existing ++ block)

/-! ## Markers -/

inductive Marker where
  | opening
  | closing
deriving DecidableEq, Repr

def markerOf (line : GoString) : Option Marker :=
  if isMarker line beginMarker then some .opening
  else if isMarker line endMarker then some .closing
  else none

/-- The whole-line markers of a text in order. -/
def markers (text : GoString) : List Marker :=
  (lines 10 text).filterMap markerOf

variable {line existing : GoString} {marker : Marker}
  {rows pubkeys : List GoString} {byte : UInt8} {ssh : Keys.SSH}

theorem markerOf_eq_opening : markerOf line = some .opening ↔ isMarker line beginMarker := by
  unfold markerOf
  split
  · simp_all
  · split <;> simp_all

theorem markerOf_eq_closing : markerOf line = some .closing ↔
      !isMarker line beginMarker && isMarker line endMarker := by
  unfold markerOf
  split
  · simp_all
  · split <;> simp_all

theorem markerOf_eq_none : markerOf line = none ↔
      isMarker line beginMarker = false ∧ isMarker line endMarker = false := by
  unfold markerOf
  split
  · simp_all
  · split <;> simp_all

/-- The spans of the lines that are a given marker. -/
def spansOf (marker : Marker) (start : Nat) (rows : List GoString) : List Span :=
  Text.tileOf (fun line => markerOf line = some marker) start rows

theorem spansOf_eq_nil {start : Nat} : spansOf marker start rows = [] ↔
      ∀ line ∈ rows, markerOf line ≠ some marker := by
  rw [spansOf, Text.tileOf_eq_nil]
  simp

theorem filter_lineSpans (text : GoString) (property : GoString → Bool) :
    (lineSpans text).filter (fun span => property (slice text span)) =
      Text.tileOf property 0 (lines 10 text) := by
  have chosen := Text.filter_tile property [] (lines 10 text)
  rw [Text.flatten_lines] at chosen
  exact chosen

/-- The scan of the source, by the two lists of marker lines it collects. -/
theorem locate_eq (existing : GoString) : locate existing =
      match spansOf .opening 0 (lines 10 existing),
        spansOf .closing 0 (lines 10 existing) with
      | [], [] => .ok none
      | [opening], [closing] =>
        if closing.start > opening.start then
          .ok (some ⟨opening.start, closing.stop⟩)
        else .error errMalformedBlock
      | _, _ => .error errMalformedBlock := by
  have openings : (fun line : GoString => isMarker line beginMarker) =
      fun line => decide (markerOf line = some .opening) := by
    funext line
    rw [Bool.eq_iff_iff, decide_eq_true_iff, markerOf_eq_opening]
  have closings : (fun line : GoString =>
      !isMarker line beginMarker && isMarker line endMarker) =
      fun line => decide (markerOf line = some .closing) := by
    funext line
    rw [Bool.eq_iff_iff, decide_eq_true_iff, markerOf_eq_closing]
  have begins := filter_lineSpans existing
    fun line => isMarker line beginMarker
  have ends := filter_lineSpans existing fun line =>
    !isMarker line beginMarker && isMarker line endMarker
  rw [openings] at begins
  rw [closings] at ends
  simp only [locate, spansOf, ← begins, ← ends]

theorem locate_of_markers_nil (unmarked : markers existing = []) : locate existing = .ok none := by
  have none := List.filterMap_eq_nil_iff.mp unmarked
  have absent : ∀ marker, spansOf marker 0 (lines 10 existing) = [] := by
    intro marker
    rw [spansOf_eq_nil]
    intro line member found
    rw [none line member] at found
    cases found
  rw [locate_eq, absent, absent]

theorem spansOf_append (marker : Marker) (start : Nat) (left right : List GoString) :
    spansOf marker start (left ++ right) = spansOf marker start left ++
      spansOf marker (start + left.flatten.length) right :=
  Text.tileOf_append _ _ _ _

theorem spansOf_cons (marker : Marker) (start : Nat) (line : GoString) (rows : List GoString) :
    spansOf marker start (line :: rows) =
      if markerOf line = some marker then
        ⟨start, start + line.length⟩ :: spansOf marker (start + line.length) rows
      else spansOf marker (start + line.length) rows := by
  simp only [spansOf, Text.tileOf, decide_eq_true_eq]

theorem spansOf_unmarked {start : Nat} (unmarked : ∀ line ∈ rows, markerOf line = none) :
    spansOf marker start rows = [] := by
  rw [spansOf_eq_nil]
  intro line member found
  rw [unmarked line member] at found
  cases found

/-- The lines of a file with one block: what is before it, the BEGIN line,
what is inside, the END line, and what is after it. -/
structure Layout (existing : GoString) where
  before : List GoString
  opening : GoString
  inner : List GoString
  closing : GoString
  after : List GoString
  tiled : lines 10 existing = before ++ (opening :: (inner ++ closing :: after))
  opens : markerOf opening = some .opening
  closes : markerOf closing = some .closing
  unmarkedBefore : ∀ line ∈ before, markerOf line = none
  unmarkedInner : ∀ line ∈ inner, markerOf line = none
  unmarkedAfter : ∀ line ∈ after, markerOf line = none

/-- A BEGIN line and then an END line lay the file out. -/
theorem exists_layout (paired : markers existing = [.opening, .closing]) :
    Nonempty (Layout existing) := by
  obtain ⟨before, opening, following, tiled, unmarkedBefore, opens, others⟩ :=
    List.filterMap_eq_cons_iff.mp paired
  obtain ⟨inner, closing, after, rest, unmarkedInner, closes, none⟩ :=
    List.filterMap_eq_cons_iff.mp others
  exact ⟨⟨before, opening, inner, closing, after, by rw [tiled, rest], opens,
    closes, unmarkedBefore, unmarkedInner, List.filterMap_eq_nil_iff.mp none⟩⟩

namespace Layout

variable {existing : GoString}

def block (layout : Layout existing) : List GoString :=
  layout.opening :: (layout.inner ++ [layout.closing])

variable (layout : Layout existing)

include layout

theorem tiled_block : lines 10 existing = layout.before ++ (layout.block ++ layout.after) := by
  rw [layout.tiled]
  simp [block]

theorem eq_flatten : existing = layout.before.flatten ++
      (layout.block.flatten ++ layout.after.flatten) := by
  have whole := Text.flatten_lines 10 existing
  rw [layout.tiled_block] at whole
  simpa using whole.symm

theorem markers_eq : markers existing = [.opening, .closing] := by
  have before := List.filterMap_eq_nil_iff.mpr layout.unmarkedBefore
  have inner := List.filterMap_eq_nil_iff.mpr layout.unmarkedInner
  have after := List.filterMap_eq_nil_iff.mpr layout.unmarkedAfter
  rw [markers, layout.tiled, List.filterMap_append, before,
    List.filterMap_cons_some layout.opens, List.filterMap_append, inner,
    List.filterMap_cons_some layout.closes, after]
  rfl

theorem locate_ok : locate existing = .ok (some ⟨layout.before.flatten.length,
      layout.before.flatten.length + layout.block.flatten.length⟩) := by
  have openingOther : markerOf layout.opening ≠ some .closing := by
    rw [layout.opens]
    decide
  have closingOther : markerOf layout.closing ≠ some .opening := by
    rw [layout.closes]
    decide
  have openings : spansOf .opening 0 (lines 10 existing) =
      [⟨layout.before.flatten.length,
        layout.before.flatten.length + layout.opening.length⟩] := by
    rw [layout.tiled, spansOf_append, spansOf_unmarked layout.unmarkedBefore,
      spansOf_cons, if_pos layout.opens, spansOf_append,
      spansOf_unmarked layout.unmarkedInner, spansOf_cons,
      if_neg closingOther, spansOf_unmarked layout.unmarkedAfter]
    simp
  have closings : spansOf .closing 0 (lines 10 existing) =
      [⟨layout.before.flatten.length + layout.opening.length +
          layout.inner.flatten.length, layout.before.flatten.length + layout.opening.length +
          layout.inner.flatten.length + layout.closing.length⟩] := by
    rw [layout.tiled, spansOf_append, spansOf_unmarked layout.unmarkedBefore,
      spansOf_cons, if_neg openingOther, spansOf_append,
      spansOf_unmarked layout.unmarkedInner, spansOf_cons,
      if_pos layout.closes, spansOf_unmarked layout.unmarkedAfter]
    simp
  have filled : 0 < layout.opening.length := by
    rw [List.length_pos_iff]
    intro empty
    have opens := layout.opens
    rw [empty] at opens
    exact absurd opens (by decide)
  rw [locate_eq, openings, closings]
  simp only
  rw [if_pos (by omega)]
  simp [block]
  omega

end Layout

theorem markerOf_eq_none_of_ne (notOpening : markerOf line ≠ some .opening)
    (notClosing : markerOf line ≠ some .closing) : markerOf line = none := by
  cases marked : markerOf line with
  | none => rfl
  | some marker =>
    cases marker with
    | opening => exact absurd marked notOpening
    | closing => exact absurd marked notClosing

/-- A scan that finds no fault has seen no marker, or the two of a block. -/
theorem markers_of_locate {found : Option Span} (located : locate existing = .ok found) :
    markers existing = [] ∨ markers existing = [.opening, .closing] := by
  rw [locate_eq] at located
  split at located
  · rename_i openings closings
    left
    apply List.filterMap_eq_nil_iff.mpr
    intro line member
    exact markerOf_eq_none_of_ne (spansOf_eq_nil.mp openings line member)
      (spansOf_eq_nil.mp closings line member)
  · rename_i opened closed openings closings
    split at located
    · rename_i ordered
      obtain ⟨before, opening, following, tiled, opens, firstBefore,
        firstAfter, place⟩ := Text.tileOf_eq_singleton openings
      have openingOther : markerOf opening ≠ some .closing := by
        rw [of_decide_eq_true opens]
        decide
      rw [tiled, spansOf_append, spansOf_cons, if_neg openingOther] at closings
      rcases List.append_eq_singleton_iff.mp closings with
        ⟨noneBefore, oneAfter⟩ | ⟨oneBefore, noneAfter⟩
      · obtain ⟨inner, closing, after, rfl, closes, secondBefore,
          secondAfter, _⟩ := Text.tileOf_eq_singleton oneAfter
        have notOpening : ∀ line ∈ inner ++ closing :: after,
            markerOf line ≠ some .opening := fun line member found =>
          firstAfter line member (decide_eq_true found)
        refine .inr (Layout.markers_eq ⟨before, opening, inner, closing, after,
          tiled, of_decide_eq_true opens, of_decide_eq_true closes, ?_, ?_, ?_⟩)
        · intro line member
          exact markerOf_eq_none_of_ne (fun found => firstBefore line member (decide_eq_true found))
            (spansOf_eq_nil.mp noneBefore line member)
        · intro line member
          exact markerOf_eq_none_of_ne (notOpening line (List.mem_append_left _ member))
            (fun found => secondBefore line member (decide_eq_true found))
        · intro line member
          exact markerOf_eq_none_of_ne (notOpening line
              (List.mem_append_right _ (List.mem_cons_of_mem closing member)))
            (fun found => secondAfter line member (decide_eq_true found))
      · obtain ⟨left, closing, right, rfl, _, _, _, closePlace⟩ :=
          Text.tileOf_eq_singleton oneBefore
        rw [place, closePlace] at ordered
        simp at ordered
    · cases located
  · cases located

/-! ## Rendered blocks -/

/-- A line that may stand inside a block. -/
structure Entry (line : GoString) : Prop where
  terminated : Terminated 10 line
  unmarked : markerOf line = none
  filled : lineContent line ≠ []

def beginLine : GoString := beginMarker ++ [10]
def endLine : GoString := endMarker ++ [10]

def blockLines (entries : List GoString) : List GoString :=
  beginLine :: (entries ++ [endLine])

theorem mem_trimSuffix {removed : UInt8} (member : byte ∈ line) (different : byte ≠ removed) :
    byte ∈ trimSuffix line removed := by
  unfold trimSuffix
  split
  · rename_i last
    obtain ⟨start, rfl⟩ := List.getLast?_eq_some_iff.mp last
    rw [List.dropLast_concat]
    exact (List.mem_append.mp member).resolve_right
      fun same => different (List.mem_singleton.mp same)
  · exact member

theorem mem_dropWhile {drop : UInt8 → Bool} (member : byte ∈ line) (kept : drop byte = false) :
    byte ∈ line.dropWhile drop := by
  have whole := List.takeWhile_append_dropWhile (p := drop) (l := line)
  rw [← whole] at member
  refine (List.mem_append.mp member).resolve_left fun taken => ?_
  rw [List.mem_takeWhile_imp taken] at kept
  cases kept

theorem mem_lineContent (member : byte ∈ line) (visible : 32 < byte) : byte ∈ lineContent line := by
  have different : ∀ other : UInt8, other ≤ 32 → byte ≠ other := by
    rintro other small rfl
    exact absurd visible (UInt8.not_lt.mpr small)
  have kept : (byte = 32 || byte = 9 : Bool) = false := by
    simp [different 32 (by decide), different 9 (by decide)]
  unfold lineContent trimBlanks
  apply List.mem_reverse.mpr
  apply mem_dropWhile _ kept
  apply List.mem_reverse.mpr
  apply mem_dropWhile _ kept
  apply mem_trimSuffix _ (different 13 (by decide))
  exact mem_trimSuffix member (different 10 (by decide))

theorem authorizedKeyLine_shape {key : Keys.ParsedKey}
    (emitted : Keys.authorizedKeyLine ssh key = .ok line) :
    ∃ rest, line = key.algorithm.text ++ rest := by
  unfold Keys.authorizedKeyLine Keys.authorizedKeyLineFrom at emitted
  rw [Keys.Algorithm.ofText?_text] at emitted
  simp only at emitted
  split at emitted
  · cases emitted
  split at emitted
  · cases emitted
  split at emitted
  · cases emitted
  split at emitted
  · cases emitted
  split at emitted
  · cases emitted
  · cases emitted
    exact ⟨_, by rw [Keys.lineText, List.append_assoc]⟩

theorem checkEmitted_ok (checked : checkEmitted line = .ok ()) :
    Terminated 10 line ∧ markerOf line = none := by
  unfold checkEmitted at checked
  split at checked
  · cases checked
  rename_i single
  split at checked
  · cases checked
  rename_i unmarked
  rw [not_or, not_not] at single
  obtain ⟨start, rfl⟩ := List.getLast?_eq_some_iff.mp single.1
  refine ⟨⟨start, ?_, rfl⟩, ?_⟩
  · intro member
    apply single.2
    rw [List.dropLast_concat]
    exact List.any_eq_true.mpr ⟨10, member, by decide⟩
  · rw [markerOf_eq_none]
    simpa using unmarked

theorem emit_ok {raw : GoString} (emitted : emit ssh raw = .ok line) : Entry line := by
  unfold emit at emitted
  split at emitted
  · cases emitted
  rename_i key _
  split at emitted
  · cases emitted
  rename_i canonical shaped
  split at emitted
  · cases emitted
  rename_i checked
  cases emitted
  obtain ⟨terminated, unmarked⟩ := checkEmitted_ok checked
  refine ⟨terminated, unmarked, ?_⟩
  obtain ⟨rest, rfl⟩ := authorizedKeyLine_shape shaped
  obtain ⟨first, others, text, letter⟩ := key.algorithm.text_cons
  have visible : 32 < first := by
    rcases letter with rfl | rfl <;> decide
  apply List.ne_nil_of_mem (a := first)
  apply mem_lineContent _ visible
  rw [text]
  exact List.mem_append_left _ List.mem_cons_self

theorem emitFrom_ok {index : Nat} {body : GoString}
    (emitted : emitFrom ssh index pubkeys = .ok body) :
    ∃ entries : List GoString, entries.length = pubkeys.length ∧
      (∀ line ∈ entries, Entry line) ∧ body = entries.flatten := by
  induction pubkeys generalizing index body with
  | nil =>
    cases emitted
    exact ⟨[], rfl, by simp, rfl⟩
  | cons raw others induction =>
    unfold emitFrom at emitted
    split at emitted
    · cases emitted
    rename_i line first
    split at emitted
    · cases emitted
    rename_i following rest
    cases emitted
    obtain ⟨entries, count, valid, rfl⟩ := induction rest
    refine ⟨line :: entries, by simp [count], ?_, by simp⟩
    intro other member
    rcases List.mem_cons.mp member with rfl | member
    · exact emit_ok first
    · exact valid other member

theorem flatten_blockLines (entries : List GoString) : (blockLines entries).flatten =
      beginMarker ++ 10 :: (entries.flatten ++ (endMarker ++ [10])) := by
  simp [blockLines, beginLine, endLine]

/-- A rendered block is a BEGIN line, one entry for each key, and an END
line. -/
theorem render_ok {block : GoString} (rendered : render ssh pubkeys = .ok block) :
    ∃ entries : List GoString, entries.length = pubkeys.length ∧ (∀ line ∈ entries, Entry line) ∧
      block = (blockLines entries).flatten := by
  unfold render at rendered
  split at rendered
  · cases rendered
  rename_i body emitted
  cases rendered
  obtain ⟨entries, count, valid, rfl⟩ := emitFrom_ok emitted
  exact ⟨entries, count, valid, (flatten_blockLines entries).symm⟩

theorem markerOf_beginLine : markerOf beginLine = some .opening := by
  decide +kernel

theorem markerOf_endLine : markerOf endLine = some .closing := by
  decide +kernel

theorem blockLines_terminated {entries : List GoString} (valid : ∀ line ∈ entries, Entry line) :
    ∀ line ∈ blockLines entries, Terminated 10 line := by
  intro line member
  simp only [blockLines, List.mem_cons, List.mem_append, List.not_mem_nil, or_false] at member
  rcases member with rfl | inside | rfl
  · exact ⟨beginMarker, by decide, rfl⟩
  · exact (valid line inside).terminated
  · exact ⟨endMarker, by decide, rfl⟩

/-! ## What is outside the block -/

/-- The text before and after a block. -/
structure Frame where
  before : GoString
  after : GoString
  whole : ∀ line ∈ lines 10 before, Terminated 10 line
  unmarkedBefore : ∀ line ∈ lines 10 before, markerOf line = none
  unmarkedAfter : ∀ line ∈ lines 10 after, markerOf line = none

def Frame.around (frame : Frame) (block : GoString) : GoString :=
  frame.before ++ (block ++ frame.after)

theorem Frame.around_congr {left right : Frame}
    (before : left.before = right.before) (after : left.after = right.after)
    (block : GoString) : left.around block = right.around block := by
  rw [Frame.around, Frame.around, before, after]

theorem lines_after {text : GoString} {before after : List GoString}
    (tiled : lines 10 text = before ++ after) : lines 10 after.flatten = after := by
  by_cases empty : after = []
  · rw [empty]
    rfl
  · have terminated := Text.terminated_of_lines tiled empty
    have whole := Text.flatten_lines 10 text
    rw [tiled, List.flatten_append] at whole
    have again := Text.lines_flatten_append terminated after.flatten
    rw [whole, tiled] at again
    exact (List.append_cancel_left again).symm

namespace Layout

variable {existing : GoString}

variable (layout : Layout existing)

theorem lines_before : (∀ line ∈ layout.before, Terminated 10 line) ∧
      lines 10 layout.before.flatten = layout.before := by
  have terminated := Text.terminated_of_lines layout.tiled_block (by simp [block])
  exact ⟨terminated, Text.lines_flatten terminated⟩

theorem lines_after : lines 10 layout.after.flatten = layout.after := by
  have tiled := layout.tiled_block
  rw [← List.append_assoc] at tiled
  exact ManagedBlock.lines_after tiled

def frame (layout : Layout existing) : Frame where
  before := layout.before.flatten
  after := layout.after.flatten
  whole := by
    rw [layout.lines_before.2]
    exact layout.lines_before.1
  unmarkedBefore := by
    rw [layout.lines_before.2]
    exact layout.unmarkedBefore
  unmarkedAfter := by
    rw [layout.lines_after]
    exact layout.unmarkedAfter

theorem merge_eq (block : GoString) : merge existing block = .ok (layout.frame.around block) := by
  have first : existing.take layout.before.flatten.length = layout.before.flatten :=
    (congrArg (List.take _) layout.eq_flatten).trans List.take_left
  have last : existing.drop (layout.before.flatten.length +
      layout.block.flatten.length) = layout.after.flatten := by
    refine (congrArg (List.drop _) layout.eq_flatten).trans ?_
    rw [← List.length_append, ← List.append_assoc, List.drop_left]
  simp only [merge, layout.locate_ok, first, last]
  rfl

end Layout

theorem markerOf_append_newline (absent : 10 ∉ line) : markerOf (line ++ [10]) = markerOf line := by
  have longer : trimSuffix (line ++ [10]) 10 = line := by
    simp [trimSuffix]
  have shorter : trimSuffix line 10 = line := by
    rw [trimSuffix, if_neg fun last => absent (List.mem_of_getLast? last)]
  simp only [markerOf, isMarker, lineContent, longer, shorter]

/-- With its newline added, an unmarked file ends with a whole line. -/
theorem lines_separator (existing : GoString) : (∀ line ∈ lines 10 (existing ++ separator existing),
      Terminated 10 line) ∧
    markers (existing ++ separator existing) = markers existing := by
  unfold separator
  split
  · rename_i open'
    obtain ⟨before, last, whole, extended⟩ := Text.lines_append_terminator
      open'.2 (List.length_pos_iff.mp open'.1)
    have ends : (existing ++ [(10 : UInt8)]).getLast? = some 10 := List.getLast?_concat
    have terminated := Text.terminated_of_getLast? ends
    have same : markerOf (last ++ [10]) = markerOf last := by
      obtain ⟨content, absent, equal⟩ := terminated (last ++ [10]) (by rw [extended]; simp)
      rw [List.append_cancel_right equal]
      exact markerOf_append_newline absent
    refine ⟨terminated, ?_⟩
    rw [markers, markers, extended, whole, List.filterMap_append,
      List.filterMap_append, List.filterMap_cons, List.filterMap_cons, same]
  · rename_i closed
    rw [List.append_nil]
    refine ⟨?_, rfl⟩
    by_cases empty : existing = []
    · simp [empty, lines]
    have last : existing.getLast? = some 10 := by
      by_contra other
      exact closed ⟨List.length_pos_iff.mpr empty, other⟩
    exact Text.terminated_of_getLast? last

/-- The frame of a file without a block is the whole file. -/
def frameOfUnmarked {existing : GoString} (unmarked : markers existing = []) : Frame where
  before := existing ++ separator existing
  after := []
  whole := (lines_separator existing).1
  unmarkedBefore := by
    have none := (lines_separator existing).2.trans unmarked
    exact List.filterMap_eq_nil_iff.mp none
  unmarkedAfter := by simp [lines]

theorem merge_of_unmarked (unmarked : markers existing = []) (block : GoString) :
    merge existing block = .ok ((frameOfUnmarked unmarked).around block) := by
  simp [merge, locate_of_markers_nil unmarked, Frame.around, frameOfUnmarked]

/-- A merge depends on the file only through its frame. -/
theorem exists_frame (regular : markers existing = [] ∨ markers existing = [.opening, .closing]) :
    ∃ frame : Frame, ∀ block, merge existing block = .ok (frame.around block) := by
  rcases regular with unmarked | paired
  · exact ⟨frameOfUnmarked unmarked, merge_of_unmarked unmarked⟩
  · obtain ⟨layout⟩ := exists_layout paired
    exact ⟨layout.frame, layout.merge_eq⟩

theorem markers_of_merge {block merged : GoString} (done : merge existing block = .ok merged) :
    markers existing = [] ∨ markers existing = [.opening, .closing] := by
  unfold merge at done
  split at done
  · cases done
  · rename_i located
    exact markers_of_locate located
  · rename_i located
    exact markers_of_locate located

namespace Frame

variable {entries : List GoString}

variable (frame : Frame)

theorem slice_around (block : GoString) : slice (frame.around block)
      ⟨frame.before.length, frame.before.length + block.length⟩ = block :=
  Text.slice_append frame.before block frame.after

variable (valid : ∀ line ∈ entries, Entry line)

include valid

theorem lines_around : lines 10 (frame.around (blockLines entries).flatten) =
      lines 10 frame.before ++ (beginLine :: (entries ++ endLine :: lines 10 frame.after)) := by
  have front := Text.lines_flatten_append frame.whole ((blockLines entries).flatten ++ frame.after)
  rw [Text.flatten_lines] at front
  rw [around, front, Text.lines_flatten_append (blockLines_terminated valid)]
  simp [blockLines]

/-- A file around a rendered block is laid out by it. -/
def layout (frame : Frame) (valid : ∀ line ∈ entries, Entry line) :
    Layout (frame.around (blockLines entries).flatten) where
  before := lines 10 frame.before
  opening := beginLine
  inner := entries
  closing := endLine
  after := lines 10 frame.after
  tiled := frame.lines_around valid
  opens := markerOf_beginLine
  closes := markerOf_endLine
  unmarkedBefore := frame.unmarkedBefore
  unmarkedInner := fun line member => (valid line member).unmarked
  unmarkedAfter := frame.unmarkedAfter

theorem locate_around : locate (frame.around (blockLines entries).flatten) =
      .ok (some ⟨frame.before.length,
        frame.before.length + (blockLines entries).flatten.length⟩) := by
  have located := (frame.layout valid).locate_ok
  have before : (frame.layout valid).before.flatten = frame.before :=
    Text.flatten_lines 10 frame.before
  rw [before] at located
  exact located

theorem merge_around (block : GoString) : merge (frame.around (blockLines entries).flatten) block =
      .ok (frame.around block) := by
  have before : (frame.layout valid).frame.before = frame.before :=
    Text.flatten_lines 10 frame.before
  have after : (frame.layout valid).frame.after = frame.after := Text.flatten_lines 10 frame.after
  rw [(frame.layout valid).merge_eq, around_congr before after]

theorem blockKeyCount_around : blockKeyCount (frame.around (blockLines entries).flatten) =
      entries.length := by
  have counted : ∀ line ∈ entries, (!(isMarker line beginMarker || isMarker line endMarker) &&
        decide (lineContent line ≠ [])) = true := by
    intro line member
    have unmarked := markerOf_eq_none.mp (valid line member).unmarked
    simp [unmarked.1, unmarked.2, (valid line member).filled]
  have tiled : lines 10 (blockLines entries).flatten = blockLines entries :=
    Text.lines_flatten (blockLines_terminated valid)
  simp only [blockKeyCount, frame.locate_around valid, frame.slice_around]
  rw [filter_lineSpans (blockLines entries).flatten
      (fun line => !(isMarker line beginMarker || isMarker line endMarker) &&
        decide (lineContent line ≠ [])), Text.length_tileOf, tiled, blockLines, List.countP_cons,
    List.countP_append, List.countP_eq_length.mpr counted, List.countP_cons]
  have opening : isMarker beginLine beginMarker = true := by decide +kernel
  have closing : isMarker endLine endMarker = true := by decide +kernel
  simp [opening, closing]

end Frame

/-! ## Merging -/

/-- A merge fails exactly on ambiguous markers.  Otherwise it replaces the
located block, or appends one behind at most one newline; the block is found
again where it was put, with all its keys; and a second merge does what it
would have done on the first file. -/
theorem merge_splices {ssh : Keys.SSH} {first pubkeys : List GoString} {firstBlock block : GoString}
    (renderedFirst : render ssh first = .ok firstBlock) (rendered : render ssh pubkeys = .ok block)
    (existing secondBlock : GoString) :
    ((∃ failure, merge existing block = .error failure) ↔
      ¬ (markers existing = [] ∨ markers existing = [.opening, .closing])) ∧
    (markers existing = [] → merge existing block = .ok (existing ++ separator existing ++ block)) ∧
    (markers existing = [.opening, .closing] →
      ∃ layout : Layout existing,
        locate existing = .ok (some ⟨layout.before.flatten.length,
          layout.before.flatten.length + layout.block.flatten.length⟩) ∧
        merge existing block = .ok (layout.before.flatten ++ (block ++ layout.after.flatten))) ∧
    (∀ merged, merge existing block = .ok merged →
      ∃ start, locate merged = .ok (some ⟨start, start + block.length⟩) ∧
        slice merged ⟨start, start + block.length⟩ = block ∧
        blockKeyCount merged = pubkeys.length) ∧
    (∀ merged, merge existing firstBlock = .ok merged →
      merge merged secondBlock = merge existing secondBlock) := by
  refine ⟨?_, ?_, ?_, ?_, ?_⟩
  · constructor
    · rintro ⟨failure, failed⟩ regular
      obtain ⟨frame, merges⟩ := exists_frame regular
      rw [merges] at failed
      cases failed
    · intro irregular
      cases outcome : merge existing block with
      | error failure => exact ⟨failure, rfl⟩
      | ok merged => exact absurd (markers_of_merge outcome) irregular
  · intro unmarked
    simp [merge, locate_of_markers_nil unmarked]
  · intro paired
    obtain ⟨layout⟩ := exists_layout paired
    exact ⟨layout, layout.locate_ok, layout.merge_eq block⟩
  · intro merged done
    obtain ⟨entries, count, valid, rfl⟩ := render_ok rendered
    obtain ⟨frame, merges⟩ := exists_frame (markers_of_merge done)
    rw [merges] at done
    cases done
    refine ⟨frame.before.length, frame.locate_around valid, frame.slice_around _, ?_⟩
    rw [frame.blockKeyCount_around valid, count]
  · intro merged done
    obtain ⟨entries, _, valid, rfl⟩ := render_ok renderedFirst
    obtain ⟨frame, merges⟩ := exists_frame (markers_of_merge done)
    rw [merges] at done
    cases done
    rw [frame.merge_around valid, merges]

namespace Sample

def edLine : GoString := utf8 ("ssh-ed25519 AAAAC3NzaC1lZDI1NTE5AAAAIAECAwQF" ++
  "BgcICQoLDA0ODxAREhMUFRYXGBkaAprivate laptop")

def ownLine : GoString := utf8 "# own keys below\r\n  ssh-rsa AAAA"

def emptyBlock : GoString := beginLine ++ endLine

def edBlock : GoString := beginLine ++ (edLine ++ 10 :: endLine)

end Sample

open Sample in
theorem merge_splices_own_line : render Keys.Sample.edLibrary [edLine] = .ok edBlock ∧
      merge ownLine edBlock = .ok (ownLine ++ 10 :: edBlock) ∧
      merge (ownLine ++ 10 :: edBlock) emptyBlock = merge ownLine emptyBlock := by
  have filled : render Keys.Sample.edLibrary [edLine] = .ok edBlock := by
    decide +kernel
  have merged : merge ownLine edBlock = .ok (ownLine ++ 10 :: edBlock) := by
    decide +kernel
  exact ⟨filled, merged, (merge_splices filled filled ownLine emptyBlock).2.2.2.2 _ merged⟩

end Vallet.ManagedBlock
