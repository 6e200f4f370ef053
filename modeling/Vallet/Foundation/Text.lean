import Mathlib.Data.List.Infix

/-!
# Texts: trimming, lines, spans and words

White space is given by the encodings of its characters, so that trimming cuts
off whole encodings at both ends and is defined for texts that are not valid
UTF-8 as well.  What is left is a contiguous part of the text and has nothing
left to trim.  The lines of a text tile it: they are consecutive spans, and
putting whole lines in front of a text puts them in front of its lines.
-/

namespace Text

section Trimming

variable {α : Type} [DecidableEq α] {tokens : List (List α)} {text : List α}

/-- What follows the first of the tokens that the text starts with. -/
def cutAny? (tokens : List (List α)) (text : List α) : Option (List α) :=
  tokens.findSome? fun token =>
    if token.isPrefixOf text then some (text.drop token.length) else none

/-- Cut off tokens at the start, at most as many as the number says. -/
def cutMany (tokens : List (List α)) : Nat → List α → List α
  | 0, text => text
  | count + 1, text =>
    match cutAny? tokens text with
    | none => text
    | some rest => cutMany tokens count rest

def trimStart (tokens : List (List α)) (text : List α) : List α :=
  cutMany tokens text.length text

def trimEnd (tokens : List (List α)) (text : List α) : List α :=
  (trimStart (tokens.map List.reverse) text.reverse).reverse

def trim (tokens : List (List α)) (text : List α) : List α :=
  trimEnd tokens (trimStart tokens text)

theorem cutAny?_eq_none : cutAny? tokens text = none ↔ ∀ token ∈ tokens, ¬ token <+: text := by
  rw [cutAny?, List.findSome?_eq_none_iff]
  refine forall₂_congr fun token _ => ?_
  rw [← List.isPrefixOf_iff_prefix]
  cases token.isPrefixOf text <;> simp

variable {rest : List α}

theorem cutAny?_eq_some (cut : cutAny? tokens text = some rest) :
    ∃ token ∈ tokens, text = token ++ rest := by
  obtain ⟨token, member, found⟩ := List.exists_of_findSome?_eq_some cut
  split at found
  · rename_i starts
    obtain ⟨tail, rfl⟩ := List.isPrefixOf_iff_prefix.mp starts
    cases found
    exact ⟨token, member, by simp⟩
  · cases found

/-- What is cut off is a sequence of tokens. -/
theorem exists_cutMany (tokens : List (List α)) (count : Nat) (text : List α) :
    ∃ cut : List (List α), (∀ token ∈ cut, token ∈ tokens) ∧
      text = cut.flatten ++ cutMany tokens count text := by
  induction count generalizing text with
  | zero => exact ⟨[], by simp, by simp [cutMany]⟩
  | succ count induction =>
    unfold cutMany
    cases first : cutAny? tokens text with
    | none => exact ⟨[], by simp, by simp⟩
    | some rest =>
      obtain ⟨token, member, rfl⟩ := cutAny?_eq_some first
      obtain ⟨cut, members, whole⟩ := induction rest
      refine ⟨token :: cut, ?_, ?_⟩
      · intro other listed
        rcases List.mem_cons.mp listed with rfl | listed
        · exact member
        · exact members other listed
      · rw [List.flatten_cons, List.append_assoc, ← whole]

theorem cutMany_suffix (count : Nat) (text : List α) : cutMany tokens count text <:+ text := by
  obtain ⟨cut, _, whole⟩ := exists_cutMany tokens count text
  exact ⟨cut.flatten, whole.symm⟩

/-- Every token that is cut off shortens the text, so enough of them are. -/
theorem cutAny?_cutMany (filled : [] ∉ tokens) {count : Nat} (enough : text.length ≤ count) :
    cutAny? tokens (cutMany tokens count text) = none := by
  induction count generalizing text with
  | zero =>
    rw [List.eq_nil_of_length_eq_zero (Nat.le_zero.mp enough), cutAny?_eq_none]
    intro token member starts
    apply filled
    rwa [← List.prefix_nil.mp starts]
  | succ count induction =>
    unfold cutMany
    cases cut : cutAny? tokens text with
    | none => exact cut
    | some rest =>
      obtain ⟨token, member, rfl⟩ := cutAny?_eq_some cut
      have positive : 0 < token.length :=
        List.length_pos_iff.mpr fun empty => filled (empty ▸ member)
      apply induction
      rw [List.length_append] at enough
      omega

theorem cutMany_eq_self (clean : cutAny? tokens text = none) (count : Nat) :
    cutMany tokens count text = text := by
  cases count with
  | zero => rfl
  | succ count => simp [cutMany, clean]

theorem trimStart_append {item : α} (cut : cutAny? tokens (item :: rest) = some rest) :
    trimStart tokens (item :: rest) = trimStart tokens rest := by
  simp [trimStart, cutMany, cut]

theorem trimEnd_isStart (tokens : List (List α)) (text : List α) :
    trimEnd tokens text <+: text := by
  rw [← List.reverse_suffix, trimEnd, List.reverse_reverse]
  exact cutMany_suffix _ _

theorem trim_infix (tokens : List (List α)) (text : List α) : trim tokens text <:+: text :=
  (trimEnd_isStart tokens _).isInfix.trans (cutMany_suffix _ _).isInfix

/-- The start of a text that has nothing to cut off has nothing either. -/
theorem cutAny?_of_isStart {start : List α} (starts : start <+: text)
    (clean : cutAny? tokens text = none) : cutAny? tokens start = none := by
  rw [cutAny?_eq_none] at clean ⊢
  exact fun token member found => clean token member (found.trans starts)

theorem trim_trim (filled : [] ∉ tokens) (text : List α) :
    trim tokens (trim tokens text) = trim tokens text := by
  have filledReversed : [] ∉ tokens.map List.reverse := by
    simpa using filled
  have clean : cutAny? tokens (trim tokens text) = none :=
    cutAny?_of_isStart (trimEnd_isStart tokens _) (cutAny?_cutMany filled (Nat.le_refl _))
  have cleanEnd : cutAny? (tokens.map List.reverse) (trim tokens text).reverse = none := by
    rw [trim, trimEnd, List.reverse_reverse]
    exact cutAny?_cutMany filledReversed (Nat.le_refl _)
  calc
    trim tokens (trim tokens text) = trimEnd tokens (trim tokens text) := by
      rw [trim, trimStart, cutMany_eq_self clean]
    _ = trim tokens text := by
      rw [trimEnd, trimStart, cutMany_eq_self cleanEnd, List.reverse_reverse]

/-- A text that is trimmed away starts as one of the tokens does. -/
theorem exists_of_trim_eq_nil (filled : [] ∉ tokens) {first : α}
    (empty : trim tokens (first :: rest) = []) :
    ∃ token ∈ tokens, token.head? = some first := by
  obtain ⟨cut, members, whole⟩ := exists_cutMany tokens (first :: rest).length (first :: rest)
  obtain ⟨ending, endMembers, reversed⟩ :=
    exists_cutMany (tokens.map List.reverse) (trimStart tokens (first :: rest)).reverse.length
      (trimStart tokens (first :: rest)).reverse
  have nothing : cutMany (tokens.map List.reverse) (trimStart tokens (first :: rest)).reverse.length
      (trimStart tokens (first :: rest)).reverse = [] :=
    List.reverse_eq_nil_iff.mp empty
  have tail : trimStart tokens (first :: rest) = (ending.map List.reverse).reverse.flatten := by
    rw [nothing, List.append_nil] at reversed
    rw [← List.reverse_flatten, ← reversed, List.reverse_reverse]
  have tiled : first :: rest = (cut ++ (ending.map List.reverse).reverse).flatten := by
    rw [List.flatten_append, ← tail]
    exact whole
  have listed : ∀ token ∈ cut ++ (ending.map List.reverse).reverse, token ∈ tokens := by
    intro token member
    rcases List.mem_append.mp member with member | member
    · exact members token member
    · obtain ⟨turned, turnedMember, rfl⟩ := List.mem_map.mp (List.mem_reverse.mp member)
      obtain ⟨original, originalMember, rfl⟩ := List.mem_map.mp (endMembers turned turnedMember)
      rwa [List.reverse_reverse]
  cases parts : cut ++ (ending.map List.reverse).reverse with
  | nil => simp [parts] at tiled
  | cons token others =>
    rw [parts] at tiled listed
    have member := listed token List.mem_cons_self
    cases token with
    | nil => exact absurd member filled
    | cons item token =>
      rw [List.flatten_cons, List.cons_append, List.cons.injEq] at tiled
      exact ⟨_, member, by rw [tiled.1]; rfl⟩

end Trimming

/-- The encodings of the white space characters of Unicode. -/
def whiteSpace : List (List UInt8) :=
  [[0x20], [0x09], [0x0a], [0x0b], [0x0c], [0x0d], [0xc2, 0x85], [0xc2, 0xa0],
    [0xe1, 0x9a, 0x80], [0xe2, 0x80, 0x80], [0xe2, 0x80, 0x81],
    [0xe2, 0x80, 0x82], [0xe2, 0x80, 0x83], [0xe2, 0x80, 0x84],
    [0xe2, 0x80, 0x85], [0xe2, 0x80, 0x86], [0xe2, 0x80, 0x87],
    [0xe2, 0x80, 0x88], [0xe2, 0x80, 0x89], [0xe2, 0x80, 0x8a],
    [0xe2, 0x80, 0xa8], [0xe2, 0x80, 0xa9], [0xe2, 0x80, 0xaf],
    [0xe2, 0x81, 0x9f], [0xe3, 0x80, 0x80]]

def trimSpace (text : List UInt8) : List UInt8 := trim whiteSpace text

theorem trimSpace_trimSpace (text : List UInt8) : trimSpace (trimSpace text) = trimSpace text :=
  trim_trim (by decide) text

/-- The bytes of the characters. -/
def encode (characters : List Char) : List UInt8 :=
  characters.flatMap String.utf8EncodeChar

/-- A byte below 128 is a character of its own. -/
theorem exists_of_mem_encode {characters : List Char} {byte : UInt8}
    (ascii : byte < 128) (member : byte ∈ encode characters) :
    ∃ character ∈ characters, character.toNat = byte.toNat := by
  obtain ⟨character, listed, encoded⟩ := List.mem_flatMap.mp member
  refine ⟨character, listed, ?_⟩
  have small : byte.toNat < 128 := ascii
  have code := List.mem_map_of_mem (f := UInt8.toNat) encoded
  change character.val.toNat = byte.toNat
  unfold String.utf8EncodeChar at code
  simp only at code
  -- the bytes of a longer encoding are all above
  split at code
  on_goal 2 => split at code
  on_goal 3 => split at code
  all_goals
    simp only [List.map_cons, List.map_nil, List.mem_cons, List.not_mem_nil, or_false,
      UInt8.toNat_ofNat'] at code
    omega

section Lines

variable {α : Type} [DecidableEq α] {terminator : α} {text rest : List α}

/-- The lines of a text, each with its terminator; the last one may have
none. -/
def lines (terminator : α) : List α → List (List α)
  | [] => []
  | item :: rest =>
    if item = terminator then
      [item] :: lines terminator rest
    else
      match lines terminator rest with
      | [] => [[item]]
      | line :: others => (item :: line) :: others

/-- A line that ends with the terminator and has no other. -/
def Terminated (terminator : α) (line : List α) : Prop :=
  ∃ content, terminator ∉ content ∧ line = content ++ [terminator]

theorem flatten_lines (terminator : α) (text : List α) :
    (lines terminator text).flatten = text := by
  induction text with
  | nil => rfl
  | cons item rest induction =>
    unfold lines
    split
    · simp [induction]
    split
    · rename_i empty
      rw [empty] at induction
      simp [← induction]
    · rename_i line others equation
      rw [equation] at induction
      simp [← induction]

theorem lines_terminated_append {line : List α}
    (terminated : Terminated terminator line) (rest : List α) :
    lines terminator (line ++ rest) = line :: lines terminator rest := by
  obtain ⟨content, absent, rfl⟩ := terminated
  induction content with
  | nil => simp [lines]
  | cons item content induction =>
    have different : item ≠ terminator := fun same =>
      absent (same ▸ List.mem_cons_self)
    have following := induction fun member =>
      absent (List.mem_cons_of_mem item member)
    rw [List.cons_append, List.cons_append, lines, if_neg different, following]

/-- Whole lines in front of a text are its first lines. -/
theorem lines_flatten_append {start : List (List α)}
    (terminated : ∀ line ∈ start, Terminated terminator line) (rest : List α) :
    lines terminator (start.flatten ++ rest) = start ++ lines terminator rest := by
  induction start with
  | nil => rfl
  | cons line start induction =>
    rw [List.flatten_cons, List.append_assoc,
      lines_terminated_append (terminated line List.mem_cons_self), induction fun other member =>
        terminated other (List.mem_cons_of_mem line member),
      List.cons_append]

theorem lines_flatten {start : List (List α)}
    (terminated : ∀ line ∈ start, Terminated terminator line) :
    lines terminator start.flatten = start := by
  have whole := lines_flatten_append terminated []
  simpa [lines] using whole

/-- A line lacks its terminator only where it is the last one and the text does
not end with the terminator. -/
theorem terminated_of_tiled {before after : List (List α)} {line : List α}
    (tiled : lines terminator text = before ++ line :: after)
    (ends : after ≠ [] ∨ text.getLast? = some terminator) : Terminated terminator line := by
  induction text generalizing before line with
  | nil => simp [lines] at tiled
  | cons item rest induction =>
    have endsRest : rest ≠ [] → after ≠ [] ∨ rest.getLast? = some terminator := by
      intro filled
      rwa [List.getLast?_cons_of_ne_nil filled] at ends
    have filled : lines terminator rest ≠ [] → rest ≠ [] := by
      rintro more rfl
      exact more rfl
    unfold lines at tiled
    split at tiled
    · rename_i same
      cases before with
      | nil => exact ⟨[], by simp, by simpa [same] using (List.cons.inj tiled).1.symm⟩
      | cons first before =>
        have others := (List.cons.inj tiled).2
        exact induction others (endsRest (filled (by simp [others])))
    · rename_i different
      split at tiled
      · rename_i single
        have nothing : rest = [] := by rw [← flatten_lines terminator rest, single]; rfl
        cases before <;> simp_all
      · rename_i first others following
        have continued := endsRest (filled (by simp [following]))
        cases before with
        | nil =>
          obtain ⟨rfl, rfl⟩ := List.cons.inj tiled
          obtain ⟨content, absent, rfl⟩ := @induction [] first following continued
          exact ⟨item :: content, by simp [absent, Ne.symm different], rfl⟩
        | cons start before =>
          rw [(List.cons.inj tiled).2] at following
          exact @induction (first :: before) line following continued

theorem terminated_of_lines {before after : List (List α)}
    (split : lines terminator text = before ++ after) (more : after ≠ []) :
    ∀ line ∈ before, Terminated terminator line := by
  intro line member
  obtain ⟨earlier, later, rfl⟩ := List.append_of_mem member
  rw [List.append_assoc] at split
  exact terminated_of_tiled split (.inl (by simp [more]))

theorem terminated_of_getLast? (ending : text.getLast? = some terminator) :
    ∀ line ∈ lines terminator text, Terminated terminator line := by
  intro line member
  obtain ⟨before, after, tiled⟩ := List.append_of_mem member
  exact terminated_of_tiled tiled (.inr ending)

/-- Splitting at the terminator gives back the contents of terminated lines,
and what is behind the last of them. -/
theorem splitOn_flatten {contents : List (List α)}
    (unbroken : ∀ content ∈ contents, terminator ∉ content) :
    (contents.map fun content => content ++ [terminator]).flatten.splitOn
        terminator = contents ++ [[]] := by
  induction contents with
  | nil => rfl
  | cons content others induction =>
    rw [List.map_cons, List.flatten_cons, List.append_assoc, List.singleton_append,
      List.splitOn_append_cons_self_of_not_mem (unbroken content List.mem_cons_self),
      induction fun other member => unbroken other (List.mem_cons_of_mem content member),
      List.cons_append]

/-- Text after the end of the last line goes on with that line, or starts the
first one. -/
theorem lines_append_terminator (ending : text.getLast? ≠ some terminator) (filled : text ≠ []) :
    ∃ before last, lines terminator text = before ++ [last] ∧
      lines terminator (text ++ [terminator]) = before ++ [last ++ [terminator]] := by
  induction text with
  | nil => exact absurd rfl filled
  | cons item rest induction =>
    by_cases empty : rest = []
    · subst empty
      have different : item ≠ terminator := by simpa using ending
      exact ⟨[], [item], by simp [lines, different], by simp [lines, different]⟩
    · have ending : rest.getLast? ≠ some terminator := by
        rwa [List.getLast?_cons_of_ne_nil empty] at ending
      obtain ⟨before, last, whole, extended⟩ := induction ending empty
      by_cases same : item = terminator
      · refine ⟨[item] :: before, last, ?_, ?_⟩
        · simp [lines, same, whole]
        · simp [lines, same, extended]
      · cases before with
        | nil =>
          refine ⟨[], item :: last, ?_, ?_⟩
          · simp [lines, same, whole]
          · simp [lines, same, extended]
        | cons first before =>
          refine ⟨(item :: first) :: before, last, ?_, ?_⟩
          · simp [lines, same, whole]
          · simp [lines, same, extended]

end Lines

section Spans

variable {α : Type} {start : Nat} {pieces : List (List α)}

/-- A half-open range of positions. -/
structure Span where
  start : Nat
  stop : Nat
deriving DecidableEq, Repr

def slice (text : List α) (span : Span) : List α :=
  (text.take span.stop).drop span.start

/-- The spans of consecutive pieces. -/
def tile : Nat → List (List α) → List Span
  | _, [] => []
  | start, piece :: pieces => ⟨start, start + piece.length⟩ :: tile (start + piece.length) pieces

/-- The spans of the pieces that have a property. -/
def tileOf (property : List α → Bool) : Nat → List (List α) → List Span
  | _, [] => []
  | start, piece :: pieces =>
    let others := tileOf property (start + piece.length) pieces
    if property piece then ⟨start, start + piece.length⟩ :: others else others

theorem slice_append (before piece after : List α) :
    slice (before ++ (piece ++ after)) ⟨before.length, before.length + piece.length⟩ = piece := by
  simp [slice, List.take_append]

/-- Spans chosen by their slices are the spans of the chosen pieces. -/
theorem filter_tile (property : List α → Bool) (before : List α) (pieces : List (List α)) :
    (tile before.length pieces).filter
        (fun span => property (slice (before ++ pieces.flatten) span)) =
      tileOf property before.length pieces := by
  induction pieces generalizing before with
  | nil => rfl
  | cons piece pieces induction =>
    have others := induction (before ++ piece)
    rw [List.length_append, List.append_assoc] at others
    rw [tile, List.flatten_cons, List.filter_cons, slice_append, others, tileOf]

theorem tileOf_eq_nil {property : List α → Bool} :
    tileOf property start pieces = [] ↔ ∀ piece ∈ pieces, ¬ property piece := by
  induction pieces generalizing start with
  | nil => simp [tileOf]
  | cons piece pieces induction =>
    unfold tileOf
    by_cases chosen : property piece
    · simp [chosen]
    · simp [chosen, induction]

theorem length_tileOf (property : List α → Bool) (start : Nat) (pieces : List (List α)) :
    (tileOf property start pieces).length = pieces.countP property := by
  induction pieces generalizing start with
  | nil => rfl
  | cons piece pieces induction =>
    unfold tileOf
    by_cases chosen : property piece
    all_goals simp [chosen, induction]

theorem tileOf_append (property : List α → Bool) (start : Nat) (left right : List (List α)) :
    tileOf property start (left ++ right) =
      tileOf property start left ++ tileOf property (start + left.flatten.length) right := by
  induction left generalizing start with
  | nil => simp [tileOf]
  | cons piece left induction =>
    simp only [List.cons_append, tileOf, induction, List.flatten_cons,
      List.length_append, Nat.add_assoc]
    split <;> simp

/-- One chosen piece, with what stands before and after it. -/
theorem tileOf_eq_singleton {property : List α → Bool} {span : Span}
    (single : tileOf property start pieces = [span]) :
    ∃ before piece after, pieces = before ++ piece :: after ∧
      property piece ∧ (∀ other ∈ before, ¬ property other) ∧
      (∀ other ∈ after, ¬ property other) ∧
      span = ⟨start + before.flatten.length, start + before.flatten.length + piece.length⟩ := by
  induction pieces generalizing start with
  | nil => simp [tileOf] at single
  | cons piece pieces induction =>
    unfold tileOf at single
    by_cases chosen : property piece
    · simp only [chosen, if_true, List.cons.injEq] at single
      exact ⟨[], piece, pieces, rfl, chosen, by simp,
        tileOf_eq_nil.mp single.2, by simpa using single.1.symm⟩
    · simp only [chosen] at single
      obtain ⟨before, found, after, rfl, holds, first, second, place⟩ := induction single
      refine ⟨piece :: before, found, after, rfl, holds, ?_, second, ?_⟩
      · intro other member
        rcases List.mem_cons.mp member with rfl | member
        · exact chosen
        · exact first other member
      · rw [place]
        simp [Nat.add_assoc]

end Spans

section Words

variable {α : Type} {separator : α} {left right : List α}

/-- A word without the separator stands on one side of it. -/
theorem infix_append_cons {word : List α} (absent : separator ∉ word) :
    word <:+: left ++ separator :: right ↔ word <:+: left ∨ word <:+: right := by
  rw [List.infix_append_iff_ne_nil, List.infix_cons_iff]
  constructor
  · rintro (inLeft | (starts | inRight) | ⟨_, ending, _, filled, rfl, _, starts⟩)
    · exact .inl inLeft
    · cases word with
      | nil => exact .inl List.nil_infix
      | cons item word => exact absurd (by simp [(List.cons_prefix_cons.mp starts).1]) absent
    · exact .inr inRight
    · cases ending with
      | nil => exact absurd rfl filled
      | cons item ending => exact absurd (by simp [(List.cons_prefix_cons.mp starts).1]) absent
  · rintro (inLeft | inRight)
    · exact .inl inLeft
    · exact .inr (.inl (.inr inRight))

/-- Two words around a separator stand around the first one of the text, or
behind it. -/
theorem infix_pair_append_cons {first second : List α}
    (absentFirst : separator ∉ first) (absentLeft : separator ∉ left) :
    first ++ separator :: second <:+: left ++ separator :: right ↔
      (first <:+ left ∧ second <+: right) ∨
        first ++ separator :: second <:+: right := by
  constructor
  · rw [List.infix_append_iff_ne_nil, List.infix_cons_iff]
    rintro (inLeft | (starts | behind) | ⟨start, ending, _, filled, split, ends, starts⟩)
    · exact absurd (inLeft.subset (by simp)) absentLeft
    · cases first with
      | nil => exact .inl ⟨List.nil_suffix, (List.cons_prefix_cons.mp starts).2⟩
      | cons item first => exact absurd (by simp [(List.cons_prefix_cons.mp starts).1]) absentFirst
    · exact .inr behind
    · cases ending with
      | nil => exact absurd rfl filled
      | cons item ending =>
        obtain ⟨rfl, follows⟩ := List.cons_prefix_cons.mp starts
        classical
        have parts := congrArg (List.splitOn item) split
        rw [List.splitOn_append_cons_self_of_not_mem absentFirst,
          List.splitOn_append_cons_self_of_not_mem fun member => absentLeft (ends.subset member)]
          at parts
        obtain rfl := (List.cons.inj parts).1
        cases List.append_cancel_left split
        exact .inl ⟨ends, follows⟩
  · rintro (⟨⟨before, rfl⟩, ⟨after, rfl⟩⟩ | ⟨before, after, rfl⟩)
    · exact ⟨before, after, by simp⟩
    · exact ⟨left ++ separator :: before, after, by simp⟩

end Words

end Text
