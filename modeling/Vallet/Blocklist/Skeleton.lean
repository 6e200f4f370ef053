import Vallet.Domain.Values
import Vallet.Foundation.Unicode

/-!
# Skeletons

A name is compared by its skeleton: invalid bytes and look-alike letters are
dealt with first, then the text is decomposed, marks and format characters are
dropped, and what is left is lowered, folded and freed of separators.  Apart
from the order of marks every stage works on one character, so the skeleton of
a text is made up of the skeletons of its characters as long as these drop
their marks.
-/

namespace Vallet.Blocklist

open Normalization

/-- The tables of the Unicode libraries: full compatibility decomposition,
canonical combining class, simple lower case, and the categories asked for. -/
structure Unicode where
  decompose : Char → List Char
  combiningClass : Char → Nat
  toLower : Char → Char
  isMn : Char → Bool
  isCf : Char → Bool
  isSpace : Char → Bool
  isPd : Char → Bool
  isPc : Char → Bool

def confusables : List (Char × List Char) :=
  [('\u0430', ['a']), ('\u0432', ['b']), ('\u0441', ['c']), ('\u0501', ['d']),
    ('\u0435', ['e']), ('\u0455', ['s']), ('\u043d', ['h']),
    ('\u0456', ['i']), ('\u0457', ['i']), ('\u0458', ['j']),
    ('\u04bb', ['h']), ('\u043a', ['k']), ('\u043c', ['m']),
    ('\u043e', ['o']), ('\u0440', ['p']), ('\u0442', ['t']),
    ('\u0443', ['y']), ('\u0445', ['x']), ('\u0461', ['w']),
    ('\u03b1', ['a']), ('\u03b5', ['e']), ('\u03b7', ['n']),
    ('\u03b9', ['i']), ('\u03ba', ['k']), ('\u03bc', ['m']),
    ('\u03bd', ['v']), ('\u03bf', ['o']), ('\u03c1', ['p']),
    ('\u03c4', ['t']), ('\u03c5', ['u']), ('\u03c7', ['x']),
    ('\u03c9', ['w']), ('\u03f2', ['c']), ('\u03c2', ['c']),
    ('\u0131', ['i']), ('\u0237', ['j']), ('\u0142', ['l']),
    ('\u0111', ['d']), ('\u00f8', ['o']), ('\u00df', ['s', 's']),
    ('\u00e6', ['a', 'e']), ('\u0153', ['o', 'e'])]

def leetspeak : List (Char × Char) :=
  [('0', 'o'), ('1', 'i'), ('3', 'e'), ('4', 'a'), ('5', 's'), ('7', 't'), ('@', 'a'), ('$', 's')]

def confusable? (rune : Char) : Option (List Char) :=
  (confusables.find? fun entry => entry.1 = rune).map Prod.snd

def leet? (rune : Char) : Option Char :=
  (leetspeak.find? fun entry => entry.1 = rune).map Prod.snd

/-- The characters that the fast path leaves alone. -/
def isFast (byte : UInt8) : Bool :=
  (97 ≤ byte && byte ≤ 122) || byte = 50 || byte = 54 || byte = 56 ||
    byte = 57

namespace Unicode

def isSeparator (tables : Unicode) (rune : Char) : Bool :=
  rune = '_' || rune = '.' || rune = '-' || tables.isSpace rune ||
    tables.isPd rune || tables.isPc rune

def sanitizeRune (tables : Unicode) (rune : Char) : List Char :=
  if rune = '\uFFFD' then []
  else
    match confusable? (tables.toLower rune) with
    | some mapped => mapped
    | none => [rune]

def writeFolded (tables : Unicode) (rune : Char) : List Char :=
  match leet? rune with
  | some mapped => [mapped]
  | none => if tables.isSeparator rune then [] else [rune]

/-- The loop of `Skeleton` at one character of the normalized text. -/
def foldRune (tables : Unicode) (rune : Char) : List Char :=
  if tables.isMn rune || tables.isCf rune then []
  else
    match confusable? (tables.toLower rune) with
    | some mapped => mapped.flatMap tables.writeFolded
    | none => tables.writeFolded (tables.toLower rune)

/-- The decomposition of the sanitized text, before the marks are ordered. -/
def decomposed (tables : Unicode) (runes : List Char) : List Char :=
  (runes.flatMap tables.sanitizeRune).flatMap tables.decompose

/-- `norm.NFKD` of the sanitized text. -/
def nfkd (tables : Unicode) (runes : List Char) : List Char :=
  canonicalOrder tables.combiningClass (tables.decomposed runes)

def fold (tables : Unicode) (runes : List Char) : List Char :=
  (tables.nfkd runes).flatMap tables.foldRune

def skeleton (tables : Unicode) (text : GoString) : GoString :=
  if text.all isFast && !text.isEmpty then text
  else Text.encode (tables.fold (Text.decode text))

/-- A lower-case ASCII letter or a digit. -/
def isPlain (rune : Char) : Bool :=
  ('a' ≤ rune && rune ≤ 'z') || ('0' ≤ rune && rune ≤ '9')

/-- What is assumed of the tables: ASCII letters and digits are left alone,
and a character of non-zero combining class is neither ASCII, nor has it a
lower case, nor is it a look-alike of a letter. -/
structure Lawful (tables : Unicode) : Prop where
  plain : ∀ rune, isPlain rune = true → tables.decompose rune = [rune] ∧
    tables.combiningClass rune = 0 ∧ tables.toLower rune = rune ∧
    tables.isMn rune = false ∧ tables.isCf rune = false ∧
    tables.isSpace rune = false ∧ tables.isPd rune = false ∧
    tables.isPc rune = false
  marks : ∀ rune, tables.combiningClass rune ≠ 0 → 128 ≤ rune.toNat ∧
    tables.toLower rune = rune ∧ confusable? rune = none

/-! ## The fast path -/

variable {rune : Char}

theorem fast_plain {byte : UInt8} (fast : isFast byte = true) (same : rune.toNat = byte.toNat) :
    isPlain rune = true ∧ confusable? rune = none ∧ leet? rune = none ∧
      rune ≠ '_' ∧ rune ≠ '.' ∧ rune ≠ '-' ∧ rune ≠ '\uFFFD' := by
  have checked : ∀ code : Fin 256, isFast (UInt8.ofFin code) = true →
      isPlain (Char.ofNat code) = true ∧
      confusable? (Char.ofNat code) = none ∧
      leet? (Char.ofNat code) = none ∧ Char.ofNat code ≠ '_' ∧
      Char.ofNat code ≠ '.' ∧ Char.ofNat code ≠ '-' ∧
      Char.ofNat code ≠ '\uFFFD' := by
    decide +kernel
  have known := checked byte.toFin fast
  have character : Char.ofNat byte.toFin = rune := by
    change Char.ofNat byte.toNat = rune
    rw [← same]
    exact Char.ofNat_toNat rune
  rwa [character] at known

variable {tables : Unicode}

theorem Lawful.fold_fast (lawful : tables.Lawful) {runes : List Char}
    (fast : ∀ rune ∈ runes, ∃ byte, isFast byte = true ∧
      rune.toNat = byte.toNat) : tables.fold runes = runes := by
  have alone : ∀ rune ∈ runes, tables.sanitizeRune rune = [rune] ∧
      tables.decompose rune = [rune] ∧ tables.combiningClass rune = 0 ∧
      tables.foldRune rune = [rune] := by
    intro rune member
    obtain ⟨byte, isFast, same⟩ := fast rune member
    obtain ⟨plain, noConfusable, noLeet, noUnderscore, noDot, noHyphen,
      valid⟩ := fast_plain isFast same
    obtain ⟨decompose, starts, lower, noMn, noCf, noSpace, noPd, noPc⟩ := lawful.plain rune plain
    refine ⟨?_, decompose, starts, ?_⟩
    · rw [sanitizeRune, if_neg valid, lower, noConfusable]
    · simp [foldRune, noMn, noCf, lower, noConfusable, writeFolded, noLeet,
        isSeparator, noUnderscore, noDot, noHyphen, noSpace, noPd, noPc]
  have itself : tables.decomposed runes = runes := by
    have sanitized : runes.flatMap tables.sanitizeRune = runes := by
      rw [List.flatMap_congr fun rune member => (alone rune member).1]
      exact List.flatMap_singleton' runes
    rw [decomposed, sanitized, List.flatMap_congr fun rune member => (alone rune member).2.1]
    exact List.flatMap_singleton' runes
  have ordered : (canonicalOrder tables.combiningClass runes).flatMap
      tables.foldRune = runes.flatMap tables.foldRune := by
    apply flatMap_canonicalOrder
    intro rune member marks
    exact absurd (alone rune member).2.2.1 marks
  rw [fold, nfkd, itself, ordered, List.flatMap_congr fun rune member => (alone rune member).2.2.2]
  exact List.flatMap_singleton' runes

/-- The fast path gives what the stages give. -/
theorem Lawful.skeleton_encode (lawful : tables.Lawful) (runes : List Char) :
    tables.skeleton (Text.encode runes) = Text.encode (tables.fold runes) := by
  rw [skeleton, Text.decode_encode]
  split
  · rename_i fast
    simp only [Bool.and_eq_true, List.all_eq_true] at fast
    rw [lawful.fold_fast]
    intro rune member
    obtain ⟨byte, others, encoded⟩ := Text.exists_utf8EncodeChar rune
    have listed : byte ∈ Text.encode runes :=
      List.mem_flatMap.mpr ⟨rune, member, by rw [encoded]; simp⟩
    have quick := fast.1 byte listed
    have ascii : byte < 128 := by
      have checked : ∀ code : Fin 256, isFast (UInt8.ofFin code) = true →
          UInt8.ofFin code < 128 := by decide +kernel
      exact checked byte.toFin quick
    have alone : byte ∈ Text.encode [rune] := by
      simp [Text.encode, encoded]
    obtain ⟨character, only, same⟩ := Text.exists_of_mem_encode ascii alone
    rw [List.mem_singleton.mp only] at same
    exact ⟨byte, quick, same⟩
  · rfl

/-! ## Spellings -/

/-- A mark is dropped or left alone. -/
theorem Lawful.foldRune_mark (lawful : tables.Lawful) (marks : tables.combiningClass rune ≠ 0) :
    tables.foldRune rune = [] ∨ (tables.foldRune rune = [rune] ∧ 128 ≤ rune.toNat) := by
  obtain ⟨large, lower, noConfusable⟩ := lawful.marks rune marks
  have noLeet : leet? rune = none := by
    have small : ∀ entry ∈ leetspeak, entry.1.toNat < 128 := by decide
    rw [leet?, Option.map_eq_none_iff, List.find?_eq_none]
    intro entry listed same
    have below := small entry listed
    rw [of_decide_eq_true same] at below
    omega
  rw [foldRune]
  split
  · exact .inl rfl
  rw [lower, noConfusable]
  simp only [writeFolded, noLeet]
  split
  · exact .inl rfl
  · exact .inr ⟨rfl, large⟩

/-- A character with an ASCII skeleton drops its marks. -/
theorem Lawful.dropped (lawful : tables.Lawful)
    (ascii : ∀ letter ∈ tables.fold [rune], letter.toNat < 128) :
    ∀ part ∈ tables.decomposed [rune], tables.combiningClass part ≠ 0 →
      tables.foldRune part = [] := by
  intro part member marks
  rcases lawful.foldRune_mark marks with dropped | ⟨kept, large⟩
  · exact dropped
  have written : part ∈ tables.fold [rune] := by
    apply List.mem_flatMap.mpr
    refine ⟨part, (perm_canonicalOrder _).mem_iff.mpr member, ?_⟩
    rw [kept]
    exact List.mem_singleton_self part
  have small := ascii part written
  omega

/-- The letters spelled by the characters: each by a character with that
skeleton, an `l` also by one with the skeleton `i`, with characters of empty
skeleton in between. -/
inductive Spells (skeleton : GoString → GoString) : List Char → List Char → Prop where
  | nil : Spells skeleton [] []
  | filler {letters runes : List Char} {rune : Char}
      (empty : skeleton (Text.encode [rune]) = []) (rest : Spells skeleton letters runes) :
      Spells skeleton letters (rune :: runes)
  | letter {letters runes : List Char} {letter rune : Char}
      (drawn : skeleton (Text.encode [rune]) = Text.encode [letter])
      (rest : Spells skeleton letters runes) :
      Spells skeleton (letter :: letters) (rune :: runes)
  | stroke {letters runes : List Char} {rune : Char}
      (drawn : skeleton (Text.encode [rune]) = Text.encode ['i'])
      (rest : Spells skeleton letters runes) :
      Spells skeleton ('l' :: letters) (rune :: runes)

/-- What is read for a letter of the term: the letter, or `i` for `l`. -/
def ReadsAs (letter read : Char) : Prop :=
  read = letter ∨ (letter = 'l' ∧ read = 'i')

theorem decomposed_cons (rune : Char) (runes : List Char) :
    tables.decomposed (rune :: runes) = tables.decomposed [rune] ++ tables.decomposed runes := by
  simp [decomposed]

theorem decomposed_append (left right : List Char) :
    tables.decomposed (left ++ right) = tables.decomposed left ++ tables.decomposed right := by
  simp [decomposed]

theorem Lawful.fold_of_skeleton (lawful : tables.Lawful) {read : List Char}
    (drawn : tables.skeleton (Text.encode [rune]) = Text.encode read) :
    tables.fold [rune] = read := by
  rw [lawful.skeleton_encode] at drawn
  have decoded := congrArg Text.decode drawn
  rwa [Text.decode_encode, Text.decode_encode] at decoded

/-- The parts of the characters are folded to the letters, and their marks are
dropped. -/
structure FoldsTo (tables : Unicode) (runes read : List Char) : Prop where
  letters : (tables.decomposed runes).flatMap tables.foldRune = read
  marks : ∀ part ∈ tables.decomposed runes, tables.combiningClass part ≠ 0 →
    tables.foldRune part = []

theorem Lawful.foldsTo_single (lawful : tables.Lawful) {read : List Char}
    (drawn : tables.skeleton (Text.encode [rune]) = Text.encode read)
    (ascii : ∀ letter ∈ read, letter.toNat < 128) : tables.FoldsTo [rune] read := by
  have folded := lawful.fold_of_skeleton drawn
  have dropped := lawful.dropped (by rwa [folded])
  rw [fold, nfkd, flatMap_canonicalOrder dropped] at folded
  exact ⟨folded, dropped⟩

theorem FoldsTo.cons {runes first rest : List Char} (front : tables.FoldsTo [rune] first)
    (back : tables.FoldsTo runes rest) : tables.FoldsTo (rune :: runes) (first ++ rest) where
  letters := by rw [decomposed_cons, List.flatMap_append, front.letters, back.letters]
  marks := by
    rw [decomposed_cons]
    exact fun part member => (List.mem_append.mp member).elim (front.marks part) (back.marks part)

theorem Lawful.flatMap_decomposed (lawful : tables.Lawful)
    {letters runes : List Char} (spells : Spells tables.skeleton letters runes)
    (ascii : ∀ letter ∈ letters, letter.toNat < 128) :
    ∃ read, List.Forall₂ ReadsAs letters read ∧ tables.FoldsTo runes read := by
  induction spells with
  | nil => exact ⟨[], .nil, rfl, by simp [decomposed]⟩
  | filler empty _ induction =>
    obtain ⟨read, reads, rest⟩ := induction ascii
    have drawn : tables.FoldsTo _ [] := lawful.foldsTo_single empty (by simp)
    exact ⟨read, reads, drawn.cons rest⟩
  | letter drawn _ induction =>
    rw [List.forall_mem_cons] at ascii
    obtain ⟨read, reads, rest⟩ := induction ascii.2
    exact ⟨_ :: read, .cons (.inl rfl) reads,
      (lawful.foldsTo_single drawn (by simpa using ascii.1)).cons rest⟩
  | stroke drawn _ induction =>
    rw [List.forall_mem_cons] at ascii
    obtain ⟨read, reads, rest⟩ := induction ascii.2
    exact ⟨'i' :: read, .cons (.inr ⟨rfl, rfl⟩) reads,
      (lawful.foldsTo_single drawn (by simp)).cons rest⟩

/-- The skeleton of a text with a spelling in it contains the letters that the
spelling reads as. -/
theorem Lawful.skeleton_spelled (lawful : tables.Lawful)
    {letters runes : List Char} (spells : Spells tables.skeleton letters runes)
    (ascii : ∀ letter ∈ letters, letter.toNat < 128) (filled : letters ≠ [])
    (before after : List Char) :
    ∃ read left right, List.Forall₂ ReadsAs letters read ∧
      tables.skeleton (Text.encode (before ++ (runes ++ after))) =
        Text.encode (left ++ (read ++ right)) ∧
      (before = [] → after = [] → left = [] ∧ right = []) := by
  obtain ⟨read, reads, folded, dropped⟩ := lawful.flatMap_decomposed spells ascii
  have nonempty : (tables.decomposed runes).flatMap tables.foldRune ≠ [] := by
    rw [folded]
    rintro rfl
    cases reads
    exact filled rfl
  by_cases alone : before = [] ∧ after = []
  · obtain ⟨rfl, rfl⟩ := alone
    refine ⟨read, [], [], reads, ?_, fun _ _ => ⟨rfl, rfl⟩⟩
    rw [lawful.skeleton_encode, List.nil_append, List.append_nil, fold, nfkd,
      flatMap_canonicalOrder dropped, folded, List.append_nil, List.nil_append]
  · obtain ⟨left, right, whole⟩ := infix_flatMap_canonicalOrder dropped
      nonempty (tables.decomposed before) (tables.decomposed after)
    refine ⟨read, left, right, reads, ?_, fun noBefore noAfter =>
      absurd ⟨noBefore, noAfter⟩ alone⟩
    rw [lawful.skeleton_encode, fold, nfkd, decomposed_append, decomposed_append, whole, folded]

end Unicode

end Vallet.Blocklist
