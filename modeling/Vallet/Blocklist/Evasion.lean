import Vallet.Blocklist.Matcher

/-!
# Spellings of a reserved word

Whatever characters draw the letters of a term, and whatever invisible or
separating characters are put between them, the name is refused unless an
administrator exempted its skeleton.
-/

namespace Vallet.Blocklist

variable {skeleton : GoString → GoString} {lists : List TermList}

theorem compileLists_holds {seen : List GoString} {compiledLists : List CompiledList}
    (accepted : compileLists skeleton seen lists = .ok compiledLists)
    {list : TermList} (listed : list ∈ lists) :
    list.mode ≠ .invalid ∧ ∃ result ∈ compiledLists,
      result.mode = list.mode ∧ ∀ raw ∈ list.terms,
        skeleton raw ≠ [] ∧ result.Holds (skeleton raw) := by
  induction lists generalizing seen compiledLists with
  | nil => cases listed
  | cons first rest induction =>
    unfold compileLists at accepted
    split at accepted
    · cases accepted
    split at accepted
    · cases accepted
    split at accepted
    · cases accepted
    rename_i valid
    split at accepted
    · cases accepted
    rename_i result done
    split at accepted
    · cases accepted
    rename_i others following
    cases accepted
    rcases List.mem_cons.mp listed with rfl | later
    · unfold compileList at done
      split at done
      · cases done
      rename_i terms compiles
      obtain ⟨rfl, filled, _⟩ := compileTerms_nil_eq_ok_iff.mp compiles
      cases done
      refine ⟨valid, _, List.mem_cons_self, rfl, ?_⟩
      intro raw member
      exact ⟨filled raw member, ⟨skeleton raw, raw⟩, List.mem_map.mpr ⟨raw, member, rfl⟩, rfl⟩
    · obtain ⟨mode, result, member, holds⟩ := induction following later
      exact ⟨mode, result, List.mem_cons_of_mem _ member, holds⟩

/-- A matcher that `NewMatcher` built from the lists, with whatever allowlist
and administrators' terms were set since. -/
inductive Built (skeleton : GoString → GoString) (lists : List TermList) : Matcher → Prop where
  | new {matcher : Matcher} (made : newMatcher skeleton lists = .ok matcher) :
      Built skeleton lists matcher
  | setAllowlist {matcher edited : Matcher} {entries : List GoString}
      (built : Built skeleton lists matcher)
      (edit : matcher.setAllowlist skeleton entries = .ok edited) :
      Built skeleton lists edited
  | setExtraTerms {matcher edited : Matcher} {terms : List GoString}
      (built : Built skeleton lists matcher)
      (edit : matcher.setExtraTerms skeleton terms = .ok edited) :
      Built skeleton lists edited

/-- A term of the matcher: one of a curated list, or an administrators' one,
which is compared whole. -/
def IsTerm (lists : List TermList) (matcher : Matcher) (mode : MatchMode)
    (term : GoString) : Prop :=
  (∃ list ∈ lists, list.mode = mode ∧ term ∈ list.terms) ∨
    (mode = .wholeSkeleton ∧ term ∈ matcher.extraTerms)

theorem Built.holds {matcher : Matcher} (built : Built skeleton lists matcher) :
    (∀ list ∈ lists, ∃ result ∈ matcher.lists, result.mode = list.mode ∧
      ∀ raw ∈ list.terms, skeleton raw ≠ [] ∧ result.Holds (skeleton raw)) ∧
    ∀ list, matcher.extra = some list → list.mode = .wholeSkeleton ∧
      ∀ raw ∈ matcher.extraTerms, skeleton raw ≠ [] ∧ list.Holds (skeleton raw) := by
  induction built with
  | @new matcher made =>
    unfold newMatcher at made
    split at made
    · cases made
    rename_i compiledLists accepted
    cases made
    refine ⟨?_, by simp⟩
    intro list listed
    obtain ⟨valid, result, member, mode, holds⟩ := compileLists_holds accepted listed
    refine ⟨result, ?_, mode, holds⟩
    rw [List.mem_append, List.mem_filter, List.mem_filter]
    cases kind : list.mode with
    | invalid => exact absurd kind valid
    | wholeSkeleton => exact .inl ⟨member, by simp [mode, kind]⟩
    | substring => exact .inr ⟨member, by simp [mode, kind]⟩
  | setAllowlist _ edit induction =>
    obtain ⟨ready, compiles, rfl⟩ := Matcher.setAllowlist_eq_ok_iff.mp edit
    exact induction
  | setExtraTerms _ edit induction =>
    obtain ⟨ready, compiles, rfl⟩ := Matcher.setExtraTerms_eq_ok_iff.mp edit
    refine ⟨induction.1, ?_⟩
    rintro list ⟨⟩
    refine ⟨rfl, fun raw member => ?_⟩
    simp only [Matcher.extraTerms, ready, Bool.true_eq_false, if_false,
      List.mem_insertionSort, List.mem_map] at member
    obtain ⟨term, listed, rfl⟩ := member
    obtain ⟨raw, given, rfl⟩ := List.mem_map.mp listed
    exact ⟨compiles.1 raw given, _, List.mem_map.mpr ⟨raw, given, rfl⟩, rfl⟩

theorem Built.exists_list {matcher : Matcher}
    (built : Built skeleton lists matcher) {mode : MatchMode}
    {term : GoString} (isTerm : IsTerm lists matcher mode term) :
    ∃ list ∈ matcher.extra.toList ++ matcher.lists, list.mode = mode ∧
      skeleton term ≠ [] ∧ list.Holds (skeleton term) := by
  obtain ⟨curated, administrators⟩ := built.holds
  rcases isTerm with ⟨list, listed, rfl, member⟩ | ⟨rfl, member⟩
  · obtain ⟨result, among, mode, holds⟩ := curated list listed
    exact ⟨result, List.mem_append_right _ among, mode, holds term member⟩
  · cases extra : matcher.extra with
    | none =>
      unfold Matcher.extraTerms at member
      simp [extra] at member
    | some list =>
      obtain ⟨whole, holds⟩ := administrators list extra
      exact ⟨list, by simp, whole, holds term member⟩

/-! ## Readings of a spelling -/

theorem readsByte_refl (text : GoString) :
    List.Forall₂ (ReadsByte ambiguousReadings) text text := by
  induction text with
  | nil => exact .nil
  | cons byte rest induction => exact .cons (.inl rfl) induction

/-- The bytes of what is read can be read as the bytes of the letters. -/
theorem readsByte_encode {letters read : List Char}
    (reads : List.Forall₂ Unicode.ReadsAs letters read) :
    List.Forall₂ (ReadsByte ambiguousReadings) (Text.encode read) (Text.encode letters) := by
  induction reads with
  | nil => exact .nil
  | cons first rest induction =>
    rw [Text.encode_cons, Text.encode_cons]
    apply List.rel_append _ induction
    rcases first with rfl | ⟨rfl, rfl⟩
    · exact readsByte_refl _
    · exact .cons (.inr ⟨[108], by decide, by decide⟩) .nil

/-- A name that spells a term, with text around it if the term is compared as
a part, is refused unless its skeleton is exempt. -/
theorem spelling_refused {tables : Unicode} (lawful : tables.Lawful)
    {lists : List TermList} {matcher : Matcher}
    (built : Built tables.skeleton lists matcher) {mode : MatchMode}
    {term : GoString} (isTerm : IsTerm lists matcher mode term)
    {letters runes before after : List Char}
    (termSkeleton : tables.skeleton term = Text.encode letters)
    (alphabetic : ∀ letter ∈ letters, letter.isAlpha = true)
    (spells : Unicode.Spells tables.skeleton letters runes)
    (around : mode = .wholeSkeleton → before = [] ∧ after = []) :
    let name := Text.encode (before ++ (runes ++ after))
    (matcher.check tables.skeleton name).reason ≠ .allowed ∧
      (matcher.allowlisted (tables.skeleton name) = none →
        (matcher.check tables.skeleton name).allowed = false) := by
  intro name
  have ascii : ∀ letter ∈ letters, letter.toNat < 128 := by
    intro letter member
    have alpha : (letter.isUpper || letter.isLower) = true := alphabetic letter member
    rcases Bool.or_eq_true_iff.mp alpha with upper | lower
    · have bounds : letter.val ≥ 65 ∧ letter.val ≤ 90 := of_decide_eq_true upper
      exact lt_of_le_of_lt (UInt32.le_iff_toNat_le.mp bounds.2) (by decide)
    · have bound : letter.val ≤ 122 := of_decide_eq_true (Bool.and_eq_true_iff.mp lower).2
      exact lt_of_le_of_lt (UInt32.le_iff_toNat_le.mp bound) (by decide)
  obtain ⟨list, listed, sameMode, nonempty, holds⟩ := built.exists_list isTerm
  have filled : letters ≠ [] := by
    rintro rfl
    exact nonempty termSkeleton
  obtain ⟨read, left, right, reads, whole, alone⟩ :=
    lawful.skeleton_spelled spells ascii filled before after
  apply Matcher.check_refused
  intro candidates expanded
  have member : Text.encode (left ++ (letters ++ right)) ∈ candidates := by
    apply mem_candidateSkeletons expanded
    change List.Forall₂ _ (tables.skeleton (Text.encode _)) _
    rw [whole]
    simp only [Text.encode_append]
    apply List.rel_append (readsByte_refl _)
    exact List.rel_append (readsByte_encode reads) (readsByte_refl _)
  refine ⟨list, listed, CompiledList.hit_isSome holds member ?_⟩
  rw [termSkeleton, sameMode]
  split
  · rename_i isWhole
    obtain ⟨noBefore, noAfter⟩ := around isWhole
    obtain ⟨rfl, rfl⟩ := alone noBefore noAfter
    simp
  · refine ⟨Text.encode left, Text.encode right, ?_⟩
    simp

namespace Sample

/-- ASCII, and an accented letter with its mark. -/
def tables : Unicode where
  decompose := fun rune =>
    if rune = '\u00e9' then ['e', '\u0301'] else [rune]
  combiningClass := fun rune => if rune = '\u0301' then 230 else 0
  toLower := fun rune =>
    if 'A' ≤ rune ∧ rune ≤ 'Z' then Char.ofNat (rune.toNat + 32) else rune
  isMn := fun rune => rune = '\u0301'
  isCf := fun rune => rune = '\u200b'
  isSpace := fun rune => rune = ' '
  isPd := fun rune => rune = '-'
  isPc := fun rune => rune = '_'

theorem tables_lawful : tables.Lawful where
  plain := by
    intro rune plain
    have small : rune.toNat < 128 := by
      simp only [Unicode.isPlain, Bool.or_eq_true, Bool.and_eq_true,
        decide_eq_true_eq, Char.le_def, UInt32.le_iff_toNat_le, Char.toNat_val] at plain
      simp at plain
      omega
    have checked : ∀ code : Fin 128, Unicode.isPlain (Char.ofNat code) = true →
        tables.decompose (Char.ofNat code) = [Char.ofNat code] ∧
        tables.combiningClass (Char.ofNat code) = 0 ∧
        tables.toLower (Char.ofNat code) = Char.ofNat code ∧
        tables.isMn (Char.ofNat code) = false ∧
        tables.isCf (Char.ofNat code) = false ∧
        tables.isSpace (Char.ofNat code) = false ∧
        tables.isPd (Char.ofNat code) = false ∧
        tables.isPc (Char.ofNat code) = false := by
      decide +kernel
    have known := checked ⟨rune.toNat, small⟩
    simp only [Char.ofNat_toNat] at known
    exact known plain
  marks := by
    intro rune marks
    have mark : rune = '\u0301' := by
      by_contra other
      exact marks (if_neg other)
    subst mark
    decide +kernel

def reserved : TermList :=
  ⟨utf8 "routing", .wholeSkeleton, [utf8 "root", utf8 "help"]⟩

def matcher : Matcher where
  ready := true
  lists := [⟨utf8 "routing", .wholeSkeleton,
    [⟨utf8 "root", utf8 "root"⟩, ⟨utf8 "help", utf8 "help"⟩]⟩]
  allow := none
  extra := none

theorem matcher_built : Built tables.skeleton [reserved] matcher :=
  .new (by decide +kernel)

/-- A capital, an accent, a digit, a hyphen and a Cyrillic letter. -/
def disguise : List Char := ['H', '\u00e9', '1', '-', '\u0440']

theorem disguise_spells : Unicode.Spells tables.skeleton ['h', 'e', 'l', 'p'] disguise := by
  apply Unicode.Spells.letter (by decide +kernel)
  apply Unicode.Spells.letter (by decide +kernel)
  apply Unicode.Spells.stroke (by decide +kernel)
  apply Unicode.Spells.filler (by decide +kernel)
  apply Unicode.Spells.letter (by decide +kernel)
  exact .nil

end Sample

open Sample in
theorem spelling_refused_disguise :
    (matcher.check tables.skeleton (Text.encode disguise)).allowed = false ∧
      (matcher.check tables.skeleton (Text.encode disguise)).term = utf8 "help" := by
  have isTerm : IsTerm [reserved] matcher .wholeSkeleton (utf8 "help") :=
    .inl ⟨reserved, by simp, rfl, by decide +kernel⟩
  have termSkeleton : tables.skeleton (utf8 "help") =
      Text.encode ['h', 'e', 'l', 'p'] := by decide +kernel
  have around : MatchMode.wholeSkeleton = .wholeSkeleton →
      ([] : List Char) = [] ∧ ([] : List Char) = [] := fun _ => ⟨rfl, rfl⟩
  have refused := spelling_refused tables_lawful matcher_built isTerm
    termSkeleton (by simp) disguise_spells around
  rw [List.nil_append, List.append_nil] at refused
  exact ⟨refused.2 (by decide +kernel), by decide +kernel⟩

end Vallet.Blocklist
