import Mathlib.Algebra.Group.Nat.Defs
import Mathlib.Data.List.Sort
import Vallet.Blocklist.Skeleton

/-!
# Matching names against the lists

A matcher holds the curated lists, the administrators' terms and the
allowlist, all compared by skeleton.  A skeleton is compared in every reading
its `i`s allow; one with too many of them is refused unread.
-/

namespace Vallet.Blocklist

def maxInputBytes : Nat := 256

inductive MatchMode where
  | invalid
  | wholeSkeleton
  | substring
deriving DecidableEq, Repr

inductive Reason where
  | engineUnavailable
  | allowed
  | emptySkeleton
  | tooLong
  | blockedTerm
  | tooAmbiguous
  | allowlisted
deriving DecidableEq, Repr

structure Result where
  allowed : Bool
  reason : Reason
  list : GoString
  term : GoString
  mode : MatchMode
deriving DecidableEq, Repr

/-- A result that names no term. -/
def Result.plain (allowed : Bool) (reason : Reason) : Result :=
  ⟨allowed, reason, [], [], .invalid⟩

/-- A curated set of terms. -/
structure TermList where
  name : GoString
  mode : MatchMode
  terms : List GoString
deriving DecidableEq, Repr

structure CompiledTerm where
  skeleton : GoString
  raw : GoString
deriving DecidableEq, Repr

structure CompiledList where
  name : GoString
  mode : MatchMode
  terms : List CompiledTerm
deriving DecidableEq, Repr

structure Matcher where
  ready : Bool
  lists : List CompiledList
  allow : Option (List CompiledTerm)
  extra : Option CompiledList
deriving DecidableEq, Repr

/-- An error that wraps nothing. -/
def complaint (text : String) : Err where
  contexts := [text]
  wraps := []

def allowlistName : GoString := utf8 "allowlist"
def extraListName : GoString := utf8 "administrator"

section Engine

variable (skeleton : GoString → GoString)

/-- The loop that compiles the terms of a list: none may have an empty
skeleton or one that another has. -/
def compileTerms (empty : GoString → Err) (shared : GoString → GoString → Err) :
    List CompiledTerm → List GoString → Except Err (List CompiledTerm)
  | seen, [] => .ok seen
  | seen, raw :: rest =>
    if skeleton raw = [] then .error (empty raw)
    else
      match seen.find? fun term => term.skeleton = skeleton raw with
      | some previous => .error (shared previous.raw raw)
      | none => compileTerms empty shared (seen ++ [⟨skeleton raw, raw⟩]) rest

def compileList (list : TermList) : Except Err CompiledList :=
  match compileTerms skeleton
      (fun raw => complaint
        (s!"blocklist: list \"{textOf list.name}\" term \"{textOf raw}\" " ++
          "has an empty skeleton")) (fun previous raw => complaint
        (s!"blocklist: list \"{textOf list.name}\" terms " ++
          s!"\"{textOf previous}\" and \"{textOf raw}\" share a skeleton")) [] list.terms with
  | .error failure => .error failure
  | .ok terms => .ok ⟨list.name, list.mode, terms⟩

/-- The loop of `NewMatcher` over the lists. -/
def compileLists : List GoString → List TermList → Except Err (List CompiledList)
  | _, [] => .ok []
  | seen, list :: rest =>
    if list.name = [] then .error (complaint "blocklist: list has no name")
    else if list.name ∈ seen then
      .error (complaint s!"blocklist: duplicate list name \"{textOf list.name}\"")
    else if list.mode = .invalid then
      .error (complaint (s!"blocklist: list \"{textOf list.name}\" " ++ "has invalid match mode 0"))
    else
      match compileList skeleton list with
      | .error failure => .error failure
      | .ok compiled =>
        match compileLists (list.name :: seen) rest with
        | .error failure => .error failure
        | .ok others => .ok (compiled :: others)

def newMatcher (lists : List TermList) : Except Err Matcher :=
  match compileLists skeleton [] lists with
  | .error failure => .error failure
  | .ok compiled => .ok
      { ready := true
        lists := compiled.filter (fun list => list.mode = .wholeSkeleton) ++
          compiled.filter (fun list => list.mode = .substring)
        allow := none
        extra := none }

namespace Matcher

def setAllowlist (matcher : Matcher) (entries : List GoString) : Except Err Matcher :=
  if matcher.ready = false then
    .error (complaint "blocklist: allowlist set on an unbuilt matcher")
  else
    match compileTerms skeleton (fun raw => complaint
          (s!"blocklist: allowlist entry \"{textOf raw}\" " ++
            "has an empty skeleton")) (fun previous raw => complaint
          (s!"blocklist: allowlist entries \"{textOf previous}\" and " ++
            s!"\"{textOf raw}\" share a skeleton")) [] entries with
    | .error failure => .error failure
    | .ok compiled => .ok { matcher with allow := some compiled }

def setExtraTerms (matcher : Matcher) (terms : List GoString) : Except Err Matcher :=
  if matcher.ready = false then
    .error (complaint "blocklist: extra terms set on an unbuilt matcher")
  else
    match compileTerms skeleton (fun raw => complaint
          s!"blocklist: extra term \"{textOf raw}\" has an empty skeleton")
        (fun previous raw => complaint (s!"blocklist: extra terms \"{textOf previous}\" and " ++
            s!"\"{textOf raw}\" share a skeleton")) [] terms with
    | .error failure => .error failure
    | .ok compiled => .ok { matcher with extra := some ⟨extraListName, .wholeSkeleton, compiled⟩ }

/-- The entries in force, sorted. -/
def allowlist (matcher : Matcher) : List GoString :=
  if matcher.ready = false then []
  else ((matcher.allow.getD []).map CompiledTerm.raw).insertionSort (· ≤ ·)

def extraTerms (matcher : Matcher) : List GoString :=
  if matcher.ready = false then []
  else match matcher.extra with
    | none => []
    | some list => (list.terms.map CompiledTerm.raw).insertionSort (· ≤ ·)

/-- The entry under which a skeleton is exempt. -/
def allowlisted (matcher : Matcher) (text : GoString) : Option CompiledTerm :=
  (matcher.allow.getD []).find? fun term => term.skeleton = text

end Matcher

/-! ## Readings -/

def maxAmbiguousRunes : Nat := 12
def maxCandidateSkeletons : Nat := 2 ^ maxAmbiguousRunes

def ambiguousReadings : List (UInt8 × List UInt8) := [(105, [108])]

/-- The readings a byte has besides itself. -/
def readings? (table : List (UInt8 × List UInt8)) (byte : UInt8) : Option (List UInt8) :=
  (table.find? fun entry => entry.1 = byte).map Prod.snd

/-- The positions of ambiguous bytes with their other readings. -/
def ambiguousPositions (table : List (UInt8 × List UInt8)) :
    Nat → GoString → List (Nat × List UInt8)
  | _, [] => []
  | position, byte :: rest =>
    match readings? table byte with
    | none => ambiguousPositions table (position + 1) rest
    | some readings => (position, readings) :: ambiguousPositions table (position + 1) rest

/-- The size of the candidate set, unless it passes the ceiling. -/
def candidateTotal : Nat → List (Nat × List UInt8) → Option Nat
  | total, [] => some total
  | total, (_, readings) :: rest =>
    if total * (1 + readings.length) > maxCandidateSkeletons then none
    else candidateTotal (total * (1 + readings.length)) rest

/-- The candidates after one more position. -/
def growCandidates (candidates : List GoString) (ambiguous : Nat × List UInt8) : List GoString :=
  candidates ++ ambiguous.2.flatMap fun reading =>
    candidates.map fun candidate => candidate.set ambiguous.1 reading

def expandCandidates (text : GoString) (table : List (UInt8 × List UInt8)) :
    Option (List GoString) :=
  let positions := ambiguousPositions table 0 text
  if positions.length > maxAmbiguousRunes then none
  else
    match candidateTotal 1 positions with
    | none => none
    | some _ => some (positions.foldl growCandidates [text])

def candidateSkeletons (text : GoString) : Option (List GoString) :=
  expandCandidates text ambiguousReadings

/-! ## The verdict -/

/-- The first term of a list that one of the candidates hits. -/
def CompiledList.hit (list : CompiledList) (candidates : List GoString) : Option CompiledTerm :=
  candidates.findSome? fun candidate =>
    list.terms.find? fun term =>
      if list.mode = .wholeSkeleton then decide (term.skeleton = candidate)
      else decide (term.skeleton <:+: candidate)

def blockedBy (list : CompiledList) (term : CompiledTerm) : Result :=
  ⟨false, .blockedTerm, list.name, term.raw, list.mode⟩

/-- The walk over the lists. -/
def walk (candidates : List GoString) : List CompiledList → Result
  | [] => .plain true .allowed
  | list :: rest =>
    match list.hit candidates with
    | some term => blockedBy list term
    | none => walk candidates rest

def Matcher.check (matcher : Matcher) (input : GoString) : Result :=
  if matcher.ready = false then .plain false .engineUnavailable
  else if input.length > maxInputBytes then .plain false .tooLong
  else if skeleton input = [] then .plain false .emptySkeleton
  else
    match matcher.allowlisted (skeleton input) with
    | some entry => ⟨true, .allowlisted, allowlistName, entry.raw, .invalid⟩
    | none =>
      match candidateSkeletons (skeleton input) with
      | none => .plain false .tooAmbiguous
      | some candidates => walk candidates (matcher.extra.toList ++ matcher.lists)

/-! ## What is compiled -/

variable {skeleton} {empty : GoString → Err}
  {shared : GoString → GoString → Err} {raws candidates : List GoString}
  {terms : List CompiledTerm} {text : GoString} {list : CompiledList}

/-- A list compiles when its terms have distinct skeletons that are not empty,
and it is then compiled term by term. -/
theorem compileTerms_eq_ok_iff {seen : List CompiledTerm} :
    compileTerms skeleton empty shared seen raws = .ok terms ↔
      terms = seen ++ raws.map (fun raw => ⟨skeleton raw, raw⟩) ∧
      (∀ raw ∈ raws, skeleton raw ≠ []) ∧ (raws.map skeleton).Nodup ∧
      ∀ raw ∈ raws, ∀ term ∈ seen, term.skeleton ≠ skeleton raw := by
  induction raws generalizing seen with
  | nil => simp [compileTerms, eq_comm]
  | cons raw rest induction =>
    rw [compileTerms]
    split
    · rename_i bare
      simp [bare]
    · rename_i filled
      split
      · rename_i previous found
        have same := List.find?_some found
        have listed := List.mem_of_find?_eq_some found
        simp only [decide_eq_true_eq] at same
        simp only [reduceCtorEq, false_iff]
        rintro ⟨_, _, _, apart⟩
        exact apart raw List.mem_cons_self previous listed same
      · rename_i absent
        have fresh : ∀ term ∈ seen, term.skeleton ≠ skeleton raw := by
          simpa using absent
        rw [induction, List.map_cons, List.map_cons, List.forall_mem_cons,
          List.forall_mem_cons, List.nodup_cons]
        constructor
        · rintro ⟨rfl, others, distinct, apart⟩
          refine ⟨by simp, ⟨filled, others⟩, ⟨?_, distinct⟩, fresh, ?_⟩
          · intro repeated
            obtain ⟨other, member, same⟩ := List.mem_map.mp repeated
            exact apart other member ⟨skeleton raw, raw⟩ (by simp) same.symm
          · intro other member term listed
            exact apart other member term (List.mem_append_left _ listed)
        · rintro ⟨rfl, ⟨_, others⟩, ⟨alone, distinct⟩, _, apart⟩
          refine ⟨by simp, others, distinct, ?_⟩
          intro other member term listed
          rcases List.mem_append.mp listed with old | new
          · exact apart other member term old
          · rw [List.mem_singleton.mp new]
            intro same
            exact alone (List.mem_map.mpr ⟨other, member, same.symm⟩)

/-- Entries that a list can hold. -/
def Compiles (skeleton : GoString → GoString) (raws : List GoString) : Prop :=
  (∀ raw ∈ raws, skeleton raw ≠ []) ∧ (raws.map skeleton).Nodup

/-- The compiled form of the entries. -/
def compiled (skeleton : GoString → GoString) (raws : List GoString) : List CompiledTerm :=
  raws.map fun raw => ⟨skeleton raw, raw⟩

theorem compileTerms_nil_eq_ok_iff : compileTerms skeleton empty shared [] raws = .ok terms ↔
      terms = compiled skeleton raws ∧ Compiles skeleton raws := by
  rw [compileTerms_eq_ok_iff, Compiles, compiled]
  simp

namespace Matcher

theorem setAllowlist_eq_ok_iff {matcher edited : Matcher} {entries : List GoString} :
    matcher.setAllowlist skeleton entries = .ok edited ↔
      matcher.ready = true ∧ Compiles skeleton entries ∧
        edited = { matcher with allow := some (compiled skeleton entries) } := by
  unfold setAllowlist
  split
  · rename_i unready
    simp [unready]
  · rename_i ready
    split
    · rename_i failure refused
      simp only [reduceCtorEq, false_iff]
      rintro ⟨_, compiles, _⟩
      cases refused.symm.trans (compileTerms_nil_eq_ok_iff.mpr ⟨rfl, compiles⟩)
    · rename_i terms accepted
      obtain ⟨rfl, compiles⟩ := compileTerms_nil_eq_ok_iff.mp accepted
      simp only [Bool.not_eq_false] at ready
      simp [ready, compiles, eq_comm]

theorem setExtraTerms_eq_ok_iff {matcher edited : Matcher} {terms : List GoString} :
    matcher.setExtraTerms skeleton terms = .ok edited ↔
      matcher.ready = true ∧ Compiles skeleton terms ∧
        edited = { matcher with
          extra := some ⟨extraListName, .wholeSkeleton, compiled skeleton terms⟩ } := by
  unfold setExtraTerms
  split
  · rename_i unready
    simp [unready]
  · rename_i ready
    split
    · rename_i failure refused
      simp only [reduceCtorEq, false_iff]
      rintro ⟨_, compiles, _⟩
      cases refused.symm.trans (compileTerms_nil_eq_ok_iff.mpr ⟨rfl, compiles⟩)
    · rename_i compiledTerms accepted
      obtain ⟨rfl, compiles⟩ := compileTerms_nil_eq_ok_iff.mp accepted
      simp only [Bool.not_eq_false] at ready
      simp [ready, compiles, eq_comm]

end Matcher

/-! ## Readings are complete -/

/-- A byte read as itself or as one of its other readings. -/
def ReadsByte (table : List (UInt8 × List UInt8)) (byte read : UInt8) : Prop :=
  read = byte ∨ ∃ readings, readings? table byte = some readings ∧ read ∈ readings

theorem mem_foldl_growCandidates {table : List (UInt8 × List UInt8)}
    {read : GoString} (reads : List.Forall₂ (ReadsByte table) text read)
    {front : GoString} (member : front ++ text ∈ candidates) :
    front ++ read ∈ (ambiguousPositions table front.length text).foldl
      growCandidates candidates := by
  induction reads generalizing candidates front with
  | nil => simpa [ambiguousPositions] using member
  | @cons byte reading text read first rest induction =>
    have later : ∀ {candidates : List GoString}, front ++ reading :: text ∈ candidates →
        front ++ reading :: read ∈ (ambiguousPositions table
          (front.length + 1) text).foldl growCandidates candidates := by
      intro candidates member
      have moved := @induction candidates (front ++ [reading]) (by simpa using member)
      simpa using moved
    rw [ambiguousPositions]
    cases known : readings? table byte with
    | none =>
      rcases first with rfl | ⟨readings, found, _⟩
      · exact later member
      · cases known.symm.trans found
    | some readings =>
      apply later
      rcases first with rfl | ⟨others, found, listed⟩
      · exact List.mem_append_left _ member
      cases known.symm.trans found
      apply List.mem_append_right
      apply List.mem_flatMap.mpr
      refine ⟨reading, listed, List.mem_map.mpr ⟨_, member, ?_⟩⟩
      rw [List.set_append_right _ _ (Nat.le_refl _)]
      simp

theorem mem_candidateSkeletons {read : GoString}
    (expanded : candidateSkeletons text = some candidates)
    (reads : List.Forall₂ (ReadsByte ambiguousReadings) text read) : read ∈ candidates := by
  unfold candidateSkeletons expandCandidates at expanded
  simp only at expanded
  split at expanded
  · cases expanded
  split at expanded
  · cases expanded
  · cases expanded
    exact @mem_foldl_growCandidates [text] _ _ _ reads [] (List.mem_singleton_self text)

/-! ## A term that is hit -/

/-- The list holds a term with this skeleton. -/
def CompiledList.Holds (list : CompiledList) (text : GoString) : Prop :=
  ∃ term ∈ list.terms, term.skeleton = text

theorem CompiledList.hit_isSome (holds : list.Holds text)
    {candidate : GoString} (member : candidate ∈ candidates)
    (matched : if list.mode = .wholeSkeleton then text = candidate
      else text <:+: candidate) :
    (list.hit candidates).isSome = true := by
  obtain ⟨term, listed, rfl⟩ := holds
  rw [hit, List.findSome?_isSome_iff]
  refine ⟨candidate, member, ?_⟩
  rw [List.find?_isSome]
  refine ⟨term, listed, ?_⟩
  split
  · rename_i whole
    rw [if_pos whole] at matched
    exact decide_eq_true matched
  · rename_i part
    rw [if_neg part] at matched
    exact decide_eq_true matched

theorem walk_blocked {lists : List CompiledList} (member : list ∈ lists)
    (hit : (list.hit candidates).isSome = true) :
    (walk candidates lists).allowed = false ∧ (walk candidates lists).reason ≠ .allowed := by
  induction lists with
  | nil => cases member
  | cons first rest induction =>
    rw [walk]
    split
    · exact ⟨rfl, by simp [blockedBy]⟩
    rename_i missed
    rcases List.mem_cons.mp member with rfl | later
    · rw [missed] at hit
      cases hit
    · exact induction later

/-- A name one of whose readings hits a term is refused, unless its skeleton
is exempt. -/
theorem Matcher.check_refused {matcher : Matcher} {input : GoString}
    (hit : ∀ candidates, candidateSkeletons (skeleton input) =
      some candidates → ∃ list ∈ matcher.extra.toList ++ matcher.lists,
        (list.hit candidates).isSome = true) :
    (matcher.check skeleton input).reason ≠ .allowed ∧
      (matcher.allowlisted (skeleton input) = none →
        (matcher.check skeleton input).allowed = false) := by
  unfold check
  split
  · simp [Result.plain]
  split
  · simp [Result.plain]
  split
  · simp [Result.plain]
  split
  · rename_i entry exempt
    refine ⟨by simp, fun absent => ?_⟩
    cases exempt.symm.trans absent
  · split
    · simp [Result.plain]
    rename_i candidates expanded
    obtain ⟨list, member, isHit⟩ := hit candidates expanded
    obtain ⟨refused, reason⟩ := walk_blocked member isHit
    exact ⟨reason, fun _ => refused⟩

end Engine

end Vallet.Blocklist
