import Vallet.ListAdmin.Service

/-!
# Composing the policy at startup

The policy in force is the seed with the stored overrides replayed over it: a
tombstone takes an entry out of the seed, and a present override puts one in.
The composed lists are tried on a scratch matcher first, so that the live one
takes both or neither.
-/

namespace Vallet.ListAdmin

open Blocklist Effects Relational

/-! ## Replay -/

/-- The rows of one list in one state. -/
def decided (rows : List ListOverride) (kind : ListKind)
    (state : ListOverrideState) : List ListOverride :=
  rows.filter fun row => row.list = kind ∧ row.state = state

/-- The entry the map of added entries has for a skeleton: that of the last
row. -/
def addedEntry (rows : List ListOverride) (text : GoString) : GoString :=
  ((rows.reverse.find? fun row => row.skeleton = text).map ListOverride.entry).getD []

/-- The loop over the added rows, with the skeletons already present. -/
def appendAdded (added : GoString → GoString) : List GoString → List ListOverride → List GoString
  | _, [] => []
  | present, row :: rest =>
    if row.skeleton ∈ present then appendAdded added present rest
    else added row.skeleton :: appendAdded added (row.skeleton :: present) rest

def replay (skeleton : GoString → GoString) (seed : List GoString)
    (rows : List ListOverride) (kind : ListKind) : List GoString :=
  let tombstoned := (decided rows kind .removed).map ListOverride.skeleton
  let added := decided rows kind .present
  if tombstoned = [] ∧ added = [] then seed
  else
    let kept := seed.filter fun raw => skeleton raw ∉ tombstoned
    kept ++ appendAdded (addedEntry added) (kept.map skeleton) added

/-! ## Installing -/

/-- A decoded seed document. -/
structure SeedFile where
  extraEntries : List GoString
  allowEntries : List GoString
deriving DecidableEq, Repr

/-- The section of the configuration, with what reading its seed file gives
where it names one. -/
structure BlocklistConfig where
  extraEntries : List GoString
  allowEntries : List GoString
  seedFile : Option (Except Err SeedFile)

/-- The extra terms and the exemptions of the seed. -/
def seedLists (config : BlocklistConfig) : Except Err (List GoString × List GoString) :=
  match config.seedFile with
  | none => .ok (config.extraEntries, config.allowEntries)
  | some (.error failure) => .error failure
  | some (.ok file) => .ok (config.extraEntries ++ file.extraEntries,
      config.allowEntries ++ file.allowEntries)

/-- The program a restart runs: how it folds, and the curated lists it was
built with. -/
structure Build where
  skeleton : GoString → GoString
  lists : List TermList

namespace Build

def applyBoth (build : Build) (matcher : Matcher)
    (extra allow : List GoString) : Except Err Matcher :=
  match matcher.setExtraTerms build.skeleton extra with
  | .error failure => .error (failure.wrap "listadmin: seed blocklist terms")
  | .ok seeded =>
    match seeded.setAllowlist build.skeleton allow with
    | .error failure => .error (failure.wrap "listadmin: seed allowlist entries")
    | .ok installed => .ok installed

def install (build : Build) (matcher : Matcher)
    (extra allow : List GoString) : Except Err Matcher :=
  match newMatcher build.skeleton build.lists with
  | .error failure => .error (failure.wrap
      "listadmin: build a scratch matcher to validate the policy")
  | .ok scratch =>
    match build.applyBoth scratch extra allow with
    | .error failure => .error failure
    | .ok _ => build.applyBoth matcher extra allow

def applySeed (build : Build) (matcher : Matcher) (config : BlocklistConfig) : Except Err Matcher :=
  match seedLists config with
  | .error failure => .error failure
  | .ok (extra, allow) => build.install matcher extra allow

def loadPolicy (build : Build) (matcher : Matcher) (config : BlocklistConfig) :
    Program ListStatement (Except Err Matcher) :=
  match seedLists config with
  | .error failure => pure (.error failure)
  | .ok (extra, allow) => do
      match ← ListOverrideRepository.list with
      | .error failure => return .error (failure.wrap
          "listadmin: read the persisted list overrides")
      | .ok rows =>
        return (build.install matcher (replay build.skeleton extra rows .blocklistTerm)
          (replay build.skeleton allow rows .allowlist))

end Build

/-! ## What replay composes -/

section Replay

variable {skeleton : GoString → GoString} {rows : List ListOverride}
  {kind : ListKind} {row : ListOverride} {seed : List GoString} {key : GoString}

theorem mem_decided {state : ListOverrideState} : row ∈ decided rows kind state ↔
      row ∈ rows ∧ row.list = kind ∧ row.state = state := by
  simp [decided]

/-- Rows under their own skeletons, none twice. -/
structure Keyed (skeleton : GoString → GoString) (rows : List ListOverride) : Prop where
  folds : ∀ row ∈ rows, skeleton row.entry = row.skeleton
  filled : ∀ row ∈ rows, row.skeleton ≠ []
  distinct : (rows.map ListOverride.identity).Nodup

/-- Rows as a table folds their entries: none folds to nothing, two of one
list fold apart, and one that meets a skeleton of the base is under its own. -/
structure Separate (skeleton : GoString → GoString) (base : Set (ListKind × GoString))
    (held : Set ListOverride) : Prop where
  filled : ∀ row ∈ held, skeleton row.entry ≠ []
  apart : ∀ row ∈ held, ∀ other ∈ held, row.list = other.list →
    skeleton row.entry = skeleton other.entry → row = other
  own : ∀ row ∈ held, (row.list, row.skeleton) ∈ base ∨ (row.list, skeleton row.entry) ∈ base →
    skeleton row.entry = row.skeleton

theorem nodup_decided (distinct : (rows.map ListOverride.identity).Nodup) (kind : ListKind)
    (state : ListOverrideState) : ((decided rows kind state).map ListOverride.skeleton).Nodup := by
  apply List.Nodup.map_on
  · intro left leftMember right rightMember same
    obtain ⟨leftStored, leftKind, _⟩ := mem_decided.mp leftMember
    obtain ⟨rightStored, rightKind, _⟩ := mem_decided.mp rightMember
    apply List.inj_on_of_nodup_map distinct leftStored rightStored
    simp [ListOverride.identity, leftKind, rightKind, same]
  · exact (List.Nodup.of_map _ distinct).filter _

theorem addedEntry_eq (distinct : (rows.map ListOverride.skeleton).Nodup) (member : row ∈ rows) :
    addedEntry rows row.skeleton = row.entry := by
  unfold addedEntry
  have found : rows.reverse.find? (fun other => other.skeleton = row.skeleton) = some row := by
    cases search : rows.reverse.find? (fun other => other.skeleton = row.skeleton) with
    | none =>
      have differs := List.find?_eq_none.mp search row (List.mem_reverse.mpr member)
      simp at differs
    | some other =>
      have same := List.find?_some search
      have listed := List.mem_reverse.mp (List.mem_of_find?_eq_some search)
      congr 1
      exact List.inj_on_of_nodup_map distinct listed member (by simpa using same)
  rw [found]
  exact rfl

/-- The loop appends the entries whose skeletons are not there yet. -/
theorem appendAdded_eq {added : GoString → GoString}
    (distinct : (rows.map ListOverride.skeleton).Nodup)
    (entries : ∀ row ∈ rows, added row.skeleton = row.entry) (present : List GoString) :
    appendAdded added present rows =
      (rows.filter fun row => row.skeleton ∉ present).map ListOverride.entry := by
  induction rows generalizing present with
  | nil => exact rfl
  | cons row rest induction =>
    obtain ⟨alone, others⟩ := List.nodup_cons.mp distinct
    have later := induction others
      (fun other member => entries other (List.mem_cons_of_mem _ member))
    rw [appendAdded]
    by_cases there : row.skeleton ∈ present
    · rw [if_pos there, later, List.filter_cons_of_neg (by simpa using there)]
    rw [if_neg there, later, List.filter_cons_of_pos (by simpa using there),
      List.map_cons, entries row List.mem_cons_self]
    congr 2
    apply List.filter_congr
    intro other member
    have differs : other.skeleton ≠ row.skeleton := by
      intro same
      exact alone (same ▸ List.mem_map_of_mem member)
    simp [differs]

/-- The seed entries no tombstone takes out. -/
def survivors (skeleton : GoString → GoString) (seed : List GoString)
    (rows : List ListOverride) (kind : ListKind) : List GoString :=
  seed.filter fun raw =>
    skeleton raw ∉ (decided rows kind .removed).map ListOverride.skeleton

/-- The present rows the seed does not supply. -/
def additions (skeleton : GoString → GoString) (seed : List GoString)
    (rows : List ListOverride) (kind : ListKind) : List ListOverride :=
  (decided rows kind .present).filter fun row =>
    row.skeleton ∉ (survivors skeleton seed rows kind).map skeleton

/-- A key survives when the seed has it and no row takes it out. -/
theorem mem_survivors : key ∈ (survivors skeleton seed rows kind).map skeleton ↔
      key ∈ seed.map skeleton ∧ ∀ row ∈ rows,
        row.identity = (kind, key) → row.state = .present := by
  constructor
  · intro member
    obtain ⟨raw, listed, rfl⟩ := List.mem_map.mp member
    obtain ⟨seeded, spared⟩ := List.mem_filter.mp listed
    refine ⟨List.mem_map_of_mem seeded, ?_⟩
    intro row stored identity
    obtain ⟨kindEq, same⟩ := Prod.mk.inj identity
    cases held : row.state with
    | present => exact rfl
    | removed =>
      apply absurd _ (of_decide_eq_true spared)
      rw [← same]
      exact List.mem_map_of_mem (mem_decided.mpr ⟨stored, kindEq, held⟩)
  · rintro ⟨member, spared⟩
    obtain ⟨raw, seeded, rfl⟩ := List.mem_map.mp member
    apply List.mem_map_of_mem
    apply List.mem_filter.mpr
    refine ⟨seeded, decide_eq_true ?_⟩
    intro tombstoned
    obtain ⟨row, listed, same⟩ := List.mem_map.mp tombstoned
    obtain ⟨stored, kindEq, removed⟩ := mem_decided.mp listed
    have present := spared row stored (by simp [ListOverride.identity, kindEq, same])
    cases removed.symm.trans present

theorem mem_additions : row ∈ additions skeleton seed rows kind ↔
      row ∈ rows ∧ row.list = kind ∧ row.state = .present ∧
        row.skeleton ∉ (survivors skeleton seed rows kind).map skeleton := by
  simp [additions, mem_decided, and_assoc]

theorem replay_eq (distinct : (rows.map ListOverride.identity).Nodup) (seed : List GoString)
    (kind : ListKind) : replay skeleton seed rows kind = survivors skeleton seed rows kind ++
      (additions skeleton seed rows kind).map ListOverride.entry := by
  have apart := nodup_decided distinct kind .present
  unfold replay additions survivors
  dsimp only
  split
  · rename_i undecided
    rw [undecided.1, undecided.2]
    simp
  · rw [appendAdded_eq apart fun row member => addedEntry_eq apart member]

theorem compiles_replay {base : Set (ListKind × GoString)} {held : Set ListOverride}
    (separate : Separate skeleton base held) (distinct : (rows.map ListOverride.identity).Nodup)
    (holds : ∀ row ∈ rows, row.state = .present → row ∈ held) (compiles : Compiles skeleton seed)
    (seeded : ∀ raw ∈ seed, (kind, skeleton raw) ∈ base) :
    Compiles skeleton (replay skeleton seed rows kind) := by
  have kept : List.Sublist (survivors skeleton seed rows kind) seed := List.filter_sublist
  have added : ∀ row ∈ additions skeleton seed rows kind, row ∈ held ∧ row.list = kind := by
    intro row listed
    obtain ⟨stored, sameKind, present, _⟩ := mem_additions.mp listed
    exact ⟨holds row stored present, sameKind⟩
  rw [replay_eq distinct]
  constructor
  · intro raw member
    rcases List.mem_append.mp member with old | new
    · exact compiles.1 raw (kept.subset old)
    obtain ⟨row, listed, rfl⟩ := List.mem_map.mp new
    exact separate.filled row (added row listed).1
  rw [List.map_append, List.map_map]
  apply List.Nodup.append
  · exact compiles.2.sublist (kept.map skeleton)
  · apply List.Nodup.map_on
    · intro row listed other otherListed
      obtain ⟨⟨isHeld, sameKind⟩, otherHeld, otherKind⟩ := added row listed, added other otherListed
      exact separate.apart row isHeld other otherHeld (sameKind.trans otherKind.symm)
    · exact ((List.Nodup.of_map _ distinct).filter _).filter _
  · intro key old new
    obtain ⟨row, listed, rfl⟩ := List.mem_map.mp new
    obtain ⟨isHeld, rfl⟩ := added row listed
    obtain ⟨raw, survives, sameFold : _ = skeleton row.entry⟩ := List.mem_map.mp old
    have own := separate.own row isHeld (.inr (sameFold ▸ seeded raw (kept.subset survives)))
    exact (mem_additions.mp listed).2.2.2 (own ▸ old)

/-- A removed entry whose row is under its own skeleton stays out. -/
theorem not_mem_replay (distinct : (rows.map ListOverride.identity).Nodup) (stored : row ∈ rows)
    (removed : row.state = .removed) (own : skeleton row.entry = row.skeleton)
    (alone : ∀ other ∈ rows, other.state = .present → other.list = row.list →
      other.entry ≠ row.entry) : row.entry ∉ replay skeleton seed rows row.list := by
  rw [replay_eq distinct, List.mem_append, not_or]
  constructor
  · intro kept
    apply of_decide_eq_true (List.mem_filter.mp kept).2
    rw [own]
    exact List.mem_map_of_mem (mem_decided.mpr ⟨stored, rfl, removed⟩)
  · intro added
    obtain ⟨other, listed, spelled⟩ := List.mem_map.mp added
    obtain ⟨otherStored, sameList, present, _⟩ := mem_additions.mp listed
    exact alone other otherStored present sameList spelled

/-- A present row puts its entry in force, as its own skeleton or the seed's. -/
theorem mem_replay_of_present (distinct : (rows.map ListOverride.identity).Nodup)
    (stored : row ∈ rows) (present : row.state = .present)
    (own : row.skeleton ∈ seed.map skeleton → skeleton row.entry = row.skeleton) :
    skeleton row.entry ∈ (replay skeleton seed rows row.list).map skeleton := by
  rw [replay_eq distinct, List.map_append, List.mem_append]
  by_cases supplied : row.skeleton ∈ (survivors skeleton seed rows row.list).map skeleton
  · left
    obtain ⟨raw, survives, folded⟩ := List.mem_map.mp supplied
    rwa [own (folded ▸ List.mem_map_of_mem (List.mem_of_mem_filter survives))]
  · right
    apply List.mem_map_of_mem
    exact List.mem_map_of_mem (mem_additions.mpr ⟨stored, rfl, present, supplied⟩)

/-- A key is in the composed list when its row is present, or when the seed
has it and no row takes it out. -/
theorem mem_replay (keyed : Keyed skeleton rows) :
    key ∈ (replay skeleton seed rows kind).map skeleton ↔
      (∃ row ∈ rows, row.identity = (kind, key) ∧ row.state = .present) ∨
        (key ∈ seed.map skeleton ∧ ∀ row ∈ rows,
          row.identity = (kind, key) → row.state = .present) := by
  constructor
  · rw [replay_eq keyed.distinct, List.map_append, List.mem_append]
    rintro (old | new)
    · exact .inr (mem_survivors.mp old)
    · obtain ⟨_, entered, rfl⟩ := List.mem_map.mp new
      obtain ⟨row, listed, rfl⟩ := List.mem_map.mp entered
      obtain ⟨stored, sameKind, present, _⟩ := mem_additions.mp listed
      exact .inl ⟨row, stored, Prod.ext sameKind (keyed.folds row stored).symm, present⟩
  · rintro (⟨row, stored, identity, present⟩ | spared)
    · obtain ⟨rfl, rfl⟩ := Prod.mk.inj identity
      have own := keyed.folds row stored
      rw [← own]
      exact mem_replay_of_present keyed.distinct stored present fun _ => own
    · rw [replay_eq keyed.distinct, List.map_append, List.mem_append]
      exact .inl (mem_survivors.mpr spared)

theorem Keyed.perm {left right : List ListOverride} (keyed : Keyed skeleton right)
    (same : left.Perm right) : Keyed skeleton left where
  folds := fun row member => keyed.folds row (same.mem_iff.mp member)
  filled := fun row member => keyed.filled row (same.mem_iff.mp member)
  distinct := (same.map _).nodup_iff.mpr keyed.distinct

end Replay

/-! ## What is installed -/

theorem newMatcher_ready {skeleton : GoString → GoString}
    {lists : List TermList} {matcher : Matcher} (built : newMatcher skeleton lists = .ok matcher) :
    matcher.ready = true := by
  unfold newMatcher at built
  split at built
  · cases built
  · cases built
    exact rfl

namespace Build

variable {build : Build} {extra allow : List GoString}

/-- Two lists that compile are installed on a matcher that is ready, and no
others are. -/
theorem applyBoth_eq_ok_iff {matcher installed : Matcher} :
    build.applyBoth matcher extra allow = .ok installed ↔
      matcher.ready = true ∧ Compiles build.skeleton extra ∧ Compiles build.skeleton allow ∧
        installed = replaceTerms
          (replaceTerms matcher (compiled build.skeleton extra) .blocklistTerm)
          (compiled build.skeleton allow) .allowlist := by
  unfold applyBoth
  split
  · rename_i failure refused
    simp only [reduceCtorEq, false_iff]
    rintro ⟨ready, compiles, _⟩
    have accepted := Matcher.setExtraTerms_eq_ok_iff.mpr ⟨ready, compiles, rfl⟩
    cases refused.symm.trans accepted
  · rename_i seeded accepted
    obtain ⟨ready, compilesExtra, extended⟩ := Matcher.setExtraTerms_eq_ok_iff.mp accepted
    have stillReady : seeded.ready = true := by rw [extended, ready]
    split
    · rename_i failure refused
      simp only [reduceCtorEq, false_iff]
      rintro ⟨_, _, compiles, _⟩
      have accepted := Matcher.setAllowlist_eq_ok_iff.mpr ⟨stillReady, compiles, rfl⟩
      cases refused.symm.trans accepted
    · rename_i final acceptedAllow
      obtain ⟨_, compilesAllow, rfl⟩ := Matcher.setAllowlist_eq_ok_iff.mp acceptedAllow
      subst extended
      simp [ready, compilesExtra, compilesAllow, replaceTerms, eq_comm]

/-- The seed of a configuration that a new process of this build installs. -/
structure Accepts (build : Build) (config : BlocklistConfig)
    (fresh : Matcher) (extra allow : List GoString) : Prop where
  built : newMatcher build.skeleton build.lists = .ok fresh
  seeds : seedLists config = .ok (extra, allow)
  extra : Compiles build.skeleton extra
  allow : Compiles build.skeleton allow

theorem install_eq_ok {fresh matcher : Matcher}
    (built : newMatcher build.skeleton build.lists = .ok fresh) (ready : matcher.ready = true)
    (compilesExtra : Compiles build.skeleton extra)
    (compilesAllow : Compiles build.skeleton allow) :
    build.install matcher extra allow = .ok (replaceTerms
      (replaceTerms matcher (compiled build.skeleton extra) .blocklistTerm)
      (compiled build.skeleton allow) .allowlist) := by
  have scratch := applyBoth_eq_ok_iff.mpr
    ⟨newMatcher_ready built, compilesExtra, compilesAllow, rfl⟩
  have live := applyBoth_eq_ok_iff.mpr ⟨ready, compilesExtra, compilesAllow, rfl⟩
  simp only [install, built, scratch, live]

/-- A configuration is accepted when its seed can be applied to a new
matcher. -/
theorem accepts_of_applySeed {config : BlocklistConfig} {fresh installed : Matcher}
    (built : newMatcher build.skeleton build.lists = .ok fresh)
    (seeded : build.applySeed fresh config = .ok installed) :
    ∃ extra allow, build.Accepts config fresh extra allow := by
  unfold applySeed at seeded
  split at seeded
  · cases seeded
  rename_i extra allow seeds
  simp only [install, built] at seeded
  split at seeded
  · cases seeded
  · rename_i scratch accepted
    obtain ⟨_, compilesExtra, compilesAllow, _⟩ := applyBoth_eq_ok_iff.mp accepted
    exact ⟨extra, allow, built, seeds, compilesExtra, compilesAllow⟩

end Build

/-! ## The policy as a set -/

/-- The skeletons each list has in force. -/
def policy (matcher : Matcher) : Set (ListKind × GoString) :=
  { entry | entry.2 ∈ (terms matcher entry.1).map CompiledTerm.skeleton }

/-- The skeletons of a seed. -/
def seedPolicy (skeleton : GoString → GoString)
    (extra allow : List GoString) : Set (ListKind × GoString) :=
  { entry | entry.2 ∈ (match entry.1 with
      | .allowlist => allow
      | .blocklistTerm => extra).map skeleton }

theorem map_skeleton_compiled (skeleton : GoString → GoString) (raws : List GoString) :
    (compiled skeleton raws).map CompiledTerm.skeleton = raws.map skeleton := by
  simp [compiled]

/-- What the rows of a store decide about the entries of a seed. -/
def overlaid (base : Set (ListKind × GoString)) (overrides : Table ListOverride.identity) :
    Set (ListKind × GoString) :=
  { entry | match overrides.find? entry with
    | some row => row.state = .present
    | none => entry ∈ base }

variable {base : Set (ListKind × GoString)} {overrides : Table ListOverride.identity}
  {entry : ListKind × GoString}

theorem mem_overlaid_of_none (absent : overrides.find? entry = none) :
    entry ∈ overlaid base overrides ↔ entry ∈ base := by
  rw [overlaid, Set.mem_ofPred_eq, absent]

theorem mem_overlaid_of_some {row : ListOverride} (found : overrides.find? entry = some row) :
    entry ∈ overlaid base overrides ↔ row.state = .present := by
  rw [overlaid, Set.mem_ofPred_eq, found]

theorem mem_overlaid : entry ∈ overlaid base overrides ↔
      (∃ row ∈ overrides.rows, row.identity = entry ∧ row.state = .present) ∨
      (entry ∈ base ∧ ∀ row ∈ overrides.rows, row.identity = entry → row.state = .present) := by
  cases found : overrides.find? entry with
  | none =>
    rw [mem_overlaid_of_none found]
    have absent := Table.find?_eq_none_iff.mp found
    constructor
    · intro seeded
      exact .inr ⟨seeded, fun row stored same =>
        absurd same (absent row stored)⟩
    · rintro (⟨row, stored, same, _⟩ | ⟨seeded, _⟩)
      · exact absurd same (absent row stored)
      · exact seeded
  | some row =>
    rw [mem_overlaid_of_some found]
    obtain ⟨stored, same⟩ := Table.find?_eq_some_iff.mp found
    constructor
    · intro present
      exact .inl ⟨row, stored, same, present⟩
    · rintro (⟨other, otherStored, otherSame, present⟩ | ⟨_, present⟩)
      · rw [Table.eq_of_key_eq stored otherStored (same.trans otherSame.symm)]
        exact present
      · exact present row stored same

namespace Build

variable {build : Build} {config : BlocklistConfig} {fresh : Matcher} {extra allow : List GoString}

/-- Where the present rows fold apart the policy loads, and each list is what
replaying the rows over its seed gives. -/
theorem loadPolicy_replays (accepts : build.Accepts config fresh extra allow) {store : Store}
    (separate : Separate build.skeleton (seedPolicy build.skeleton extra allow)
      { row | row ∈ store.overrides ∧ row.state = .present }) :
    ∃ installed rows, rows.Perm store.overrides.rows ∧
      (build.loadPolicy fresh config).run listInterpreter [] store = (.ok installed, store) ∧
      InForce build.skeleton installed ∧
      ∀ kind, ∃ seed, (∀ key, (kind, key) ∈ seedPolicy build.skeleton extra allow ↔
          key ∈ seed.map build.skeleton) ∧
        terms installed kind =
          compiled build.skeleton (replay build.skeleton seed rows kind) := by
  set rows := store.overrides.rows.insertionSort ListOverride.precedes
  have same : rows.Perm store.overrides.rows := List.perm_insertionSort _ _
  have distinct := (same.map _).nodup_iff.mpr store.overrides.distinct
  have holds : ∀ row ∈ rows, row.state = .present →
      row ∈ { row | row ∈ store.overrides ∧ row.state = .present } :=
    fun row stored present => ⟨same.mem_iff.mp stored, present⟩
  have compilesExtra : Compiles _ (replay build.skeleton extra rows .blocklistTerm) :=
    compiles_replay separate distinct holds accepts.extra fun _ => List.mem_map_of_mem
  have compilesAllow : Compiles _ (replay build.skeleton allow rows .allowlist) :=
    compiles_replay separate distinct holds accepts.allow fun _ => List.mem_map_of_mem
  have ready := newMatcher_ready accepts.built
  have loads : (build.loadPolicy fresh config).run listInterpreter [] store =
      (build.install fresh (replay build.skeleton extra rows .blocklistTerm)
        (replay build.skeleton allow rows .allowlist), store) := by
    simp only [loadPolicy, accepts.seeds]
    exact rfl
  rw [install_eq_ok accepts.built ready compilesExtra compilesAllow] at loads
  refine ⟨_, rows, same, loads, ⟨ready, fun kind => ?_⟩, fun kind => ?_⟩
  · cases kind with
    | allowlist => exact ⟨_, rfl, compilesAllow⟩
    | blocklistTerm => exact ⟨_, rfl, compilesExtra⟩
  · cases kind with
    | allowlist => exact ⟨allow, fun _ => Iff.rfl, rfl⟩
    | blocklistTerm => exact ⟨extra, fun _ => Iff.rfl, rfl⟩

/-- Where every row is under its own skeleton the policy loads, and the rows
decide over the seed. -/
theorem loadPolicy_ok (accepts : build.Accepts config fresh extra allow)
    {store : Store} (keyed : Keyed build.skeleton store.overrides.rows) :
    ∃ installed, (build.loadPolicy fresh config).run listInterpreter []
        store = (.ok installed, store) ∧
      InForce build.skeleton installed ∧
      policy installed = overlaid (seedPolicy build.skeleton extra allow) store.overrides := by
  obtain ⟨installed, rows, same, loads, inForce, lists⟩ := loadPolicy_replays accepts
    { filled := fun row held => keyed.folds row held.1 ▸ keyed.filled row held.1
      apart := by
        intro row held other otherHeld sameList sameFold
        rw [keyed.folds row held.1, keyed.folds other otherHeld.1] at sameFold
        exact Table.eq_of_key_eq held.1 otherHeld.1 (Prod.ext sameList sameFold)
      own := fun row held _ => keyed.folds row held.1 }
  refine ⟨installed, loads, inForce, ?_⟩
  ext ⟨kind, key⟩
  obtain ⟨seed, seeded, held⟩ := lists kind
  rw [mem_overlaid, seeded]
  change key ∈ (terms installed kind).map _ ↔ _
  rw [held, map_skeleton_compiled, mem_replay (keyed.perm same)]
  simp only [same.mem_iff]

end Build

end Vallet.ListAdmin
