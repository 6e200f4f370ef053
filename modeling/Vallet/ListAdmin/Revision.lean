import Vallet.ListAdmin.Restarts

/-!
# Restarting with another folding table

The rows were written by a process that folded with one table; the process
that replays them may fold with another.  A row is found under the skeleton
the old table gave its entry, and compared with skeletons of the new one.
-/

namespace Vallet.ListAdmin

open Blocklist Effects Relational

/-- The last edit recorded for an entry of a list was made under the entry's
own spelling. -/
def LastEdit (service : ListAdminService) (edits : List Edit)
    (kind : ListKind) (entry : GoString) (edit : Edit) : Prop :=
  ∃ earlier later, edits = earlier ++ edit :: later ∧
    (service.op edit).kind = kind ∧ edit.entry = entry ∧
    ∀ other ∈ later, service.subject other ≠ service.subject edit

/-- The entries a matcher has installed in a list, as they were spelled. -/
def entries (matcher : Matcher) (kind : ListKind) : List GoString :=
  (terms matcher kind).map CompiledTerm.raw

theorem Consistent.find?_lastEdit {deployment : Deployment} {system : System}
    {live written : List Edit} (consistent : Consistent deployment system live written)
    {kind : ListKind} {entry : GoString} {edit : Edit}
    (last : LastEdit deployment.service written kind entry edit) :
    system.store.overrides.find? (kind, deployment.service.skeleton entry) =
      some (deployment.service.override edit) := by
  obtain ⟨earlier, later, rfl, rfl, rfl, unrevised⟩ := last
  have found := Overlay.last?_eq_of_split earlier later edit unrevised
  change Overlay.last? _ _ ((deployment.service.op edit).kind,
    deployment.service.skeleton edit.entry) = _ at found
  rw [consistent.rows, found]
  exact rfl

/-- Where the removed entries still fold to the skeletons they are stored
under, and the added ones collide neither with each other nor with the seed, a
process with another table starts, keeps what was removed out and enforces
what was added. -/
theorem edits_survive_revision {old new : Deployment} {system : System}
    (reaches : old.Reaches system)
    (completed : ∀ attempt ∈ system.ledger, attempt.outcome = .completed)
    (stable : ∀ row ∈ system.store.overrides, row.state = .removed →
      new.build.skeleton row.entry = row.skeleton)
    (separate : Separate new.build.skeleton new.seed
      { row | row ∈ system.store.overrides ∧ row.state = .present }) :
    ∃ restarted, new.Loads system.store restarted ∧
      ∀ kind entry edit,
        LastEdit old.service (system.ledger.map Attempt.edit) kind entry edit →
        (old.service.adds edit = false → entry ∉ entries restarted kind) ∧
        (old.service.adds edit = true → (kind, new.build.skeleton entry) ∈ policy restarted) := by
  obtain ⟨live, written, consistent⟩ := reaches.consistent
  have whole : ∀ attempt ∈ system.ledger, attempt.outcome ≠ .interrupted := by
    intro attempt member interrupted
    cases interrupted.symm.trans (completed attempt member)
  have writtenEq : written = system.ledger.map Attempt.edit := by
    rw [consistent.selectsWritten.eq_completed whole, List.filter_eq_self.mpr]
    intro attempt member
    exact decide_eq_true (completed attempt member)
  obtain ⟨extra, allow, accepts, seedEq⟩ := new.exists_accepts
  rw [seedEq] at separate
  obtain ⟨restarted, rows, same, loads, _, lists⟩ := Build.loadPolicy_replays accepts separate
  have distinct := (same.map _).nodup_iff.mpr system.store.overrides.distinct
  refine ⟨restarted, loads, ?_⟩
  intro kind entry edit last
  rw [← writtenEq] at last
  obtain ⟨stored, _⟩ := Table.find?_eq_some_iff.mp (consistent.find?_lastEdit last)
  obtain ⟨_, _, _, rfl, rfl, _⟩ := last
  set row := old.service.override edit
  have listed : row ∈ rows := same.mem_iff.mpr stored
  obtain ⟨seed, seeded, held⟩ := lists row.list
  constructor
  · intro edited installed
    have removed : row.state = .removed := by
      cases state : row.state with
      | removed => exact rfl
      | present => cases edited.symm.trans (present_override.mp state)
    change row.entry ∈ (terms restarted row.list).map _ at installed
    simp only [held, compiled, List.map_map, Function.comp_def, List.map_id'] at installed
    refine not_mem_replay distinct listed removed (stable row stored removed) ?_ installed
    -- a present row of this spelling would have the key of the tombstone
    intro other otherListed present sameList spelled
    have otherStored := same.mem_iff.mp otherListed
    have sameKey : other.identity = row.identity := Prod.ext sameList
      ((consistent.keyed.folds other otherStored).symm.trans (congrArg _ spelled))
    rw [Table.eq_of_key_eq otherStored stored sameKey, removed] at present
    cases present
  · intro added
    have present : row.state = .present := present_override.mpr added
    change _ ∈ (terms restarted row.list).map _
    rw [held, map_skeleton_compiled]
    apply mem_replay_of_present distinct listed present
    intro met
    exact separate.own row ⟨stored, present⟩ (.inl ((seeded row.skeleton).mpr met))

namespace Sample

/-- Tables from before the accented letter was known. -/
def oldTables : Blocklist.Unicode :=
  { Blocklist.Sample.tables with decompose := fun rune => [rune] }

def accentedSeed : BlocklistConfig where
  extraEntries := [utf8 "desk"]
  allowEntries := [utf8 "h\u00e9lp"]
  seedFile := none

/-- The matcher with one term and one exemption, as a table folds them. -/
def exemptingAs (tables : Blocklist.Unicode) (exemptions : List GoString) : Matcher :=
  { Blocklist.Sample.matcher with
    allow := some (compiled tables.skeleton exemptions)
    extra := some ⟨extraListName, .wholeSkeleton, compiled tables.skeleton [utf8 "desk"]⟩ }

def oldDesk : Deployment where
  build := ⟨oldTables.skeleton, [Blocklist.Sample.reserved]⟩
  emitter := Audit.Sample.silentEmitter
  config := accentedSeed
  fresh := Blocklist.Sample.matcher
  seeded := exemptingAs oldTables [utf8 "h\u00e9lp"]
  built := by decide +kernel
  installs := by decide +kernel

def newDesk : Deployment where
  build := reservedNames
  emitter := Audit.Sample.silentEmitter
  config := accentedSeed
  fresh := Blocklist.Sample.matcher
  seeded := exemptingAs Blocklist.Sample.tables [utf8 "h\u00e9lp"]
  built := helpDesk.built
  installs := by decide +kernel

def accentedSystem : System where
  store := firstStore
  matcher := exemptingAs oldTables [utf8 "h\u00e9lp"]
  ledger := []

theorem accentedSystem_starts : oldDesk.Starts accentedSystem where
  overrides := rfl
  loaded := Prod.ext (by decide +kernel) rfl
  ledger := rfl

/-- The exemption of the seed is withdrawn under its own spelling. -/
def accentedWithdrawal : Edit :=
  ⟨.removeAllowlistEntry, utf8 "ada", utf8 "h\u00e9lp", utf8 "rec", 5⟩

def edited (system : System) (edit : Edit) : System where
  store := (oldDesk.runEdit system edit []).2
  matcher := match (oldDesk.runEdit system edit []).1 with
    | .error _ => system.matcher
    | .ok edited => edited
  ledger := system.ledger ++ [⟨edit, outcomeOf (oldDesk.runEdit system edit []).1⟩]

def withdrawn (edit : Edit) : System := edited accentedSystem edit

theorem withdrawn_reached (edit : Edit) : oldDesk.Reaches (withdrawn edit) :=
  ⟨accentedSystem, accentedSystem_starts, .single (.edit accentedSystem edit [])⟩

end Sample

open Sample in
/-- An exemption withdrawn under the old table is back under the new one. -/
theorem revision_restores_withdrawn : oldDesk.Reaches (withdrawn accentedWithdrawal) ∧
      newDesk.config = oldDesk.config ∧
      (withdrawn accentedWithdrawal).ledger = [⟨accentedWithdrawal, .completed⟩] ∧
      LastEdit oldDesk.service [accentedWithdrawal] .allowlist
        (utf8 "h\u00e9lp") accentedWithdrawal ∧
      oldDesk.service.adds accentedWithdrawal = false ∧
      newDesk.Loads (withdrawn accentedWithdrawal).store
        (exemptingAs Blocklist.Sample.tables [utf8 "h\u00e9lp"]) ∧
      utf8 "h\u00e9lp" ∈ entries (exemptingAs Blocklist.Sample.tables [utf8 "h\u00e9lp"])
        .allowlist := by
  refine ⟨withdrawn_reached _, rfl, by decide +kernel,
    ⟨[], [], rfl, rfl, rfl, by simp⟩, rfl, ?_, ?_⟩
  · exact Prod.ext (by decide +kernel) rfl
  · exact List.mem_singleton_self _

namespace Sample

/-- The term of the seed is removed. -/
def seedRemoval : Edit :=
  ⟨.removeBlocklistTerm, utf8 "ada", utf8 "desk", utf8 "rec", 5⟩

/-- A term is added that the new table folds otherwise. -/
def accentedAddition : Edit :=
  ⟨.addBlocklistTerm, utf8 "ada", utf8 "caf\u00e9", utf8 "next", 6⟩

def addedRow : ListOverride := oldDesk.service.override accentedAddition

end Sample

open Sample in
theorem edits_survive_revision_removal :
    newDesk.build.skeleton addedRow.entry ≠ addedRow.skeleton ∧
    ∃ restarted, newDesk.Loads (edited (withdrawn seedRemoval) accentedAddition).store restarted ∧
      utf8 "desk" ∉ entries restarted .blocklistTerm ∧
      (.blocklistTerm, utf8 "cafe") ∈ policy restarted := by
  set system := edited (withdrawn seedRemoval) accentedAddition
  have reaches : oldDesk.Reaches system :=
    ⟨accentedSystem, accentedSystem_starts, .tail (.single (.edit accentedSystem seedRemoval []))
      (.edit (withdrawn seedRemoval) accentedAddition [])⟩
  have ledger : system.ledger.map Attempt.edit = [seedRemoval, accentedAddition] := by
    decide +kernel
  have only : ∀ row ∈ system.store.overrides.rows, row.state = .present → row = addedRow := by
    decide +kernel
  have folded : newDesk.build.skeleton (utf8 "caf\u00e9") = utf8 "cafe" := by decide +kernel
  have separate : Separate newDesk.build.skeleton newDesk.seed
      { row | row ∈ system.store.overrides ∧ row.state = .present } :=
    { filled := fun row held => by
        rw [only row held.1 held.2]
        decide +kernel
      apart := fun row held other otherHeld _ _ =>
        (only row held.1 held.2).trans (only other otherHeld.1 otherHeld.2).symm
      own := fun row held meets => by
        rw [only row held.1 held.2] at meets ⊢
        change _ ∈ List.map _ _ ∨ _ ∈ List.map _ _ at meets
        revert meets
        decide +kernel }
  have stable : ∀ row ∈ system.store.overrides.rows, row.state = .removed →
      newDesk.build.skeleton row.entry = row.skeleton := by decide +kernel
  obtain ⟨restarted, loads, survive⟩ :=
    edits_survive_revision reaches (by decide +kernel) stable separate
  rw [ledger] at survive
  have removed : LastEdit oldDesk.service [seedRemoval, accentedAddition] .blocklistTerm
      (utf8 "desk") seedRemoval := ⟨[], [accentedAddition], rfl, rfl, rfl, by decide +kernel⟩
  have added : LastEdit oldDesk.service [seedRemoval, accentedAddition] .blocklistTerm
      (utf8 "caf\u00e9") accentedAddition := ⟨[seedRemoval], [], rfl, rfl, rfl, by simp⟩
  refine ⟨by decide +kernel, restarted, loads, (survive _ _ _ removed).1 rfl, ?_⟩
  rw [← folded]
  exact (survive _ _ _ added).2 rfl

end Vallet.ListAdmin
