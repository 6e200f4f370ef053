import Mathlib.Logic.Relation
import Vallet.Blocklist.Evasion
import Vallet.Foundation.Overlay
import Vallet.ListAdmin.Policy

/-!
# The policy over restarts

A deployment starts from its seed.  Edits come in, some are refused, some are
interrupted between their writes, some kill the process, and the process is
started again over the rows that were written.  The ledger keeps what was
asked and how it ended.
-/

namespace Vallet.ListAdmin

open Audit Blocklist Effects Relational

/-- A build with a configuration whose seed it installs on a new matcher. -/
structure Deployment where
  build : Build
  emitter : Emitter
  config : BlocklistConfig
  fresh : Matcher
  seeded : Matcher
  built : newMatcher build.skeleton build.lists = .ok fresh
  installs : build.applySeed fresh config = .ok seeded

namespace Deployment

def service (deployment : Deployment) : ListAdminService where
  skeleton := deployment.build.skeleton
  emitter := deployment.emitter

/-- What the seed alone puts in force. -/
def seed (deployment : Deployment) : Set (ListKind × GoString) :=
  match seedLists deployment.config with
  | .error _ => ∅
  | .ok (extra, allow) => seedPolicy deployment.build.skeleton extra allow

end Deployment

/-! ## Runs -/

inductive Outcome where
  | refused
  | interrupted
  | completed
deriving DecidableEq, Repr

structure Attempt where
  edit : Edit
  outcome : Outcome
deriving DecidableEq, Repr

/-- An edit is interrupted when it fails after it has begun to write. -/
def outcomeOf : Except Failure Matcher → Outcome
  | .error ⟨false, _⟩ => .refused
  | .error ⟨true, _⟩ => .interrupted
  | .ok _ => .completed

/-- The same for an edit whose process dies before it answers. -/
def outcomeOfCrash : Except Failure Matcher → Outcome
  | .error ⟨false, _⟩ => .refused
  | _ => .interrupted

/-- The store, the lists in force, and the edits that were tried. -/
structure System where
  store : Store
  matcher : Matcher
  ledger : List Attempt

namespace Deployment

/-- Start a process over a store. -/
def Loads (deployment : Deployment) (store : Store) (matcher : Matcher) : Prop :=
  (deployment.build.loadPolicy deployment.fresh deployment.config).run
    listInterpreter [] store = (.ok matcher, store)

def runEdit (deployment : Deployment) (system : System) (edit : Edit)
    (faults : List Bool) : Except Failure Matcher × Store :=
  (deployment.service.edit system.matcher edit).run listInterpreter faults system.store

/-- An edit, an edit that kills its process, a start, or a change of the
administrators. -/
inductive Step (deployment : Deployment) : System → System → Prop where
  | edit (system : System) (edit : Edit) (faults : List Bool) :
      Step deployment system
        { store := (deployment.runEdit system edit faults).2
          matcher := match (deployment.runEdit system edit faults).1 with
            | .error _ => system.matcher
            | .ok edited => edited
          ledger := system.ledger ++ [⟨edit, outcomeOf (deployment.runEdit system edit faults).1⟩] }
  | crash (system : System) (edit : Edit) (faults : List Bool) {matcher : Matcher}
      (loaded : deployment.Loads (deployment.runEdit system edit faults).2 matcher) :
      Step deployment system
        { store := (deployment.runEdit system edit faults).2
          matcher := matcher
          ledger := system.ledger ++ [⟨edit,
            outcomeOfCrash (deployment.runEdit system edit faults).1⟩] }
  | restart (system : System) {matcher : Matcher} (loaded : deployment.Loads system.store matcher) :
      Step deployment system { system with matcher := matcher }
  | administer (system : System) (administrators : Table Administrator.id) :
      Step deployment system { system with
        store := { system.store with administrators := administrators } }

/-- A first start, before any override is stored. -/
structure Starts (deployment : Deployment) (system : System) : Prop where
  overrides : system.store.overrides = .empty
  loaded : deployment.Loads system.store system.matcher
  ledger : system.ledger = []

/-- A state that some run leads to from a first start. -/
def Reaches (deployment : Deployment) (system : System) : Prop :=
  ∃ start, deployment.Starts start ∧ Relation.ReflTransGen deployment.Step start system

end Deployment

/-! ## What is left of a ledger -/

/-- All completed edits and some of the interrupted ones, in order. -/
inductive Selects : List Attempt → List Edit → Prop where
  | none : Selects [] []
  | refused {ledger : List Attempt} {edits : List Edit} (edit : Edit)
      (earlier : Selects ledger edits) :
      Selects (ledger ++ [⟨edit, .refused⟩]) edits
  | lost {ledger : List Attempt} {edits : List Edit} (edit : Edit)
      (earlier : Selects ledger edits) :
      Selects (ledger ++ [⟨edit, .interrupted⟩]) edits
  | kept {ledger : List Attempt} {edits : List Edit} (edit : Edit)
      (earlier : Selects ledger edits) :
      Selects (ledger ++ [⟨edit, .interrupted⟩]) (edits ++ [edit])
  | completed {ledger : List Attempt} {edits : List Edit} (edit : Edit)
      (earlier : Selects ledger edits) :
      Selects (ledger ++ [⟨edit, .completed⟩]) (edits ++ [edit])

variable {service : ListAdminService} {edit : Edit} {written live : List Edit}
  {deployment : Deployment} {system : System}

/-- Where nothing was interrupted the completed edits are left, and nothing
else. -/
theorem Selects.eq_completed {ledger : List Attempt} {edits : List Edit}
    (selects : Selects ledger edits) (whole : ∀ attempt ∈ ledger, attempt.outcome ≠ .interrupted) :
    edits = (ledger.filter fun attempt =>
      attempt.outcome = .completed).map Attempt.edit := by
  induction selects with
  | none => exact rfl
  | refused edit earlier induction | completed edit earlier induction =>
    rw [induction fun attempt member => whole attempt (List.mem_append_left _ member)]
    simp
  | lost edit earlier induction | kept edit earlier induction =>
    exact absurd rfl (whole ⟨edit, .interrupted⟩ (by simp))

namespace ListAdminService

/-- The list entry an edit decides about. -/
def subject (service : ListAdminService) (edit : Edit) : ListKind × GoString :=
  ((service.op edit).kind, service.skeleton edit.entry)

def adds (service : ListAdminService) (edit : Edit) : Bool :=
  (service.op edit).add

/-- The policy that edits make of a base. -/
def after (service : ListAdminService) (base : Set (ListKind × GoString))
    (edits : List Edit) : Set (ListKind × GoString) :=
  Overlay.settle service.subject service.adds base edits

end ListAdminService

/-- The record of a weakening edit is in the log. -/
def RecordedIn (service : ListAdminService) (store : Store) (edit : Edit) : Prop :=
  (service.op edit).weakens = true → ∃ record ∈ store.auditRecords, Records service edit record

/-- How the lists in force and the stored rows come from the ledger. -/
structure Consistent (deployment : Deployment) (system : System)
    (live written : List Edit) : Prop where
  inForce : InForce deployment.build.skeleton system.matcher
  policy : policy system.matcher = deployment.service.after deployment.seed live
  keyed : Keyed deployment.build.skeleton system.store.overrides.rows
  rows : ∀ key, system.store.overrides.find? key =
    (Overlay.last? deployment.service.subject written key).map deployment.service.override
  selectsLive : Selects system.ledger live
  selectsWritten : Selects system.ledger written
  liveRecorded : ∀ edit ∈ live, RecordedIn deployment.service system.store edit
  writtenRecorded : ∀ edit ∈ written, RecordedIn deployment.service system.store edit

/-! ## Starting over stored rows -/

namespace Deployment

variable {deployment : Deployment} {store : Store}

theorem exists_accepts (deployment : Deployment) : ∃ extra allow,
      deployment.build.Accepts deployment.config deployment.fresh extra allow ∧
      deployment.seed = seedPolicy deployment.build.skeleton extra allow := by
  obtain ⟨extra, allow, accepts⟩ := Build.accepts_of_applySeed deployment.built deployment.installs
  refine ⟨extra, allow, accepts, ?_⟩
  simp only [seed, accepts.seeds]

theorem loads_of_keyed (keyed : Keyed deployment.build.skeleton store.overrides.rows) :
    ∃ matcher, deployment.Loads store matcher ∧ InForce deployment.build.skeleton matcher ∧
      policy matcher = overlaid deployment.seed store.overrides := by
  obtain ⟨extra, allow, accepts, seedEq⟩ := deployment.exists_accepts
  rw [seedEq]
  exact Build.loadPolicy_ok accepts keyed

theorem Loads.unique {left right : Matcher} (leftLoads : deployment.Loads store left)
    (rightLoads : deployment.Loads store right) : left = right := by
  have same := leftLoads.symm.trans rightLoads
  exact Except.ok.inj (Prod.mk.inj same).1

end Deployment

theorem present_override : (service.override edit).state = .present ↔ service.adds edit = true := by
  cases added : (service.op edit).add with
  | true | false => simp [ListAdminService.override, ListOp.state, added, ListAdminService.adds]

/-- Rows that hold the last decisions lay them over the base. -/
theorem overlaid_eq_after {overrides : Table ListOverride.identity}
    (rows : ∀ key, overrides.find? key =
      (Overlay.last? service.subject written key).map service.override)
    (base : Set (ListKind × GoString)) : overlaid base overrides = service.after base written := by
  ext key
  rw [ListAdminService.after, Overlay.mem_settle]
  have found := rows key
  cases last : Overlay.last? service.subject written key with
  | none =>
    rw [last] at found
    exact mem_overlaid_of_none found
  | some edit =>
    rw [last] at found
    exact (mem_overlaid_of_some found).trans present_override

/-- After a start the lists in force are those of the rows. -/
theorem Consistent.reload (consistent : Consistent deployment system live written)
    {matcher : Matcher} (loaded : deployment.Loads system.store matcher) :
    Consistent deployment { system with matcher := matcher } written written := by
  obtain ⟨installed, loads, inForce, composed⟩ := deployment.loads_of_keyed consistent.keyed
  cases loads.unique loaded
  exact
    { consistent with
      inForce := inForce
      policy := by rw [composed, overlaid_eq_after consistent.rows]
      selectsLive := consistent.selectsWritten
      liveRecorded := consistent.writtenRecorded }

/-! ## One edit -/

section OneEdit

variable {service : ListAdminService} {edit : Edit} {overrides : Table ListOverride.identity}

theorem policy_applied {matcher edited : Matcher} {next : List GoString}
    (inForce : InForce service.skeleton matcher)
    (valid : validateEntry service.skeleton edit.entry = .ok ())
    (computed : nextSet service.skeleton ((service.op edit).current matcher)
      edit.entry (service.op edit).add = .ok next)
    (applied : (service.op edit).apply matcher next = .ok edited) :
    InForce service.skeleton edited ∧
      policy edited = Overlay.lay service.subject service.adds (policy matcher) edit := by
  obtain ⟨raws, held, compiles⟩ := inForce.lists (service.op edit).kind
  have listed : ((service.op edit).current matcher).Perm raws := by
    have same : ((service.op edit).current matcher).Perm
        ((terms matcher (service.op edit).kind).map CompiledTerm.raw) :=
      edit.operation.current_perm inForce.ready
    rw [held] at same
    simpa [compiled, Function.comp_def] using same
  have readable := Compiles.perm listed compiles
  obtain ⟨nextCompiles, members⟩ := nextSet_ok readable (validateEntry_ok valid).2 computed
  obtain ⟨ready, _, rfl⟩ := edit.operation.apply_eq_ok_iff.mp applied
  constructor
  · refine ⟨by simpa using ready, ?_⟩
    intro kind
    rw [terms_replaceTerms]
    split
    · exact ⟨next, rfl, nextCompiles⟩
    · exact inForce.lists kind
  · ext ⟨kind, key⟩
    change key ∈ (terms (replaceTerms _ _ _) kind).map _ ↔
      if (kind, key) = ((service.op edit).kind, service.skeleton edit.entry)
      then (service.op edit).add = true
      else key ∈ (terms matcher kind).map CompiledTerm.skeleton
    rw [terms_replaceTerms]
    by_cases same : kind = (service.op edit).kind
    · subst same
      rw [if_pos (by exact rfl), map_skeleton_compiled, members, held, map_skeleton_compiled]
      simp only [Prod.mk.injEq, true_and, (listed.map service.skeleton).mem_iff]
    · rw [if_neg (by exact same), if_neg]
      intro equal
      exact same (Prod.mk.inj equal).1

theorem Keyed.put (keyed : Keyed service.skeleton overrides.rows)
    (valid : validateEntry service.skeleton edit.entry = .ok ()) :
    Keyed service.skeleton (overrides.put (service.override edit)).rows := by
  have stored : ∀ row ∈ (overrides.put (service.override edit)).rows,
      row ∈ overrides.rows ∨ row = service.override edit := by
    intro row member
    rcases Table.mem_put.mp member with ⟨old, _⟩ | new
    · exact .inl old
    · exact .inr new
  refine ⟨?_, ?_, (overrides.put (service.override edit)).distinct⟩
  · intro row member
    rcases stored row member with old | rfl
    · exact keyed.folds row old
    · exact rfl
  · intro row member
    rcases stored row member with old | rfl
    · exact keyed.filled row old
    · exact (validateEntry_ok valid).2

theorem rows_put {written : List Edit} (rows : ∀ key, overrides.find? key =
      (Overlay.last? service.subject written key).map service.override)
    (key : ListKind × GoString) :
    (overrides.put (service.override edit)).find? key =
      (Overlay.last? service.subject (written ++ [edit]) key).map service.override := by
  rw [Overlay.last?_append_singleton]
  by_cases same : key = (service.override edit).identity
  · rw [if_pos (by exact same), same, Table.find?_put_self]
    exact rfl
  · rw [if_neg (by exact same), Table.find?_put_of_ne _ _ same, rows]

end OneEdit

section

variable (consistent : Consistent deployment system live written)

include consistent

/-- The ledger and the rows after the writes of an edit. -/
theorem Consistent.wrote {after : Store}
    {persisted : Bool} (valid : validateEntry deployment.service.skeleton edit.entry = .ok ())
    (wrote : Wrote deployment.service edit system.store after persisted) :
    Consistent deployment
      { system with
        store := after
        ledger := system.ledger ++ [⟨edit, .interrupted⟩] }
      live (if persisted then written ++ [edit] else written) := by
  have recorded : ∀ other, RecordedIn deployment.service system.store other →
        RecordedIn deployment.service after other := by
    intro other earlier weakens
    obtain ⟨record, member, records⟩ := earlier weakens
    exact ⟨record, wrote.kept record member, records⟩
  have overrides := wrote.overrides
  cases persisted with
  | false =>
    simp only [Bool.false_eq_true, if_false] at overrides ⊢
    exact
      { consistent with
        keyed := by rw [overrides]; exact consistent.keyed
        rows := by rw [overrides]; exact consistent.rows
        selectsLive := .lost edit consistent.selectsLive
        selectsWritten := .lost edit consistent.selectsWritten
        liveRecorded := fun other member =>
          recorded other (consistent.liveRecorded other member)
        writtenRecorded := fun other member =>
          recorded other (consistent.writtenRecorded other member) }
  | true =>
    simp only [if_true] at overrides ⊢
    refine
      { consistent with
        keyed := by rw [overrides]; exact consistent.keyed.put valid
        rows := by rw [overrides]; exact rows_put consistent.rows
        selectsLive := .lost edit consistent.selectsLive
        selectsWritten := .kept edit consistent.selectsWritten
        liveRecorded := fun other member =>
          recorded other (consistent.liveRecorded other member)
        writtenRecorded := ?_ }
    intro other member
    rcases List.mem_append.mp member with old | new
    · exact recorded other (consistent.writtenRecorded other old)
    · rw [List.mem_singleton.mp new]
      exact wrote.recorded rfl

theorem Consistent.refused (edit : Edit) : Consistent deployment
      { system with ledger := system.ledger ++ [⟨edit, .refused⟩] }
      live written :=
  { consistent with
    selectsLive := .refused edit consistent.selectsLive
    selectsWritten := .refused edit consistent.selectsWritten }

theorem Consistent.completed {after : Store} {edited : Matcher} {next : List GoString}
    (valid : validateEntry deployment.service.skeleton edit.entry = .ok ())
    (computed : nextSet deployment.service.skeleton
      ((deployment.service.op edit).current system.matcher) edit.entry
      (deployment.service.op edit).add = .ok next)
    (wrote : Wrote deployment.service edit system.store after true)
    (applied : (deployment.service.op edit).apply system.matcher next = .ok edited) :
    Consistent deployment
      { store := after
        matcher := edited
        ledger := system.ledger ++ [⟨edit, .completed⟩] }
      (live ++ [edit]) (written ++ [edit]) := by
  have writes : Consistent deployment _ live (written ++ [edit]) := consistent.wrote valid wrote
  obtain ⟨inForce, decided⟩ := policy_applied consistent.inForce valid computed applied
  refine
    { writes with
      inForce := inForce
      policy := ?_
      selectsLive := .completed edit consistent.selectsLive
      selectsWritten := .completed edit consistent.selectsWritten
      liveRecorded := ?_ }
  · rw [decided, consistent.policy, ListAdminService.after,
      ListAdminService.after, Overlay.settle_append_singleton]
  · intro other member
    rcases List.mem_append.mp member with old | new
    · exact writes.liveRecorded other old
    · apply writes.writtenRecorded
      exact List.mem_append_right _ new

end

theorem Deployment.runEdit_ended (deployment : Deployment) (system : System)
    (edit : Edit) (faults : List Bool) :
    ListAdminService.Ended deployment.service system.matcher edit
      system.store (deployment.runEdit system edit faults).1
      (deployment.runEdit system edit faults).2 :=
  (deployment.service.edit_ensures edit system.store system.matcher).run faults

/-- Every step keeps the lists, the rows and the ledger together. -/
theorem Consistent.step {before after : System}
    (consistent : Consistent deployment before live written) (step : deployment.Step before after) :
    ∃ live written, Consistent deployment after live written := by
  cases step with
  | edit edit faults =>
    have ended := deployment.runEdit_ended before edit faults
    generalize deployment.runEdit before edit faults = answer at ended ⊢
    obtain ⟨result, final⟩ := answer
    cases ended with
    | refused error => exact ⟨_, _, consistent.refused edit⟩
    | interrupted error persisted _ valid wrote => exact ⟨_, _, consistent.wrote valid wrote⟩
    | completed _ valid computed wrote applied =>
      exact ⟨_, _, consistent.completed valid computed wrote applied⟩
  | @crash edit faults matcher loaded =>
    have ended := deployment.runEdit_ended before edit faults
    generalize deployment.runEdit before edit faults = answer at ended loaded ⊢
    obtain ⟨result, final⟩ := answer
    cases ended with
    | refused error => exact ⟨_, _, (consistent.refused edit).reload loaded⟩
    | interrupted error persisted _ valid wrote | completed _ valid computed wrote applied =>
      exact ⟨_, _, (consistent.wrote valid wrote).reload loaded⟩
  | restart loaded => exact ⟨_, _, consistent.reload loaded⟩
  | administer administrators => exact ⟨live, written, { consistent with }⟩

theorem Consistent.start (starts : deployment.Starts system) :
    Consistent deployment system [] [] := by
  have keyed : Keyed deployment.build.skeleton system.store.overrides.rows := by
    rw [starts.overrides]
    exact ⟨by simp, by simp, by simp⟩
  obtain ⟨installed, loads, inForce, composed⟩ := deployment.loads_of_keyed keyed
  cases loads.unique starts.loaded
  refine
    { inForce := inForce
      policy := ?_
      keyed := keyed
      rows := ?_
      selectsLive := by rw [starts.ledger]; exact .none
      selectsWritten := by rw [starts.ledger]; exact .none
      liveRecorded := by simp
      writtenRecorded := by simp }
  · rw [composed, starts.overrides]
    exact rfl
  · intro key
    rw [starts.overrides]
    exact rfl

theorem Deployment.Reaches.consistent (reaches : deployment.Reaches system) :
    ∃ live written, Consistent deployment system live written := by
  obtain ⟨start, starts, steps⟩ := reaches
  induction steps with
  | refl => exact ⟨[], [], .start starts⟩
  | tail _ step induction =>
    obtain ⟨live, written, consistent⟩ := induction
    exact consistent.step step

/-- An edit by anyone but an active administrator is refused without an
effect. -/
theorem Deployment.runEdit_unauthorized (deployment : Deployment)
    (system : System) (edit : Edit) (faults : List Bool)
    (unauthorized : ¬system.store.Authorizes edit.actor) :
    ∃ error, deployment.runEdit system edit faults = (.error ⟨false, error⟩, system.store) := by
  have ended := deployment.runEdit_ended system edit faults
  generalize deployment.runEdit system edit faults = answer at ended ⊢
  obtain ⟨result, final⟩ := answer
  cases ended with
  | refused error => exact ⟨error, rfl⟩
  | interrupted _ _ authorized | completed authorized => exact absurd authorized unauthorized

/-- A restart succeeds from wherever a run has come.  Where no edit was
interrupted it installs what was in force; in general it installs the seed
with all completed and some of the interrupted edits.  No permissive edit is
in force, before or after, without its record, and whoever is not an active
administrator changes nothing. -/
theorem policy_survives_restart {deployment : Deployment} {system : System}
    (reaches : deployment.Reaches system) :
    ∃ restarted, deployment.Loads system.store restarted ∧
      ((∀ attempt ∈ system.ledger, attempt.outcome ≠ .interrupted) →
        policy restarted = policy system.matcher) ∧
      (∃ written, Selects system.ledger written ∧
        policy restarted = deployment.service.after deployment.seed written ∧
        ∀ edit ∈ written, RecordedIn deployment.service system.store edit) ∧
      (∃ live, Selects system.ledger live ∧
        policy system.matcher = deployment.service.after deployment.seed live ∧
        ∀ edit ∈ live, RecordedIn deployment.service system.store edit) ∧
      ∀ edit faults, ¬system.store.Authorizes edit.actor →
        ∃ error, deployment.runEdit system edit faults = (.error ⟨false, error⟩, system.store) := by
  obtain ⟨live, written, consistent⟩ := reaches.consistent
  obtain ⟨restarted, loads, _, composed⟩ := deployment.loads_of_keyed consistent.keyed
  have restartedPolicy : policy restarted = deployment.service.after deployment.seed written := by
    rw [composed, overlaid_eq_after consistent.rows]
  refine ⟨restarted, loads, ?_, ?_, ?_, ?_⟩
  · intro whole
    rw [restartedPolicy, consistent.policy, consistent.selectsWritten.eq_completed whole,
      consistent.selectsLive.eq_completed whole]
  · exact ⟨written, consistent.selectsWritten, restartedPolicy, consistent.writtenRecorded⟩
  · exact ⟨live, consistent.selectsLive, consistent.policy, consistent.liveRecorded⟩
  · exact deployment.runEdit_unauthorized system

namespace Sample

def reservedNames : Build where
  skeleton := Blocklist.Sample.tables.skeleton
  lists := [Blocklist.Sample.reserved]

/-- A seed with one exemption. -/
def helpSeed : BlocklistConfig where
  extraEntries := []
  allowEntries := [utf8 "help"]
  seedFile := none

def exempting (exemptions : List GoString) : Matcher :=
  { Blocklist.Sample.matcher with
    allow := some (exemptions.map fun raw => ⟨raw, raw⟩)
    extra := some ⟨extraListName, .wholeSkeleton, []⟩ }

def helpDesk : Deployment where
  build := reservedNames
  emitter := Audit.Sample.silentEmitter
  config := helpSeed
  fresh := Blocklist.Sample.matcher
  seeded := exempting [utf8 "help"]
  built := by decide +kernel
  installs := by decide +kernel

def firstStore : Store where
  administrators := ⟨[⟨utf8 "ada", .active⟩], by decide⟩
  overrides := .empty
  auditRecords := .empty

def firstSystem : System where
  store := firstStore
  matcher := exempting [utf8 "help"]
  ledger := []

/-- The exemption is withdrawn under another spelling, and the audit log is
not reachable. -/
def withdrawal : Edit :=
  ⟨.removeAllowlistEntry, utf8 "ada", utf8 "HELP", utf8 "rec", 5⟩

def withdrawalFaults : List Bool := [false, false, true]

end Sample

open Sample in
theorem policy_survives_restart_withdrawal : ∃ restarted, helpDesk.Loads
        (helpDesk.runEdit firstSystem withdrawal withdrawalFaults).2
        restarted ∧
      outcomeOf (helpDesk.runEdit firstSystem withdrawal withdrawalFaults).1 = .interrupted ∧
      (.allowlist, utf8 "help") ∈ policy firstSystem.matcher ∧
      (.allowlist, utf8 "help") ∉ policy restarted := by
  have starts : helpDesk.Starts firstSystem :=
    { overrides := rfl
      loaded := Prod.ext (by decide +kernel) rfl
      ledger := rfl }
  have reaches : helpDesk.Reaches _ :=
    ⟨firstSystem, starts, .single (.edit firstSystem withdrawal withdrawalFaults)⟩
  obtain ⟨restarted, loads, _⟩ := policy_survives_restart reaches
  have reloaded : helpDesk.Loads (helpDesk.runEdit firstSystem withdrawal withdrawalFaults).2
      (exempting []) := Prod.ext (by decide +kernel) rfl
  cases loads.unique reloaded
  refine ⟨_, loads, by decide +kernel, ?_, ?_⟩
  · exact List.mem_singleton_self _
  · exact List.not_mem_nil

end Vallet.ListAdmin
