import Vallet.Publishing.HandleEffects

/-!
# Quarantine of vacated names

Transactions run one after another.  The book of vacations says who gave up
which name and when; until the quarantine of a vacation is over, the name is
held by its owner, as a tombstone or as the active handle again.
-/

namespace Vallet.Publishing

open Audit Auth Effects Relational Table

/-- A name that was given up. -/
structure Vacation where
  name : GoString
  ownerID : OwnerID
  vacatedAt : Int
deriving DecidableEq, Repr

/-- The store and the clock, with a record of the names that were given up. -/
structure HandleSystem where
  catalog : Catalog
  clock : Int
  vacations : List Vacation

namespace HandleSystem

section Steps

variable (service : HandleService)

/-- The name a successful rename has given up. -/
def vacation (call : RenameCall) (result : Except Err Handle)
    (old : Option Handle) : List Vacation :=
  match result, old with
  | .ok _, some handle => [⟨handle.name, call.ownerID, call.vacatedAt⟩]
  | _, _ => []

def rename (system : HandleSystem) (call : RenameCall) (plan : FaultPlan) : HandleSystem where
  catalog := (service.rename call plan system.catalog).2
  clock := call.vacatedAt
  vacations := vacation call (service.rename call plan system.catalog).1
    (system.catalog.activeHandle call.ownerID) ++ system.vacations

/-- The transaction that releases one hold. -/
def release (system : HandleSystem) (handle : Handle) (now : Int)
    (details : List (DetailKey × GoString))
    (draws : HandleService.SweepDraws) : HandleSystem :=
  { system with
    catalog := (transact handleInterpreter driverFault (service.releaseTx
      handle now details draws.auditID draws.recordedAt) draws.plan system.catalog).2 }

/-- One transaction, or time passing.  A sweep reads the clock once, before its
transactions. -/
inductive Step : HandleSystem → HandleSystem → Prop where
  | rename {system : HandleSystem} (call : RenameCall) (plan : FaultPlan)
      (later : system.clock ≤ call.now) (order : call.now ≤ call.vacatedAt) :
      Step system (system.rename service call plan)
  | release {system : HandleSystem} (handle : Handle) (now : Int)
      (details : List (DetailKey × GoString))
      (draws : HandleService.SweepDraws) (past : now ≤ system.clock) :
      Step system (system.release service handle now details draws)
  | wait {system : HandleSystem} (now : Int) (later : system.clock ≤ now) :
      Step system { system with clock := now }

def Runs : HandleSystem → HandleSystem → Prop :=
  Relation.ReflTransGen (Step service)

/-- A whole sweep. -/
def releaseExpired (system : HandleSystem) (limit now : Int) (faulted : Bool)
    (draws : Handle → HandleService.SweepDraws) : HandleSystem :=
  { system with
    catalog := (service.releaseExpired limit now faulted draws system.catalog).2 }

/-- A store that the unique indexes accept, before any rename. -/
def fresh (catalog : Catalog) (clock : Int) : HandleSystem where
  catalog := catalog
  clock := clock
  vacations := []

end Steps

variable {service : HandleService} {call : RenameCall} {vacation : Vacation}
  {row : Handle} {system next : HandleSystem}

theorem release_cases (service : HandleService) (system : HandleSystem)
    (handle : Handle) (now : Int) (details : List (DetailKey × GoString))
    (draws : HandleService.SweepDraws) :
    (system.release service handle now details draws).catalog = system.catalog ∨
    Releasing handle now system.catalog (system.release service handle now details draws).catalog :=
  releaseTx_cases service handle now details draws system.catalog

theorem releaseExpired_runs (service : HandleService) (limit now : Int)
    (faulted : Bool) (draws : Handle → HandleService.SweepDraws)
    (system : HandleSystem) (past : now ≤ system.clock) :
    Runs service system (system.releaseExpired service limit now faulted draws) := by
  let moved (before after : Catalog) : Prop :=
    Step service { system with catalog := before } { system with catalog := after }
  have steps : Relation.ReflTransGen moved system.catalog
      (service.releaseExpired limit now faulted draws system.catalog).2 :=
    releaseExpired_steps (fun catalog handle details draws =>
      (Step.release handle now details draws past : Step service
        { system with catalog := catalog } _)) limit faulted draws _
  exact steps.lift (fun catalog => { system with catalog := catalog })
    fun _ _ step => step

/-! ## Holds -/

/-- A row that keeps the name of a vacation for its owner. -/
structure Holds (service : HandleService) (vacation : Vacation) (row : Handle) : Prop where
  name : row.name = vacation.name
  ownerID : row.ownerID = vacation.ownerID
  state : row.state = .active ∨ (row.state = .quarantined ∧
    ∃ deadline, row.quarantineUntil = some deadline ∧
      vacation.vacatedAt + service.quarantine ≤ deadline)

/-- Until its quarantine is over, every name given up is held. -/
structure Sound (service : HandleService) (system : HandleSystem) : Prop where
  unique : system.catalog.handles.Unique Handle.clashes
  past : ∀ vacation ∈ system.vacations, vacation.vacatedAt ≤ system.clock
  held : ∀ vacation ∈ system.vacations, system.clock < vacation.vacatedAt + service.quarantine →
    ∃ row ∈ system.catalog.handles, Holds service vacation row

theorem sound_fresh {catalog : Catalog}
    (unique : catalog.handles.Unique Handle.clashes) (clock : Int) :
    Sound service (fresh catalog clock) where
  unique := unique
  past := nofun
  held := nofun

variable {before after : Table Handle.id}

/-- A hold survives every rename, as the same row, as a later tombstone or as
the active handle. -/
theorem Holds.of_renaming {old claimed : Handle}
    (renamed : Renaming service call before after old claimed)
    (holds : Holds service vacation row) (stored : row ∈ before)
    (earlier : vacation.vacatedAt ≤ call.vacatedAt) :
    ∃ later ∈ after, Holds service vacation later := by
  by_cases vacated : row.id = old.id
  · obtain rfl := eq_of_key_eq stored renamed.stored vacated
    refine ⟨_, (renamed.rows _).mpr (.inr (.inl rfl)), holds.name,
      holds.ownerID, .inr ⟨rfl, _, rfl, ?_⟩⟩
    omega
  · by_cases taken : row.id = claimed.id
    · rcases renamed.claim with
        ⟨existing, member, _, _, _, _, rfl⟩ | ⟨_, absent, _⟩
      · obtain rfl := eq_of_key_eq stored member taken
        exact ⟨_, (renamed.rows _).mpr (.inr (.inr rfl)), holds.name, holds.ownerID, .inl rfl⟩
      · exact (absent row stored taken).elim
    · exact ⟨row, (renamed.rows row).mpr (.inl ⟨stored, vacated, taken⟩), holds⟩

theorem Holds.not_expired (holds : Holds service vacation row) {now : Int}
    (running : now < vacation.vacatedAt + service.quarantine) :
    row.quarantineExpired now = false := by
  rw [Bool.eq_false_iff]
  intro expired
  simp only [Handle.quarantineExpired, Bool.and_eq_true, decide_eq_true_eq,
    Option.any_eq_true] at expired
  obtain ⟨quarantined, deadline, until_, reached⟩ := expired
  rcases holds.state with active | ⟨_, other, same, lasting⟩
  · rw [active] at quarantined
    cases quarantined
  · rw [same] at until_
    cases until_
    omega

theorem Sound.step (sound : Sound service system)
    (step : Step service system next) : Sound service next := by
  cases step with
  | wait now later =>
    refine ⟨sound.unique, fun vacation recorded =>
      (sound.past vacation recorded).trans later,
      fun vacation recorded running => sound.held vacation recorded ?_⟩
    exact lt_of_le_of_lt later running
  | release handle now details draws past =>
    rcases release_cases service system handle now details draws with
      unchanged | ⟨_, _, _, _, _, deleted, _, _, _⟩
    · refine ⟨?_, sound.past, ?_⟩
      · rw [unchanged]
        exact sound.unique
      · rw [unchanged]
        exact sound.held
    · refine ⟨?_, sound.past, fun vacation recorded running => ?_⟩
      · rw [deleted]
        exact Unique.delete sound.unique _
      · obtain ⟨row, kept, holds⟩ := sound.held vacation recorded running
        have alive := holds.not_expired (lt_of_le_of_lt past running)
        refine ⟨row, ?_, holds⟩
        rw [deleted, mem_delete_releasable]
        exact ⟨kept, fun expired => by simp [alive] at expired⟩
  | rename call plan later order =>
    have passed : system.clock ≤ call.vacatedAt := later.trans order
    rcases rename_cases service call plan system.catalog with
      ⟨⟨failure, failed⟩, unchanged⟩ |
      ⟨returned, old, claimed, record, done, found, renamed, _, _⟩
    · have same : (system.rename service call plan).vacations = system.vacations := by
        simp [rename, failed, vacation]
      refine ⟨?_, fun vacation recorded => ?_,
        fun vacation recorded running => ?_⟩
      · simpa only [rename, unchanged] using sound.unique
      · rw [same] at recorded
        exact (sound.past vacation recorded).trans passed
      · rw [same] at recorded
        simpa only [rename, unchanged] using sound.held vacation recorded
          (lt_of_le_of_lt passed running)
    · have grown : (system.rename service call plan).vacations =
          ⟨old.name, call.ownerID, call.vacatedAt⟩ :: system.vacations := by
        simp [rename, done, found, vacation]
      refine ⟨renamed.unique, fun vacation recorded => ?_,
        fun vacation recorded running => ?_⟩
      · rw [grown, List.mem_cons] at recorded
        rcases recorded with rfl | recorded
        · exact le_refl call.vacatedAt
        · exact (sound.past vacation recorded).trans passed
      · rw [grown, List.mem_cons] at recorded
        rcases recorded with rfl | recorded
        · exact ⟨_, (renamed.rows _).mpr (.inr (.inl rfl)), rfl,
            renamed.owner, .inr ⟨rfl, _, rfl, le_refl _⟩⟩
        · obtain ⟨row, stored, holds⟩ := sound.held vacation recorded
            (lt_of_le_of_lt passed running)
          exact holds.of_renaming renamed stored ((sound.past vacation recorded).trans passed)

theorem Sound.runs {final : HandleSystem} (sound : Sound service system)
    (runs : Runs service system final) : Sound service final := by
  induction runs with
  | refl => exact sound
  | tail _ step induction => exact induction.step step

/-! ## One step -/

/-- The name of a row is given up by a step. -/
def Released (before after : HandleSystem) (id : HandleID) : Prop :=
  (∃ row ∈ before.catalog.handles, row.id = id) ∧ ∀ row ∈ after.catalog.handles, row.id ≠ id

/-- A step has committed the record of a release. -/
def ReleaseRecorded (before after : HandleSystem) (id : HandleID) : Prop :=
  ∃ record ∈ after.catalog.auditRecords, record ∉ before.catalog.auditRecords ∧
    record.action = .handleReleased ∧ record.targetID = id

theorem not_released_of_same {before after : HandleSystem} {id : HandleID}
    (same : after.catalog = before.catalog) :
    ¬ Released before after id ∧ ¬ ReleaseRecorded before after id := by
  constructor
  · rintro ⟨⟨row, stored, named⟩, gone⟩
    rw [same] at gone
    exact gone row stored named
  · rintro ⟨record, stored, unknown, _⟩
    rw [same] at stored
    exact unknown stored

theorem renaming_keeps_id {old claimed : Handle}
    (renamed : Renaming service call before after old claimed)
    (stored : row ∈ before) : ∃ later ∈ after, later.id = row.id := by
  by_cases vacated : row.id = old.id
  · exact ⟨_, (renamed.rows _).mpr (.inr (.inl rfl)), vacated.symm⟩
  · by_cases taken : row.id = claimed.id
    · exact ⟨_, (renamed.rows _).mpr (.inr (.inr rfl)), taken.symm⟩
    · exact ⟨row, (renamed.rows row).mpr (.inl ⟨stored, vacated, taken⟩), rfl⟩

theorem step_released_iff (step : Step service system next) (id : HandleID) :
    Released system next id ↔ ReleaseRecorded system next id := by
  cases step with
  | wait now later =>
    have same : { system with clock := now }.catalog = system.catalog := rfl
    exact iff_of_false (not_released_of_same same).1 (not_released_of_same same).2
  | rename call plan later order =>
    rcases rename_cases service call plan system.catalog with
      ⟨_, unchanged⟩ |
      ⟨returned, old, claimed, record, done, found, renamed, action, appended⟩
    · have same : (system.rename service call plan).catalog = system.catalog := unchanged
      exact iff_of_false (not_released_of_same same).1 (not_released_of_same same).2
    · refine iff_of_false ?_ ?_
      · rintro ⟨⟨row, stored, rfl⟩, gone⟩
        obtain ⟨later, kept, same⟩ := renaming_keeps_id renamed stored
        exact gone later kept same
      · rintro ⟨other, stored, unknown, release, _⟩
        rcases (mem_insert appended).mp stored with known | rfl
        · exact unknown known
        · rw [release] at action
          rcases action with impossible | impossible <;> cases impossible
  | release handle now details draws past =>
    rcases release_cases service system handle now details draws with
      unchanged | ⟨row, stored, record, named, expired, deleted, action, target, appended⟩
    · exact iff_of_false (not_released_of_same unchanged).1 (not_released_of_same unchanged).2
    constructor
    · rintro ⟨⟨other, known, rfl⟩, gone⟩
      have same : other.id = handle.id := by
        by_contra different
        refine gone other ?_ rfl
        rw [deleted, mem_delete_releasable]
        exact ⟨known, fun released => different released.1⟩
      refine ⟨record, (mem_insert appended).mpr (.inr rfl), ?_, action, target.trans same.symm⟩
      intro known
      exact (insert?_eq_some_iff.mp appended).1 record known rfl
    · rintro ⟨other, recorded, unknown, _, rfl⟩
      have same : other = record := ((mem_insert appended).mp recorded).resolve_left unknown
      subst same
      rw [target]
      refine ⟨⟨row, stored, named⟩, fun later kept sameID => ?_⟩
      rw [deleted, mem_delete_releasable] at kept
      have identical : later = row := eq_of_key_eq kept.1 stored (sameID.trans named.symm)
      subst identical
      exact kept.2 ⟨named, expired⟩

theorem step_keeps_active (step : Step service system next)
    (stored : row ∈ system.catalog.handles) (active : row.state = .active) :
    ∃ later ∈ next.catalog.handles, later.ownerID = row.ownerID ∧ later.state = .active := by
  cases step with
  | wait now later => exact ⟨row, stored, rfl, active⟩
  | rename call plan later order =>
    rcases rename_cases service call plan system.catalog with
      ⟨_, unchanged⟩ | ⟨returned, old, claimed, record, done, found, renamed, _, _⟩
    · refine ⟨row, ?_, rfl, active⟩
      simpa only [rename, unchanged] using stored
    · have claims : claimed.ownerID = call.ownerID ∧ claimed.state = .active := by
        rcases renamed.claim with
          ⟨existing, _, _, own, _, _, rfl⟩ | ⟨rfl, _, _⟩
        · exact ⟨own, rfl⟩
        · exact ⟨rfl, rfl⟩
      by_cases vacated : row.id = old.id
      · obtain rfl := eq_of_key_eq stored renamed.stored vacated
        exact ⟨claimed, (renamed.rows _).mpr (.inr (.inr rfl)),
          claims.1.trans renamed.owner.symm, claims.2⟩
      · refine ⟨row, (renamed.rows row).mpr (.inl ⟨stored, vacated,
          fun taken => ?_⟩), rfl, active⟩
        rcases renamed.claim with
          ⟨existing, member, _, _, _, quarantined, rfl⟩ | ⟨_, absent, _⟩
        · obtain rfl := eq_of_key_eq stored member taken
          rw [active] at quarantined
          cases quarantined
        · exact absent row stored taken
  | release handle now details draws past =>
    refine ⟨row, ?_, rfl, active⟩
    rcases release_cases service system handle now details draws with
      unchanged | ⟨_, _, _, _, _, deleted, _, _, _⟩
    · rw [unchanged]
      exact stored
    · rw [deleted, mem_delete_releasable]
      refine ⟨stored, fun expired => ?_⟩
      simp [Handle.quarantineExpired, active] at expired

theorem step_keeps_cap (step : Step service system next) {ownerID : OwnerID}
    (capped : namesHeld system.catalog.handles ownerID ≤ service.maxNames) :
    namesHeld next.catalog.handles ownerID ≤ service.maxNames := by
  cases step with
  | wait now later => exact capped
  | rename call plan later order =>
    rcases rename_cases service call plan system.catalog with
      ⟨_, unchanged⟩ | ⟨returned, old, claimed, record, done, found, renamed, _, _⟩
    · simpa only [rename, unchanged] using capped
    rcases renamed.counts ownerID with same | ⟨_, grown, room⟩
    · simpa only [rename, same] using capped
    · simp only [rename, grown]
      omega
  | release handle now details draws past =>
    rcases release_cases service system handle now details draws with
      unchanged | ⟨_, _, _, _, _, deleted, _, _, _⟩
    · rw [unchanged]
      exact capped
    · rw [deleted]
      exact (length_select_delete_le _ _ _).trans capped

/-! ## Whole runs -/

/-- What handle operations promise between two states of a run. -/
structure Contract (service : HandleService) (before after : HandleSystem) : Prop where
  quarantined : ∀ vacation ∈ after.vacations,
    after.clock < vacation.vacatedAt + service.quarantine →
    ∀ row ∈ after.catalog.handles, row.name = vacation.name →
      row.state = .active → row.ownerID = vacation.ownerID
  single : ∀ row ∈ after.catalog.handles, ∀ other ∈ after.catalog.handles,
    row.ownerID = other.ownerID → row.state = .active →
    other.state = .active → row = other
  keeps : ∀ row ∈ before.catalog.handles, row.state = .active →
    ∃ later ∈ after.catalog.handles, later.ownerID = row.ownerID ∧ later.state = .active
  capped : ∀ ownerID, namesHeld before.catalog.handles ownerID ≤ service.maxNames →
    namesHeld after.catalog.handles ownerID ≤ service.maxNames
  failed : ∀ call plan failure, (service.rename call plan after.catalog).1 = .error failure →
    (service.rename call plan after.catalog).2 = after.catalog
  released : ∀ next, Step service after next → ∀ id,
    (Released after next id ↔ ReleaseRecorded after next id)
  sweeps : ∀ limit now faulted draws, now ≤ after.clock →
    Runs service after (after.releaseExpired service limit now faulted draws)

theorem handles_keep_contract (service : HandleService) (catalog : Catalog)
    (unique : catalog.handles.Unique Handle.clashes) (clock : Int) {before after : HandleSystem}
    (reached : Runs service (fresh catalog clock) before)
    (runs : Runs service before after) : Contract service before after := by
  have sound : Sound service after := ((sound_fresh unique clock).runs reached).runs runs
  constructor
  · intro vacation recorded running row stored named active
    obtain ⟨hold, kept, holds⟩ := sound.held vacation recorded running
    by_cases same : row.id = hold.id
    · rw [eq_of_key_eq stored kept same]
      exact holds.ownerID
    · have apart := sound.unique row stored hold kept same
      simp [Handle.clashes, named, holds.name] at apart
  · intro row stored other otherStored owner active otherActive
    by_contra different
    have apart := sound.unique row stored other otherStored fun same =>
      different (eq_of_key_eq stored otherStored same)
    simp [Handle.clashes, owner, active, otherActive] at apart
  · intro row stored active
    clear sound
    induction runs with
    | refl => exact ⟨row, stored, rfl, active⟩
    | tail _ step induction =>
      obtain ⟨later, kept, owner, still⟩ := induction
      obtain ⟨last, lastKept, lastOwner, lastStill⟩ := step_keeps_active step kept still
      exact ⟨last, lastKept, lastOwner.trans owner, lastStill⟩
  · intro ownerID capped
    clear sound
    induction runs with
    | refl => exact capped
    | tail _ step induction => exact step_keeps_cap step induction
  · intro call plan failure failed
    rcases rename_cases service call plan after.catalog with
      ⟨_, unchanged⟩ | ⟨_, _, _, _, done, _⟩
    · exact unchanged
    · rw [done] at failed
      cases failed
  · intro next step id
    exact step_released_iff step id
  · intro limit now faulted draws past
    exact releaseExpired_runs service limit now faulted draws after past

end HandleSystem

namespace Sample

def handleService : HandleService where
  emitter := Audit.Sample.silentEmitter
  guard := fun _ => .ok ()
  folds := ⟨fun name => name, 1⟩
  maxNames := 5
  quarantine := 30 * 24 * Duration.hour
  held := by decide
  lasting := month_pos

def handle (owner name : String) : Handle where
  id := utf8 name
  ownerID := utf8 owner
  name := utf8 name
  state := .active
  quarantineUntil := none
  flaggedForReview := false
  quarantineOnRelease := false
  createdAt := 0
  updatedAt := 0
  nameFold := utf8 name
  foldVersion := 1

/-- One owner whose handle is the owner's name. -/
def namedCatalog : Catalog :=
  { catalog with
    handles := (empty.insert? (handle "olive" "olive")).getD .empty }

def renameCall (owner name : String) (letter : UInt8)
    (known : letter ∈ randTextAlphabet) (now : Int) : RenameCall where
  ownerID := utf8 owner
  name := utf8 name
  requestID := []
  now := now
  vacatedAt := now
  id := randText letter known
  auditID := [letter]

def renamed : HandleSystem :=
  (HandleSystem.fresh namedCatalog 0).rename handleService
    (renameCall "olive" "oak" 65 a_known 10) {}

end Sample

namespace HandleSystem

/-- One owner moves to another name, which is the only one they use then. -/
theorem handles_keep_contract_renamed : Sample.renamed.vacations =
        [⟨utf8 "olive", utf8 "olive", 10⟩] ∧
      (Sample.renamed.catalog.handles.rows.map fun row =>
        (row.name, row.state)) =
        [(utf8 "olive", .quarantined), (utf8 "oak", .active)] ∧
      Contract Sample.handleService (fresh Sample.namedCatalog 0) Sample.renamed := by
  refine ⟨by decide +kernel, by decide +kernel, ?_⟩
  exact handles_keep_contract Sample.handleService Sample.namedCatalog
    (by decide +kernel) 0 .refl (.single (.rename _ {} (by decide) (by decide)))

end HandleSystem

end Vallet.Publishing
