import Vallet.Publishing.KeySetLife
import Vallet.Publishing.SetInvariants

/-!
# Concurrent transactions on key sets

Any number of transactions on key sets share the rows; only the unique indexes
and the lock of the owner's row keep two of them apart.  A transaction that
writes back what it has read revives a set that was renamed meanwhile.  When no
commit renames, deletes or designates a set that another transaction has read,
renamed sets stay tombstones and every owner keeps an active default set.
-/

namespace Vallet.Publishing

open Auth Effects Relational Database

namespace SetTransaction

variable {service : KeySetService}

/-! ## Commits -/

section Commits

variable {committed : Table SetRow.key} {catalog : Catalog}
  {transaction holder : SetTransaction service}

theorem kind_of_hasChecked (checked : transaction.thread.trail.hasChecked = true) :
    transaction.thread.call.kind = .delete := by
  refine transaction.thread.valid.kind _ ?_
  cases trail : transaction.thread.trail <;> rw [trail] at checked <;>
    first | rfl | cases checked

theorem target_of_hasChecked {phase : SetPhase} (checked : phase.hasChecked = true) :
    ∃ target, phase.target? = some target := by
  cases phase <;> first | exact ⟨_, rfl⟩ | cases checked

theorem Orderly.survives (orderly : Orderly committed transaction)
    {stored : KeySet} (known : .keySet stored ∈ committed) :
    (∃ set, .keySet set ∈ transaction.view committed ∧ set.id = stored.id ∧
      Rewrites transaction.thread stored set ∧
      (.keySet set ∈ transaction.pending ∨ set = stored)) ∨
    (transaction.thread.trail.hasChecked = true ∧
      transaction.thread.call.targetID = some stored.id) := by
  by_cases touched : transaction.Touches (.keySet stored.id)
  · rcases touches_keySet.mp touched with ⟨set, written, same⟩ | deleted
    · have seen := Transaction.mem_view.mpr (.inl written : _ ∨ (_ ∈ committed ∧ _))
      exact .inl ⟨set, seen, same, orderly.rewrites seen known same.symm, .inl written⟩
    · exact .inr (orderly.removes stored.id deleted).symm
  · exact .inl ⟨stored, Transaction.mem_view.mpr (.inr ⟨known, touched⟩), rfl,
      .refl transaction.thread stored, .inr rfl⟩

/-- What a transaction has written survives the commits of others. -/
theorem Orderly.endures (held : Orderly committed holder)
    (apart : Database.Apart (keySetSchema catalog) transaction holder) :
    Orderly (transaction.view committed) holder := by
  refine ⟨held.owner, fun set written => ?_, held.removes, held.inserted,
    held.vacated, held.designated⟩
  have locked : ¬ transaction.Touches (.keySet set.id) := fun touched =>
    apart.1 _ touched (Transaction.touches_of_mem written)
  cases held.writes set written with
  | fresh inserted named active unknown =>
    refine .fresh inserted named active fun stored seen same => ?_
    rcases Transaction.mem_view.mp seen with pending | ⟨known, _⟩
    · exact locked (same ▸ Transaction.touches_of_mem pending)
    · exact unknown stored known same
  | version known same other rewrites =>
    refine .version (Transaction.mem_view.mpr (.inr ⟨known, ?_⟩)) same other rewrites
    change ¬ transaction.Touches (.keySet _)
    rw [same]
    exact locked

end Commits

end SetTransaction

/-- The call renames, deletes or designates the set. -/
def SetCall.Disturbs (call : SetCall) (id : KeySetID) : Prop :=
  call.kind ≠ .setVisibility ∧ call.targetID = some id

instance (call : SetCall) (id : KeySetID) : Decidable (call.Disturbs id) :=
  inferInstanceAs (Decidable (_ ∧ _))

namespace SetTransaction

variable {service : KeySetService} {committed : Table SetRow.key}
  {catalog : Catalog} {transaction holder : SetTransaction service}

/-- What a transaction has read survives the commits of those that do not
disturb it. -/
theorem Current.endures (orderly : Orderly committed transaction)
    (current : Current committed holder.thread)
    (undisturbed : ∀ target, holder.thread.trail.target? = some target →
      ¬ transaction.thread.call.Disturbs target.id) :
    Current (transaction.view committed) holder.thread := by
  refine ⟨current.read, fun target read => ?_,
    fun checked set seen named => ?_⟩
  · obtain ⟨stored, known, same, active, standing⟩ := current.standing target read
    have calm := undisturbed target read
    rcases orderly.survives known with ⟨set, seen, sameID, rewrites, _⟩ |
      ⟨checked, named⟩
    · refine ⟨set, seen, sameID.trans same, ?_, fun renames default => ?_⟩
      · by_contra gone
        obtain ⟨kind, named⟩ := rewrites.vacates active gone
        refine calm ⟨by simp [kind], ?_⟩
        rw [named, sameID, same]
      · by_cases before : stored.isDefault = true
        · exact standing renames before
        · obtain ⟨kind, named⟩ := rewrites.designates default (Bool.not_eq_true _ ▸ before)
          refine (calm ⟨by simp [kind], ?_⟩).elim
          rw [named, sameID, same]
    · refine (calm ⟨by simp [kind_of_hasChecked checked], ?_⟩).elim
      rw [named, same]
  · obtain ⟨target, read⟩ := target_of_hasChecked checked
    obtain ⟨stored, known, same, _⟩ := current.standing target read
    have sameID : stored.id = set.id := by
      have found := (current.read target read).2
      rw [named] at found
      exact same.trans (Option.some.inj found).symm
    have rewrites := orderly.rewrites seen known sameID
    by_contra default
    obtain ⟨kind, designated⟩ := rewrites.designates (Bool.not_eq_false _ ▸ default)
      (current.plain checked stored known (sameID ▸ named))
    refine undisturbed target read ⟨by simp [kind], ?_⟩
    rw [designated, ← sameID, same]

/-- The owner has a default set, and it is active. -/
def Standing (ownerID : OwnerID) (rows : Table SetRow.key) : Prop :=
  ∃ set, .keySet set ∈ rows ∧ set.ownerID = ownerID ∧ set.isDefault = true ∧ set.state = .active

variable (concluded : SetPhase.Concludes transaction.thread.call transaction.thread.trail (.ok ()))

include concluded

/-- A rename that succeeds has vacated the set it has read. -/
theorem hasVacated_of_rename (kind : transaction.thread.call.kind = .rename) :
    transaction.thread.trail.hasVacated = true ∧
      ∃ target, transaction.thread.trail.target? = some target := by
  simp only [SetPhase.Concludes, kind] at concluded
  obtain ⟨target, ⟨vacated, _⟩ | settled⟩ := concluded
  · rw [vacated]
    exact ⟨rfl, target, rfl⟩
  · rw [settled]
    exact ⟨rfl, target, rfl⟩

/-- A transaction that takes the designation and succeeds has given it. -/
theorem hasDesignated_of_moves (moves : Moves transaction.thread) :
    transaction.thread.trail.hasDesignated = true := by
  rcases moves with kind | ⟨kind, target, read, default⟩
  · simp only [SetPhase.Concludes, kind] at concluded
    obtain ⟨target, designated⟩ := concluded
    rw [designated]
    rfl
  · simp only [SetPhase.Concludes, kind] at concluded
    obtain ⟨found, ⟨vacated, plain⟩ | settled⟩ := concluded
    · rw [vacated] at read
      cases read
      rw [default] at plain
      cases plain
    · rw [settled]
      rfl

theorem Sound.publishes (sound : Sound catalog committed transaction)
    {ownerID : OwnerID} (standing : Standing ownerID committed) :
    Standing ownerID (transaction.view committed) := by
  obtain ⟨orderly, current, _⟩ := sound
  obtain ⟨stored, known, owner, default, active⟩ := standing
  rcases orderly.survives known with
    ⟨set, seen, same, rewrites, written | rfl⟩ | ⟨checked, named⟩
  · by_cases keeps : set.isDefault = true ∧ set.state = .active
    · exact ⟨set, seen, rewrites.owner.trans owner, keeps⟩
    have moves : Moves transaction.thread := by
      by_cases still : set.isDefault = true
      · obtain ⟨kind, named⟩ := rewrites.vacates active fun now => keeps ⟨still, now⟩
        obtain ⟨_, target, read⟩ := hasVacated_of_rename concluded kind
        obtain ⟨other, otherKnown, otherSame, _, alike⟩ := current.standing target read
        have found := (current.read target read).2
        rw [named] at found
        have sameSet : stored = other := keySet_eq_of_id known otherKnown
          (same.symm.trans ((Option.some.inj found).trans otherSame.symm))
        exact .inr ⟨kind, target, read, alike kind (sameSet ▸ default)⟩
      · exact rewrites.clears default (Bool.not_eq_true _ ▸ still)
    obtain ⟨new, newWritten, newActive, newDefault⟩ :=
      orderly.designated (hasDesignated_of_moves concluded moves)
    refine ⟨new, Transaction.mem_view.mpr (.inl newWritten), ?_, newDefault, newActive⟩
    rw [orderly.owner new newWritten, ← orderly.owner set written, rewrites.owner, owner]
  · exact ⟨set, seen, owner, default, active⟩
  · rw [current.plain checked stored known named] at default
    cases default

end SetTransaction

namespace SetDatabase

open SetTransaction

variable {service : KeySetService}

/-- Runs of transactions on key sets against a catalog whose other tables stay
as they are. -/
def Runs (catalog : Catalog) (allows : SetDatabase service → Nat → Prop) :
    SetDatabase service → SetDatabase service → Prop :=
  Database.Runs (keySetSchema catalog) Except.isOk allows

/-- The commit renames, deletes or designates no set that another running
transaction has read. -/
def Undisturbed (database : SetDatabase service) (index : Nat) : Prop :=
  ∀ transaction ∈ database.transactions[index]?,
    ∀ other ∈ database.transactions.eraseIdx index, other.standing.isRunning = true →
      ∀ target ∈ other.thread.trail.target?, ¬ transaction.thread.call.Disturbs target.id

instance (database : SetDatabase service) (index : Nat) : Decidable (database.Undisturbed index) :=
  inferInstanceAs (Decidable (∀ transaction ∈ database.transactions[index]?, _))

variable {database : SetDatabase service}

theorem concludes_ok {transaction : SetTransaction service}
    {value : Except Err Unit} (done : transaction.thread.rest = .done value)
    (accepted : value.isOk = true) :
    SetPhase.Concludes transaction.thread.call transaction.thread.trail (.ok ()) := by
  have concluded := transaction.thread.concluded done
  cases value with
  | error failure => cases accepted
  | ok _ => exact concluded

/-- Transactions that do not disturb each other leave every owner with an
active default set. -/
theorem sound_discipline (catalog : Catalog) (ownerID : OwnerID) :
    Discipline (keySetSchema catalog) Except.isOk
      (Undisturbed : SetDatabase service → Nat → Prop) (Standing ownerID) (Sound catalog) where
  start call _ := ⟨orderly_start call, ⟨nofun, nofun, nofun⟩, nofun⟩
  move _ _ sound moved := sound.after_move moved
  publish standing sound _ _ done accepted :=
    sound.publishes (concludes_ok done accepted) standing
  endure := by
    intro database index other transaction holder _ _ sound held apart heldAt
      differs holding found _ _ undisturbed
    refine ⟨held.orderly.endures apart, held.current.endures sound.orderly
      fun target read => ?_, held.scanned⟩
    exact undisturbed transaction found holder
      (List.mem_eraseIdx_iff_getElem?.mpr ⟨other, differs, heldAt⟩)
      (Standing.isRunning_iff.mpr holding) target read

/-! ## Whole runs -/

/-- A transaction of the call has committed. -/
def Committed (database : SetDatabase service) (index : Nat) (call : SetCall) : Prop :=
  ∃ transaction value, database.At index transaction ∧
    transaction.standing = .committed value ∧ transaction.thread.call = call

/-- What is left of the sets that were renamed. -/
structure Renamed (database : SetDatabase service) : Prop where
  vacated : ∀ index rename, database.Committed index (.rename rename) →
    ∃ set, .keySet set ∈ database.committed ∧ set.id = rename.id ∧ set.state ≠ .active
  once : ∀ left right first second, database.Committed left (.rename first) →
    database.Committed right (.rename second) →
    first.id = second.id → left = right

section

variable {catalog : Catalog} {ownerID : OwnerID}
  {before after : SetDatabase service} {committed : Table SetRow.key}
  {transaction : SetTransaction service} {value : Except Err Unit} {rename : RenameSetCall}

section

variable (sound : Sound catalog committed transaction)

include sound

theorem tombstone_stays {tombstone : KeySet} (known : .keySet tombstone ∈ committed)
    (gone : tombstone.state ≠ .active) :
    ∃ set, .keySet set ∈ transaction.view committed ∧
      set.id = tombstone.id ∧ set.state ≠ .active := by
  rcases sound.orderly.survives known with ⟨set, seen, same, rewrites, _⟩ |
    ⟨checked, named⟩
  · exact ⟨set, seen, same, fun active => gone (rewrites.revives active)⟩
  obtain ⟨target, read⟩ := target_of_hasChecked checked
  obtain ⟨stored, storedKnown, same, active, _⟩ := sound.current.standing target read
  have found := (sound.current.read target read).2
  rw [named] at found
  rw [keySet_eq_of_id known storedKnown ((Option.some.inj found).trans same.symm)] at gone
  exact (gone active).elim

variable (done : transaction.thread.rest = .done value) (accepted : value.isOk = true)
  (called : transaction.thread.call = .rename rename)

include done accepted called

/-- The set that a rename has read is active until the rename commits. -/
theorem active_of_rename : ∃ set, .keySet set ∈ committed ∧ set.id = rename.id ∧
      set.state = .active := by
  obtain ⟨_, target, read⟩ := hasVacated_of_rename
    (concludes_ok done accepted) (by rw [called]; rfl)
  obtain ⟨set, known, same, active, _⟩ := sound.current.standing target read
  have found := (sound.current.read target read).2
  rw [called] at found
  exact ⟨set, known, same.trans (Option.some.inj found).symm, active⟩

theorem vacated_of_rename : ∃ set, .keySet set ∈ transaction.view committed ∧ set.id = rename.id ∧
      set.state ≠ .active := by
  obtain ⟨vacated, _⟩ := hasVacated_of_rename (concludes_ok done accepted) (by rw [called]; rfl)
  obtain ⟨set, written, gone, named⟩ := sound.orderly.vacated vacated
  rw [called] at named
  exact ⟨set, Transaction.mem_view.mpr (.inl written), (Option.some.inj named).symm, gone⟩

end

theorem Renamed.after_step (holds : before.Holds (keySetSchema catalog)
      (SetTransaction.Standing ownerID) (Sound catalog))
    (step : Step (keySetSchema catalog) Except.isOk Undisturbed
      before after) (renamed : Renamed before) : Renamed after := by
  -- A committed rename was so before the step, or the step is its commit.
  have cases : ∀ {index rename}, after.Committed index (.rename rename) →
      before.Committed index (.rename rename) ∨
      ∃ running value, before.At index running ∧
        running.standing = .running ∧ running.thread.rest = .done value ∧
        value.isOk = true ∧ after.committed = running.view before.committed ∧
        running.thread.call = .rename rename := by
    rintro index rename ⟨transaction, value, found, ended, called⟩
    rcases step.committed_cases found ended with old |
      ⟨running, was, runs, _, returned, accepted, _, view, rfl⟩
    · exact .inl ⟨transaction, value, old, ended, called⟩
    · exact .inr ⟨running, value, was, runs, returned, accepted, view, called⟩
  constructor
  · intro index rename committed
    rcases cases committed with old |
      ⟨running, value, was, runs, done, accepted, view, called⟩
    · obtain ⟨set, known, same, gone⟩ := renamed.vacated index rename old
      cases step with
      | start | move | abort => exact ⟨set, known, same, gone⟩
      | commit was wasRunning =>
        obtain ⟨later, seen, sameID, still⟩ :=
          tombstone_stays (holds.running was wasRunning) known gone
        exact ⟨later, seen, sameID.trans same, still⟩
    · rw [view]
      exact vacated_of_rename (holds.running was runs) done accepted called
  · -- The set of a rename that commits is active, that of an earlier one not.
    have apart : ∀ {left right first second},
        before.Committed left (.rename first) → first.id = second.id →
        ∀ running value, before.At right running →
          running.standing = .running → running.thread.rest = .done value →
          value.isOk = true → running.thread.call = .rename second → False := by
      intro left right first second old same running value was runs done accepted called
      obtain ⟨tombstone, known, sameID, gone⟩ := renamed.vacated left first old
      obtain ⟨set, stored, setID, active⟩ :=
        active_of_rename (holds.running was runs) done accepted called
      rw [keySet_eq_of_id known stored (sameID.trans (same.trans setID.symm))] at gone
      exact gone active
    intro left right first second leftCommitted rightCommitted same
    rcases cases leftCommitted with leftOld |
      ⟨leftRunning, leftValue, leftWas, leftRuns, leftDone, leftAccepted, _, leftCalled⟩
    · rcases cases rightCommitted with rightOld |
        ⟨running, value, was, runs, done, accepted, _, called⟩
      · exact renamed.once left right first second leftOld rightOld same
      · exact (apart leftOld same running value was runs done accepted called).elim
    · rcases cases rightCommitted with rightOld |
        ⟨running, value, was, runs, done, accepted, _, called⟩
      · exact (apart rightOld same.symm leftRunning leftValue leftWas leftRuns
          leftDone leftAccepted leftCalled).elim
      · by_contra differs
        obtain ⟨transaction, ended, found, standing, _⟩ := leftCommitted
        obtain ⟨other, otherEnded, otherFound, otherStanding, _⟩ := rightCommitted
        -- Only one transaction ends in a step.
        have kept := step.others_of_commit leftWas leftRuns found standing
          otherFound (Ne.symm differs)
        rw [was.unique kept, otherStanding] at runs
        cases runs

theorem renamed_of_runs {rows : Table SetRow.key}
    (unique : rows.Unique (keySetSchema catalog).clashes)
    (standing : SetTransaction.Standing ownerID rows)
    (runs : Runs catalog Undisturbed (idle (setService service) rows) after) :
    after.Holds (keySetSchema catalog) (SetTransaction.Standing ownerID)
      (Sound catalog) ∧ Renamed after := by
  induction runs with
  | refl =>
    refine ⟨holds_idle unique standing, ?_, ?_⟩
    · rintro index rename ⟨transaction, value, impossible, _⟩
      cases impossible
    · rintro left right first second ⟨transaction, value, impossible, _⟩
      cases impossible
  | tail _ step induction =>
    obtain ⟨holds, renamed⟩ := induction
    exact ⟨holds.after_step (sound_discipline catalog ownerID) step, renamed.after_step holds step⟩

end

/-- One set came out of another by a committed rename. -/
def RenamedTo (database : SetDatabase service) (old new : KeySetID) : Prop :=
  ∃ index rename, database.Committed index (.rename rename) ∧
    rename.id = old ∧ rename.newID.text = new

/-- One set came out of another by committed renames. -/
def DescendsFrom (database : SetDatabase service) (root id : KeySetID) : Prop :=
  Relation.ReflTransGen database.RenamedTo root id

def Active (database : SetDatabase service) (id : KeySetID) : Prop :=
  ∃ set ∈ setsOf database.committed, set.id = id ∧ set.state = .active

variable (renamed : database.Renamed)

include renamed

theorem Renamed.renamedTo_unique : Relator.RightUnique database.RenamedTo := by
  rintro old left right ⟨index, first, committed, rfl, rfl⟩
    ⟨other, second, otherCommitted, same, rfl⟩
  obtain rfl := renamed.once index other first second committed otherCommitted same.symm
  obtain ⟨transaction, _, found, _, called⟩ := committed
  obtain ⟨again, _, foundAgain, _, calledAgain⟩ := otherCommitted
  rw [found.unique foundAgain, calledAgain] at called
  cases called
  rfl

theorem Renamed.not_active {old new : KeySetID}
    (left : database.RenamedTo old new) : ¬ database.Active old := by
  obtain ⟨index, rename, committed, rfl, _⟩ := left
  rintro ⟨set, stored, same, active⟩
  obtain ⟨tombstone, known, sameID, gone⟩ := renamed.vacated index rename committed
  rw [keySet_eq_of_id known (mem_setsOf.mp stored) (sameID.trans same.symm)] at gone
  exact gone active

/-- Of all that came out of one set, at most one is active. -/
theorem Renamed.active_unique
    {root left right : KeySetID} (fromLeft : database.DescendsFrom root left)
    (fromRight : database.DescendsFrom root right)
    (leftActive : database.Active left) (rightActive : database.Active right) : left = right := by
  rcases Relation.ReflTransGen.total_of_right_unique renamed.renamedTo_unique
      fromLeft fromRight with onward | onward
  · rcases onward.cases_head with same | ⟨_, step, _⟩
    · exact same
    · exact (renamed.not_active step leftActive).elim
  · rcases onward.cases_head with same | ⟨_, step, _⟩
    · exact same.symm
    · exact (renamed.not_active step rightActive).elim

end SetDatabase

namespace Sample

/-- The service on a database that locks the owner's row. -/
def lockingService : KeySetService :=
  { keySetService with engine := .postgres }

def showSet (id : KeySetID) (now : Int) : SetCall :=
  .setVisibility
    { ownerID := utf8 "olive", id := id, visibility := some .visibilityPublic,
      requestID := [], now := now, auditID := [] } .visibilityPublic

def designateSet (id : KeySetID) (now : Int) : SetCall :=
  .setDefault
    { ownerID := utf8 "olive", id := id, requestID := [], now := now,
      auditID := [] }

/-- A set is shown and renamed, renamed again, and then made the default and
renamed once more. -/
def setsStarted : SetDatabase lockingService :=
  [showSet (utf8 "work") 10, .rename (renameSet (utf8 "work") "base" 66 b_known 20),
    .rename (renameSet (utf8 "work") "home" 67 c_known 30),
    designateSet (List.replicate 26 67) 40,
    .rename (renameSet (List.replicate 26 67) "cabin" 68 d_known 50)].foldl
      begin (idle (setService lockingService) catalog.setRows)

def setSchedule (allows : SetDatabase lockingService → Nat → Prop)
    [∀ database index, Decidable (allows database index)]
    (order : List Nat) : SetDatabase lockingService :=
  order.foldl (advance (keySetSchema catalog) Except.isOk allows) setsStarted

/-- The first transaction reads, and the second one commits. -/
def vacated : SetDatabase lockingService :=
  setSchedule (fun _ _ => True) (List.replicate 1 0 ++ List.replicate 20 1)

/-- Then the first one writes what it has read, and the third one finds the
set active. -/
def revived : SetDatabase lockingService :=
  (List.replicate 10 0).foldl (advance (keySetSchema catalog) Except.isOk fun _ _ => True) vacated

/-- The third one renames the set again.  Then the fourth one reads, the fifth
one commits, and the fourth one goes on. -/
def divided : SetDatabase lockingService :=
  (List.replicate 20 2 ++ List.replicate 1 3 ++ List.replicate 20 4 ++
    List.replicate 20 3).foldl (advance (keySetSchema catalog) Except.isOk fun _ _ => True) revived

/-- Every transaction starts when the one before it has ended. -/
def setsOneByOne : SetDatabase lockingService :=
  setSchedule SetDatabase.Undisturbed (List.replicate 10 0 ++
    List.replicate 20 1 ++ List.replicate 20 2 ++ List.replicate 20 3)

/-- Whether each transaction has committed, and what it is about. -/
def ended (database : SetDatabase lockingService) :
    List (Bool × SetKind × Option KeySetID × Option KeySetID) :=
  database.transactions.map fun transaction =>
    (match transaction.standing with
      | .committed _ => true
      | _ => false,
      transaction.thread.call.kind, transaction.thread.call.targetID,
      transaction.thread.call.newID)

theorem renamedTo_of_ended {database : SetDatabase lockingService}
    {index : Nat} {old new : KeySetID} (listed : (ended database)[index]? =
      some (true, .rename, some old, some new)) :
    database.RenamedTo old new := by
  rw [ended, List.getElem?_map, Option.map_eq_some_iff] at listed
  obtain ⟨transaction, found, entry⟩ := listed
  simp only [Prod.mk.injEq] at entry
  obtain ⟨committed, kind, target, fresh⟩ := entry
  split at committed
  · rename_i value standing
    cases called : transaction.thread.call with
    | rename rename =>
      rw [called] at target fresh
      exact ⟨index, rename, ⟨transaction, value, found, standing, called⟩,
        Option.some.inj target, Option.some.inj fresh⟩
    | _ =>
      rw [called] at kind
      cases kind
  · cases committed

theorem setsStarted_runs {allows : SetDatabase lockingService → Nat → Prop} :
    SetDatabase.Runs catalog allows (idle (setService lockingService) catalog.setRows)
      setsStarted :=
  ((((Database.begin_runs _ _).trans (Database.begin_runs _ _)).trans
    (Database.begin_runs _ _)).trans (Database.begin_runs _ _)).trans (Database.begin_runs _ _)

end Sample

open Sample

namespace SetDatabase

instance {service : KeySetService} (database : SetDatabase service)
    (id : KeySetID) : Decidable (database.Active id) :=
  inferInstanceAs (Decidable (∃ set ∈ (setsOf database.committed).rows, _))

/-- A tombstone becomes active again, two active sets come out of one, and a
tombstone is the default after all transactions have ended. -/
theorem renamed_sets_revived : catalog.keySets.Unique KeySet.clashes ∧
    catalog.keySets.rows.map (fun set =>
        (set.ownerID, set.isDefault, set.state)) =
      [(utf8 "olive", true, .active)] ∧
    Runs catalog (fun _ _ => True) (idle (setService lockingService) catalog.setRows) vacated ∧
    vacated.RenamedTo (utf8 "work") (List.replicate 26 66) ∧
    ¬ vacated.Active (utf8 "work") ∧
    Runs catalog (fun _ _ => True) vacated revived ∧
    revived.Active (utf8 "work") ∧
    Runs catalog (fun _ _ => True) revived divided ∧
    divided.DescendsFrom (utf8 "work") (List.replicate 26 66) ∧
    divided.DescendsFrom (utf8 "work") (List.replicate 26 68) ∧
    divided.Active (List.replicate 26 66) ∧
    divided.Active (List.replicate 26 68) ∧
    (ended divided).all (fun transaction => transaction.1) ∧
    ((setsOf divided.committed).rows.filter fun set =>
        set.isDefault).map (fun set => (set.name, set.state)) =
      [(utf8 "home", .quarantined)] := by
  have toBase : divided.RenamedTo (utf8 "work") (List.replicate 26 66) :=
    renamedTo_of_ended (by decide +kernel : _[1]? = _)
  have toHome : divided.RenamedTo (utf8 "work") (List.replicate 26 67) :=
    renamedTo_of_ended (by decide +kernel : _[2]? = _)
  have toCabin : divided.RenamedTo (List.replicate 26 67) (List.replicate 26 68) :=
    renamedTo_of_ended (by decide +kernel : _[4]? = _)
  exact ⟨by decide +kernel, by decide +kernel, setsStarted_runs.trans (Database.schedule_runs _ _),
    renamedTo_of_ended (by decide +kernel : _[1]? = _),
    by decide +kernel, Database.schedule_runs _ _, by decide +kernel,
    Database.schedule_runs _ _, .single toBase, .tail (.single toHome) toCabin,
    by decide +kernel, by decide +kernel, by decide +kernel,
    by decide +kernel⟩

/-- As long as no commit renames, deletes or designates a set that another
transaction has read: a renamed set is never active again, the owner has one
default set and it is active, and of all that came out of one set at most one
is active. -/
theorem renamed_sets_stay_vacated (service : KeySetService)
    (catalog : Catalog) (unique : catalog.keySets.Unique KeySet.clashes) (ownerID : OwnerID)
    (standing : ∃ set ∈ catalog.keySets, set.ownerID = ownerID ∧
      set.isDefault = true ∧ set.state = .active)
    {database : SetDatabase service} (runs : Runs catalog Undisturbed
      (idle (setService service) catalog.setRows) database) :
    (∀ old new, database.RenamedTo old new → ¬ database.Active old) ∧
    (∃ default ∈ setsOf database.committed, KeySet.isDefaultOf ownerID default = true ∧
      default.state = .active ∧
      ∀ other ∈ setsOf database.committed,
        KeySet.isDefaultOf ownerID other = true → other = default) ∧
    ∀ root left right, database.DescendsFrom root left →
      database.DescendsFrom root right → database.Active left →
      database.Active right → left = right := by
  have uniqueRows : catalog.setRows.Unique (keySetSchema catalog).clashes := by
    refine unique_iff.mpr ?_
    rw [Catalog.setsOf_setRows]
    exact unique
  have standingRows : SetTransaction.Standing ownerID catalog.setRows := by
    obtain ⟨set, stored, default⟩ := standing
    refine ⟨set, mem_setsOf.mp ?_, default⟩
    rw [Catalog.setsOf_setRows]
    exact stored
  obtain ⟨holds, renamed⟩ := renamed_of_runs uniqueRows standingRows runs
  refine ⟨fun old new => renamed.not_active, ?_,
    fun root left right => renamed.active_unique⟩
  obtain ⟨set, stored, owner, default, active⟩ := holds.committed
  refine ⟨set, mem_setsOf.mpr stored, by simp [KeySet.isDefaultOf, owner,
    default], active, fun other otherStored designated => ?_⟩
  simp only [KeySet.isDefaultOf, Bool.and_eq_true, decide_eq_true_eq] at designated
  by_contra differs
  have clash := unique_iff.mp holds.unique other otherStored set (mem_setsOf.mpr stored) fun same =>
      differs (SetTransaction.keySet_eq_of_id (mem_setsOf.mp otherStored) stored same)
  simp [KeySet.clashes, designated.1, owner, designated.2, default] at clash

/-- A set is shown and then renamed; what comes later finds a tombstone. -/
theorem renamed_sets_stay_vacated_in_turn :
    setsOneByOne.RenamedTo (utf8 "work") (List.replicate 26 66) ∧
    ¬ setsOneByOne.Active (utf8 "work") ∧
    (ended setsOneByOne).map (fun transaction => transaction.1) =
      [true, true, false, false, false] := by
  have renamed : setsOneByOne.RenamedTo (utf8 "work") (List.replicate 26 66) :=
    renamedTo_of_ended (by decide +kernel : _[1]? = _)
  refine ⟨renamed, ?_, by decide +kernel⟩
  exact (renamed_sets_stay_vacated lockingService catalog
    (by decide +kernel) (utf8 "olive") ⟨_, List.mem_singleton.mpr rfl, rfl, rfl, rfl⟩
    (setsStarted_runs.trans (Database.schedule_runs _ _))).1 _ _ renamed

end SetDatabase

end Vallet.Publishing
