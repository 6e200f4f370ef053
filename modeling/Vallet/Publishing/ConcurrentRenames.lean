import Vallet.Foundation.TransactionInvariants
import Vallet.Publishing.HandleLife
import Vallet.Publishing.RenameProtocol

/-!
# Concurrent renames at READ COMMITTED

Any number of `Rename` transactions share the table of handles.  A rename
counts the owner's names with a plain `SELECT`, and the index of active
handles stops a second one that started from the same active handle, because
that handle is a tombstone by then.  It does not stop it when the tombstone has
been taken back in between: then the count is out of date and nothing else is.
-/

namespace Vallet.Publishing

open Auth Effects Relational Transaction

abbrev RenameTransaction (service : HandleService) :=
  Transaction (renameService service) Handle.id

abbrev RenameDatabase (service : HandleService) :=
  Database (renameService service) Handle.id

namespace RenamePhase

/-- The handle that was read as active. -/
def old? : RenamePhase → Option Handle
  | .fresh => none
  | .active old => some old
  | .listed old _ => some old
  | .vacated old _ => some old
  | .reclaimed old _ => some old
  | .registered old _ _ => some old

/-- The names that were listed. -/
def held? : RenamePhase → Option (List Handle)
  | .fresh => none
  | .active _ => none
  | .listed _ held => some held
  | .vacated _ held => some held
  | .reclaimed _ held => some held
  | .registered _ held _ => some held

end RenamePhase

theorem namesHeld_mono {earlier later : Table Handle.id} {ownerID : OwnerID}
    (kept : ∀ row ∈ later, row ∈ earlier) :
    namesHeld later ownerID ≤ namesHeld earlier ownerID := by
  have covered : namesHeld later ownerID ≤
      namesHeld earlier ownerID + ([] : List HandleID).length :=
    Table.length_select_le fun row stored counted =>
      .inl ⟨row, kept row stored, counted, rfl⟩
  exact covered

namespace RenameTransaction

variable {service : HandleService}

/-! ## What a transaction has written -/

/-- A hold has been made active again. -/
def Reclaiming (transaction : RenameTransaction service) : Prop :=
  match transaction.thread.trail with
  | .reclaimed _ _ => True
  | .vacated _ _ => ∃ scan, transaction.scan = some scan ∧ scan.affected > 0
  | _ => False

/-- What a row written by a transaction can be. -/
inductive Writes (committed : Table Handle.id)
    (transaction : RenameTransaction service) (row : Handle) : Prop where
  | tombstone {old : Handle} (read : transaction.thread.trail.old? = some old)
      (counted : transaction.thread.trail.held?.isSome)
      (named : row.id = old.id) (vacated : row.state = .quarantined)
      (known : ∃ stored ∈ committed, stored.id = row.id)
  | reclaimed (reclaiming : transaction.Reclaiming)
      (known : ∃ stored ∈ committed, stored.id = row.id)
  | registered {old : Handle} {held : List Handle}
      (phase : transaction.thread.trail = .registered old held row)
      (unknown : ∀ stored ∈ committed, stored.id ≠ row.id)

/-- What a rename has written fits how far it has come. -/
structure Orderly (committed : Table Handle.id)
    (transaction : RenameTransaction service) : Prop where
  keeps : transaction.removed = []
  owner : ∀ old, transaction.thread.trail.old? = some old →
    old.ownerID = transaction.thread.call.ownerID
  writes : ∀ row ∈ transaction.pending, Writes committed transaction row
  same : ∀ row ∈ transaction.pending, row.ownerID = transaction.thread.call.ownerID ∧
    ∀ stored ∈ committed, stored.id = row.id → stored.ownerID = row.ownerID ∧ stored.name = row.name
  reclaimed : transaction.Reclaiming → ∃ row ∈ transaction.pending, row.state = .active
  registered : ∀ old held claimed, transaction.thread.trail = .registered old held claimed →
    claimed ∈ transaction.pending

section Moves

variable {committed : Table Handle.id}
  {transaction later : RenameTransaction service} {row : Handle}

theorem orderly_start (call : RenameCall) : Orderly committed
      (start (renameService service) Handle.id call) where
  keeps := rfl
  owner _ impossible := by cases impossible
  writes row impossible := (Table.not_mem_empty row impossible).elim
  same row impossible := (Table.not_mem_empty row impossible).elim
  reclaimed impossible := impossible.elim
  registered _ _ _ impossible := by cases impossible

theorem Orderly.clean (orderly : Orderly committed transaction)
    (unlisted : transaction.thread.trail.held? = none) (row : Handle) :
    row ∉ transaction.pending := by
  intro written
  cases orderly.writes row written with
  | tombstone read counted =>
    rw [unlisted] at counted
    cases counted
  | reclaimed reclaiming =>
    unfold Reclaiming at reclaiming
    split at reclaiming
    · rename_i trail
      rw [trail] at unlisted
      cases unlisted
    · rename_i trail
      rw [trail] at unlisted
      cases unlisted
    · exact reclaiming
  | registered phase =>
    rw [phase] at unlisted
    cases unlisted

theorem not_reclaiming_of_idle (idle : transaction.scan = none)
    (early : ∀ old held, transaction.thread.trail ≠ .reclaimed old held) :
    ¬ transaction.Reclaiming := by
  unfold Reclaiming
  split
  · rename_i trail
    exact (early _ _ trail).elim
  · rintro ⟨scan, scanning, _⟩
    rw [idle] at scanning
    cases scanning
  · exact id

section Orderly

variable {thread : Thread (renameService service)} {scan : Option (Scan HandleID)}
  {old : Handle} {held : List Handle} (orderly : Orderly committed transaction)

include orderly

/-- A transaction that had written nothing reaches a phase before its
writes. -/
theorem Orderly.of_unlisted (unlisted : transaction.thread.trail.held? = none)
    (idle : transaction.scan = none) (owner : ∀ old, thread.trail.old? = some old →
      old.ownerID = thread.call.ownerID) (early : ∀ old held, thread.trail ≠ .reclaimed old held)
    (unregistered : ∀ old held claimed, thread.trail ≠ .registered old held claimed) :
    Orderly committed { transaction with thread } where
  keeps := orderly.keeps
  owner := owner
  writes row written := (orderly.clean unlisted row written).elim
  same row written := (orderly.clean unlisted row written).elim
  reclaimed reclaiming := absurd reclaiming (not_reclaiming_of_idle idle early)
  registered old held claimed phase := (unregistered old held claimed phase).elim

/-- A transaction that has written the same rows and stands as far as
before. -/
theorem Orderly.of_same (call : thread.call = transaction.thread.call)
    (read : thread.trail.old? = transaction.thread.trail.old?)
    (counted : thread.trail.held? = transaction.thread.trail.held?)
    (reclaiming : Reclaiming { transaction with thread, scan } ↔ transaction.Reclaiming)
    (registered : ∀ old held claimed, thread.trail = .registered old held claimed ↔
      transaction.thread.trail = .registered old held claimed) :
    Orderly committed { transaction with thread, scan } where
  keeps := orderly.keeps
  owner := by
    rw [read, call]
    exact orderly.owner
  writes row written := by
    cases orderly.writes row written with
    | tombstone wasRead wasCounted named vacated known =>
      exact .tombstone (read.trans wasRead) (counted ▸ wasCounted) named vacated known
    | reclaimed was known => exact .reclaimed (reclaiming.mpr was) known
    | registered phase unknown => exact .registered ((registered _ _ _).mpr phase) unknown
  same := by
    rw [call]
    exact orderly.same
  reclaimed now := orderly.reclaimed (reclaiming.mp now)
  registered old held claimed phase :=
    orderly.registered old held claimed ((registered old held claimed).mp phase)

theorem Orderly.of_phase (call : thread.call = transaction.thread.call)
    (trail : thread.trail = transaction.thread.trail)
    (scanned : (∃ found, scan = some found ∧ found.affected > 0) ↔
      ∃ found, transaction.scan = some found ∧ found.affected > 0) :
    Orderly committed { transaction with thread, scan } := by
  refine orderly.of_same call (by rw [trail]) (by rw [trail]) ?_ (by simp [trail])
  unfold Reclaiming
  rw [trail]
  split
  · exact Iff.rfl
  · exact scanned
  · exact Iff.rfl

/-- The row an update visits has a version among the committed ones, unless it
is new. -/
theorem Orderly.known (unregistered : ∀ old held claimed,
      transaction.thread.trail ≠ .registered old held claimed)
    (seen : row ∈ transaction.view committed) :
    (∃ stored ∈ committed, stored.id = row.id) ∧
      ∀ stored ∈ committed, stored.id = row.id →
        stored.ownerID = row.ownerID ∧ stored.name = row.name := by
  rcases mem_view.mp seen with written | ⟨member, _⟩
  · refine ⟨?_, (orderly.same row written).2⟩
    cases orderly.writes row written with
    | tombstone _ _ _ _ known | reclaimed _ known => exact known
    | registered phase => exact (unregistered _ _ _ phase).elim
  · refine ⟨⟨row, member, rfl⟩, fun stored storedMember same => ?_⟩
    rw [Table.eq_of_key_eq storedMember member same]
    exact ⟨rfl, rfl⟩

theorem Orderly.after_insert (idle : transaction.scan = none)
    (vacated : transaction.thread.trail = .vacated old held)
    (fresh : row.ownerID = transaction.thread.call.ownerID)
    (absent : (transaction.view committed).find? row.id = none)
    (call : thread.call = transaction.thread.call)
    (trail : thread.trail = .registered old held row) :
    Orderly committed { transaction with thread, pending := transaction.pending.put row } := by
  have unknown : ∀ stored ∈ committed, stored.id ≠ row.id := by
    intro stored member same
    obtain ⟨version, seen, sameID, _⟩ := exists_mem_view orderly.keeps member
    exact Table.find?_eq_none_iff.mp absent version seen (sameID.trans same)
  refine ⟨orderly.keeps, ?_, ?_, ?_, ?_, ?_⟩
  · intro read known
    rw [call]
    refine orderly.owner read ?_
    rw [trail] at known
    rw [vacated]
    exact known
  · intro other written
    rcases Table.mem_put.mp written with ⟨before, _⟩ | rfl
    · cases orderly.writes other before with
      | tombstone read counted named state known =>
        rw [vacated] at read
        refine .tombstone (Eq.trans ?_ read) ?_ named state known
        all_goals
          rw [trail]
          rfl
      | reclaimed reclaiming =>
        refine (not_reclaiming_of_idle idle ?_ reclaiming).elim
        simp [vacated]
      | registered phase => cases vacated.symm.trans phase
    · exact .registered trail unknown
  · intro other written
    rw [call]
    rcases Table.mem_put.mp written with ⟨before, _⟩ | rfl
    · exact orderly.same other before
    · exact ⟨fresh, fun stored member same =>
        (unknown stored member same).elim⟩
  · intro reclaiming
    unfold Reclaiming at reclaiming
    rw [trail] at reclaiming
    exact reclaiming.elim
  · intro _ _ claimed phase
    cases trail.symm.trans phase
    exact Table.mem_put.mpr (.inr rfl)

/-- A version stored by an update under way. -/
theorem Orderly.after_change {values : Handle} (seen : row ∈ transaction.view committed)
    (owner : row.ownerID = transaction.thread.call.ownerID) (unregistered : ∀ old held claimed,
      transaction.thread.trail ≠ .registered old held claimed)
    (writes : (∃ old held, transaction.thread.trail = .listed old held ∧
        row.id = old.id ∧ values.state = .quarantined) ∨
      (values.state = .active ∧ Reclaiming { transaction with scan })) :
    Orderly committed { transaction with
      pending := transaction.pending.put (Handle.written values row), scan } := by
  obtain ⟨known, same⟩ := orderly.known unregistered seen
  refine ⟨orderly.keeps, orderly.owner, ?_, ?_, ?_, ?_⟩
  · intro other written
    rcases Table.mem_put.mp written with ⟨before, _⟩ | rfl
    · cases orderly.writes other before with
      | tombstone read counted named state known =>
        exact .tombstone read counted named state known
      | reclaimed reclaiming known =>
        rcases writes with ⟨old, held, listed, _, _⟩ | ⟨_, now⟩
        · unfold Reclaiming at reclaiming
          rw [listed] at reclaiming
          exact reclaiming.elim
        · exact .reclaimed now known
      | registered phase => exact (unregistered _ _ _ phase).elim
    · rcases writes with ⟨old, held, listed, named, state⟩ | ⟨_, reclaiming⟩
      · exact .tombstone (congrArg _ listed) (by rw [listed]; rfl) named state known
      · exact .reclaimed reclaiming known
  · intro other written
    rcases Table.mem_put.mp written with ⟨before, _⟩ | rfl
    · exact orderly.same other before
    · exact ⟨owner, same⟩
  · intro reclaiming
    rcases writes with ⟨old, held, listed, _, _⟩ | ⟨state, _⟩
    · unfold Reclaiming at reclaiming
      rw [listed] at reclaiming
      exact reclaiming.elim
    · exact ⟨Handle.written values row, Table.mem_put.mpr (.inr rfl), state⟩
  · intro old held claimed phase
    exact (unregistered old held claimed phase).elim

/-- The end of an update, which takes the transaction on to its next phase if
it has changed a row. -/
theorem Orderly.after_finish {found : Scan HandleID} (scanned : transaction.scan = some found)
    (call : thread.call = transaction.thread.call)
    (phase : (transaction.thread.trail = .listed old held ∧
        thread.trail = if found.affected > 0 then .vacated old held else .listed old held) ∨
      (transaction.thread.trail = .vacated old held ∧
        thread.trail = if found.affected > 0 then .reclaimed old held else .vacated old held)) :
    Orderly committed { transaction with thread, scan := none } := by
  by_cases changed : found.affected > 0
  all_goals
    simp only [changed, if_true, if_false] at phase
    rcases phase with ⟨was, became⟩ | ⟨was, became⟩
    all_goals
      refine orderly.of_same call ?_ ?_ ?_ ?_
      · simp [became, was, RenamePhase.old?]
      · simp [became, was, RenamePhase.held?]
      · simp [Reclaiming, became, was, scanned, changed]
      · simp [became, was]

end Orderly

variable {catalog : Catalog} {database : RenameDatabase service} {index : Nat}

theorem Orderly.after_move (orderly : Orderly database.committed transaction)
    (moved : Database.Move (handleSchema catalog) database index transaction
      later) : Orderly database.committed later := by
  cases moved with
  | read waiting idle form =>
    rcases RenamePhase.after_read waiting form (transaction.view database.committed) with
      same | ⟨old, _, fresh, owner, reads⟩ | ⟨old, active, lists⟩
    · exact orderly.of_phase rfl same Iff.rfl
    · refine orderly.of_unlisted (by rw [fresh]; rfl) idle ?_ (by simp [reads]) (by simp [reads])
      intro found known
      rw [reads] at known
      cases known
      exact owner
    · refine orderly.of_unlisted (by rw [active]; rfl) idle ?_ (by simp [lists]) (by simp [lists])
      intro found known
      rw [lists] at known
      refine orderly.owner found ?_
      rw [active]
      exact known
  | insert waiting idle form unlocked absent fits =>
    obtain ⟨_, old, held, vacated, rfl, registered⟩ := RenamePhase.after_insert waiting form
    exact orderly.after_insert idle vacated rfl absent rfl registered
  | collide waiting idle form unlocked taken =>
    exact orderly.of_phase rfl (RenamePhase.after_insert waiting form).1 Iff.rfl
  | find waiting idle form => exact orderly.of_phase rfl rfl (by simp [idle])
  | @change β statement next chosen change keepsKey answer scan row version
      waiting scanning form visited latest matched changed unlocked fits =>
    obtain ⟨ownerID, id, values, rfl, changes, phase⟩ := RenamePhase.after_update waiting form
    obtain rfl := Option.some.inj ((changes row).symm.trans changed)
    simp only [Handle.ownedBy, Bool.and_eq_true, decide_eq_true_eq] at matched
    obtain ⟨sameID, sameOwner⟩ := matched
    rcases phase with ⟨old, held, listed, rfl, rfl, state, _⟩ |
      ⟨old, held, vacated, rfl, state, _⟩
    · have owner := orderly.owner old (by rw [listed]; rfl)
      exact orderly.after_change latest (sameOwner.trans owner) (by simp [listed])
        (.inl ⟨old, held, listed, sameID, state⟩)
    · refine orderly.after_change latest sameOwner (by simp [vacated]) (.inr ⟨state, ?_⟩)
      unfold Reclaiming
      rw [vacated]
      exact ⟨_, rfl, Nat.succ_pos _⟩
  | remove waiting scanning form visited latest matched changed free =>
    obtain ⟨_, _, _, _, changes, _⟩ := RenamePhase.after_update waiting form
    simp [changes] at changed
  | @skip β statement next chosen change keepsKey answer scan wanted waiting
      scanning form visited free unmatched => exact orderly.of_phase rfl rfl (by simp [scanning])
  | @finish β statement next chosen change keepsKey answer affected waiting scanned form =>
    obtain ⟨_, _, _, _, _, phase⟩ := RenamePhase.after_update waiting form
    rcases phase with ⟨old, held, listed, _, _, _, trail⟩ |
      ⟨old, held, vacated, _, _, trail⟩
    · exact orderly.after_finish scanned rfl (.inl ⟨listed, trail affected⟩)
    · exact orderly.after_finish scanned rfl (.inr ⟨vacated, trail affected⟩)

/-! ## What a transaction has counted -/

/-- The owner has an active handle other than the given one. -/
def Superseded (committed : Table Handle.id) (ownerID : OwnerID) (id : HandleID) : Prop :=
  ∃ row ∈ committed, row.ownerID = ownerID ∧ row.state = .active ∧ row.id ≠ id

/-- The count is up to date, or the handle that was read as active is not the
active one any more. -/
structure Counted (committed : Table Handle.id)
    (transaction : RenameTransaction service) : Prop where
  room : ∀ old held, transaction.thread.trail.old? = some old →
    transaction.thread.trail.held? = some held →
    namesHeld committed transaction.thread.call.ownerID ≤ held.length ∨
      Superseded committed transaction.thread.call.ownerID old.id
  known : ∀ held, transaction.thread.trail.held? = some held →
    reclaims held transaction.thread.call.name = true →
    ∃ stored ∈ committed, stored.name = transaction.thread.call.name

theorem counted_start (call : RenameCall) : Counted committed
      (start (renameService service) Handle.id call) where
  room _ _ impossible := by cases impossible
  known _ impossible := by cases impossible

theorem Counted.of_same (counted : Counted committed transaction)
    (call : later.thread.call = transaction.thread.call)
    (read : later.thread.trail.old? = transaction.thread.trail.old?)
    (listed : later.thread.trail.held? = transaction.thread.trail.held?) :
    Counted committed later where
  room := by
    rw [call, read, listed]
    exact counted.room
  known := by
    rw [call, listed]
    exact counted.known

theorem Counted.after_move (orderly : Orderly database.committed transaction)
    (counted : Counted database.committed transaction)
    (moved : Database.Move (handleSchema catalog) database index transaction
      later) : Counted database.committed later := by
  cases moved with
  | read waiting idle form =>
    rcases RenamePhase.after_read waiting form (transaction.view database.committed) with
      same | ⟨old, _, fresh, owner, reads⟩ | ⟨old, active, lists⟩
    · exact counted.of_same rfl (by rw [same]) (by rw [same])
    · constructor
      · intro _ _ _ listed
        rw [reads] at listed
        cases listed
      · intro _ listed
        rw [reads] at listed
        cases listed
    · -- Nothing is written yet, so the view is what is committed.
      have clean := orderly.clean (by rw [active]; rfl)
      have sees : ∀ row, row ∈ transaction.view database.committed ↔ row ∈ database.committed := by
        intro row
        rw [mem_view, touches_iff, orderly.keeps]
        constructor
        · rintro (written | ⟨stored, _⟩)
          · exact (clean row written).elim
          · exact stored
        · refine fun stored => .inr ⟨stored, ?_⟩
          rintro (⟨other, written, _⟩ | impossible)
          · exact clean other written
          · cases impossible
      constructor
      · intro read held _ listed
        rw [lists] at listed
        cases listed
        rw [Catalog.length_handlesOf]
        exact .inl (namesHeld_mono fun row stored => (sees row).mpr stored)
      · intro held listed reclaimed
        rw [lists] at listed
        cases listed
        rw [reclaims, List.any_eq_true] at reclaimed
        obtain ⟨row, member, hold⟩ := reclaimed
        simp only [Bool.and_eq_true, decide_eq_true_eq] at hold
        exact ⟨row, (sees row).mp (Catalog.mem_handlesOf.mp member).1, hold.1⟩
  | insert waiting idle form unlocked absent fits =>
    obtain ⟨_, old, held, vacated, _, registered⟩ := RenamePhase.after_insert waiting form
    refine counted.of_same rfl ?_ ?_
    all_goals
      rw [registered, vacated]
      rfl
  | collide waiting idle form unlocked taken =>
    have same := (RenamePhase.after_insert waiting form).1
    exact counted.of_same rfl (by rw [same]) (by rw [same])
  | find | change | remove | skip => exact counted.of_same rfl rfl rfl
  | @finish β statement next chosen change keepsKey answer affected waiting scanned form =>
    obtain ⟨_, _, _, _, _, phase⟩ := RenamePhase.after_update waiting form
    rcases phase with ⟨old, held, listed, _, _, _, trail⟩ |
      ⟨old, held, vacated, _, _, trail⟩
    · refine counted.of_same rfl ?_ ?_
      all_goals
        rw [trail affected, listed]
        split <;> rfl
    · refine counted.of_same rfl ?_ ?_
      all_goals
        rw [trail affected, vacated]
        split <;> rfl

end Moves

/-! ## What a commit does to the number of names -/

section Commits

variable {committed : Table Handle.id} {transaction : RenameTransaction service} {ownerID : OwnerID}

variable (orderly : Orderly committed transaction)

include orderly

theorem Orderly.untouched {row : Handle} (stored : row ∈ committed)
    (foreign : row.ownerID ≠ transaction.thread.call.ownerID) : ¬ transaction.Touches row.id := by
  rw [touches_iff, orderly.keeps]
  rintro (⟨version, written, same⟩ | impossible)
  · obtain ⟨mine, alike⟩ := orderly.same version written
    exact foreign ((alike row stored same.symm).1.trans mine)
  · cases impossible

theorem Orderly.namesHeld_view {fresh : List HandleID} (registered : ∀ old held claimed,
      transaction.thread.trail = .registered old held claimed →
      transaction.thread.call.ownerID = ownerID → claimed.id ∈ fresh) :
    namesHeld (transaction.view committed) ownerID ≤
      namesHeld committed ownerID + fresh.length := by
  refine Table.length_select_le fun row seen counted => ?_
  rw [decide_eq_true_eq] at counted
  have stays : (∃ stored ∈ committed, stored.id = row.id) →
      (∀ stored ∈ committed, stored.id = row.id → stored.ownerID = row.ownerID) →
      ∃ old ∈ committed, decide (old.ownerID = ownerID) = true ∧ old.id = row.id := by
    rintro ⟨stored, member, same⟩ alike
    exact ⟨stored, member, decide_eq_true ((alike stored member same).trans counted), same⟩
  rcases mem_view.mp seen with written | ⟨stored, _⟩
  · obtain ⟨mine, alike⟩ := orderly.same row written
    have owners := fun stored member same =>
      (alike stored member same).1
    cases orderly.writes row written with
    | tombstone _ _ _ _ known | reclaimed _ known => exact .inl (stays known owners)
    | registered phase => exact .inr (registered _ _ _ phase (mine.symm.trans counted))
  · exact .inl ⟨row, stored, decide_eq_true counted, rfl⟩

theorem Orderly.claims {returned : Except Err Handle}
    (done : transaction.thread.rest = .done returned) (accepted : returned.isOk = true) :
    ∃ row ∈ transaction.pending, row.state = .active ∧
      row.ownerID = transaction.thread.call.ownerID := by
  have concluded := transaction.thread.concluded done
  cases returned with
  | error failure => cases accepted
  | ok handle =>
    obtain ⟨old, held, reclaimed | ⟨claimed, registered⟩⟩ := concluded
    · obtain ⟨row, written, active⟩ := orderly.reclaimed (by
        unfold Reclaiming
        rw [reclaimed]
        trivial)
      exact ⟨row, written, active, (orderly.same row written).1⟩
    · have written := orderly.registered old held claimed registered
      have valid := transaction.thread.valid
      rw [registered] at valid
      refine ⟨claimed, written, ?_, (orderly.same claimed written).1⟩
      rw [valid.2]
      rfl

end Commits

end RenameTransaction

namespace RenameDatabase

open RenameTransaction

variable {service : HandleService}

/-- Runs of renames against fixed owners, in which a transaction whose body
returned no error may commit when `allows` says so. -/
def Runs (catalog : Catalog) (allows : RenameDatabase service → Nat → Prop) :
    RenameDatabase service → RenameDatabase service → Prop :=
  Database.Runs (handleSchema catalog) Except.isOk allows

/-- The commit does not make a handle active that another running rename has
read as the active one. -/
def Undisturbed (database : RenameDatabase service) (index : Nat) : Prop :=
  ∀ transaction ∈ database.transactions[index]?,
    ∀ row ∈ transaction.pending.rows, row.state = .active →
    ∀ other ∈ database.transactions.eraseIdx index, other.standing.isRunning = true →
      ∀ old ∈ other.thread.trail.old?, row.id ≠ old.id

instance (database : RenameDatabase service) (index : Nat) :
    Decidable (database.Undisturbed index) :=
  inferInstanceAs (Decidable (∀ transaction ∈ database.transactions[index]?, _))

variable {committed : Table Handle.id}
  {transaction holder : RenameTransaction service} {catalog : Catalog}

theorem Counted.endures (orderly : Orderly committed transaction)
    (counted : Counted committed holder)
    (claims : ∃ row ∈ transaction.pending, row.state = .active ∧
      row.ownerID = transaction.thread.call.ownerID)
    (apart : ∀ row ∈ transaction.pending, row.state = .active →
      ∀ old, holder.thread.trail.old? = some old → row.id ≠ old.id) :
    Counted (transaction.view committed) holder := by
  constructor
  · intro old held read listed
    -- What the committing rename has made active supersedes the old handle.
    have supersedes : transaction.thread.call.ownerID = holder.thread.call.ownerID →
        Superseded (transaction.view committed) holder.thread.call.ownerID old.id := by
      intro same
      obtain ⟨row, written, active, owner⟩ := claims
      exact ⟨row, mem_view.mpr (.inl written), owner.trans same,
        active, apart row written active old read⟩
    rcases counted.room old held read listed with
      room | ⟨row, stored, owner, active, differs⟩
    · by_cases mine : transaction.thread.call.ownerID = holder.thread.call.ownerID
      · exact .inr (supersedes mine)
      refine .inl (le_trans ?_ room)
      have kept : namesHeld (transaction.view committed) holder.thread.call.ownerID ≤
            namesHeld committed holder.thread.call.ownerID + ([] : List HandleID).length :=
        orderly.namesHeld_view fun _ _ _ _ same => (mine same).elim
      exact kept
    · by_cases mine : transaction.thread.call.ownerID = holder.thread.call.ownerID
      · exact .inr (supersedes mine)
      · refine .inr ⟨row, mem_view.mpr (.inr ⟨stored, ?_⟩), owner, active, differs⟩
        exact orderly.untouched stored fun same =>
          mine (same.symm.trans owner)
  · intro held listed reclaimed
    obtain ⟨stored, member, named⟩ := counted.known held listed reclaimed
    obtain ⟨version, seen, sameID, written | rfl⟩ :=
      exists_mem_view orderly.keeps member
    · refine ⟨version, seen, Eq.trans ?_ named⟩
      exact ((orderly.same version written).2 stored member sameID.symm).2.symm
    · exact ⟨version, seen, named⟩

/-- What every step keeps of a transaction. -/
structure Sound (committed : Table Handle.id) (transaction : RenameTransaction service) : Prop where
  orderly : Orderly committed transaction
  counted : Counted committed transaction

/-- What a transaction has written survives the commits of others. -/
theorem Orderly.endures (orderly : Orderly committed transaction) (held : Orderly committed holder)
    (apart : Database.Apart (handleSchema catalog) transaction holder) :
    Orderly (transaction.view committed) holder := by
  -- A version of a row the holder has written is not the committer's.
  have member : ∀ row ∈ holder.pending, ∀ stored ∈ transaction.view committed,
      stored.id = row.id → stored ∈ committed := by
    intro row written stored seen same
    rcases mem_view.mp seen with locked | ⟨kept, _⟩
    · exact (apart.1 row.id (same ▸ touches_of_mem locked) (touches_of_mem written)).elim
    · exact kept
  have known : ∀ {row : Handle}, (∃ stored ∈ committed, stored.id = row.id) →
      ∃ stored ∈ transaction.view committed, stored.id = row.id := by
    rintro row ⟨stored, kept, same⟩
    obtain ⟨version, seen, sameID, _⟩ := exists_mem_view orderly.keeps kept
    exact ⟨version, seen, sameID.trans same⟩
  refine ⟨held.keeps, held.owner, fun row written => ?_,
    fun row written => ⟨(held.same row written).1, fun stored seen same =>
      (held.same row written).2 stored (member row written stored seen same)
        same⟩, held.reclaimed, held.registered⟩
  cases held.writes row written with
  | tombstone read counted named state stored =>
    exact .tombstone read counted named state (known stored)
  | reclaimed reclaiming stored => exact .reclaimed reclaiming (known stored)
  | registered phase unknown =>
    exact .registered phase fun stored seen same =>
      unknown stored (member row written stored seen same) same

/-- A commit of a registered name finds its count up to date: the index of
active handles has refused every other one. -/
theorem Sound.room (sound : Sound committed transaction)
    (unique : (transaction.view committed).Unique
      (handleSchema catalog).clashes) {old claimed : Handle} {held : List Handle}
    (registered : transaction.thread.trail = .registered old held claimed) :
    namesHeld committed transaction.thread.call.ownerID < service.maxNames := by
  obtain ⟨orderly, counted⟩ := sound
  have written := orderly.registered old held claimed registered
  have valid := transaction.thread.valid
  rw [registered] at valid
  obtain ⟨allowed, fresh⟩ := valid
  have unknown : ∀ stored ∈ committed, stored.id ≠ claimed.id := by
    cases orderly.writes claimed written with
    | tombstone _ _ _ state =>
      rw [fresh] at state
      cases state
    | reclaimed reclaiming =>
      unfold Reclaiming at reclaiming
      rw [registered] at reclaiming
      exact reclaiming.elim
    | registered phase unknown => exact unknown
  have apart : ∀ row ∈ transaction.view committed, row.id ≠ claimed.id →
      row.clashes claimed = false := fun row seen differs =>
    unique row seen claimed (mem_view.mpr (.inl written)) differs
  have read : transaction.thread.trail.old? = some old := by
    rw [registered]
    rfl
  have listed : transaction.thread.trail.held? = some held := by
    rw [registered]
    rfl
  rcases allowed with reclaimed | below
  · obtain ⟨stored, member, named⟩ := counted.known held listed reclaimed
    obtain ⟨version, seen, sameID, versions⟩ := exists_mem_view orderly.keeps member
    have alike : version.name = transaction.thread.call.name := by
      rcases versions with rewritten | rfl
      · exact ((orderly.same version rewritten).2 stored member sameID.symm).2.symm.trans named
      · exact named
    have clash := apart version seen (sameID ▸ unknown stored member)
    simp [Handle.clashes, alike, fresh, FoldTable.stored, RenameCall.fresh] at clash
  · rcases counted.room old held read listed with
      upToDate | ⟨row, member, owner, active, differs⟩
    · exact lt_of_le_of_lt upToDate below
    have untouched : ¬ transaction.Touches row.id := by
      rw [touches_iff, orderly.keeps]
      rintro (⟨version, rewritten, same⟩ | impossible)
      · cases orderly.writes version rewritten with
        | tombstone wasRead _ named =>
          rw [read] at wasRead
          cases wasRead
          exact differs (same.symm.trans named)
        | reclaimed reclaiming =>
          unfold Reclaiming at reclaiming
          rw [registered] at reclaiming
          exact reclaiming
        | registered phase foreign => exact foreign row member same.symm
      · cases impossible
    have clash := apart row (mem_view.mpr (.inr ⟨member, untouched⟩)) (unknown row member)
    simp [Handle.clashes, owner, active, fresh, FoldTable.stored, RenameCall.fresh] at clash

/-- Renames keep the cap of an owner, as long as none of them makes a handle
active that another one is about to vacate. -/
theorem sound_discipline (catalog : Catalog) (ownerID : OwnerID) :
    Database.Discipline (handleSchema catalog) Except.isOk
      (Undisturbed : RenameDatabase service → Nat → Prop)
      (fun committed => namesHeld committed ownerID ≤ service.maxNames)
      Sound where
  start call _ := ⟨orderly_start call, counted_start call⟩
  move _ _ sound moved := ⟨sound.orderly.after_move moved,
    sound.counted.after_move sound.orderly moved⟩
  publish := by
    intro committed transaction _ capped sound unique _ _ _
    by_cases grows : transaction.thread.call.ownerID = ownerID ∧
        ∃ old held claimed, transaction.thread.trail = .registered old held claimed
    · obtain ⟨rfl, old, held, claimed, registered⟩ := grows
      have room := sound.room unique registered
      have grown : namesHeld (transaction.view committed)
          transaction.thread.call.ownerID ≤ namesHeld committed
            transaction.thread.call.ownerID + [claimed.id].length := by
        refine sound.orderly.namesHeld_view fun _ _ other phase _ => ?_
        rw [registered] at phase
        cases phase
        exact List.mem_singleton.mpr rfl
      exact grown.trans room
    · have kept : namesHeld (transaction.view committed) ownerID ≤
          namesHeld committed ownerID + ([] : List HandleID).length :=
        sound.orderly.namesHeld_view fun old held claimed phase mine =>
          (grows ⟨mine, old, held, claimed, phase⟩).elim
      exact le_trans kept capped
  endure := by
    intro database index other transaction holder _ _ sound held apart heldAt
      differs holding found done accepted undisturbed
    refine ⟨Orderly.endures sound.orderly held.orderly apart,
      Counted.endures sound.orderly held.counted
        (sound.orderly.claims done accepted) fun row written active old read =>
          undisturbed transaction found row written active holder
            (List.mem_eraseIdx_iff_getElem?.mpr ⟨other, differs, heldAt⟩)
            (Standing.isRunning_iff.mpr holding) old read⟩

end RenameDatabase

namespace Sample

/-- The service with room for one name beside the active one. -/
def cappedService : HandleService :=
  { handleService with maxNames := 2, held := by decide }

/-- Three renames of one owner: to a new name, to another new name, and back
to the first one. -/
def renamesStarted : RenameDatabase cappedService :=
  (((Database.idle (renameService cappedService) namedCatalog.handles).begin
    (renameCall "olive" "elm" 65 a_known 10)).begin
    (renameCall "olive" "oak" 66 b_known 20)).begin
    (renameCall "olive" "olive" 67 c_known 30)

/-- Let the renames go on in the given order. -/
def renameSchedule (allows : RenameDatabase cappedService → Nat → Prop)
    [∀ database index, Decidable (allows database index)]
    (order : List Nat) : RenameDatabase cappedService :=
  order.foldl (Database.advance (handleSchema namedCatalog) Except.isOk allows) renamesStarted

/-- The first rename reads and counts; the second one commits, and the third
one takes back the name that it vacated; then the first one goes on. -/
def overfull : RenameDatabase cappedService :=
  renameSchedule (fun _ _ => True) (List.replicate 2 0 ++
    List.replicate 12 1 ++ List.replicate 14 2 ++ List.replicate 12 0)

/-- Only the second rename commits while the first one is under way. -/
def stopped : RenameDatabase cappedService :=
  renameSchedule RenameDatabase.Undisturbed (List.replicate 2 0 ++
    List.replicate 12 1 ++ List.replicate 12 0)

end Sample

open Sample

namespace RenameDatabase

/-- A tombstone that is taken back lets a rename add a name with an old
count. -/
theorem renames_exceed_cap : namedCatalog.handles.Unique Handle.clashes ∧
      namesHeld namedCatalog.handles (utf8 "olive") ≤ cappedService.maxNames ∧
      Runs namedCatalog (fun _ _ => True) (Database.idle (renameService cappedService)
          namedCatalog.handles) overfull ∧
      (overfull.committed.rows.map fun row => (row.name, row.state)) =
        [(utf8 "oak", .quarantined), (utf8 "olive", .quarantined), (utf8 "elm", .active)] ∧
      namesHeld overfull.committed (utf8 "olive") > cappedService.maxNames := by
  refine ⟨by decide +kernel, by decide +kernel, ?_, by decide +kernel, by decide +kernel⟩
  exact (((Database.begin_runs _ _).trans (Database.begin_runs _ _)).trans
    (Database.begin_runs _ _)).trans (Database.schedule_runs _ _)

theorem renames_keep_cap (service : HandleService) (catalog : Catalog)
    (unique : catalog.handles.Unique Handle.clashes) (ownerID : OwnerID)
    (capped : namesHeld catalog.handles ownerID ≤ service.maxNames)
    {database : RenameDatabase service} (runs : Runs catalog Undisturbed
      (Database.idle (renameService service) catalog.handles) database) :
    namesHeld database.committed ownerID ≤ service.maxNames :=
  ((Database.holds_idle unique capped).after_runs (sound_discipline catalog ownerID) runs).committed

/-- Without the third rename, the index of active handles stops the first
one. -/
theorem renames_keep_cap_stopped :
    (stopped.committed.rows.map fun row => (row.name, row.state)) =
        [(utf8 "olive", .quarantined), (utf8 "oak", .active)] ∧
      namesHeld stopped.committed (utf8 "olive") ≤ cappedService.maxNames := by
  refine ⟨by decide +kernel, ?_⟩
  exact renames_keep_cap cappedService namedCatalog
    (by decide +kernel) (utf8 "olive") (by decide +kernel)
    ((((Database.begin_runs _ _).trans (Database.begin_runs _ _)).trans
      (Database.begin_runs _ _)).trans (Database.schedule_runs _ _))

end RenameDatabase

end Vallet.Publishing
