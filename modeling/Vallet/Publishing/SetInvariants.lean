import Vallet.Foundation.TransactionInvariants
import Vallet.Publishing.KeySetProtocol

/-!
# What transactions on key sets have read and written

A transaction reads its set with a plain `SELECT` and writes back what it has
read.  What it writes to a set that was there before stays comparable with the
committed version: it revives no tombstone, and only a rename makes one.  This
rests on what it has read being still so, which the commits of others can
change; the moves of the transaction itself keep both.
-/

namespace Vallet.Publishing

open Auth Effects Relational SetRow SetPhase KeySet Table

abbrev SetTransaction (service : KeySetService) :=
  Transaction (setService service) key

abbrev SetDatabase (service : KeySetService) :=
  Database (setService service) key

namespace SetPhase

/-- The new set has been inserted. -/
def hasInserted : SetPhase → Bool
  | .created => true
  | .copied _ => true
  | .vacated _ => true
  | .unsettled _ => true
  | .settled _ => true
  | _ => false

/-- The old set has been made a tombstone. -/
def hasVacated : SetPhase → Bool
  | .vacated _ => true
  | .unsettled _ => true
  | .settled _ => true
  | _ => false

/-- A set has been made the default. -/
def hasDesignated : SetPhase → Bool
  | .settled _ => true
  | .designated _ => true
  | _ => false

/-- The set was found not to be the default. -/
def hasChecked : SetPhase → Bool
  | .checked _ => true
  | .dropped _ => true
  | _ => false

theorem hasChecked_of_hasInserted {phase : SetPhase}
    (inserted : phase.hasInserted = true) : phase.hasChecked = false := by
  cases phase <;> first | rfl | cases inserted

end SetPhase

/-- A write goes on with the set that was read, and changes neither whether a
set was inserted nor whether one was checked. -/
theorem SetWrite.keeps {call : SetCall} {phase : SetPhase}
    {chosen : SetRow → Bool} {change : SetRow → Option SetRow}
    {after : Nat → SetPhase} (write : SetWrite call phase chosen change after) (affected : Nat) :
    (after affected).target? = phase.target? ∧ (after affected).hasInserted = phase.hasInserted ∧
      (after affected).hasChecked = phase.hasChecked := by
  cases write with
  | aside _ _ same =>
    rw [same]
    exact ⟨rfl, rfl, rfl⟩
  | vacate was _ _ _ later | reveal was _ _ _ _ later
  | drop was _ _ _ later =>
    rw [later, was]
    split <;> exact ⟨rfl, rfl, rfl⟩
  | clear ready =>
    rcases ready with ⟨was, _, later⟩ | ⟨was, _, later⟩
    all_goals
      rw [later, was]
      exact ⟨rfl, rfl, rfl⟩
  | designate ready =>
    rcases ready with ⟨was, _, later⟩ | ⟨was, _, later⟩
    all_goals
      rw [later, was]
      split <;> exact ⟨rfl, rfl, rfl⟩

namespace SetTransaction

variable {service : KeySetService}

/-! ## What a transaction has written -/

/-- The transaction takes the designation from the default set. -/
def Moves (thread : Thread (setService service)) : Prop :=
  thread.call.kind = .setDefault ∨
    (thread.call.kind = .rename ∧
      ∃ target, thread.trail.target? = some target ∧ target.isDefault = true)

/-- What a version written by a transaction has in common with the committed
one. -/
structure Rewrites (thread : Thread (setService service)) (stored set : KeySet) : Prop where
  owner : set.ownerID = stored.ownerID
  revives : set.state = .active → stored.state = .active
  vacates : stored.state = .active → set.state ≠ .active →
    thread.call.kind = .rename ∧ thread.call.targetID = some set.id
  designates : set.isDefault = true → stored.isDefault = false →
    thread.call.kind = .setDefault ∧ thread.call.targetID = some set.id
  clears : stored.isDefault = true → set.isDefault = false → Moves thread

/-- A set written by a transaction is the one it makes, or a version of one
that was there before. -/
inductive Writes (committed : Table key) (thread : Thread (setService service)) (set : KeySet) :
    Prop where
  | fresh (inserted : thread.trail.hasInserted = true)
      (named : thread.call.newID = some set.id) (active : set.state = .active)
      (unknown : ∀ stored, .keySet stored ∈ committed → stored.id ≠ set.id)
  | version {stored : KeySet} (known : .keySet stored ∈ committed) (same : stored.id = set.id)
      (other : thread.call.newID ≠ some set.id) (rewrites : Rewrites thread stored set)

/-- What a transaction has written and deleted, by how far it has come. -/
structure Orderly (committed : Table key) (transaction : SetTransaction service) : Prop where
  owner : ∀ set, .keySet set ∈ transaction.pending → set.ownerID = transaction.thread.call.ownerID
  writes : ∀ set, .keySet set ∈ transaction.pending → Writes committed transaction.thread set
  removes : ∀ id, SetKey.keySet id ∈ transaction.removed →
    transaction.thread.call.targetID = some id ∧ transaction.thread.trail.hasChecked = true
  inserted : transaction.thread.trail.hasInserted = true →
    ∀ id, transaction.thread.call.newID = some id → transaction.Touches (.keySet id)
  vacated : transaction.thread.trail.hasVacated = true →
    ∃ set, .keySet set ∈ transaction.pending ∧ set.state ≠ .active ∧
      transaction.thread.call.targetID = some set.id
  designated : transaction.thread.trail.hasDesignated = true →
    ∃ set, .keySet set ∈ transaction.pending ∧ set.state = .active ∧ set.isDefault = true

/-- What a transaction has read is still so. -/
structure Current (committed : Table key) (thread : Thread (setService service)) : Prop where
  read : ∀ target, thread.trail.target? = some target →
    target.ownerID = thread.call.ownerID ∧ thread.call.targetID = some target.id
  standing : ∀ target, thread.trail.target? = some target →
    ∃ set, .keySet set ∈ committed ∧ set.id = target.id ∧
      set.state = .active ∧ (thread.call.kind = .rename →
        set.isDefault = true → target.isDefault = true)
  plain : thread.trail.hasChecked = true → ∀ set, .keySet set ∈ committed →
    thread.call.targetID = some set.id → set.isDefault = false

variable {transaction later : SetTransaction service} {thread before : Thread (setService service)}

theorem touches_keySet {id : KeySetID} : transaction.Touches (.keySet id) ↔
      (∃ set, .keySet set ∈ transaction.pending ∧ set.id = id) ∨
        SetKey.keySet id ∈ transaction.removed := by
  rw [Transaction.touches_iff]
  refine or_congr ⟨?_, ?_⟩ Iff.rfl
  · rintro ⟨row, written, sameKey⟩
    cases row with
    | keySet set => exact ⟨set, written, SetKey.keySet.inj sameKey⟩
    | owner | membership => cases sameKey
  · rintro ⟨set, written, rfl⟩
    exact ⟨.keySet set, written, rfl⟩

theorem Rewrites.refl (thread : Thread (setService service)) (set : KeySet) :
    Rewrites thread set set where
  owner := rfl
  revives := id
  vacates active gone := (gone active).elim
  designates standing plain := by cases standing.symm.trans plain
  clears standing plain := by cases standing.symm.trans plain

theorem Rewrites.transport {stored set : KeySet} (rewrites : Rewrites before stored set)
    (call : thread.call = before.call) (moves : Moves before → Moves thread) :
    Rewrites thread stored set where
  owner := rewrites.owner
  revives := rewrites.revives
  vacates := by
    rw [call]
    exact rewrites.vacates
  designates := by
    rw [call]
    exact rewrites.designates
  clears standing plain := moves (rewrites.clears standing plain)

theorem Writes.transport {committed : Table key} {set : KeySet}
    (writes : Writes committed before set) (call : thread.call = before.call)
    (inserted : before.trail.hasInserted = true → thread.trail.hasInserted = true)
    (moves : Moves before → Moves thread) : Writes committed thread set := by
  cases writes with
  | fresh was named active unknown => exact .fresh (inserted was) (call ▸ named) active unknown
  | version known same other rewrites =>
    exact .version known same (call ▸ other) (rewrites.transport call moves)

/-! ## Moves -/

section Moves

variable {committed : Table key} {set : KeySet} {rows : Table key} {affected : Nat}

theorem orderly_start (call : SetCall) : Orderly committed
      (Transaction.start (setService service) key call) where
  owner _ impossible := (not_mem_empty _ impossible).elim
  writes _ impossible := (not_mem_empty _ impossible).elim
  removes _ impossible := by cases impossible
  inserted impossible := by cases impossible
  vacated impossible := by cases impossible
  designated impossible := by cases impossible

theorem moves_of_target (call : thread.call = before.call)
    (target : before.trail.target?.isSome = true → thread.trail.target? = before.trail.target?)
    (moves : Moves before) : Moves thread := by
  unfold Moves at moves ⊢
  rw [call]
  refine moves.imp_right fun ⟨kind, found, read, standing⟩ =>
    ⟨kind, found, ?_, standing⟩
  rw [target (by rw [read]; rfl), read]

theorem Current.advance (current : Current committed before) (call : thread.call = before.call)
    (target : thread.trail.target? = before.trail.target?)
    (checked : thread.trail.hasChecked = true → before.trail.hasChecked = true) :
    Current committed thread where
  read := by
    rw [call, target]
    exact current.read
  standing := by
    rw [call, target]
    exact current.standing
  plain now := by
    rw [call]
    exact current.plain (checked now)

theorem keySet_eq_of_id {left right : KeySet}
    (leftStored : .keySet left ∈ rows) (rightStored : .keySet right ∈ rows)
    (same : left.id = right.id) : left = right :=
  keySet.inj (eq_of_key_eq leftStored rightStored (congrArg SetKey.keySet same))

/-- A row that is no set leaves the written sets as they are. -/
theorem mem_put_aside {row : SetRow} (plain : row.set? = none) :
    .keySet set ∈ rows.put row ↔ .keySet set ∈ rows := by
  rw [mem_put]
  cases row with
  | keySet other => cases plain
  | owner | membership => simp [key]

theorem newID_eq_none {call : SetCall} (rename : call.kind ≠ .rename)
    (create : call.kind ≠ .create) : call.newID = none := by
  cases call with
  | create => exact (create rfl).elim
  | rename => exact (rename rfl).elim
  | delete | setDefault | setVisibility => rfl

/-- A set that the update chooses, as what it becomes. -/
theorem onSet_eq_true {chosen : KeySet → Bool} {row : SetRow}
    (matched : onSet chosen row = true) : ∃ set, row = .keySet set ∧ chosen set = true := by
  cases row with
  | keySet set => exact ⟨set, rfl, matched⟩
  | owner | membership => cases matched

section Orderly

variable (orderly : Orderly committed transaction)

include orderly

/-- The transaction goes on without having written or deleted another set. -/
theorem Orderly.advance (call : later.thread.call = transaction.thread.call)
    (pending : ∀ set, .keySet set ∈ later.pending ↔
      .keySet set ∈ transaction.pending) (removed : ∀ id, SetKey.keySet id ∈ later.removed ↔
      SetKey.keySet id ∈ transaction.removed)
    (moves : Moves transaction.thread → Moves later.thread)
    (checked : transaction.thread.trail.hasChecked = true →
      later.thread.trail.hasChecked = true) (inserted : later.thread.trail.hasInserted =
      transaction.thread.trail.hasInserted) (vacated : later.thread.trail.hasVacated = true →
      ∃ set, .keySet set ∈ transaction.pending ∧ set.state ≠ .active ∧
        transaction.thread.call.targetID = some set.id)
    (designated : later.thread.trail.hasDesignated = true →
      ∃ set, .keySet set ∈ transaction.pending ∧ set.state = .active ∧ set.isDefault = true) :
    Orderly committed later where
  owner set written := by
    rw [call]
    exact orderly.owner set ((pending set).mp written)
  writes set written :=
    (orderly.writes set ((pending set).mp written)).transport call
      (fun was => inserted.trans was) moves
  removes id deleted := by
    rw [call]
    exact (orderly.removes id ((removed id).mp deleted)).imp_right checked
  inserted now id named := by
    rw [call] at named
    have touched := orderly.inserted (inserted.symm.trans now) id named
    rw [touches_keySet] at touched ⊢
    exact touched.imp (fun ⟨set, written, same⟩ =>
      ⟨set, (pending set).mpr written, same⟩) (removed id).mpr
  vacated now := by
    rw [call]
    obtain ⟨set, written, gone⟩ := vacated now
    exact ⟨set, (pending set).mpr written, gone⟩
  designated now := by
    obtain ⟨set, written, standing⟩ := designated now
    exact ⟨set, (pending set).mpr written, standing⟩

/-- The transaction has only locked, or touched members. -/
theorem Orderly.advance_same (call : later.thread.call = transaction.thread.call)
    (trail : later.thread.trail = transaction.thread.trail)
    (pending : ∀ set, .keySet set ∈ later.pending ↔
      .keySet set ∈ transaction.pending) (removed : ∀ id, SetKey.keySet id ∈ later.removed ↔
      SetKey.keySet id ∈ transaction.removed) :
    Orderly committed later := by
  refine orderly.advance call pending removed
    (moves_of_target call fun _ => by rw [trail]) ?_ ?_ ?_ ?_
  · rw [trail]
    exact id
  · rw [trail]
  · rw [trail]
    exact orderly.vacated
  · rw [trail]
    exact orderly.designated

/-- A set that is seen is the one the transaction makes, or as active and as
much the default as its committed version. -/
theorem Orderly.seen (seen : .keySet set ∈ transaction.view committed) :
    Writes committed transaction.thread set ∨ .keySet set ∈ committed := by
  rcases Transaction.mem_view.mp seen with written | ⟨stored, _⟩
  · exact .inl (orderly.writes set written)
  · exact .inr stored

theorem Orderly.rewrites {stored : KeySet} (seen : .keySet set ∈ transaction.view committed)
    (known : .keySet stored ∈ committed) (same : stored.id = set.id) :
    Rewrites transaction.thread stored set := by
  rcases orderly.seen seen with writes | member
  · cases writes with
    | fresh _ _ _ unknown => exact (unknown stored known same).elim
    | version found sameID _ rewrites =>
      rw [keySet_eq_of_id known found (same.trans sameID.symm)]
      exact rewrites
  · rw [keySet_eq_of_id known member same]
    exact .refl transaction.thread set

theorem Orderly.unknown (inserted : transaction.thread.trail.hasInserted = true)
    {stored : KeySet} (known : .keySet stored ∈ committed) :
    transaction.thread.call.newID ≠ some stored.id := by
  intro named
  rcases touches_keySet.mp (orderly.inserted inserted _ named) with
    ⟨set, written, same⟩ | deleted
  · cases orderly.writes set written with
    | fresh _ _ _ unknown => exact unknown stored known same.symm
    | version _ _ other => exact other (same ▸ named)
  · have checked := (orderly.removes _ deleted).2
    rw [hasChecked_of_hasInserted inserted] at checked
    cases checked

theorem Orderly.after_insert (absent : (transaction.view committed).find? (.keySet set.id) = none)
    (named : transaction.thread.call.newID = some set.id)
    (owner : set.ownerID = transaction.thread.call.ownerID) (active : set.state = .active)
    (unchecked : transaction.thread.trail.hasChecked = false)
    (call : thread.call = transaction.thread.call) (moves : Moves transaction.thread → Moves thread)
    (inserted : thread.trail.hasInserted = true) (unvacated : thread.trail.hasVacated = false)
    (undesignated : thread.trail.hasDesignated = false) : Orderly committed
      { transaction with thread, pending := transaction.pending.put (.keySet set) } := by
  have spared : ∀ id, SetKey.keySet id ∉ transaction.removed := by
    intro id deleted
    cases unchecked.symm.trans (orderly.removes id deleted).2
  have unseen := find?_eq_none_iff.mp absent
  have unknown : ∀ stored, .keySet stored ∈ committed → stored.id ≠ set.id := by
    intro stored known same
    by_cases touched : transaction.Touches (.keySet stored.id)
    · rcases touches_keySet.mp touched with ⟨version, written, sameID⟩ |
        deleted
      · exact unseen _ (Transaction.mem_view.mpr (.inl written))
          (congrArg SetKey.keySet (sameID.trans same))
      · exact spared stored.id deleted
    · exact unseen _ (Transaction.mem_view.mpr (.inr ⟨known, touched⟩))
        (congrArg SetKey.keySet same)
  constructor
  · intro other written
    rw [call]
    rcases mem_put.mp written with ⟨before, _⟩ | same
    · exact orderly.owner other before
    · cases same
      exact owner
  · intro other written
    rcases mem_put.mp written with ⟨before, _⟩ | same
    · exact (orderly.writes other before).transport call (fun _ => inserted) moves
    · cases same
      exact .fresh inserted (call ▸ named) active unknown
  · exact fun id deleted => (spared id deleted).elim
  · intro _ id fresh
    rw [call, named] at fresh
    cases fresh
    exact touches_keySet.mpr (.inl ⟨set, mem_put.mpr (.inr rfl), rfl⟩)
  · intro now
    cases unvacated.symm.trans now
  · intro now
    cases undesignated.symm.trans now

/-- What a version of one set, stored by an update under way, keeps. -/
structure Revises (committed : Table key) (transaction : SetTransaction service)
    (set version : KeySet) : Prop where
  owner : version.ownerID = transaction.thread.call.ownerID
  named : version.id = set.id
  new : transaction.thread.call.newID = some set.id →
    transaction.Touches (.keySet set.id) ∧ version.state = set.state
  vacated : transaction.thread.trail.hasVacated = true → version.state = set.state
  undesignated : transaction.thread.trail.hasDesignated = false
  rewrites : ∀ stored, .keySet stored ∈ committed → stored.id = set.id →
    Rewrites transaction.thread stored set → Rewrites transaction.thread stored version

theorem Orderly.after_change {version : KeySet} {scan : Option (Scan SetKey)}
    (seen : .keySet set ∈ transaction.view committed)
    (revises : Revises committed transaction set version) : Orderly committed
      { transaction with pending := transaction.pending.put (.keySet version), scan } := by
  have kept : ∀ {other : KeySet}, .keySet other ∈ transaction.pending → other.id ≠ version.id →
      .keySet other ∈ transaction.pending.put (.keySet version) := fun written differs =>
    mem_put.mpr (.inl ⟨written, fun sameKey => differs (SetKey.keySet.inj sameKey)⟩)
  constructor
  · intro other written
    rcases mem_put.mp written with ⟨before, _⟩ | same
    · exact orderly.owner other before
    · cases same
      exact revises.owner
  · intro other written
    rcases mem_put.mp written with ⟨before, _⟩ | same
    · exact orderly.writes other before
    cases same
    rcases Transaction.mem_view.mp seen with before | ⟨stored, untouched⟩
    · cases orderly.writes set before with
      | fresh was given active unknown =>
        refine .fresh was (revises.named ▸ given) ((revises.new given).2.trans active) ?_
        rw [revises.named]
        exact unknown
      | version known same foreign earlier =>
        exact .version known (same.trans revises.named.symm) (revises.named ▸ foreign)
          (revises.rewrites _ known same earlier)
    · refine .version stored revises.named.symm ?_
        (revises.rewrites set stored rfl (.refl transaction.thread set))
      rw [revises.named]
      exact fun given => untouched (revises.new given).1
  · exact orderly.removes
  · intro now id given
    rw [touches_keySet]
    rcases touches_keySet.mp (orderly.inserted now id given) with
      ⟨other, written, rfl⟩ | deleted
    · by_cases same : other.id = version.id
      · exact .inl ⟨version, mem_put.mpr (.inr rfl), same.symm⟩
      · exact .inl ⟨other, kept written same, rfl⟩
    · exact .inr deleted
  · intro now
    obtain ⟨tombstone, written, gone, target⟩ := orderly.vacated now
    by_cases same : tombstone.id = version.id
    · -- The tombstone itself is written again.
      have alike : tombstone = set := keySet_eq_of_id
        (Transaction.mem_view.mpr (.inl written)) seen (same.trans revises.named)
      refine ⟨version, mem_put.mpr (.inr rfl), ?_, same ▸ target⟩
      rw [revises.vacated now, ← alike]
      exact gone
    · exact ⟨tombstone, kept written same, gone, target⟩
  · intro now
    cases revises.undesignated.symm.trans now

theorem Orderly.after_remove {id : KeySetID} {pending : Table key} {scan : Option (Scan SetKey)}
    (target : transaction.thread.call.targetID = some id)
    (checked : transaction.thread.trail.hasChecked = true)
    (uninserted : transaction.thread.trail.hasInserted = false)
    (unvacated : transaction.thread.trail.hasVacated = false)
    (undesignated : transaction.thread.trail.hasDesignated = false)
    (kept : ∀ row ∈ pending, row ∈ transaction.pending) : Orderly committed
      { transaction with pending, removed := .keySet id :: transaction.removed, scan } := by
  constructor
  · exact fun set written => orderly.owner set (kept _ written)
  · exact fun set written => orderly.writes set (kept _ written)
  · intro deleted member
    rcases List.mem_cons.mp member with same | before
    · cases same
      exact ⟨target, checked⟩
    · exact orderly.removes deleted before
  · intro now
    cases uninserted.symm.trans now
  · intro now
    cases unvacated.symm.trans now
  · intro now
    cases undesignated.symm.trans now

theorem Orderly.after_read {catalog : Catalog} {β : Type} {statement : KeySetStatement β}
    {next : Except Fault β → Program KeySetStatement (Except Err Unit)}
    {answer : Table key → β}
    (waiting : transaction.thread.rest = .issue statement next)
    (form : (keySetSchema catalog).access statement = .read answer) :
    Orderly committed
      { transaction with
        thread := transaction.thread.answered waiting (.ok (answer rows)) } := by
  rcases SetPhase.after_read waiting form rows with
    same | ⟨set, _, fresh, _, _, _, reads⟩ | ⟨target, set, _, seen, _, _, _, checks⟩
  · exact orderly.advance_same rfl same (fun _ => Iff.rfl) fun _ => Iff.rfl
  · refine orderly.advance rfl (fun _ => Iff.rfl) (fun _ => Iff.rfl)
      (moves_of_target rfl fun read => ?_) ?_ ?_ ?_ ?_
    · rw [fresh] at read
      cases read
    · rw [fresh]
      nofun
    · rw [reads, fresh]
      rfl
    · rw [reads]
      nofun
    · rw [reads]
      nofun
  · refine orderly.advance rfl (fun _ => Iff.rfl) (fun _ => Iff.rfl)
      (moves_of_target rfl fun _ => ?_) ?_ ?_ ?_ ?_
    · rw [checks, seen]
      rfl
    · rw [seen]
      nofun
    · rw [checks, seen]
      rfl
    · rw [checks]
      nofun
    · rw [checks]
      nofun

variable (current : Current committed transaction.thread)

include current

theorem Current.after_read {catalog : Catalog} {β : Type} {statement : KeySetStatement β}
    {next : Except Fault β → Program KeySetStatement (Except Err Unit)}
    {answer : Table key → β}
    (waiting : transaction.thread.rest = .issue statement next)
    (form : (keySetSchema catalog).access statement = .read answer) :
    Current committed (transaction.thread.answered waiting
      (.ok (answer (transaction.view committed)))) := by
  rcases SetPhase.after_read waiting form (transaction.view committed) with
    same | ⟨set, sees, fresh, owner, named, active, reads⟩ |
      ⟨target, set, sees, seen, kind, named, plain, checks⟩
  · refine current.advance rfl ?_ ?_
    · rw [same]
    · rw [same]
      exact id
  · -- Nothing is written yet that a set of this name could be.
    have still : transaction.thread.call.kind = .rename → ¬ Moves transaction.thread := by
      rintro renames (designates | ⟨_, target, read, _⟩)
      · rw [renames] at designates
        cases designates
      · rw [fresh] at read
        cases read
    constructor
    · intro target read
      rw [reads] at read
      cases read
      exact ⟨owner, named⟩
    · intro target read
      rw [reads] at read
      cases read
      rcases orderly.seen sees with writes | stored
      · cases writes with
        | fresh inserted =>
          rw [fresh] at inserted
          cases inserted
        | version known same _ rewrites =>
          refine ⟨_, known, same, rewrites.revives active,
            fun renames standing => ?_⟩
          by_contra plain
          exact still renames (rewrites.clears standing (Bool.not_eq_true _ ▸ plain))
      · exact ⟨set, stored, rfl, active, fun _ => id⟩
    · intro checked
      rw [reads] at checked
      cases checked
  · constructor
    · intro found read
      rw [checks] at read
      refine current.read found ?_
      rw [seen]
      exact read
    · intro found read
      rw [checks] at read
      refine current.standing found ?_
      rw [seen]
      exact read
    · intro _ other known target
      change transaction.thread.call.targetID = some other.id at target
      rw [named] at target
      have rewrites := orderly.rewrites sees known (Option.some.inj target).symm
      by_contra standing
      rcases rewrites.clears (Bool.not_eq_false _ ▸ standing) plain with
        designates | ⟨renames, _⟩
      · rw [kind] at designates
        cases designates
      · rw [kind] at renames
        cases renames

section Revisions

variable {target : KeySet}

/-- A rename makes the set it has read a tombstone. -/
theorem Orderly.revises_vacated {values : KeySet}
    (copied : transaction.thread.trail = .copied target)
    (matched : KeySet.ownedBy target.ownerID target.id set = true)
    (state : values.state = .quarantined) :
    Revises committed transaction set (KeySet.written values set) := by
  obtain ⟨sameID, sameOwner⟩ := ownedBy_iff.mp matched
  have read : transaction.thread.trail.target? = some target := by rw [copied]; rfl
  obtain ⟨owner, named⟩ := current.read target read
  have kind : transaction.thread.call.kind = .rename :=
    transaction.thread.valid.kind _ (by rw [copied]; rfl)
  refine ⟨sameOwner.trans owner, rfl, fun given => ?_, ?_, by rw [copied]; rfl, ?_⟩
  · obtain ⟨stored, known, same, _⟩ := current.standing target read
    rw [sameID, ← same] at given
    exact (orderly.unknown (by rw [copied]; rfl) known given).elim
  · rw [copied]
    nofun
  · intro stored known same rewrites
    refine ⟨rewrites.owner, fun active => ?_, fun _ _ => ⟨kind, ?_⟩,
      rewrites.designates, rewrites.clears⟩
    · rw [KeySet.written, state] at active
      cases active
    · rw [named, id_written, sameID]

omit orderly in
/-- The set whose visibility is written back is still active. -/
theorem Current.revises_shown {values : KeySet} (seen : transaction.thread.trail = .seen target)
    (kind : transaction.thread.call.kind = .setVisibility)
    (matched : KeySet.ownedBy target.ownerID target.id set = true)
    (state : values.state = .active) :
    Revises committed transaction set (KeySet.written values set) := by
  obtain ⟨sameID, sameOwner⟩ := ownedBy_iff.mp matched
  have read : transaction.thread.trail.target? = some target := by rw [seen]; rfl
  refine ⟨sameOwner.trans (current.read target read).1, rfl, fun given => ?_, ?_,
    by rw [seen]; rfl, ?_⟩
  · rw [newID_eq_none (by simp [kind]) (by simp [kind])] at given
    cases given
  · rw [seen]
    nofun
  · intro stored known same rewrites
    obtain ⟨other, otherKnown, otherSame, active, _⟩ := current.standing target read
    refine ⟨rewrites.owner, fun _ => ?_, fun _ gone => (gone state).elim,
      rewrites.designates, rewrites.clears⟩
    rw [keySet_eq_of_id known otherKnown (same.trans (sameID.trans otherSame.symm))]
    exact active

omit current

theorem Orderly.revises_cleared (ready : (transaction.thread.trail = .seen target ∧
      transaction.thread.call.kind = .setDefault) ∨
    (transaction.thread.trail = .vacated target ∧ target.isDefault = true))
    (owner : set.ownerID = transaction.thread.call.ownerID) :
    Revises committed transaction set (set.designated false) := by
  rcases ready with ⟨seen, kind⟩ | ⟨vacated, standing⟩
  · refine ⟨owner, rfl, fun given => ?_, fun _ => rfl, by rw [seen]; rfl, ?_⟩
    · rw [newID_eq_none (by simp [kind]) (by simp [kind])] at given
      cases given
    · exact fun _ _ _ rewrites => ⟨rewrites.owner, rewrites.revives, rewrites.vacates,
        nofun, fun _ _ => .inl kind⟩
  · refine ⟨owner, rfl, fun given => ⟨orderly.inserted ?_ _ given, rfl⟩, fun _ => rfl,
      by rw [vacated]; rfl, ?_⟩
    · rw [vacated]
      rfl
    · exact fun _ _ _ rewrites => ⟨rewrites.owner, rewrites.revives, rewrites.vacates, nofun,
        fun _ _ => .inr ⟨transaction.thread.valid.kind _ (by rw [vacated]; rfl), target,
          by rw [vacated]; rfl, standing⟩⟩

theorem Orderly.revises_designated {id : KeySetID} (ready : (transaction.thread.trail =
      .cleared target ∧ transaction.thread.call.targetID = some id) ∨
    (transaction.thread.trail = .unsettled target ∧ transaction.thread.call.newID = some id))
    (matched : KeySet.ownedBy transaction.thread.call.ownerID id set = true) :
    Revises committed transaction set (set.designated true) := by
  obtain ⟨sameID, sameOwner⟩ := ownedBy_iff.mp matched
  rcases ready with ⟨cleared, named⟩ | ⟨unsettled, named⟩
  · have kind : transaction.thread.call.kind = .setDefault :=
      transaction.thread.valid.kind _ (by rw [cleared]; rfl)
    refine ⟨sameOwner, rfl, fun given => ?_, fun _ => rfl, by rw [cleared]; rfl, ?_⟩
    · rw [newID_eq_none (by simp [kind]) (by simp [kind])] at given
      cases given
    · refine fun _ _ _ rewrites => ⟨rewrites.owner, rewrites.revives, rewrites.vacates,
        fun _ _ => ⟨kind, ?_⟩, nofun⟩
      rw [named, id_designated, sameID]
  · have inserted : transaction.thread.trail.hasInserted = true := by rw [unsettled]; rfl
    refine ⟨sameOwner, rfl, fun given => ⟨orderly.inserted inserted _ given, rfl⟩,
      fun _ => rfl, by rw [unsettled]; rfl, ?_⟩
    intro stored known same rewrites
    rw [← sameID, ← same] at named
    exact (orderly.unknown inserted known named).elim

end Revisions

/-- What each update makes of one set keeps the comparison with the committed
version. -/
theorem Orderly.rewrites_change {chosen : SetRow → Bool}
    {change : SetRow → Option SetRow} {after : Nat → SetPhase}
    (write : SetWrite transaction.thread.call transaction.thread.trail chosen
      change after) (matched : chosen (.keySet set) = true) {version : SetRow}
    (changed : change (.keySet set) = some version) :
    ∃ revised, version = .keySet revised ∧ Revises committed transaction set revised := by
  cases write with
  | aside spares => cases spares _ matched
  | vacate copied choice changes state =>
    rw [changes] at changed
    rw [choice] at matched
    exact ⟨_, (Option.some.inj changed).symm, orderly.revises_vacated current copied matched state⟩
  | reveal seen kind choice changes state =>
    rw [changes] at changed
    rw [choice] at matched
    exact ⟨_, (Option.some.inj changed).symm,
      current.revises_shown seen kind matched state⟩
  | clear ready choice changes =>
    rw [changes] at changed
    rw [choice] at matched
    simp only [onSet, isDefaultOf, Bool.and_eq_true, decide_eq_true_eq] at matched
    exact ⟨_, (Option.some.inj changed).symm, orderly.revises_cleared (ready.imp
      (fun clears => ⟨clears.1, clears.2.1⟩) fun clears => ⟨clears.1, clears.2.1⟩) matched.1⟩
  | designate ready choice changes =>
    rw [changes] at changed
    rw [choice] at matched
    exact ⟨_, (Option.some.inj changed).symm, orderly.revises_designated (ready.imp
      (fun names => ⟨names.1, names.2.1⟩) fun names => ⟨names.1, names.2.1⟩) matched⟩
  | drop _ _ _ drops =>
    rw [drops] at changed
    cases changed

theorem Orderly.active_of_designated (written : .keySet set ∈ transaction.pending)
    (named : (transaction.thread.call.kind = .setDefault ∧
        ∃ target, transaction.thread.trail.target? = some target ∧ set.id = target.id) ∨
      (transaction.thread.trail.hasInserted = true ∧ transaction.thread.call.newID = some set.id)) :
    set.state = .active := by
  cases orderly.writes set written with
  | fresh _ _ active => exact active
  | version known same other rewrites =>
    rcases named with ⟨kind, target, read, sameID⟩ | ⟨_, given⟩
    · by_contra gone
      obtain ⟨stored, storedKnown, storedSame, active, _⟩ := current.standing target read
      rw [keySet_eq_of_id known storedKnown (same.trans (sameID.trans storedSame.symm))] at rewrites
      rw [(rewrites.vacates active gone).1] at kind
      cases kind
    · exact (other given).elim

end Orderly

variable {catalog : Catalog} {β : Type} {statement : KeySetStatement β}
  {next : Except Fault β → Program KeySetStatement (Except Err Unit)}
  {chosen : SetRow → Bool} {change : SetRow → Option SetRow}
  {keepsKey : ∀ ⦃row version⦄, change row = some version → version.key = row.key} {answer : Nat → β}

section Scanned

variable (scanned : Database.Scanned (keySetSchema catalog) transaction)
  (waiting : transaction.thread.rest = .issue statement next)
  (counted : transaction.scan = some ⟨[], affected⟩)
  (form : (keySetSchema catalog).access statement = .write chosen change keepsKey answer)

include scanned waiting counted form

theorem exists_of_scanned (some : affected > 0) {condition : KeySet → Bool}
    {revise : KeySet → KeySet} (choice : chosen = onSet condition)
    (changes : ∀ row, change row = .some (mapSet revise row)) :
    ∃ set, condition set = true ∧ .keySet (revise set) ∈ transaction.pending := by
  obtain ⟨row, matched, ⟨version, written, changed⟩ | ⟨dropped, _⟩⟩ :=
    scanned counted some waiting form
  · rw [choice] at matched
    obtain ⟨set, rfl, condition⟩ := onSet_eq_true matched
    rw [changes] at changed
    cases changed
    exact ⟨set, condition, written⟩
  · rw [changes] at dropped
    cases dropped

variable (orderly : Orderly committed transaction)
  (current : Current committed transaction.thread)

include orderly current

theorem Orderly.vacated_after (vacated : (transaction.thread.answered waiting
      (.ok (answer affected))).trail.hasVacated = true) :
    ∃ set, .keySet set ∈ transaction.pending ∧ set.state ≠ .active ∧
      transaction.thread.call.targetID = some set.id := by
  cases after_write waiting form with
  | aside _ _ same =>
    rw [same affected] at vacated
    exact orderly.vacated vacated
  | @vacate target values copied choice changes state later =>
    rw [later affected] at vacated
    by_cases some : affected > 0
    · obtain ⟨_, named⟩ := current.read target (by rw [copied]; rfl)
      obtain ⟨set, matched, written⟩ :=
        exists_of_scanned scanned waiting counted form some choice changes
      refine ⟨_, written, ?_, ?_⟩
      · rw [KeySet.written, state]
        nofun
      · rw [named, id_written, (ownedBy_iff.mp matched).1]
    · rw [if_neg some] at vacated
      cases vacated
  | reveal _ _ _ _ _ later | drop _ _ _ _ later =>
    rw [later affected] at vacated
    split at vacated <;> cases vacated
  | clear ready =>
    rcases ready with ⟨_, _, later⟩ | ⟨was, _, _⟩
    · rw [later affected] at vacated
      cases vacated
    · exact orderly.vacated (by rw [was]; rfl)
  | designate ready =>
    rcases ready with ⟨_, _, later⟩ | ⟨was, _, _⟩
    · rw [later affected] at vacated
      split at vacated <;> cases vacated
    · exact orderly.vacated (by rw [was]; rfl)

theorem Orderly.designated_after (designated : (transaction.thread.answered waiting
      (.ok (answer affected))).trail.hasDesignated = true) :
    ∃ set, .keySet set ∈ transaction.pending ∧ set.state = .active ∧ set.isDefault = true := by
  cases after_write waiting form with
  | aside _ _ same =>
    rw [same affected] at designated
    exact orderly.designated designated
  | vacate _ _ _ _ later | reveal _ _ _ _ _ later | drop _ _ _ _ later =>
    rw [later affected] at designated
    split at designated <;> cases designated
  | clear ready =>
    rcases ready with ⟨_, _, later⟩ | ⟨_, _, later⟩
    all_goals
      rw [later affected] at designated
      cases designated
  | @designate target id ready choice changes =>
    by_cases some : affected > 0
    · obtain ⟨set, matched, written⟩ :=
        exists_of_scanned scanned waiting counted form some choice changes
      have sameID := (ownedBy_iff.mp matched).1
      refine ⟨_, written, orderly.active_of_designated current written ?_, rfl⟩
      rcases ready with ⟨cleared, named, _⟩ | ⟨unsettled, named, _⟩
      · obtain ⟨_, read⟩ := current.read target (by rw [cleared]; rfl)
        refine .inl ⟨transaction.thread.valid.kind _ (by rw [cleared]; rfl),
          target, by rw [cleared]; rfl, ?_⟩
        rw [named] at read
        rw [id_designated, sameID]
        exact Option.some.inj read
      · refine .inr ⟨by rw [unsettled]; rfl, ?_⟩
        rw [named, id_designated, sameID]
    · rcases ready with ⟨_, _, later⟩ | ⟨_, _, later⟩
      all_goals
        rw [later affected, if_neg some] at designated
        cases designated

end Scanned

/-- A transaction as far as its set, its members and its locks go. -/
structure Sound (catalog : Catalog) (committed : Table key)
    (transaction : SetTransaction service) : Prop where
  orderly : Orderly committed transaction
  current : Current committed transaction.thread
  scanned : Database.Scanned (keySetSchema catalog) transaction

variable {database : SetDatabase service} {index : Nat}

section

variable (sound : Sound catalog database.committed transaction)

include sound

section

variable (moved : Database.Move (keySetSchema catalog) database index transaction later)

include moved

theorem Sound.orderly_after_move : Orderly database.committed later := by
  obtain ⟨orderly, current, scanned⟩ := sound
  cases moved with
  | read waiting idle form => exact orderly.after_read waiting form
  | insert waiting idle form unlocked absent fits =>
    rcases (after_insert waiting form).2 with ⟨plain, same⟩ |
      ⟨set, rfl, named, owner, active, phases⟩
    · exact orderly.advance_same rfl same (fun _ => mem_put_aside plain)
        fun _ => Iff.rfl
    · rcases phases with ⟨fresh, creates⟩ | ⟨target, seen, copies⟩
      · refine orderly.after_insert absent named owner active ?_ rfl
          (moves_of_target rfl fun read => ?_) ?_ ?_ ?_
        · rw [fresh]
          rfl
        · rw [fresh] at read
          cases read
        all_goals
          rw [creates]
          rfl
      · refine orderly.after_insert absent named owner active ?_ rfl
          (moves_of_target rfl fun read => ?_) ?_ ?_ ?_
        · rw [seen]
          rfl
        · rw [copies, seen]
          rfl
        all_goals
          rw [copies]
          rfl
  | collide waiting idle form unlocked taken =>
    exact orderly.advance_same rfl (after_insert waiting form).1 (fun _ => Iff.rfl) fun _ => Iff.rfl
  | find | skip => exact orderly.advance_same rfl rfl (fun _ => Iff.rfl) fun _ => Iff.rfl
  | @change β statement next chosen change keepsKey answer scan row version
      waiting scanning form visited latest matched changed unlocked fits =>
    have write := after_write waiting form
    cases row with
    | keySet set =>
      obtain ⟨revised, rfl, revises⟩ := orderly.rewrites_change current write matched changed
      exact orderly.after_change latest revises
    | owner | membership =>
      cases write with
      | aside _ keeps =>
        exact orderly.advance_same rfl rfl (fun _ => mem_put_aside (keeps _ _ changed rfl))
          fun _ => Iff.rfl
      | vacate _ choice | reveal _ _ choice | clear _ choice
      | designate _ choice | drop _ _ choice =>
        rw [choice] at matched
        cases matched
  | @remove β statement next chosen change keepsKey answer scan row waiting
      scanning form visited latest matched changed free =>
    cases after_write waiting form with
    | aside spares =>
      have plain := spares row matched
      refine orderly.advance_same rfl rfl (fun set => ?_) fun id => ?_
      · cases row with
        | keySet => cases plain
        | owner | membership => simp [mem_delete, key]
      · cases row with
        | keySet => cases plain
        | owner | membership => simp [key]
    | vacate _ _ changes | reveal _ _ _ changes | clear _ _ changes
    | designate _ _ changes =>
      rw [changes] at changed
      cases changed
    | drop checked named choice =>
      rw [choice] at matched
      obtain ⟨set, rfl, owned⟩ := onSet_eq_true matched
      obtain ⟨rfl, _⟩ := ownedBy_iff.mp owned
      refine orderly.after_remove named ?_ ?_ ?_ ?_
        fun version written => (mem_delete.mp written).1
      all_goals
        rw [checked]
        rfl
  | @finish β statement next chosen change keepsKey answer affected waiting counted form =>
    obtain ⟨target, inserted, checked⟩ := (after_write waiting form).keeps affected
    exact orderly.advance rfl (fun _ => Iff.rfl) (fun _ => Iff.rfl)
      (moves_of_target rfl fun _ => target) checked.trans inserted
      (orderly.vacated_after scanned waiting counted form current)
      (orderly.designated_after scanned waiting counted form current)

theorem Sound.after_move : Sound catalog database.committed later := by
  refine ⟨sound.orderly_after_move moved, ?_, moved.scanned sound.scanned⟩
  obtain ⟨orderly, current, _⟩ := sound
  cases moved with
  | read waiting idle form => exact current.after_read orderly waiting form
  | insert waiting idle form unlocked absent fits =>
    rcases (after_insert waiting form).2 with ⟨_, same⟩ |
      ⟨set, _, _, _, _, ⟨fresh, creates⟩ | ⟨target, seen, copies⟩⟩
    · refine current.advance rfl ?_ ?_
      · rw [same]
      · rw [same]
        exact id
    · refine current.advance rfl ?_ ?_
      · rw [creates, fresh]
        rfl
      · rw [creates]
        nofun
    · refine current.advance rfl ?_ ?_
      · rw [copies, seen]
        rfl
      · rw [copies]
        nofun
  | collide waiting idle form unlocked taken =>
    have same := (after_insert waiting form).1
    refine current.advance rfl ?_ ?_
    · rw [same]
    · rw [same]
      exact id
  | find | change | remove | skip => exact current
  | @finish β statement next chosen change keepsKey answer affected waiting counted form =>
    obtain ⟨target, _, checked⟩ := (after_write waiting form).keeps affected
    exact current.advance rfl target checked.symm.trans

end

end

end Moves

end SetTransaction

end Vallet.Publishing
