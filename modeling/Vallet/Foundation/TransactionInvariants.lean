import Vallet.Foundation.ReadCommitted

/-!
# Invariants of concurrent transactions

Two running transactions have touched different rows and have written none
that a unique index holds to be the same, so the committed rows are always
accepted by the unique indexes.  On top of that, a fact about one transaction
and the committed rows holds of all of them in every interleaving when it
holds at the start, is kept by the transaction's own moves, and survives the
commits of the others.
-/

namespace Effects.Database

open Relational Transaction

variable {Statement : Type → Type} {Call α Label τ ρ κ : Type}
  {service : Service Statement Call α Label τ} {key : ρ → κ}
  {schema : Schema Statement key} {commits : α → Bool} [DecidableEq κ]

/-! ## Locks and unique indexes -/

/-- What holds of any two running transactions. -/
def Pairwise (holds : Transaction service key → Transaction service key →
    Prop) (database : Database service key) : Prop :=
  ∀ ⦃index other transaction holder⦄, database.At index transaction →
    database.At other holder → index ≠ other →
    transaction.standing = .running → holder.standing = .running →
    holds transaction holder

/-- Two transactions have touched different rows, and written none that the
unique indexes hold to be the same. -/
def Apart (schema : Schema Statement key) (transaction holder : Transaction service key) : Prop :=
  (∀ wanted, transaction.Touches wanted → ¬ holder.Touches wanted) ∧
    ∀ row ∈ transaction.pending, ∀ version ∈ holder.pending, schema.clashes row version = false

variable {transaction holder later : Transaction service key}
  {database before after : Database service key} {index : Nat}
  {allows : Database service key → Nat → Prop}

theorem Apart.symm (apart : Apart schema transaction holder) : Apart schema holder transaction := by
  refine ⟨fun wanted touched held => apart.1 wanted held touched,
    fun row written version locked => ?_⟩
  rw [schema.symmetric]
  exact apart.2 version locked row written

theorem apart_start (call : Call) (holder : Transaction service key) :
    Apart schema (start service key call) holder :=
  ⟨fun wanted touched => (not_touches_start call wanted
    touched).elim, fun row impossible =>
      (Table.not_mem_empty row impossible).elim⟩

theorem free_iff {wanted : κ} : database.Free index wanted ↔
      ∀ other holder, database.At other holder → other ≠ index →
        holder.standing = .running → ¬ holder.Touches wanted := by
  unfold Free At
  constructor
  · intro free other holder found differs running
    exact free holder (List.mem_eraseIdx_iff_getElem?.mpr ⟨other, differs, found⟩)
      (Standing.isRunning_iff.mpr running)
  · intro free holder member running
    obtain ⟨other, differs, found⟩ := List.mem_eraseIdx_iff_getElem?.mp member
    exact free other holder found differs (Standing.isRunning_iff.mp running)

theorem Unlocked.clashes {row : ρ} (unlocked : database.Unlocked schema index row) {other : Nat}
    (found : database.At other holder) (differs : other ≠ index)
    (running : holder.standing = .running) {version : ρ} (written : version ∈ holder.pending) :
    schema.clashes row version = false := by
  rw [schema.symmetric]
  exact unlocked.2 holder (List.mem_eraseIdx_iff_getElem?.mpr ⟨other, differs, found⟩)
    (Standing.isRunning_iff.mpr running) version written

section

variable (moved : Move schema database index transaction later)

include moved

theorem Move.standing : later.standing = transaction.standing := by
  cases moved <;> rfl

/-- What a move has done to the written rows: nothing, stored one version, or
deleted one. -/
theorem Move.writes : (later.pending = transaction.pending ∧ later.removed = transaction.removed) ∨
    (∃ row, later.pending = transaction.pending.put row ∧ later.removed = transaction.removed ∧
      database.Unlocked schema index row ∧
      schema.Fits (transaction.view database.committed) row) ∨
    ∃ wanted, (later.pending = transaction.pending.delete fun version =>
        decide (key version = wanted)) ∧
      later.removed = wanted :: transaction.removed ∧
      database.Free index wanted := by
  cases moved with
  | insert waiting idle form unlocked absent fits => exact .inr (.inl ⟨_, rfl, rfl, unlocked, fits⟩)
  | change waiting scanning form visited latest matched changed unlocked fits =>
    exact .inr (.inl ⟨_, rfl, rfl, unlocked, fits⟩)
  | remove waiting scanning form visited latest matched changed free =>
    exact .inr (.inr ⟨_, rfl, rfl, free⟩)
  | read | collide | find | skip | finish => exact .inl ⟨rfl, rfl⟩

end

section Writes

variable {transaction later : Transaction service key} {row : ρ} {wanted : κ}
  {committed : Table key} {database : Database service key} {index : Nat}
  {holder : Transaction service key}

theorem touches_put (pending : later.pending = transaction.pending.put row)
    (removed : later.removed = transaction.removed) :
    later.Touches wanted ↔ transaction.Touches wanted ∨ wanted = key row := by
  simp only [touches_iff, pending, removed, Table.mem_put]
  constructor
  · rintro (⟨version, ⟨written, _⟩ | rfl, rfl⟩ | deleted)
    · exact .inl (.inl ⟨version, written, rfl⟩)
    · exact .inr rfl
    · exact .inl (.inr deleted)
  · rintro ((⟨version, written, rfl⟩ | deleted) | rfl)
    · by_cases same : key version = key row
      · exact .inl ⟨row, .inr rfl, same.symm⟩
      · exact .inl ⟨version, .inl ⟨written, same⟩, rfl⟩
    · exact .inr deleted
    · exact .inl ⟨row, .inr rfl, rfl⟩

theorem touches_delete {deleted : κ}
    (pending : later.pending = transaction.pending.delete fun version =>
      decide (key version = deleted))
    (removed : later.removed = deleted :: transaction.removed) :
    later.Touches wanted ↔ transaction.Touches wanted ∨ wanted = deleted := by
  simp only [touches_iff, pending, removed, Table.mem_delete,
    decide_eq_false_iff_not, List.mem_cons]
  constructor
  · rintro (⟨version, ⟨written, _⟩, rfl⟩ | rfl | before)
    · exact .inl (.inl ⟨version, written, rfl⟩)
    · exact .inr rfl
    · exact .inl (.inr before)
  · rintro ((⟨version, written, rfl⟩ | before) | rfl)
    · by_cases same : key version = deleted
      · exact .inr (.inl same)
      · exact .inl ⟨version, ⟨written, same⟩, rfl⟩
    · exact .inr (.inr before)
    · exact .inr (.inl rfl)

/-- After a version is stored, it stands in the view in the place of the one
with its key. -/
theorem mem_view_put {found : ρ} (pending : later.pending = transaction.pending.put row)
    (removed : later.removed = transaction.removed) :
    found ∈ later.view committed ↔
      (found ∈ transaction.view committed ∧ key found ≠ key row) ∨ found = row := by
  simp only [mem_view, touches_put pending removed, pending, Table.mem_put]
  tauto

theorem mem_view_delete {found : ρ} {deleted : κ}
    (pending : later.pending = transaction.pending.delete fun version =>
      decide (key version = deleted))
    (removed : later.removed = deleted :: transaction.removed) :
    found ∈ later.view committed ↔ found ∈ transaction.view committed ∧ key found ≠ deleted := by
  simp only [mem_view, touches_delete pending removed, pending,
    Table.mem_delete, decide_eq_false_iff_not]
  tauto

omit [DecidableEq κ] in
/-- A row that fits besides the others can stand among them. -/
theorem Fits.unique {rows later : Table key} {row : ρ}
    (unique : rows.Unique schema.clashes) (fits : schema.Fits rows row) (member : ∀ found ∈ later,
      (found ∈ rows ∧ key found ≠ key row) ∨ found = row) :
    later.Unique schema.clashes := by
  intro found foundMember other otherMember differs
  rcases member found foundMember with ⟨old, apart⟩ | rfl
  · rcases member other otherMember with ⟨oldOther, _⟩ | rfl
    · exact unique found old other oldOther differs
    · exact fits found old apart
  · rcases member other otherMember with ⟨oldOther, apart⟩ | rfl
    · rw [schema.symmetric]
      exact fits other oldOther apart
    · exact (differs rfl).elim

/-- What a write under way has counted, it has done. -/
def Scanned (schema : Schema Statement key) (transaction : Transaction service key) : Prop :=
  ∀ ⦃scan : Scan κ⦄, transaction.scan = some scan → scan.affected > 0 →
    ∀ ⦃β : Type⦄ ⦃statement : Statement β⦄
      ⦃next : Except Fault β → Program Statement α⦄ ⦃chosen : ρ → Bool⦄
      ⦃change : ρ → Option ρ⦄ ⦃keepsKey⦄ ⦃answer : Nat → β⦄,
    transaction.thread.rest = .issue statement next →
    schema.access statement = .write chosen change keepsKey answer →
    ∃ row, chosen row = true ∧
      ((∃ version ∈ transaction.pending, change row = some version) ∨
        (change row = none ∧ key row ∈ transaction.removed))

section

variable (moved : Move schema database index transaction later)

include moved

theorem Move.unique (unique : (transaction.view database.committed).Unique schema.clashes) :
    (later.view database.committed).Unique schema.clashes := by
  rcases moved.writes with ⟨pending, removed⟩ |
    ⟨row, pending, removed, _, fits⟩ | ⟨wanted, pending, removed, _⟩
  · rw [view, pending, removed]
    exact unique
  · exact Fits.unique unique fits fun found member =>
      (mem_view_put pending removed).mp member
  · intro found foundMember other otherMember
    exact unique found ((mem_view_delete pending removed).mp foundMember).1
      other ((mem_view_delete pending removed).mp otherMember).1

theorem Move.apart {other : Nat} (held : database.At other holder) (differs : other ≠ index)
    (holding : holder.standing = .running) (apart : Apart schema transaction holder) :
    Apart schema later holder := by
  rcases moved.writes with ⟨pending, removed⟩ |
    ⟨row, pending, removed, unlocked, _⟩ | ⟨wanted, pending, removed, free⟩
  · simpa only [Apart, Touches, pending, removed] using apart
  · constructor
    · intro wanted touched
      rcases (touches_put pending removed).mp touched with before | rfl
      · exact apart.1 wanted before
      · exact free_iff.mp unlocked.1 other holder held differs holding
    · intro version written
      rw [pending] at written
      rcases Table.mem_put.mp written with ⟨old, _⟩ | rfl
      · exact apart.2 version old
      · exact fun locked => unlocked.clashes held differs holding
  · constructor
    · intro touchedKey touched
      rcases (touches_delete pending removed).mp touched with before | rfl
      · exact apart.1 touchedKey before
      · exact free_iff.mp free other holder held differs holding
    · intro version written
      rw [pending] at written
      exact apart.2 version (Table.mem_delete.mp written).1

theorem Move.scanned (scanned : Scanned schema transaction) : Scanned schema later := by
  intro scan scanning counted β statement next chosen change keepsKey answer waiting form
  cases moved with
  | read _ idle | insert _ idle | collide _ idle =>
    rw [show transaction.scan = some scan from scanning] at idle
    cases idle
  | finish => cases scanning
  | find =>
    cases scanning
    exact (Nat.lt_irrefl 0 counted).elim
  | change was _ wasForm _ _ matched changed =>
    rw [was] at waiting
    cases waiting
    rw [wasForm] at form
    cases form
    exact ⟨_, matched, .inl ⟨_, Table.mem_put.mpr (.inr rfl), changed⟩⟩
  | remove was _ wasForm _ _ matched changed =>
    rw [was] at waiting
    cases waiting
    rw [wasForm] at form
    cases form
    exact ⟨_, matched, .inr ⟨changed, List.mem_cons_self⟩⟩
  | skip was wasScanning =>
    cases scanning
    exact scanned wasScanning counted waiting form

end

/-- The rows a committed transaction leaves are accepted by the unique
indexes, and so is what any other transaction sees of them. -/
theorem Apart.unique (apart : Apart schema transaction holder)
    (unique : (transaction.view committed).Unique schema.clashes)
    (holderUnique : (holder.view committed).Unique schema.clashes) :
    (holder.view (transaction.view committed)).Unique schema.clashes := by
  have mixed : ∀ row ∈ holder.pending, ∀ other ∈ transaction.view committed,
      ¬ holder.Touches (key other) → key row ≠ key other →
      schema.clashes row other = false := by
    intro row written other seen untouched differs
    rcases mem_view.mp seen with pending | ⟨stored, _⟩
    · exact apart.symm.2 row written other pending
    · exact holderUnique row (mem_view.mpr (.inl written)) other
        (mem_view.mpr (.inr ⟨stored, untouched⟩)) differs
  intro row member other otherMember differs
  rcases mem_view.mp member with written | ⟨seen, untouched⟩
  · rcases mem_view.mp otherMember with
      otherWritten | ⟨otherSeen, otherUntouched⟩
    · exact holderUnique row (mem_view.mpr (.inl written)) other
        (mem_view.mpr (.inl otherWritten)) differs
    · exact mixed row written other otherSeen otherUntouched differs
  · rcases mem_view.mp otherMember with
      otherWritten | ⟨otherSeen, _⟩
    · rw [schema.symmetric]
      exact mixed other otherWritten row seen untouched (Ne.symm differs)
    · exact unique row seen other otherSeen differs

end Writes

section

variable (step : Step schema commits allows before after)

include step

theorem Pairwise.after_step
    (apart : before.Pairwise (Apart schema)) : after.Pairwise (Apart schema) := by
  -- A transaction that ends has no locks left to compare.
  have ended : ∀ {committed : Table key} {mover : Nat}
      {transaction later : Transaction service key},
      before.At mover transaction → later.standing ≠ .running →
      ({ committed := committed
         transactions := before.transactions.set mover later } :
          Database service key).Pairwise (Apart schema) := by
    intro committed mover transaction later was stopped index other found
      holder foundAt heldAt differs running holding
    rcases (at_set was).mp foundAt with ⟨rfl, rfl⟩ | ⟨_, old⟩
    · exact (stopped running).elim
    · rcases (at_set was).mp heldAt with ⟨rfl, rfl⟩ | ⟨_, oldHolder⟩
      · exact (stopped holding).elim
      · exact apart old oldHolder differs running holding
  cases step with
  | start call =>
    intro index other transaction holder found held differs running holding
    rcases at_append found with old | rfl
    · rcases at_append held with oldHolder | rfl
      · exact apart old oldHolder differs running holding
      · exact (apart_start call transaction).symm
    · exact apart_start call holder
  | @move mover transaction later was wasRunning moved =>
    intro index other found holder foundAt heldAt differs running holding
    rcases (at_set was).mp foundAt with ⟨rfl, rfl⟩ | ⟨ne, old⟩
    · rcases (at_set was).mp heldAt with ⟨rfl, _⟩ | ⟨ne, oldHolder⟩
      · exact (differs rfl).elim
      · exact moved.apart oldHolder ne holding (apart was oldHolder differs wasRunning holding)
    · rcases (at_set was).mp heldAt with ⟨rfl, rfl⟩ | ⟨_, oldHolder⟩
      · exact (moved.apart old ne running (apart was old (Ne.symm differs) wasRunning running)).symm
      · exact apart old oldHolder differs running holding
  | commit was wasRunning idle returned accepted allowed | abort was wasRunning =>
    exact ended was (by simp)

theorem Step.committed_cases {value : α} (found : after.At index transaction)
    (ended : transaction.standing = .committed value) :
    before.At index transaction ∨
    ∃ running : Transaction service key, before.At index running ∧
      running.standing = .running ∧ running.scan = none ∧
      running.thread.rest = .done value ∧ commits value = true ∧
      allows before index ∧
      after.committed = running.view before.committed ∧
      transaction = { running with standing := .committed value } := by
  cases step with
  | start call =>
    rcases at_append found with old | rfl
    · exact .inl old
    · cases ended
  | move was running moved =>
    rcases (at_set was).mp found with ⟨_, rfl⟩ | ⟨_, old⟩
    · rw [moved.standing, running] at ended
      cases ended
    · exact .inl old
  | commit was running idle returned accepted allowed =>
    rcases (at_set was).mp found with ⟨rfl, rfl⟩ | ⟨_, old⟩
    · cases ended
      exact .inr ⟨_, was, running, idle, returned, accepted, allowed, rfl, rfl⟩
    · exact .inl old
  | abort was running =>
    rcases (at_set was).mp found with ⟨_, rfl⟩ | ⟨_, old⟩
    · cases ended
    · exact .inl old

theorem Step.others_of_commit {running : Transaction service key} {value : α}
    (was : before.At index running) (wasRunning : running.standing = .running)
    (found : after.At index transaction)
    (ended : transaction.standing = .committed value) {other : Nat}
    (holding : after.At other holder) (different : other ≠ index) : before.At other holder := by
  have stale : ¬ before.At index transaction := by
    intro old
    rw [← was.unique old, wasRunning] at ended
    cases ended
  cases step with
  | start call =>
    rcases at_append found with old | rfl
    · exact (stale old).elim
    · cases ended
  | move moving movingRuns moved =>
    rcases (at_set moving).mp found with ⟨_, rfl⟩ | ⟨_, old⟩
    · rw [moved.standing, movingRuns] at ended
      cases ended
    · exact (stale old).elim
  | commit ending =>
    rcases (at_set ending).mp found with ⟨rfl, _⟩ | ⟨_, old⟩
    · rcases (at_set ending).mp holding with ⟨same, _⟩ | ⟨_, kept⟩
      · exact (different same).elim
      · exact kept
    · exact (stale old).elim
  | abort ending =>
    rcases (at_set ending).mp found with ⟨_, rfl⟩ | ⟨_, old⟩
    · cases ended
    · exact (stale old).elim

end

/-! ## Invariants -/

/-- The rows fit, every running transaction fits the rows, and the unique
indexes accept the rows and what every transaction sees of them. -/
structure Holds (schema : Schema Statement key) (shared : Table key → Prop)
    (own : Table key → Transaction service key → Prop)
    (database : Database service key) : Prop where
  apart : database.Pairwise (Apart schema)
  unique : database.committed.Unique schema.clashes
  views : ∀ {index transaction}, database.At index transaction → transaction.standing = .running →
    (transaction.view database.committed).Unique schema.clashes
  committed : shared database.committed
  running : ∀ {index transaction}, database.At index transaction →
    transaction.standing = .running → own database.committed transaction

/-- What has to be shown of one transaction for a fact to hold of all of them
in every interleaving. -/
structure Discipline (schema : Schema Statement key)
    (commits : α → Bool) (allows : Database service key → Nat → Prop) (shared : Table key → Prop)
    (own : Table key → Transaction service key → Prop) : Prop where
  start : ∀ {committed} (call : Call), shared committed → own committed (start service key call)
  move : ∀ {database : Database service key} {index transaction later}, shared database.committed →
    database.committed.Unique schema.clashes →
    own database.committed transaction →
    Move schema database index transaction later →
    own database.committed later
  publish : ∀ {committed transaction value}, shared committed → own committed transaction →
    (transaction.view committed).Unique schema.clashes →
    transaction.scan = none → transaction.thread.rest = .done value →
    commits value = true → shared (transaction.view committed)
  endure : ∀ {database : Database service key}
    {index other transaction holder value}, shared database.committed →
    own database.committed transaction → own database.committed holder →
    Apart schema transaction holder →
    database.At other holder → other ≠ index → holder.standing = .running →
    database.At index transaction → transaction.thread.rest = .done value →
    commits value = true → allows database index →
    own (transaction.view database.committed) holder

section

variable {allows : Database service key → Nat → Prop}
  {shared : Table key → Prop} {own : Table key → Transaction service key → Prop}
  {before after : Database service key}

section

variable (discipline : Discipline schema commits allows shared own)

include discipline

theorem Holds.after_step
    (step : Step schema commits allows before after) (holds : before.Holds schema shared own) :
    after.Holds schema shared own := by
  refine ⟨Pairwise.after_step step holds.apart, ?_, ?_, ?_, ?_⟩
  · cases step with
    | commit was wasRunning => exact holds.views was wasRunning
    | start | move | abort => exact holds.unique
  · intro index transaction found running
    cases step with
    | start call =>
      rcases at_append found with old | rfl
      · exact holds.views old running
      · intro row member other otherMember
        exact holds.unique row ((mem_view_of_clean rfl rfl).mp member) other
          ((mem_view_of_clean rfl rfl).mp otherMember)
    | move was wasRunning moved =>
      rcases (at_set was).mp found with ⟨_, rfl⟩ | ⟨_, old⟩
      · exact moved.unique (holds.views was wasRunning)
      · exact holds.views old running
    | commit was wasRunning =>
      rcases (at_set was).mp found with ⟨_, rfl⟩ | ⟨differs, old⟩
      · cases running
      · exact (holds.apart was old (Ne.symm differs) wasRunning
          running).unique (holds.views was wasRunning) (holds.views old running)
    | abort was wasRunning =>
      rcases (at_set was).mp found with ⟨_, rfl⟩ | ⟨_, old⟩
      · cases running
      · exact holds.views old running
  · cases step with
    | commit was wasRunning idle returned accepted allowed =>
      exact discipline.publish holds.committed
        (holds.running was wasRunning) (holds.views was wasRunning) idle returned accepted
    | start | move | abort => exact holds.committed
  · intro index transaction found running
    cases step with
    | start call =>
      rcases at_append found with old | rfl
      · exact holds.running old running
      · exact discipline.start call holds.committed
    | move was wasRunning moved =>
      rcases (at_set was).mp found with ⟨_, rfl⟩ | ⟨_, old⟩
      · have kept : own before.committed _ := discipline.move
          holds.committed holds.unique (holds.running was wasRunning) moved
        exact kept
      · exact holds.running old running
    | commit was wasRunning idle returned accepted allowed =>
      rcases (at_set was).mp found with ⟨_, rfl⟩ | ⟨differs, old⟩
      · cases running
      exact discipline.endure holds.committed
        (holds.running was wasRunning) (holds.running old running)
        (holds.apart was old (Ne.symm differs) wasRunning running)
        old differs running was returned accepted allowed
    | abort was wasRunning =>
      rcases (at_set was).mp found with ⟨_, rfl⟩ | ⟨_, old⟩
      · cases running
      · exact holds.running old running

theorem Holds.after_runs
    (runs : Runs schema commits allows before after) (holds : before.Holds schema shared own) :
    after.Holds schema shared own := by
  induction runs with
  | refl => exact holds
  | tail _ step induction => exact induction.after_step discipline step

end

theorem holds_idle {rows : Table key} (unique : rows.Unique schema.clashes) (sound : shared rows) :
    (idle service rows).Holds schema shared own where
  apart _ _ _ _ found := by cases found
  unique := unique
  views found := by cases found
  committed := sound
  running found := by cases found

end

end Effects.Database
