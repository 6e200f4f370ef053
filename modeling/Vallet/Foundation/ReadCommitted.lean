import Vallet.Foundation.Interleaving
import Vallet.Foundation.Table

/-!
# Transactions at READ COMMITTED

One table is shared by any number of transactions.  What a transaction has
written is seen by itself only, and is a lock on the rows it names, until it
ends.  Every statement starts from the rows committed at that moment.  An
`UPDATE` fixes then which rows it will visit; it visits them one at a time,
waits at a row that another transaction has locked, and looks at the latest
committed version of that row, and of no other, before changing it.  A row
that a unique index holds to be the same as one written by another transaction
waits for that transaction to end.
-/

namespace Relational.Table

variable {ρ κ : Type} {key : ρ → κ} {row : ρ} {table : Table key}

/-- No two rows are the same for the unique indexes. -/
def Unique (clashes : ρ → ρ → Bool) (table : Table key) : Prop :=
  ∀ row ∈ table.rows, ∀ other ∈ table.rows, key row ≠ key other → clashes row other = false

instance [DecidableEq κ] (clashes : ρ → ρ → Bool) (table : Table key) :
    Decidable (table.Unique clashes) :=
  inferInstanceAs (Decidable (∀ row ∈ table.rows, _))

theorem Unique.delete {clashes : ρ → ρ → Bool} (unique : table.Unique clashes) (chosen : ρ → Bool) :
    (table.delete chosen).Unique clashes := by
  intro row stored other otherStored
  exact unique row (mem_delete.mp stored).1 other (mem_delete.mp otherStored).1

variable [DecidableEq κ]

private theorem mem_foldl_put {rows : List ρ} (distinct : (rows.map key).Nodup) :
    row ∈ rows.foldl put table ↔
      row ∈ rows ∨ (row ∈ table ∧ ∀ other ∈ rows, key other ≠ key row) := by
  induction rows generalizing table with
  | nil => simp
  | cons first rest induction =>
    obtain ⟨fresh, distinctRest⟩ := List.nodup_cons.mp distinct
    rw [List.foldl_cons, induction distinctRest, mem_put, List.mem_cons]
    constructor
    · rintro (later | ⟨⟨stored, differs⟩ | rfl, untouched⟩)
      · exact .inl (.inr later)
      · refine .inr ⟨stored, fun other member => ?_⟩
        rcases List.mem_cons.mp member with rfl | member
        · exact Ne.symm differs
        · exact untouched other member
      · exact .inl (.inl rfl)
    · rintro ((rfl | later) | ⟨stored, untouched⟩)
      · refine .inr ⟨.inr rfl, fun other member sameKey => fresh ?_⟩
        exact sameKey ▸ List.mem_map_of_mem member
      · exact .inl later
      · exact .inr ⟨.inl ⟨stored, Ne.symm (untouched first List.mem_cons_self)⟩,
          fun other member => untouched other (.tail _ member)⟩

/-- The table with newer versions of some rows laid over it. -/
def overlay (table newer : Table key) : Table key :=
  newer.rows.foldl put table

end Relational.Table

namespace Effects

open Relational

/-- How a statement uses the table.  A selected row that `change` maps to
nothing is deleted. -/
inductive Access {ρ κ : Type} (key : ρ → κ) (β : Type) where
  | read (answer : Table key → β)
  | insert (row : ρ) (answer : Bool → β)
  | write (chosen : ρ → Bool) (change : ρ → Option ρ)
      (keepsKey : ∀ ⦃row version⦄, change row = some version →
        key version = key row) (answer : Nat → β)

namespace Access

variable {ρ κ β : Type} {key : ρ → κ}

def update (chosen : ρ → Bool) (change : ρ → ρ)
    (keepsKey : ∀ row, key (change row) = key row) (answer : Nat → β) : Access key β :=
  .write chosen (fun row => some (change row))
    (fun row _ changed => Option.some.inj changed ▸ keepsKey row) answer

def delete (chosen : ρ → Bool) (answer : Nat → β) : Access key β :=
  .write chosen (fun _ => none) (fun _ _ impossible => by cases impossible) answer

end Access

/-- How the statements of a family use the table, and which rows its unique
indexes hold to be the same. -/
structure Schema (Statement : Type → Type) {ρ κ : Type} (key : ρ → κ) where
  access : {β : Type} → Statement β → Access key β
  clashes : ρ → ρ → Bool
  symmetric : ∀ row other, clashes row other = clashes other row

/-- An `UPDATE` or `DELETE` under way: the keys of the rows it found when it
started and has still to visit, and the number of rows it has changed. -/
structure Scan (κ : Type) where
  remaining : List κ
  affected : Nat

inductive Standing (α : Type) where
  | running
  | committed (value : α)
  | aborted

def Standing.isRunning {α : Type} : Standing α → Bool
  | .running => true
  | _ => false

theorem Standing.isRunning_iff {α : Type} {standing : Standing α} :
    standing.isRunning = true ↔ standing = .running := by
  cases standing <;> simp [isRunning]

section

variable {Statement : Type → Type} {Call α Label τ ρ κ : Type}

/-- A transaction runs one call.  `pending` holds the latest version of every
row it has written, and `removed` the keys of the rows it has deleted. -/
structure Transaction (service : Service Statement Call α Label τ) (key : ρ → κ) where
  thread : Thread service
  pending : Table key
  removed : List κ
  scan : Option (Scan κ)
  standing : Standing α

namespace Transaction

variable {service : Service Statement Call α Label τ} {key : ρ → κ}

def start (service : Service Statement Call α Label τ) (key : ρ → κ)
    (call : Call) : Transaction service key where
  thread := Thread.start service call
  pending := Table.empty
  removed := []
  scan := none
  standing := .running

variable [DecidableEq κ]

/-- What the transaction sees of the committed rows. -/
def view (transaction : Transaction service key) (committed : Table key) : Table key :=
  (committed.delete fun row =>
    decide (key row ∈ transaction.removed)).overlay transaction.pending

/-- The transaction has written or deleted the row of the key. -/
def Touches (transaction : Transaction service key) (wanted : κ) : Prop :=
  transaction.pending.find? wanted ≠ none ∨ wanted ∈ transaction.removed

instance (transaction : Transaction service key) (wanted : κ) :
    Decidable (transaction.Touches wanted) :=
  decidable_of_iff ((transaction.pending.find? wanted).isSome = true ∨
    wanted ∈ transaction.removed) (by
      rw [Option.isSome_iff_ne_none]
      exact Iff.rfl)

variable {transaction : Transaction service key} {row : ρ} {committed : Table key}

theorem touches_iff {wanted : κ} :
    transaction.Touches wanted ↔
      (∃ row ∈ transaction.pending, key row = wanted) ∨ wanted ∈ transaction.removed := by
  rw [Touches, ne_eq, Table.find?_eq_none_iff]
  push Not
  rfl

theorem touches_of_mem (written : row ∈ transaction.pending) : transaction.Touches (key row) :=
  touches_iff.mpr (.inl ⟨row, written, rfl⟩)

theorem mem_view : row ∈ transaction.view committed ↔ row ∈ transaction.pending ∨
      (row ∈ committed ∧ ¬ transaction.Touches (key row)) := by
  rw [view, Table.overlay, Table.mem_foldl_put transaction.pending.distinct, Table.mem_delete,
    touches_iff]
  push Not
  rw [decide_eq_false_iff_not]
  tauto

theorem mem_view_of_clean (clean : transaction.pending = Table.empty)
    (keeps : transaction.removed = []) : row ∈ transaction.view committed ↔ row ∈ committed := by
  rw [mem_view, touches_iff, clean, keeps]
  simp

/-- A row that is there under its key keeps a version, unless the transaction
deletes rows. -/
theorem exists_mem_view (keeps : transaction.removed = []) (stored : row ∈ committed) :
    ∃ version ∈ transaction.view committed, key version = key row ∧
      (version ∈ transaction.pending ∨ version = row) := by
  by_cases touched : transaction.Touches (key row)
  · rcases touches_iff.mp touched with ⟨version, written, sameKey⟩ | deleted
    · exact ⟨version, mem_view.mpr (.inl written), sameKey, .inl written⟩
    · rw [keeps] at deleted
      cases deleted
  · exact ⟨row, mem_view.mpr (.inr ⟨stored, touched⟩), rfl, .inr rfl⟩

theorem not_touches_start (call : Call) (wanted : κ) :
    ¬ (start service key call).Touches wanted := by
  rw [touches_iff]
  rintro (⟨row, impossible, _⟩ | impossible)
  · exact Table.not_mem_empty row impossible
  · cases impossible

end Transaction

/-- The committed rows and the transactions that were started. -/
structure Database (service : Service Statement Call α Label τ) (key : ρ → κ) where
  committed : Table key
  transactions : List (Transaction service key)

namespace Database

variable {service : Service Statement Call α Label τ} {key : ρ → κ}
  {schema : Schema Statement key} {commits : α → Bool}

/-- The transaction started as number `index`. -/
def At (database : Database service key) (index : Nat)
    (transaction : Transaction service key) : Prop :=
  database.transactions[index]? = some transaction

variable {database : Database service key} {index : Nat} {transaction : Transaction service key}

theorem At.unique {other : Transaction service key}
    (first : database.At index transaction) (second : database.At index other) :
    transaction = other :=
  Option.some.inj (first.symm.trans second)

theorem at_append {added : Transaction service key} (found : ({ database with
      transactions := database.transactions ++ [added] } :
        Database service key).At index transaction) :
    database.At index transaction ∨ transaction = added := by
  unfold At at found
  by_cases old : index < database.transactions.length
  · rw [List.getElem?_append_left old] at found
    exact .inl found
  · rw [List.getElem?_append_right (by omega)] at found
    exact .inr (List.mem_singleton.mp (List.mem_of_getElem? found))

theorem at_set {committed : Table key} {later : Transaction service key}
    (was : database.At index transaction) {other : Nat} {found : Transaction service key} :
    ({ committed := committed
       transactions := database.transactions.set index later } :
        Database service key).At other found ↔
      (other = index ∧ found = later) ∨ (other ≠ index ∧ database.At other found) := by
  obtain ⟨inRange, _⟩ := List.getElem?_eq_some_iff.mp was
  unfold At
  by_cases same : other = index
  · subst other
    simp [inRange, eq_comm]
  · simp [same, List.getElem?_set_ne (Ne.symm same)]

variable [DecidableEq κ]

/-- No other running transaction has written or deleted the row. -/
def Free (database : Database service key) (index : Nat) (wanted : κ) : Prop :=
  ∀ holder ∈ database.transactions.eraseIdx index,
    holder.standing.isRunning = true → ¬ holder.Touches wanted

instance (database : Database service key) (index : Nat) (wanted : κ) :
    Decidable (database.Free index wanted) :=
  inferInstanceAs (Decidable (∀ holder ∈ database.transactions.eraseIdx index, _))

/-- No other running transaction has touched the row, or written one that a
unique index holds to be the same. -/
def Unlocked (schema : Schema Statement key)
    (database : Database service key) (index : Nat) (row : ρ) : Prop :=
  database.Free index (key row) ∧
    ∀ holder ∈ database.transactions.eraseIdx index, holder.standing.isRunning = true →
      ∀ version ∈ holder.pending.rows, schema.clashes version row = false

instance (schema : Schema Statement key) (database : Database service key) (index : Nat) (row : ρ) :
    Decidable (database.Unlocked schema index row) :=
  inferInstanceAs (Decidable (_ ∧ _))

end Database

/-- The unique indexes accept the row besides the others. -/
def Schema.Fits {key : ρ → κ} (schema : Schema Statement key) (rows : Table key) (row : ρ) : Prop :=
  ∀ other ∈ rows.rows, key other ≠ key row → schema.clashes other row = false

instance {key : ρ → κ} [DecidableEq κ] (schema : Schema Statement key)
    (rows : Table key) (row : ρ) : Decidable (schema.Fits rows row) :=
  inferInstanceAs (Decidable (∀ other ∈ rows.rows, _))

namespace Database

variable {service : Service Statement Call α Label τ} {key : ρ → κ}
  {schema : Schema Statement key} {commits : α → Bool} [DecidableEq κ]

/-- What a running transaction can do without ending. -/
inductive Move (schema : Schema Statement key) (database : Database service key) (index : Nat)
    (transaction : Transaction service key) :
    Transaction service key → Prop where
  | read {β : Type} {statement : Statement β} {next : Except Fault β → Program Statement α}
      {answer : Table key → β}
      (waiting : transaction.thread.rest = .issue statement next) (idle : transaction.scan = none)
      (form : schema.access statement = .read answer) :
      Move schema database index transaction { transaction with
          thread := transaction.thread.answered waiting
            (.ok (answer (transaction.view database.committed))) }
  | insert {β : Type} {statement : Statement β}
      {next : Except Fault β → Program Statement α} {row : ρ}
      {answer : Bool → β}
      (waiting : transaction.thread.rest = .issue statement next) (idle : transaction.scan = none)
      (form : schema.access statement = .insert row answer)
      (unlocked : database.Unlocked schema index row)
      (absent : (transaction.view database.committed).find? (key row) = none)
      (fits : schema.Fits (transaction.view database.committed) row) :
      Move schema database index transaction { transaction with
          thread := transaction.thread.answered waiting (.ok (answer true))
          pending := transaction.pending.put row }
  | collide {β : Type} {statement : Statement β}
      {next : Except Fault β → Program Statement α} {row : ρ}
      {answer : Bool → β}
      (waiting : transaction.thread.rest = .issue statement next) (idle : transaction.scan = none)
      (form : schema.access statement = .insert row answer)
      (unlocked : database.Unlocked schema index row)
      (taken : ¬ ((transaction.view database.committed).find? (key row) =
          none ∧ schema.Fits (transaction.view database.committed) row)) :
      Move schema database index transaction { transaction with
          thread := transaction.thread.answered waiting (.ok (answer false)) }
  | find {β : Type} {statement : Statement β}
      {next : Except Fault β → Program Statement α} {chosen : ρ → Bool}
      {change : ρ → Option ρ} {keepsKey : ∀ ⦃row version⦄,
        change row = some version → key version = key row}
      {answer : Nat → β}
      (waiting : transaction.thread.rest = .issue statement next) (idle : transaction.scan = none)
      (form : schema.access statement = .write chosen change keepsKey answer) :
      Move schema database index transaction { transaction with
          scan := some
            { remaining := ((transaction.view database.committed).select chosen).map key
              affected := 0 } }
  | change {β : Type} {statement : Statement β}
      {next : Except Fault β → Program Statement α} {chosen : ρ → Bool}
      {change : ρ → Option ρ} {keepsKey : ∀ ⦃row version⦄,
        change row = some version → key version = key row}
      {answer : Nat → β} {scan : Scan κ} {row version : ρ}
      (waiting : transaction.thread.rest = .issue statement next)
      (scanning : transaction.scan = some scan)
      (form : schema.access statement = .write chosen change keepsKey answer)
      (visited : key row ∈ scan.remaining) (latest : row ∈ transaction.view database.committed)
      (matched : chosen row = true) (changed : change row = some version)
      (unlocked : database.Unlocked schema index version)
      (fits : schema.Fits (transaction.view database.committed) version) :
      Move schema database index transaction { transaction with
          pending := transaction.pending.put version
          scan := some
            { remaining := scan.remaining.filter (· ≠ key row)
              affected := scan.affected + 1 } }
  | remove {β : Type} {statement : Statement β}
      {next : Except Fault β → Program Statement α} {chosen : ρ → Bool}
      {change : ρ → Option ρ} {keepsKey : ∀ ⦃row version⦄,
        change row = some version → key version = key row}
      {answer : Nat → β} {scan : Scan κ} {row : ρ}
      (waiting : transaction.thread.rest = .issue statement next)
      (scanning : transaction.scan = some scan)
      (form : schema.access statement = .write chosen change keepsKey answer)
      (visited : key row ∈ scan.remaining) (latest : row ∈ transaction.view database.committed)
      (matched : chosen row = true) (changed : change row = none)
      (free : database.Free index (key row)) :
      Move schema database index transaction { transaction with
          pending := transaction.pending.delete fun version =>
            decide (key version = key row)
          removed := key row :: transaction.removed
          scan := some
            { remaining := scan.remaining.filter (· ≠ key row)
              affected := scan.affected + 1 } }
  | skip {β : Type} {statement : Statement β}
      {next : Except Fault β → Program Statement α} {chosen : ρ → Bool}
      {change : ρ → Option ρ} {keepsKey : ∀ ⦃row version⦄,
        change row = some version → key version = key row}
      {answer : Nat → β} {scan : Scan κ} {wanted : κ}
      (waiting : transaction.thread.rest = .issue statement next)
      (scanning : transaction.scan = some scan)
      (form : schema.access statement = .write chosen change keepsKey answer)
      (visited : wanted ∈ scan.remaining) (free : database.Free index wanted)
      (unmatched : ∀ row ∈ transaction.view database.committed,
        key row = wanted → chosen row = false) :
      Move schema database index transaction { transaction with
          scan := some
            { remaining := scan.remaining.filter (· ≠ wanted)
              affected := scan.affected } }
  | finish {β : Type} {statement : Statement β}
      {next : Except Fault β → Program Statement α} {chosen : ρ → Bool}
      {change : ρ → Option ρ} {keepsKey : ∀ ⦃row version⦄,
        change row = some version → key version = key row}
      {answer : Nat → β} {affected : Nat}
      (waiting : transaction.thread.rest = .issue statement next) (scanned : transaction.scan =
        some { remaining := [], affected := affected })
      (form : schema.access statement = .write chosen change keepsKey answer) :
      Move schema database index transaction { transaction with
          thread := transaction.thread.answered waiting (.ok (answer affected))
          scan := none }

/-- Start a transaction, let one go on, or end it.  A transaction may be
aborted at any time; it may commit when `allows` says so.  A write that a
unique index refuses is not a move: its transaction can only be aborted. -/
inductive Step (schema : Schema Statement key)
    (commits : α → Bool) (allows : Database service key → Nat → Prop) :
    Database service key → Database service key → Prop where
  | start {database : Database service key} (call : Call) :
      Step schema commits allows database { database with
          transactions := database.transactions ++ [Transaction.start service key call] }
  | move {database : Database service key} {index : Nat}
      {transaction later : Transaction service key}
      (found : database.At index transaction) (running : transaction.standing = .running)
      (moved : Move schema database index transaction later) :
      Step schema commits allows database { database with
          transactions := database.transactions.set index later }
  | commit {database : Database service key} {index : Nat}
      {transaction : Transaction service key} {value : α}
      (found : database.At index transaction) (running : transaction.standing = .running)
      (idle : transaction.scan = none) (returned : transaction.thread.rest = .done value)
      (accepted : commits value = true) (allowed : allows database index) :
      Step schema commits allows database
        { committed := transaction.view database.committed
          transactions := database.transactions.set index
            { transaction with standing := .committed value } }
  | abort {database : Database service key} {index : Nat} {transaction : Transaction service key}
      (found : database.At index transaction) (running : transaction.standing = .running) :
      Step schema commits allows database { database with
          transactions := database.transactions.set index
            { transaction with standing := .aborted } }

def Runs (schema : Schema Statement key)
    (commits : α → Bool) (allows : Database service key → Nat → Prop) :
    Database service key → Database service key → Prop :=
  Relation.ReflTransGen (Step schema commits allows)

/-! ## Schedules -/

/-- No transaction has been started. -/
def idle (service : Service Statement Call α Label τ)
    (committed : Table key) : Database service key where
  committed := committed
  transactions := []

def begin (database : Database service key) (call : Call) : Database service key :=
  { database with
    transactions := database.transactions ++ [Transaction.start service key call] }

/-- Let one transaction go on as far as it can in one step, visiting the rows
of an `UPDATE` in the order they were found. -/
def advance (schema : Schema Statement key)
    (commits : α → Bool) (allows : Database service key → Nat → Prop)
    [∀ database index, Decidable (allows database index)]
    (database : Database service key) (index : Nat) : Database service key :=
  match database.transactions[index]? with
  | none => database
  | some transaction =>
    if transaction.standing.isRunning then
      match waiting : transaction.thread.rest with
      | .done value =>
        if transaction.scan.isNone ∧ commits value ∧ allows database index then
          { committed := transaction.view database.committed
            transactions := database.transactions.set index
              { transaction with standing := .committed value } }
        else database
      | .issue statement _ =>
        let resume := fun reply => transaction.thread.answered waiting (.ok reply)
        let replace := fun later => { database with
          transactions := database.transactions.set index later }
        let view := transaction.view database.committed
        match schema.access statement, transaction.scan with
        | .read answer, none => replace { transaction with thread := resume (answer view) }
        | .insert row answer, none =>
          if database.Unlocked schema index row then
            if view.find? (key row) = none ∧ schema.Fits view row then
              replace { transaction with
                thread := resume (answer true)
                pending := transaction.pending.put row }
            else replace { transaction with
              thread := resume (answer false) }
          else database
        | .write chosen _ _ _, none =>
          replace { transaction with
            scan := some
              { remaining := (view.select chosen).map key
                affected := 0 } }
        | .write _ _ _ answer, some ⟨[], affected⟩ =>
          replace { transaction with
            thread := resume (answer affected)
            scan := none }
        | .write chosen change _ _, some ⟨wanted :: rest, affected⟩ =>
          let remaining := (wanted :: rest).filter (· ≠ wanted)
          if database.Free index wanted then
            match (view.find? wanted).filter chosen with
            | none => replace { transaction with
                scan := some { remaining := remaining, affected := affected } }
            | some row =>
              match change row with
              | none => replace { transaction with
                  pending := transaction.pending.delete fun version =>
                    decide (key version = wanted)
                  removed := wanted :: transaction.removed
                  scan := some
                    { remaining := remaining
                      affected := affected + 1 } }
              | some version =>
                if database.Unlocked schema index version ∧ schema.Fits view version then
                  replace { transaction with
                    pending := transaction.pending.put version
                    scan := some
                      { remaining := remaining
                        affected := affected + 1 } }
                else database
          else database
        | _, _ => database
    else database

variable {allows : Database service key → Nat → Prop}

variable (database : Database service key)

theorem begin_runs (call : Call) : Runs schema commits allows database (database.begin call) :=
  .single (.start call)

theorem advance_runs [∀ database index, Decidable (allows database index)] (index : Nat) :
    Runs schema commits allows database (database.advance schema commits allows index) := by
  unfold advance
  split
  · exact .refl
  rename_i transaction found
  split
  swap
  · exact .refl
  rename_i running
  have standing := Standing.isRunning_iff.mp running
  split
  · rename_i value returned
    split
    · rename_i ready
      obtain ⟨idle, accepted, allowed⟩ := ready
      exact .single (.commit found standing
        (Option.isNone_iff_eq_none.mp idle) returned accepted allowed)
    · exact .refl
  · rename_i β statement next waiting
    simp only
    split
    · rename_i answer form idle
      exact .single (.move found standing (.read waiting idle form))
    · rename_i row answer form idle
      split
      · rename_i unlocked
        split
        · rename_i admitted
          exact .single (.move found standing
            (.insert waiting idle form unlocked admitted.1 admitted.2))
        · rename_i taken
          exact .single (.move found standing (.collide waiting idle form unlocked taken))
      · exact .refl
    · rename_i form idle
      exact .single (.move found standing (.find waiting idle form))
    · rename_i form scanned
      exact .single (.move found standing (.finish waiting scanned form))
    · rename_i chosen change keepsKey answer wanted rest affected form scanning
      split
      · rename_i free
        split
        · rename_i miss
          refine .single (.move found standing (.skip waiting scanning form
            List.mem_cons_self free ?_))
          intro row latest named
          have lookup := Table.find?_eq_some_iff.mpr ⟨latest, named⟩
          simpa [lookup] using miss
        · rename_i row hit
          obtain ⟨lookup, matched⟩ := Option.filter_eq_some_iff.mp hit
          obtain ⟨latest, named⟩ := Table.find?_eq_some_iff.mp lookup
          subst named
          split
          · rename_i deleted
            exact .single (.move found standing (.remove waiting scanning
              form List.mem_cons_self latest matched deleted free))
          · rename_i version changed
            split
            · rename_i admitted
              exact .single (.move found standing (.change waiting scanning
                form List.mem_cons_self latest matched changed admitted.1 admitted.2))
            · exact .refl
      · exact .refl
    · exact .refl

/-- Any list of transaction numbers is a schedule. -/
theorem schedule_runs [∀ database index, Decidable (allows database index)] (schedule : List Nat) :
    Runs schema commits allows database
      (schedule.foldl (advance schema commits allows) database) := by
  induction schedule generalizing database with
  | nil => exact .refl
  | cons index rest induction => exact (advance_runs database index).trans (induction _)

end Database

end

end Effects
