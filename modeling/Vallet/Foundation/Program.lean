import Mathlib.Logic.Basic

/-!
# Programs over atomic statements

A program issues statements one at a time and goes on with each reply.  The
tree says nothing about how statements are answered: the same program can be
run alone with faults injected, inside a transaction that is rolled back, or
statement by statement in between other programs.
-/

namespace Effects

/-- A statement that was not answered. -/
inductive Fault where
  | storage
deriving DecidableEq, Repr

/-- A tree of statements, each continued by its reply. -/
inductive Program (Statement : Type → Type) (α : Type) : Type 1 where
  | done (value : α)
  | issue {β : Type} (statement : Statement β) (next : Except Fault β → Program Statement α)

/-- The statements of two families. -/
inductive Either (Left Right : Type → Type) (β : Type) : Type where
  | left (statement : Left β)
  | right (statement : Right β)

/-- How statements are answered from a state, and what they leave behind. -/
structure Interpreter (Statement : Type → Type) (σ : Type) where
  execute : {β : Type} → Statement β → σ → β × σ

namespace Program

variable {Statement : Type → Type} {α β γ σ : Type}

def bind (program : Program Statement α)
    (continuation : α → Program Statement β) : Program Statement β :=
  match program with
  | .done value => continuation value
  | .issue statement next => .issue statement fun reply => (next reply).bind continuation

instance : Monad (Program Statement) where
  pure := .done
  bind := Program.bind

/-- A program that only reports an error. -/
class Fails {ε : Type} (program : Program Statement (Except ε α)) : Prop where
  reports : ∃ failure, program = .done (.error failure)

instance {ε : Type} (failure : ε) :
    Fails (pure (.error failure) : Program Statement (Except ε α)) := ⟨failure, rfl⟩

@[simp] theorem pure_eq_done (value : α) : (pure value : Program Statement α) = .done value := rfl

@[simp] theorem done_bind (value : α) (continuation : α → Program Statement β) :
    (Program.done value >>= continuation) = continuation value := rfl

@[simp] theorem bind_done (value : α) (continuation : α → Program Statement β) :
    (Program.done value).bind continuation = continuation value := rfl

@[simp] theorem issue_bind (statement : Statement γ) (next : Except Fault γ → Program Statement α)
    (continuation : α → Program Statement β) :
    (Program.issue statement next >>= continuation) =
      .issue statement fun reply => next reply >>= continuation := rfl

/-- Issue one statement and return its reply. -/
def ask (statement : Statement β) : Program Statement (Except Fault β) :=
  .issue statement .done

@[simp] theorem ask_bind (statement : Statement γ)
    (continuation : Except Fault γ → Program Statement β) :
    (ask statement >>= continuation) = .issue statement continuation := rfl

/-- The same program over a larger family of statements. -/
def translate {Larger : Type → Type} (embed : {γ : Type} → Statement γ → Larger γ) :
    Program Statement α → Program Larger α
  | .done value => .done value
  | .issue statement next => .issue (embed statement) fun reply => (next reply).translate embed

/-- The reply to one statement; a faulted statement has no effect. -/
def reply (interpreter : Interpreter Statement σ) (faulted : Bool)
    (statement : Statement β) (state : σ) : Except Fault β × σ :=
  if faulted then
    (.error .storage, state)
  else
    let answer := interpreter.execute statement state
    (.ok answer.1, answer.2)

variable (interpreter : Interpreter Statement σ)

variable (statement : Statement β)

@[simp] theorem reply_false (state : σ) :
    reply interpreter false statement state =
      (.ok (interpreter.execute statement state).1, (interpreter.execute statement state).2) := rfl

/-- Run a program alone.  The list says which statements fault, in the order
they are issued; statements past its end do not. -/
def run (interpreter : Interpreter Statement σ) : Program Statement α → List Bool → σ → α × σ
  | .done value, _, state => (value, state)
  | .issue statement next, faults, state =>
    let answer := reply interpreter (faults.headD false) statement state
    (next answer.1).run interpreter faults.tail answer.2

@[simp] theorem run_done (value : α) (faults : List Bool) (state : σ) :
    (done value : Program Statement α).run interpreter faults state = (value, state) := rfl

theorem run_issue (next : Except Fault β → Program Statement α) (faults : List Bool) (state : σ) :
    (issue statement next).run interpreter faults state =
      (next (reply interpreter (faults.headD false) statement state).1).run interpreter faults.tail
        (reply interpreter (faults.headD false) statement state).2 := rfl

/-- Without faults, one program after another. -/
theorem run_bind_nil (program : Program Statement α)
    (continuation : α → Program Statement β) (state : σ) :
    (program >>= continuation).run interpreter [] state =
      (continuation (program.run interpreter [] state).1).run interpreter []
        (program.run interpreter [] state).2 := by
  induction program generalizing state with
  | done value => rfl
  | issue statement next induction => exact induction _ _

end Program

/-- Which parts of a transaction fault: its opening, its statements in the
order they are issued, and its commit. -/
structure FaultPlan where
  opening : Bool := false
  statements : List Bool := []
  closing : Bool := false
deriving DecidableEq, Repr

/-- Run a program as one transaction: its effects are kept when it returns
`ok` and the commit succeeds, and undone otherwise. -/
def transact {Statement : Type → Type} {α ε σ : Type}
    (interpreter : Interpreter Statement σ) (onFault : ε)
    (body : Program Statement (Except ε α)) (plan : FaultPlan) (state : σ) : Except ε α × σ :=
  if plan.opening then
    (.error onFault, state)
  else
    match body.run interpreter plan.statements state with
    | (.error failure, _) => (.error failure, state)
    | (.ok value, changed) => if plan.closing then (.error onFault, state) else (.ok value, changed)

section Transactions

variable {Statement : Type → Type} {α ε σ : Type}
  {interpreter : Interpreter Statement σ} {onFault : ε}
  {body : Program Statement (Except ε α)} {plan : FaultPlan} {state : σ}

theorem transact_cases (interpreter : Interpreter Statement σ) (onFault : ε)
    (body : Program Statement (Except ε α)) (plan : FaultPlan) (state : σ) :
    (∃ failure, transact interpreter onFault body plan state = (.error failure, state)) ∨
    ∃ value changed, body.run interpreter plan.statements state = (.ok value, changed) ∧
      transact interpreter onFault body plan state = (.ok value, changed) := by
  unfold transact
  split
  · exact .inl ⟨onFault, rfl⟩
  split
  · rename_i failure changed result
    exact .inl ⟨failure, rfl⟩
  · rename_i value changed result
    split
    · exact .inl ⟨onFault, rfl⟩
    · exact .inr ⟨value, changed, result, rfl⟩

/-- With no fault planned, an `ok` body is committed. -/
theorem transact_commits {value : α} {changed : σ}
    (result : body.run interpreter [] state = (.ok value, changed)) :
    transact interpreter onFault body {} state = (.ok value, changed) := by
  simp [transact, result]

end Transactions

end Effects
