import Vallet.Foundation.Program

/-!
# Programs run amid other activity

Between the statements of a program others may change the state.  A turn says
what they do before one statement and whether that statement faults.  A
program ensures a postcondition amid changes of a given kind when it ends with
it whichever of these changes come before which of its statements.
-/

namespace Effects

/-- What happens around one statement. -/
structure Turn (ε : Type) where
  moves : List ε := []
  faulted : Bool := false
deriving DecidableEq, Repr

/-- The moves of others, in order. -/
def disturb {ε σ : Type} (act : ε → σ → σ) (moves : List ε) (state : σ) : σ :=
  moves.foldl (fun reached move => act move reached) state

namespace Program

variable {Statement : Type → Type} {α β γ σ ε : Type}

/-- Run a program with the turns of its statements; statements past their end
come undisturbed.  The turns that were not used are returned. -/
def runAmid (interpreter : Interpreter Statement σ) (act : ε → σ → σ) :
    Program Statement α → List (Turn ε) → σ → α × List (Turn ε) × σ
  | .done value, turns, state => (value, turns, state)
  | .issue statement next, turns, state =>
    let turn := turns.headD {}
    let answer := reply interpreter turn.faulted statement (disturb act turn.moves state)
    (next answer.1).runAmid interpreter act turns.tail answer.2

variable {interpreter : Interpreter Statement σ} {act : ε → σ → σ}

@[simp] theorem runAmid_done (value : α) (turns : List (Turn ε)) (state : σ) :
    (done value : Program Statement α).runAmid interpreter act turns state =
      (value, turns, state) := rfl

variable (statement : Statement β)

theorem runAmid_issue
    (next : Except Fault β → Program Statement α) (turns : List (Turn ε)) (state : σ) :
    (issue statement next).runAmid interpreter act turns state =
      (next (reply interpreter (turns.headD {}).faulted statement
        (disturb act (turns.headD {}).moves state)).1).runAmid interpreter act turns.tail
          (reply interpreter (turns.headD {}).faulted statement
            (disturb act (turns.headD {}).moves state)).2 := rfl

theorem runAmid_issue_ok (next : Except Fault β → Program Statement α) {turns : List (Turn ε)}
    (steady : ∀ turn ∈ turns, turn.faulted = false) (state : σ) :
    (issue statement next).runAmid interpreter act turns state =
      (next (.ok (interpreter.execute statement
        (disturb act (turns.headD {}).moves state)).1)).runAmid interpreter
          act (turns.drop 1) (interpreter.execute statement
            (disturb act (turns.headD {}).moves state)).2 := by
  rw [runAmid_issue]
  cases turns with
  | nil => exact rfl
  | cons turn rest =>
    have answered : turn.faulted = false := steady turn List.mem_cons_self
    simp [answered]

/-- One program after another uses the turns one after the other. -/
theorem runAmid_bind (program : Program Statement α)
    (continuation : α → Program Statement β) (turns : List (Turn ε)) (state : σ) :
    (program >>= continuation).runAmid interpreter act turns state =
      (continuation (program.runAmid interpreter act turns state).1).runAmid
        interpreter act (program.runAmid interpreter act turns state).2.1
        (program.runAmid interpreter act turns state).2.2 := by
  induction program generalizing turns state with
  | done value => rfl
  | issue statement next induction => exact induction _ _ _

/-- A run uses the turns up one by one. -/
theorem runAmid_turns (program : Program Statement α) (turns : List (Turn ε)) (state : σ) :
    ∃ count, (program.runAmid interpreter act turns state).2.1 = turns.drop count := by
  induction program generalizing turns state with
  | done value => exact ⟨0, rfl⟩
  | issue statement next induction =>
    obtain ⟨count, left⟩ := induction _ turns.tail _
    exact ⟨count + 1, by rw [runAmid_issue, left, List.drop_tail]⟩

/-- The postcondition holds at the end, whatever changes of the given kind
come in between and whichever statements fault. -/
def EnsuresAmid (interpreter : Interpreter Statement σ)
    (changes : σ → σ → Prop) (post : α → σ → Prop) :
    Program Statement α → σ → Prop
  | .done value, state => post value state
  | .issue statement next, state =>
    ∀ disturbed, changes state disturbed →
      (next (.error .storage)).EnsuresAmid interpreter changes post disturbed ∧
      (next (.ok (interpreter.execute statement disturbed).1)).EnsuresAmid
        interpreter changes post (interpreter.execute statement disturbed).2

variable {changes : σ → σ → Prop} {program : Program Statement α}

theorem EnsuresAmid.mono {post weaker : α → σ → Prop} {state : σ}
    (ensured : program.EnsuresAmid interpreter changes post state)
    (implied : ∀ value final, post value final → weaker value final) :
    program.EnsuresAmid interpreter changes weaker state := by
  induction program generalizing state with
  | done value => exact implied value state ensured
  | issue statement next induction =>
    intro disturbed changed
    obtain ⟨failed, answered⟩ := ensured disturbed changed
    exact ⟨induction _ failed, induction _ answered⟩

/-- The value and the state of a first program are what the second starts
from. -/
theorem EnsuresAmid.bind {post : β → σ → Prop} {middle : α → σ → Prop}
    {continuation : α → Program Statement β} {state : σ}
    (first : program.EnsuresAmid interpreter changes middle state)
    (second : ∀ value reached, middle value reached →
      (continuation value).EnsuresAmid interpreter changes post reached) :
    (program >>= continuation).EnsuresAmid interpreter changes post state := by
  induction program generalizing state with
  | done value => exact second value state first
  | issue statement next induction =>
    intro disturbed changed
    obtain ⟨failed, answered⟩ := first disturbed changed
    exact ⟨induction _ failed, induction _ answered⟩

/-- What is ensured amid changes holds of every run whose turns make them. -/
theorem EnsuresAmid.runAmid {post : α → σ → Prop} {state : σ}
    (ensured : program.EnsuresAmid interpreter changes post state)
    {turns : List (Turn ε)} (made : ∀ turn ∈ turns, ∀ state,
      changes state (disturb act turn.moves state)) (idle : ∀ state, changes state state) :
    post (program.runAmid interpreter act turns state).1
      (program.runAmid interpreter act turns state).2.2 := by
  induction program generalizing state turns with
  | done value => exact ensured
  | issue statement next induction =>
    rw [runAmid_issue]
    have changed : changes state (disturb act (turns.headD {}).moves state) := by
      cases turns with
      | nil => exact idle state
      | cons turn rest => exact made turn List.mem_cons_self state
    obtain ⟨failed, answered⟩ := ensured _ changed
    have later : ∀ turn ∈ turns.tail, ∀ state, changes state (disturb act turn.moves state) :=
      fun turn member => made turn (List.mem_of_mem_tail member)
    cases (turns.headD {}).faulted with
    | true => exact induction _ failed later
    | false => exact induction _ answered later

end Program

end Effects
