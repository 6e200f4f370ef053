import Vallet.Foundation.Program

/-!
# Postconditions of programs with faults

A program ensures a postcondition from a state when, whichever of its
statements fault, it ends with a value and a state that satisfy it.  The rules
follow the program: one for a value, one for a statement, one for sequencing.
A transaction ensures the postcondition of its body when it commits, and
leaves the state alone otherwise.
-/

namespace Effects

namespace Program

variable {Statement : Type → Type} {α β σ : Type} {interpreter : Interpreter Statement σ}

def Ensures (interpreter : Interpreter Statement σ) (post : α → σ → Prop) :
    Program Statement α → σ → Prop
  | .done value, state => post value state
  | .issue statement next, state =>
    (next (.error .storage)).Ensures interpreter post state ∧
      (next (.ok (interpreter.execute statement state).1)).Ensures
        interpreter post (interpreter.execute statement state).2

variable {post : α → σ → Prop} {state : σ} {program : Program Statement α}
  {continuation : α → Program Statement β}

theorem ensures_issue {statement : Statement β} {next : Except Fault β → Program Statement α} :
    (issue statement next).Ensures interpreter post state ↔
      (next (.error .storage)).Ensures interpreter post state ∧
        (next (.ok (interpreter.execute statement state).1)).Ensures
          interpreter post (interpreter.execute statement state).2 :=
  Iff.rfl

theorem Ensures.mono {weaker : α → σ → Prop} (ensured : program.Ensures interpreter post state)
    (implied : ∀ value final, post value final → weaker value final) :
    program.Ensures interpreter weaker state := by
  induction program generalizing state with
  | done value => exact implied value state ensured
  | issue statement next induction => exact ⟨induction _ ensured.1, induction _ ensured.2⟩

theorem ensures_bind {post : β → σ → Prop} :
    (program >>= continuation).Ensures interpreter post state ↔
      program.Ensures interpreter (fun value middle =>
        (continuation value).Ensures interpreter post middle) state := by
  induction program generalizing state with
  | done value => exact Iff.rfl
  | issue statement next induction => exact and_congr (induction _) (induction _)

/-- The value and the state of a first program are what the second starts
from. -/
theorem Ensures.bind {post : β → σ → Prop} {middle : α → σ → Prop}
    (first : program.Ensures interpreter middle state)
    (second : ∀ value reached, middle value reached →
      (continuation value).Ensures interpreter post reached) :
    (program >>= continuation).Ensures interpreter post state :=
  ensures_bind.mpr (first.mono second)

theorem Ensures.run (ensured : program.Ensures interpreter post state) (faults : List Bool) :
    post (program.run interpreter faults state).1 (program.run interpreter faults state).2 := by
  induction program generalizing faults state with
  | done value => exact ensured
  | issue statement next induction =>
    rw [run_issue]
    cases faults.headD false with
    | true => exact induction _ ensured.1 faults.tail
    | false => exact induction _ ensured.2 faults.tail

/-! ### Success -/

section Success

variable {ε δ : Type} {body : Program Statement (Except ε α)}

/-- What a program ensures when it succeeds. -/
def Yields (interpreter : Interpreter Statement σ) (post : α → σ → Prop)
    (body : Program Statement (Except ε α)) (state : σ) : Prop :=
  body.Ensures interpreter
    (fun result final => ∀ value, result = .ok value → post value final) state

theorem yields_error {failure : ε} :
    (done (.error failure) : Program Statement (Except ε α)).Yields interpreter post state :=
  nofun

theorem yields_ok {value : α} (holds : post value state) :
    (done (.ok value) : Program Statement (Except ε α)).Yields interpreter post state := by
  rintro _ ⟨⟩
  exact holds

theorem Yields.mono {weaker : α → σ → Prop} (yields : body.Yields interpreter post state)
    (implied : ∀ value final, post value final → weaker value final) :
    body.Yields interpreter weaker state :=
  Ensures.mono yields fun _ final holds value done =>
    implied value final (holds value done)

/-- A program that gives up on a failure is followed along its successes. -/
theorem Yields.bind {continuation : Except ε α → Program Statement (Except δ β)}
    {post : β → σ → Prop} {middle : α → σ → Prop} (first : body.Yields interpreter middle state)
    [fails : ∀ failure, Fails (continuation (.error failure))]
    (second : ∀ value reached, middle value reached →
      (continuation (.ok value)).Yields interpreter post reached) :
    (body >>= continuation).Yields interpreter post state := by
  refine Ensures.bind first fun result reached holds => ?_
  cases result with
  | error failure =>
    obtain ⟨reported, stops⟩ := (fails failure).reports
    rw [stops]
    exact yields_error
  | ok value => exact second value reached (holds value rfl)

end Success

end Program

section Transactions

variable {Statement : Type → Type} {α ε σ : Type} {interpreter : Interpreter Statement σ}
  {body : Program Statement (Except ε α)}

/-- A call has failed and left the state as it was, or has ended with a value
and a state that satisfy the postcondition. -/
def Settles (start : σ) (post : α → σ → Prop) (outcome : Except ε α × σ) : Prop :=
  (∃ failure, outcome = (.error failure, start)) ∨
    ∃ value final, outcome = (.ok value, final) ∧ post value final

theorem transact_ensures (onFault : ε) {post : α → σ → Prop} {state : σ}
    (ensured : body.Yields interpreter post state) (plan : FaultPlan) :
    Settles state post (transact interpreter onFault body plan state) := by
  rcases transact_cases interpreter onFault body plan state with
    failed | ⟨value, changed, result, committed⟩
  · exact .inl failed
  · have holds := Program.Ensures.run ensured plan.statements
    rw [result] at holds
    exact .inr ⟨value, changed, committed, holds value rfl⟩

end Transactions

/-! ## Traces

What a run did, as labels of its statements and their replies. -/

namespace Program

variable {Statement : Type → Type} {α β σ ε : Type} {interpreter : Interpreter Statement σ}
  {label : {γ : Type} → Statement γ → Except Fault γ → ε}

def events (interpreter : Interpreter Statement σ)
    (label : {γ : Type} → Statement γ → Except Fault γ → ε) :
    Program Statement α → List Bool → σ → List ε
  | .done _, _, _ => []
  | .issue statement next, faults, state =>
    let answer := reply interpreter (faults.headD false) statement state
    label statement answer.1 :: (next answer.1).events interpreter label faults.tail answer.2

/-- Whichever statements fault, the value, the state and the trace at the end
satisfy the postcondition. -/
def Traces (interpreter : Interpreter Statement σ)
    (label : {γ : Type} → Statement γ → Except Fault γ → ε)
    (post : α → σ → List ε → Prop) : Program Statement α → σ → List ε → Prop
  | .done value, state, trace => post value state trace
  | .issue statement next, state, trace =>
    (next (.error .storage)).Traces interpreter label post state
        (trace ++ [label statement (.error .storage)]) ∧
      (next (.ok (interpreter.execute statement state).1)).Traces
        interpreter label post (interpreter.execute statement state).2 (trace ++ [label statement
          (.ok (interpreter.execute statement state).1)])

variable {post : α → σ → List ε → Prop} {state : σ} {trace : List ε} {program : Program Statement α}

theorem traces_ask_bind {γ : Type} {statement : Statement γ}
    {continuation : Except Fault γ → Program Statement α} :
    (ask statement >>= continuation).Traces interpreter label post state trace ↔
      (continuation (.error .storage)).Traces interpreter label post state
          (trace ++ [label statement (.error .storage)]) ∧
        (continuation (.ok (interpreter.execute statement state).1)).Traces
          interpreter label post (interpreter.execute statement state).2
          (trace ++ [label statement (.ok (interpreter.execute statement state).1)]) :=
  Iff.rfl

theorem Traces.bind {post : β → σ → List ε → Prop}
    {middle : α → σ → List ε → Prop} {continuation : α → Program Statement β}
    (first : program.Traces interpreter label middle state trace)
    (second : ∀ value reached sofar, middle value reached sofar →
      (continuation value).Traces interpreter label post reached sofar) :
    (program >>= continuation).Traces interpreter label post state trace := by
  induction program generalizing state trace with
  | done value => exact second value state trace first
  | issue statement next induction => exact ⟨induction _ first.1, induction _ first.2⟩

section

variable (traced : program.Traces interpreter label post state trace)

include traced

theorem Traces.mono {weaker : α → σ → List ε → Prop}
    (implied : ∀ value final whole, post value final whole → weaker value final whole) :
    program.Traces interpreter label weaker state trace := by
  induction program generalizing state trace with
  | done value => exact implied value state trace traced
  | issue statement next induction => exact ⟨induction _ traced.1, induction _ traced.2⟩

theorem Traces.run (faults : List Bool) :
    post (program.run interpreter faults state).1 (program.run interpreter faults state).2
      (trace ++ program.events interpreter label faults state) := by
  induction program generalizing state trace faults with
  | done value =>
    rw [events, List.append_nil]
    exact traced
  | issue statement next induction =>
    rw [run_issue, events]
    cases faulted : faults.headD false with
    | true =>
      have later := induction _ traced.1 faults.tail
      rw [List.append_assoc] at later
      exact later
    | false =>
      have later := induction _ traced.2 faults.tail
      rw [List.append_assoc] at later
      exact later

end

end Program

/-! ## Two runs -/

namespace Program

variable {Statement : Type → Type} {α β γ σ : Type} {interpreter : Interpreter Statement σ}

/-- Two programs return the same from two states, whichever of their
statements fault. -/
def Alike (interpreter : Interpreter Statement σ) (left : Program Statement α)
    (first : σ) (right : Program Statement α) (second : σ) : Prop :=
  ∀ faults, (left.run interpreter faults first).1 = (right.run interpreter faults second).1

theorem alike_pure (value : α) (first second : σ) :
    Alike interpreter (pure value) first (pure value) second :=
  fun _ => rfl

theorem alike_issue {asked other : Statement γ}
    {left right : Except Fault γ → Program Statement α} {first second : σ}
    (faulted : Alike interpreter (left (.error .storage)) first
      (right (.error .storage)) second) (answered : Alike interpreter
      (left (.ok (interpreter.execute asked first).1)) (interpreter.execute asked first).2
      (right (.ok (interpreter.execute other second).1)) (interpreter.execute other second).2) :
    Alike interpreter (issue asked left) first (issue other right) second := by
  intro faults
  rw [run_issue, run_issue]
  cases faults.headD false with
  | true => exact faulted faults.tail
  | false => exact answered faults.tail

end Program

end Effects
