import Vallet.Foundation.Program

/-!
# Protocols of programs

A labelling says what is worth remembering of a statement and its reply, and
how labels are recorded on a trail.  A program obeys a protocol when, however
its statements are answered, its trail permits every label and its value fits
the trail it ends with.  Nothing is said about the state the replies come
from, so the same fact serves a run alone and a run among other programs.
-/

namespace Effects

/-- What a reply shows of its statement, and how a trail notes it. -/
structure Labelling (Statement : Type → Type) (Label τ : Type) where
  label : {β : Type} → Statement β → Except Fault β → Label
  record : Label → τ → τ

namespace Program

variable {Statement : Type → Type} {Label τ α β γ σ : Type}
  {labelling : Labelling Statement Label τ} {permits : τ → Label → Prop}

def Obeys (labelling : Labelling Statement Label τ)
    (permits : τ → Label → Prop) (concludes : τ → α → Prop) :
    Program Statement α → τ → Prop
  | .done value, trail => concludes trail value
  | .issue statement next, trail =>
    ∀ reply, permits trail (labelling.label statement reply) ∧
      (next reply).Obeys labelling permits concludes
        (labelling.record (labelling.label statement reply) trail)

variable {concludes reaches : τ → α → Prop} {trail : τ} {program : Program Statement α}

theorem Obeys.mono (obeys : program.Obeys labelling permits reaches trail)
    (weaker : ∀ reached value, reaches reached value → concludes reached value) :
    program.Obeys labelling permits concludes trail := by
  induction program generalizing trail with
  | done value => exact weaker trail value obeys
  | issue statement next induction =>
    intro reply
    exact ⟨(obeys reply).1, induction reply (obeys reply).2⟩

/-- The trail and the value a first program ends with are where the second
one starts. -/
theorem Obeys.bind {concludes : τ → γ → Prop} {continuation : α → Program Statement γ}
    (first : program.Obeys labelling permits reaches trail)
    (second : ∀ reached value, reaches reached value →
      (continuation value).Obeys labelling permits concludes reached) :
    (program >>= continuation).Obeys labelling permits concludes trail := by
  induction program generalizing trail with
  | done value => exact second trail value first
  | issue statement next induction =>
    intro reply
    exact ⟨(first reply).1, induction reply (first reply).2⟩

/-! ### Success -/

section Success

variable {ε δ : Type} {body : Program Statement (Except ε α)}

/-- A program that obeys a protocol and ends as described when it succeeds. -/
def Achieves (labelling : Labelling Statement Label τ)
    (permits : τ → Label → Prop) (reaches : τ → α → Prop)
    (body : Program Statement (Except ε α)) (trail : τ) : Prop :=
  body.Obeys labelling permits (fun reached result =>
    ∀ value, result = .ok value → reaches reached value) trail

theorem achieves_error {failure : ε} :
    (done (.error failure) : Program Statement (Except ε α)).Achieves
      labelling permits reaches trail :=
  nofun

theorem achieves_ok {value : α} (holds : reaches trail value) :
    (done (.ok value) : Program Statement (Except ε α)).Achieves labelling
      permits reaches trail := by
  rintro _ ⟨⟩
  exact holds

/-- A program that gives up on a failure is followed along its successes. -/
theorem Achieves.bind {reaches' : τ → γ → Prop}
    {continuation : Except ε α → Program Statement (Except δ γ)}
    (first : body.Achieves labelling permits reaches trail)
    [fails : ∀ failure, Fails (continuation (.error failure))]
    (second : ∀ value reached, reaches reached value →
      (continuation (.ok value)).Achieves labelling permits reaches' reached) :
    (body >>= continuation).Achieves labelling permits reaches' trail := by
  refine Obeys.bind first fun reached result holds => ?_
  cases result with
  | error failure =>
    obtain ⟨reported, stops⟩ := (fails failure).reports
    rw [stops]
    exact achieves_error
  | ok value => exact second value reached (holds value rfl)

end Success

/-- A run alone keeps what permitted statements keep, and its value fits the
trail it leaves. -/
theorem Obeys.run {interpreter : Interpreter Statement σ} {invariant : σ → τ → Prop}
    (preserved : ∀ {β : Type} (statement : Statement β) (faulted : Bool)
      (state : σ) (trail : τ), invariant state trail →
      permits trail (labelling.label statement (reply interpreter faulted statement state).1) →
      invariant (reply interpreter faulted statement state).2
        (labelling.record (labelling.label statement
          (reply interpreter faulted statement state).1) trail))
    (obeys : program.Obeys labelling permits concludes trail)
    (faults : List Bool) {state : σ} (holds : invariant state trail) :
    ∃ final, concludes final (program.run interpreter faults state).1 ∧
      invariant (program.run interpreter faults state).2 final := by
  induction program generalizing trail faults state with
  | done value => exact ⟨trail, obeys, holds⟩
  | issue statement next induction =>
    obtain ⟨permitted, rest⟩ := obeys (reply interpreter (faults.headD false) statement state).1
    exact induction _ rest faults.tail
      (preserved statement (faults.headD false) state trail holds permitted)

end Program

end Effects
