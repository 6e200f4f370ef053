import Vallet.Foundation.Protocol
import Mathlib.Logic.Relation
import Mathlib.Data.List.Infix

/-!
# Interleaved programs

A pool holds one shared state and any number of started calls.  A step starts
a call or lets one call execute its next statement, so a run is any
interleaving of the statements of any number of calls.  A thread carries the
proof that what is left of it obeys the protocol of its call.
-/

namespace Effects

/-- Calls, their programs, the protocol each program obeys and what the
protocol makes true of every trail. -/
structure Service (Statement : Type → Type) (Call α Label τ : Type) where
  program : Call → Program Statement α
  labelling : Labelling Statement Label τ
  blank : τ
  permits : Call → τ → Label → Prop
  concludes : Call → τ → α → Prop
  valid : Call → τ → Prop
  obeyed : ∀ call, (program call).Obeys labelling (permits call) (concludes call) blank
  valid_blank : ∀ call, valid call blank
  valid_record : ∀ {call trail label}, permits call trail label →
    valid call trail → valid call (labelling.record label trail)

variable {Statement : Type → Type} {Call α Label τ σ : Type}

/-- A call under way, with what its trail still allows it. -/
structure Thread (service : Service Statement Call α Label τ) where
  call : Call
  trail : τ
  rest : Program Statement α
  obeys : rest.Obeys service.labelling (service.permits call) (service.concludes call) trail
  valid : service.valid call trail

namespace Thread

variable {service : Service Statement Call α Label τ} {β : Type}
  {statement : Statement β} {next : Except Fault β → Program Statement α}

def start (service : Service Statement Call α Label τ) (call : Call) : Thread service where
  call := call
  trail := service.blank
  rest := service.program call
  obeys := service.obeyed call
  valid := service.valid_blank call

theorem permitted (thread : Thread service)
    (waiting : thread.rest = .issue statement next) (reply : Except Fault β) :
    service.permits thread.call thread.trail (service.labelling.label statement reply) := by
  have obeys := thread.obeys
  rw [waiting] at obeys
  exact (obeys reply).1

/-- The thread after the reply to the statement it was waiting for. -/
def answered (thread : Thread service)
    (waiting : thread.rest = .issue statement next) (reply : Except Fault β) :
    Thread service where
  call := thread.call
  trail := service.labelling.record (service.labelling.label statement reply) thread.trail
  rest := next reply
  obeys := by
    have obeys := thread.obeys
    rw [waiting] at obeys
    exact (obeys reply).2
  valid := service.valid_record (thread.permitted waiting reply) thread.valid

/-- A thread that has returned satisfies the conclusion of its call. -/
theorem concluded (thread : Thread service) {value : α} (returned : thread.rest = .done value) :
    service.concludes thread.call thread.trail value := by
  have obeys := thread.obeys
  rw [returned] at obeys
  exact obeys

end Thread

/-- A shared state and the calls that were started on it. -/
structure Pool (service : Service Statement Call α Label τ) (σ : Type) where
  state : σ
  threads : List (Thread service)

namespace Pool

variable {service : Service Statement Call α Label τ}
  {interpreter : Interpreter Statement σ} {admits : List Call → Call → Prop}

def calls (pool : Pool service σ) : List Call := pool.threads.map Thread.call

/-- Start a call, or execute the next statement of a started one. -/
inductive Step (interpreter : Interpreter Statement σ) (admits : List Call → Call → Prop) :
    Pool service σ → Pool service σ → Prop where
  | start {pool : Pool service σ} (call : Call) (admitted : admits pool.calls call) :
      Step interpreter admits pool
        { pool with threads := pool.threads ++ [Thread.start service call] }
  | execute {pool : Pool service σ} {index : Nat} {thread : Thread service}
      {β : Type} {statement : Statement β}
      {next : Except Fault β → Program Statement α}
      (running : pool.threads[index]? = some thread)
      (waiting : thread.rest = .issue statement next) :
      Step interpreter admits pool
        { state := (interpreter.execute statement pool.state).2
          threads := pool.threads.set index (thread.answered waiting
            (.ok (interpreter.execute statement pool.state).1)) }

def Runs (interpreter : Interpreter Statement σ) (admits : List Call → Call → Prop) :
    Pool service σ → Pool service σ → Prop :=
  Relation.ReflTransGen (Step interpreter admits)

/-- A run whose steps all start from pools of one kind. -/
def RunsWhile (holds : Pool service σ → Prop) (interpreter : Interpreter Statement σ)
    (admits : List Call → Call → Prop) : Pool service σ → Pool service σ → Prop :=
  Relation.ReflTransGen fun before after => holds before ∧ Step interpreter admits before after

/-- The thread started as number `index`. -/
def At (pool : Pool service σ) (index : Nat) (thread : Thread service) : Prop :=
  pool.threads[index]? = some thread

/-- A thread of a pool has performed a permitted act; all others stand
still. -/
structure Acted (before after : Pool service σ) (index : Nat)
    (thread later : Thread service) (label : Label) : Prop where
  running : before.At index thread
  permitted : service.permits thread.call thread.trail label
  call : later.call = thread.call
  trail : later.trail = service.labelling.record label thread.trail
  threads : ∀ other found, after.At other found ↔
    (other = index ∧ found = later) ∨ (other ≠ index ∧ before.At other found)

variable {pool : Pool service σ} {index : Nat} {thread : Thread service}

theorem at_start {call : Call} :
    ({ pool with threads := pool.threads ++ [Thread.start service call] } :
        Pool service σ).At index thread ↔
      pool.At index thread ∨
        (index = pool.threads.length ∧ thread = Thread.start service call) := by
  unfold At
  simp only
  rcases Nat.lt_trichotomy index pool.threads.length with old | last | beyond
  · rw [List.getElem?_append_left old]
    constructor
    · exact .inl
    · rintro (found | ⟨same, _⟩)
      · exact found
      · omega
  · subst last
    simp [eq_comm]
  · rw [List.getElem?_eq_none (by simp; omega), List.getElem?_eq_none (by omega)]
    constructor
    · intro impossible
      cases impossible
    · rintro (impossible | ⟨same, _⟩)
      · cases impossible
      · omega

variable {before after : Pool service σ}

theorem Step.cases (step : Step interpreter admits before after) :
    (∃ call, admits before.calls call ∧ after.state = before.state ∧
      ∀ index thread, after.At index thread ↔ before.At index thread ∨
        (index = before.threads.length ∧ thread = Thread.start service call)) ∨
    ∃ (β : Type) (statement : Statement β) (index : Nat) (thread later : Thread service),
      after.state = (interpreter.execute statement before.state).2 ∧
      Acted before after index thread later (service.labelling.label statement
        (.ok (interpreter.execute statement before.state).1)) := by
  cases step with
  | start call admitted => exact .inl ⟨call, admitted, rfl, fun _ _ => at_start⟩
  | @execute index thread β statement next running waiting =>
    refine .inr ⟨β, statement, index, thread,
      thread.answered waiting _, rfl, running, thread.permitted waiting _,
      rfl, rfl, fun other found => ?_⟩
    obtain ⟨inRange, _⟩ := List.getElem?_eq_some_iff.mp running
    unfold At
    by_cases same : other = index
    · subst other
      simp [inRange, eq_comm]
    · simp [same, List.getElem?_set_ne (Ne.symm same)]

theorem mem_calls (running : pool.At index thread) : thread.call ∈ pool.calls :=
  List.mem_map_of_mem (List.mem_of_getElem? running)

theorem At.unique {other : Thread service} (first : pool.At index thread)
    (second : pool.At index other) : thread = other :=
  Option.some.inj (first.symm.trans second)

theorem At.lt (running : pool.At index thread) : index < pool.threads.length :=
  (List.getElem?_eq_some_iff.mp running).1

/-- Every thread is still there after an act, the acting one with its new
trail. -/
theorem Acted.persists {later : Thread service}
    {label : Label} (acted : Acted before after index thread later label)
    {other : Nat} {found : Thread service} (was : before.At other found) :
    ∃ kept, after.At other kept ∧ kept.call = found.call ∧
      (kept.trail = found.trail ∨
        (service.permits found.call found.trail label ∧
          kept.trail = service.labelling.record label found.trail)) := by
  by_cases same : other = index
  · subst other
    have unique := was.unique acted.running
    subst unique
    exact ⟨later, (acted.threads _ _).mpr (.inl ⟨rfl, rfl⟩), acted.call,
      .inr ⟨acted.permitted, acted.trail⟩⟩
  · exact ⟨found, (acted.threads _ _).mpr (.inr ⟨same, was⟩), rfl, .inl rfl⟩

/-- No call has been started. -/
def idle (service : Service Statement Call α Label τ) (state : σ) : Pool service σ where
  state := state
  threads := []

def begin (pool : Pool service σ) (call : Call) : Pool service σ :=
  { pool with threads := pool.threads ++ [Thread.start service call] }

/-- Let one thread execute its next statement, if it has one. -/
def advance (interpreter : Interpreter Statement σ) (pool : Pool service σ)
    (index : Nat) : Pool service σ :=
  match pool.threads[index]? with
  | none => pool
  | some thread =>
    match waiting : thread.rest with
    | .done _ => pool
    | .issue statement _ =>
      { state := (interpreter.execute statement pool.state).2
        threads := pool.threads.set index (thread.answered waiting
          (.ok (interpreter.execute statement pool.state).1)) }

/-- The value a thread has returned. -/
def returned? (pool : Pool service σ) (index : Nat) : Option α :=
  pool.threads[index]?.bind fun thread =>
    match thread.rest with
    | .done value => some value
    | .issue _ _ => none

variable (pool : Pool service σ)

theorem begin_runs (call : Call) (admitted : admits pool.calls call) :
    Runs interpreter admits pool (pool.begin call) :=
  .single (.start call admitted)

theorem advance_cases (index : Nat) : pool.advance interpreter index = pool ∨
    Step interpreter admits pool (pool.advance interpreter index) := by
  unfold advance
  split
  · exact .inl rfl
  rename_i thread running
  split
  · exact .inl rfl
  · rename_i waiting
    exact .inr (.execute running waiting)

theorem advance_runs (index : Nat) :
    Runs interpreter admits pool (pool.advance interpreter index) := by
  rcases pool.advance_cases index with same | step
  · rw [same]
    exact .refl
  · exact .single step

/-- Any list of thread numbers is a schedule. -/
theorem schedule_runs (schedule : List Nat) :
    Runs interpreter admits pool (schedule.foldl (Pool.advance interpreter) pool) := by
  induction schedule generalizing pool with
  | nil => exact .refl
  | cons index rest induction => exact (advance_runs pool index).trans (induction _)

/-- A schedule that starts each step from a pool of one kind. -/
theorem schedule_runsWhile {holds : Pool service σ → Prop} (schedule : List Nat)
    (throughout : ∀ taken ∈ schedule.inits, holds (taken.foldl (Pool.advance interpreter) pool)) :
    RunsWhile holds interpreter admits pool (schedule.foldl (Pool.advance interpreter) pool) := by
  induction schedule generalizing pool with
  | nil => exact .refl
  | cons index rest induction =>
    have later : RunsWhile holds interpreter admits (pool.advance interpreter index) _ :=
      induction _ fun taken member => throughout (index :: taken) (by simpa using member)
    rcases pool.advance_cases index with same | step
    · rw [same] at later
      rwa [List.foldl_cons, same]
    · exact .head ⟨throughout [] (by simp), step⟩ later

end Pool

end Effects
