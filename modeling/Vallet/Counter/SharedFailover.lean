import Vallet.Counter.Failover
import Vallet.Foundation.Interleaving

/-!
# Concurrent calls on the failover store

`degraded` is shared by all callers and is the only thing they share besides
the two stores: a call loads it, tries the primary, sets it when the primary
reports an outage, and then asks the fallback.  Any other call may run between
two of these.  A caller's own cancelled context is reported by the primary in
the same way as an outage, so it decides where everybody's counters live.
-/

namespace Vallet.Counter

open Effects RemoteStore Pool

inductive StoreOperation where
  | increment (key : GoString) (delta ttl : Int)
  | get (key : GoString)
  | delete (key : GoString)
deriving DecidableEq, Repr

/-- What an operation is answered with; a deletion reports no count. -/
abbrev StoreAnswer := Except Err (Option Count)

namespace StoreOperation

def perform {σ : Type} [CounterStore σ] (store : σ) (ctx : Ctx) (now : Int) :
    StoreOperation → StoreAnswer × σ
  | .increment key delta ttl =>
    let answer := CounterStore.increment store ctx now key delta ttl
    (answer.1.map some, answer.2)
  | .get key =>
    let answer := CounterStore.get store ctx now key
    (answer.1.map some, answer.2)
  | .delete key =>
    let answer := CounterStore.delete store ctx now key
    (answer.1.map fun _ => none, answer.2)

/-- What the checks on the arguments say. -/
def refusal : StoreOperation → Option Err
  | .increment key delta ttl => incrementRefusal .live key delta ttl
  | .get key => accessRefusal .live key
  | .delete key => accessRefusal .live key

end StoreOperation

/-- When the context of a call is cancelled: never, before the call, while the
primary's command is under way, or after the primary was asked.  The command
that was given up may have been applied. -/
inductive Cancellation where
  | never
  | before
  | during (applied : Bool)
  | afterwards
deriving DecidableEq, Repr

def Cancellation.atFallback : Cancellation → Ctx
  | .never => .live
  | _ => .canceled

/-- One operation on the network store. -/
def RemoteStore.attempt (store : RemoteStore) (cancellation : Cancellation)
    (now : Int) (operation : StoreOperation) : StoreAnswer × RemoteStore :=
  match cancellation with
  | .never => operation.perform store .live now
  | .afterwards => operation.perform store .live now
  | .before => operation.perform store .canceled now
  | .during applied =>
    match operation.refusal with
    | some failure => (.error failure, store)
    | none =>
      (.error (unavailable .contextDone),
        if applied then (operation.perform store .live now).2 else store)

/-- A call, its context, and the time at which each store is asked. -/
structure FailoverCall where
  operation : StoreOperation
  cancellation : Cancellation
  primaryNow : Int
  fallbackNow : Int
deriving DecidableEq, Repr

/-- The atomic actions of calls and of the reprobe loop. -/
inductive FailoverStatement : Type → Type where
  | loadDegraded : FailoverStatement Bool
  | onPrimary (call : FailoverCall) : FailoverStatement StoreAnswer
  | onFallback (call : FailoverCall) : FailoverStatement StoreAnswer
  | markDegraded : FailoverStatement Unit
  | reprobe : FailoverStatement Unit

variable {φ : Type} [CounterStore φ]

def FailoverStatement.execute {β : Type} :
    FailoverStatement β → FailoverStore RemoteStore φ → β × FailoverStore RemoteStore φ
  | .loadDegraded, store => (store.degraded, store)
  | .onPrimary call, store =>
    let tried := store.primary.attempt call.cancellation call.primaryNow call.operation
    (tried.1, { store with primary := tried.2 })
  | .onFallback call, store =>
    let served := call.operation.perform store.fallback
      call.cancellation.atFallback call.fallbackNow
    (served.1, { store with fallback := served.2 })
  | .markDegraded, store => ((), store.markDegraded)
  | .reprobe, store => ((), store.reprobe)

def failoverInterpreter : Interpreter FailoverStatement (FailoverStore RemoteStore φ) where
  execute := FailoverStatement.execute

/-- No action of the store faults: what can fail is part of the answers. -/
def unreachableFault : StoreAnswer := .error (.of .driver)

namespace FailoverCall

def fromFallback (call : FailoverCall) : Program FailoverStatement StoreAnswer := do
  match ← Program.ask (.onFallback call) with
  | .error _ => pure unreachableFault
  | .ok answer => pure answer

/-- What follows the primary's answer. -/
def afterPrimary (call : FailoverCall) : StoreAnswer → Program FailoverStatement StoreAnswer
  | .ok count => pure (.ok count)
  | .error failure =>
    if failure.is .storeUnavailable then do
      match ← Program.ask .markDegraded with
      | .error _ => pure unreachableFault
      | .ok () => call.fromFallback
    else pure (.error failure)

def program (call : FailoverCall) : Program FailoverStatement StoreAnswer := do
  match ← Program.ask .loadDegraded with
  | .error _ => pure unreachableFault
  | .ok true => call.fromFallback
  | .ok false =>
    match ← Program.ask (.onPrimary call) with
    | .error _ => pure unreachableFault
    | .ok answer => call.afterPrimary answer

end FailoverCall

variable {operation : StoreOperation} {failure : Err} {store : FailoverStore RemoteStore φ}

/-! ## Calls that interleave -/

/-- What runs on the store: a call, or one round of the reprobe loop. -/
inductive FailoverActivity where
  | serve (call : FailoverCall)
  | reprobe
deriving DecidableEq, Repr

/-- The atomic actions of an activity, in order. -/
def FailoverActivity.program : FailoverActivity → Program FailoverStatement StoreAnswer
  | .serve call => call.program
  | .reprobe => do
      let _ ← Program.ask .reprobe
      pure (.ok none)

/-- What one action did. -/
inductive FailoverAct where
  | loaded (degraded : Bool)
  | answered (call : FailoverCall) (answer : StoreAnswer)
  | marked
  | served (call : FailoverCall) (answer : StoreAnswer)
  | probed
  | faulted

def FailoverStatement.act {β : Type} : FailoverStatement β → Except Fault β → FailoverAct
  | .loadDegraded, .ok degraded => .loaded degraded
  | .onPrimary call, .ok answer => .answered call answer
  | .markDegraded, .ok () => .marked
  | .onFallback call, .ok answer => .served call answer
  | .reprobe, .ok () => .probed
  | _, .error _ => .faulted

/-- What a call has learnt so far. -/
structure FailoverTrail where
  loaded : Option Bool := none
  answered : Option StoreAnswer := none
  served : Option StoreAnswer := none
  faulted : Bool := false
deriving DecidableEq

namespace FailoverTrail

def record : FailoverAct → FailoverTrail → FailoverTrail
  | .loaded degraded, trail => { trail with loaded := some degraded }
  | .answered _ answer, trail => { trail with answered := some answer }
  | .served _ answer, trail => { trail with served := some answer }
  | .faulted, trail => { trail with faulted := true }
  | .marked, trail => trail
  | .probed, trail => trail

/-- The primary could not answer. -/
def Outage (trail : FailoverTrail) : Prop :=
  ∃ failure, trail.answered = some (.error failure) ∧ failure.is .storeUnavailable = true

end FailoverTrail

namespace FailoverActivity

/-- The primary is asked once, for what the call is about; the flag is set
after an outage, and the fallback is asked after an outage or when the flag
was found set. -/
def Permits (activity : FailoverActivity) (trail : FailoverTrail) : FailoverAct → Prop
  | .loaded _ => True
  | .answered call _ => activity = .serve call ∧ trail.answered = none
  | .marked => trail.Outage
  | .served _ _ => trail.loaded = some true ∨ trail.Outage
  | .probed => True
  | .faulted => True

/-- A call returns what it was answered, or what it was served. -/
def Concludes (activity : FailoverActivity) (trail : FailoverTrail) (value : StoreAnswer) : Prop :=
  activity = .reprobe ∨ trail.faulted = true ∨ trail.served = some value ∨
    trail.answered = some value

end FailoverActivity

def failoverLabelling : Labelling FailoverStatement FailoverAct FailoverTrail where
  label := FailoverStatement.act
  record := FailoverTrail.record

variable {trail : FailoverTrail}

variable (call : FailoverCall)

theorem FailoverCall.obeys_fromFallback (failed : trail.loaded = some true ∨ trail.Outage) :
    call.fromFallback.Obeys failoverLabelling (FailoverActivity.Permits (.serve call))
      (FailoverActivity.Concludes (.serve call)) trail := by
  intro reply
  cases reply with
  | error fault => exact ⟨trivial, .inr (.inl rfl)⟩
  | ok answer => exact ⟨failed, .inr (.inr (.inl rfl))⟩

theorem FailoverCall.obeys_afterPrimary
    {answer : StoreAnswer} (answered : trail.answered = some answer) :
    (call.afterPrimary answer).Obeys failoverLabelling (FailoverActivity.Permits (.serve call))
      (FailoverActivity.Concludes (.serve call)) trail := by
  cases answer with
  | ok count => exact .inr (.inr (.inr answered))
  | error failure =>
    simp only [afterPrimary]
    split
    · rename_i outage
      intro marked
      rcases marked with _ | _
      · exact ⟨trivial, .inr (.inl rfl)⟩
      · exact ⟨⟨failure, answered, outage⟩,
          call.obeys_fromFallback (.inr ⟨failure, answered, outage⟩)⟩
    · exact .inr (.inr (.inr answered))

theorem FailoverCall.obeys_program :
    call.program.Obeys failoverLabelling (FailoverActivity.Permits (.serve call))
      (FailoverActivity.Concludes (.serve call)) {} := by
  intro loaded
  refine ⟨by rcases loaded with _ | degraded <;> trivial, ?_⟩
  rcases loaded with _ | degraded
  · exact .inr (.inl rfl)
  cases degraded with
  | true => exact call.obeys_fromFallback (.inl rfl)
  | false =>
    intro answered
    rcases answered with _ | answer
    · exact ⟨trivial, .inr (.inl rfl)⟩
    · exact ⟨⟨rfl, rfl⟩, call.obeys_afterPrimary rfl⟩

theorem FailoverActivity.obeys_program (activity : FailoverActivity) :
    activity.program.Obeys failoverLabelling activity.Permits activity.Concludes {} := by
  cases activity with
  | serve call => exact call.obeys_program
  | reprobe =>
    intro reply
    exact ⟨by rcases reply with _ | _ <;> trivial, .inl rfl⟩

def failoverService : Service FailoverStatement FailoverActivity StoreAnswer
    FailoverAct FailoverTrail where
  program := FailoverActivity.program
  labelling := failoverLabelling
  blank := {}
  permits := FailoverActivity.Permits
  concludes := FailoverActivity.Concludes
  valid _ _ := True
  obeyed := FailoverActivity.obeys_program
  valid_blank _ := trivial
  valid_record _ _ := trivial

/-- The caller does not give up before the primary has answered; a call whose
arguments are refused may do as it likes. -/
def FailoverActivity.Patient : FailoverActivity → Prop
  | .reprobe => True
  | .serve call => call.operation.refusal ≠ none ∨
      call.cancellation = .never ∨ call.cancellation = .afterwards

/-! ## A primary that answers -/

variable {before after : Pool failoverService (FailoverStore RemoteStore φ)}

/-- There is room in 64 bits for what the call adds. -/
def FailoverCall.hasRoom (call : FailoverCall) (primary : RemoteStore) : Bool :=
  match call.operation with
  | .increment key delta _ => primary.redis.value call.primaryNow key + delta ≤ maxInt64
  | _ => true

/-- There is room for every call that has yet to be answered. -/
def HasRoom (pool : Pool failoverService (FailoverStore RemoteStore φ)) : Prop :=
  ∀ thread ∈ pool.threads, ∀ call, thread.call = .serve call →
    thread.trail.answered = none → call.hasRoom pool.state.primary = true

theorem RemoteStore.perform_health (store : RemoteStore) (ctx : Ctx)
    (now : Int) (operation : StoreOperation) :
    (operation.perform store ctx now).2.health = store.health := by
  cases operation with
  | increment key delta ttl =>
    change (store.increment ctx now key delta ttl).2.health = _
    unfold increment
    split <;> simp
  | get key =>
    change (store.get ctx now key).2.health = _
    rw [get_snd]
  | delete key =>
    change (store.delete ctx key).2.health = _
    unfold delete
    split <;> simp

theorem RemoteStore.attempt_health (store : RemoteStore)
    (cancellation : Cancellation) (now : Int) (operation : StoreOperation) :
    (store.attempt cancellation now operation).2.health = store.health := by
  unfold attempt
  split
  · exact store.perform_health _ _ _
  · exact store.perform_health _ _ _
  · exact store.perform_health _ _ _
  · split
    · rfl
    simp only
    split
    · exact store.perform_health _ _ _
    · rfl

theorem RemoteStore.perform_refused (store : RemoteStore) (ctx : Ctx)
    (now : Int) (refused : operation.refusal = some failure) :
    operation.perform store ctx now = (.error failure, store) := by
  cases operation with
  | increment key delta ttl =>
    have checked : incrementRefusal .live key delta ttl = some failure := refused
    simp [StoreOperation.perform, CounterStore.increment, increment, RemoteStore.refusal,
      checked, Except.map]
  | get key =>
    have checked : accessRefusal .live key = some failure := refused
    simp [StoreOperation.perform, CounterStore.get, get, RemoteStore.refusal, checked, Except.map]
  | delete key =>
    have checked : accessRefusal .live key = some failure := refused
    simp [StoreOperation.perform, CounterStore.delete, delete, RemoteStore.refusal, checked,
      Except.map]

theorem StoreOperation.refusal_is (refused : operation.refusal = some failure) :
    failure.is .storeUnavailable = false := by
  cases operation with
  | increment => exact incrementRefusal_live_is refused
  | get | delete => exact accessRefusal_live_is refused

/-- A live call with room on a server that answers reports no outage. -/
theorem RemoteStore.perform_answers {store : RemoteStore} (answers : store.health = .answers)
    {call : FailoverCall} (room : call.hasRoom store = true)
    (failed : (call.operation.perform store .live call.primaryNow).1 = .error failure) :
    failure.is .storeUnavailable = false := by
  have mapped : ∀ {α γ : Type} {change : α → γ} {outcome : Except Err α},
      outcome.map change = .error failure → outcome = .error failure := by
    rintro α γ change (_ | _) same
    · cases same
      rfl
    · cases same
  unfold FailoverCall.hasRoom at room
  cases operation : call.operation with
  | increment key delta ttl =>
    rw [operation] at room failed
    exact increment_answers answers (of_decide_eq_true room) (mapped failed)
  | get key =>
    rw [operation] at failed
    exact get_answers answers (mapped failed)
  | delete key =>
    rw [operation] at failed
    exact delete_answers answers (mapped failed)

theorem RemoteStore.attempt_patient {store : RemoteStore}
    (answers : store.health = .answers) {call : FailoverCall}
    (patient : (FailoverActivity.serve call).Patient) (room : call.hasRoom store = true)
    (failed : (store.attempt call.cancellation call.primaryNow call.operation).1 = .error failure) :
    failure.is .storeUnavailable = false := by
  cases refused : call.operation.refusal with
  | some reason =>
    have same : (store.attempt call.cancellation call.primaryNow
        call.operation).1 = .error reason := by
      unfold attempt
      split
      · rw [store.perform_refused _ _ refused]
      · rw [store.perform_refused _ _ refused]
      · rw [store.perform_refused _ _ refused]
      · rw [refused]
    rw [same] at failed
    cases failed
    exact StoreOperation.refusal_is refused
  | none =>
    rcases patient with invalid | never | afterwards
    · exact (invalid refused).elim
    · rw [never] at failed
      exact perform_answers answers room failed
    · rw [afterwards] at failed
      exact perform_answers answers room failed

/-! ## Runs without impatient callers -/

/-- The call has met no outage and has not been to the fallback. -/
structure FailoverTrail.Untroubled (trail : FailoverTrail) : Prop where
  loaded : trail.loaded ≠ some true
  outage : ¬ trail.Outage
  served : trail.served = none
  faulted : trail.faulted = false

/-- The primary is in charge, and every call has found it so. -/
structure OnPrimary (fallback : φ)
    (pool : Pool failoverService (FailoverStore RemoteStore φ)) : Prop where
  degraded : pool.state.degraded = false
  answers : pool.state.primary.health = .answers
  fallback : pool.state.fallback = fallback
  calls : ∀ {index thread}, pool.At index thread → thread.call.Patient ∧ thread.trail.Untroubled

theorem FailoverTrail.untroubled_blank : Untroubled {} where
  loaded := by simp
  outage := by
    rintro ⟨failure, impossible, _⟩
    cases impossible
  served := rfl
  faulted := rfl

omit [CounterStore φ] in
theorem FailoverStore.reprobe_healthy (healthy : store.degraded = false) :
    store.reprobe.degraded = false ∧ store.reprobe.fallback = store.fallback := by
  unfold reprobe
  split
  · split <;> exact ⟨healthy, rfl⟩
  · simp [healthy]

/-- What an action does to a store whose primary is in charge, and to the
trail of a patient call that there is room for. -/
theorem FailoverStatement.keeps_primary {β : Type}
    (statement : FailoverStatement β) (healthy : store.degraded = false)
    (answers : store.primary.health = .answers) {activity : FailoverActivity}
    (patient : activity.Patient) (room : ∀ call, activity = .serve call →
      trail.answered = none → call.hasRoom store.primary = true)
    (untroubled : trail.Untroubled) (permitted : activity.Permits trail
      (statement.act (.ok (statement.execute store).1))) :
    (statement.execute store).2.degraded = false ∧
      (statement.execute store).2.primary.health = .answers ∧
      (statement.execute store).2.fallback = store.fallback ∧
      (trail.record (statement.act (.ok (statement.execute store).1))).Untroubled := by
  cases statement with
  | loadDegraded =>
    refine ⟨healthy, answers, rfl, ?_, untroubled.outage, untroubled.served, untroubled.faulted⟩
    simp [act, execute, FailoverTrail.record, healthy]
  | onPrimary call =>
    obtain ⟨rfl, unanswered⟩ : activity = .serve call ∧ trail.answered = none := permitted
    refine ⟨healthy, ?_, rfl, untroubled.loaded, ?_, untroubled.served, untroubled.faulted⟩
    · exact (store.primary.attempt_health _ _ _).trans answers
    rintro ⟨failure, answered, outage⟩
    have failed := store.primary.attempt_patient answers patient
      (room call rfl unanswered) (Option.some.inj answered)
    rw [outage] at failed
    cases failed
  | onFallback call =>
    rcases permitted with loaded | outage
    · exact (untroubled.loaded loaded).elim
    · exact (untroubled.outage outage).elim
  | markDegraded => exact (untroubled.outage permitted).elim
  | reprobe =>
    obtain ⟨still, same⟩ := FailoverStore.reprobe_healthy healthy
    refine ⟨still, ?_, same, untroubled⟩
    exact (congrArg health store.reprobe_primary).trans answers

theorem OnPrimary.after_step {fallback : φ} (step : Step failoverInterpreter
      (fun _ activity => activity.Patient) before after) (room : HasRoom before)
    (holds : OnPrimary fallback before) : OnPrimary fallback after := by
  rcases step.cases with ⟨activity, patient, state, threads⟩ |
    ⟨β, statement, index, thread, later, state, acted⟩
  · refine ⟨state ▸ holds.degraded, state ▸ holds.answers, state ▸ holds.fallback, fun found => ?_⟩
    rcases (threads _ _).mp found with old | ⟨_, rfl⟩
    · exact holds.calls old
    · exact ⟨patient, FailoverTrail.untroubled_blank⟩
  · obtain ⟨patient, untroubled⟩ := holds.calls acted.running
    obtain ⟨healthy, answers, same, remains⟩ :=
      statement.keeps_primary holds.degraded holds.answers patient
        (room thread (List.mem_of_getElem? acted.running)) untroubled acted.permitted
    refine ⟨state ▸ healthy, state ▸ answers, state ▸ same.trans holds.fallback, fun found => ?_⟩
    rcases (acted.threads _ _).mp found with ⟨_, rfl⟩ | ⟨_, old⟩
    · rw [acted.call, acted.trail]
      exact ⟨patient, remains⟩
    · exact holds.calls old

theorem OnPrimary.after_runs {fallback : φ} (runs : RunsWhile HasRoom failoverInterpreter
      (fun _ activity => activity.Patient) before after)
    (holds : OnPrimary fallback before) : OnPrimary fallback after := by
  induction runs with
  | refl => exact holds
  | tail _ step induction => exact induction.after_step step.2 step.1

/-- While no caller gives up before the primary has answered and no count comes
to the end of 64 bits, a primary that answers stays in charge: the store is
never degraded, the fallback is never touched, and every call returns what the
primary answered it. -/
theorem primary_answers_patient_calls {store : FailoverStore RemoteStore φ}
    (healthy : store.degraded = false) (answers : store.primary.health = .answers)
    {pool : Pool failoverService (FailoverStore RemoteStore φ)}
    (runs : RunsWhile HasRoom failoverInterpreter
      (fun _ activity => activity.Patient) (idle failoverService store) pool) :
    pool.state.degraded = false ∧ pool.state.fallback = store.fallback ∧
    ∀ index thread call value, pool.At index thread →
      thread.call = .serve call → thread.rest = .done value →
      thread.trail.answered = some value := by
  have start : OnPrimary store.fallback (idle failoverService store) :=
    ⟨healthy, answers, rfl, fun found => by cases found⟩
  have holds := start.after_runs runs
  refine ⟨holds.degraded, holds.fallback,
    fun index thread call value found serves returned => ?_⟩
  obtain ⟨_, untroubled⟩ := holds.calls found
  rcases thread.concluded returned with probing | faulted | served | answered
  · rw [serves] at probing
    cases probing
  · rw [untroubled.faulted] at faulted
    cases faulted
  · rw [untroubled.served] at served
    cases served
  · exact answered

/-! ## One impatient caller -/

namespace Sample

/-- One more request in a window of a minute. -/
def limit : StoreOperation := .increment (utf8 "203.0.113.7") 1 Duration.minute

/-- A primary that answers, with no counters, and an empty memory store. -/
def failover : FailoverStore RemoteStore MemoryStore :=
  .new { redis := fun _ => none, health := .answers } MemoryStore.new

/-- One request of a client. -/
def limitCall (cancellation : Cancellation) : FailoverActivity :=
  .serve
    { operation := limit
      cancellation := cancellation
      primaryNow := 0
      fallbackNow := 0 }

/-- Two patient requests with one in between whose client has gone. -/
def abandoned : Pool failoverService (FailoverStore RemoteStore MemoryStore) :=
  [0, 0, 1, 1, 1, 1, 2, 2].foldl (advance failoverInterpreter)
    ((((idle failoverService failover).begin (limitCall .never)).begin
      (limitCall .before)).begin (limitCall .never))

/-- Two patient requests. -/
def started : Pool failoverService (FailoverStore RemoteStore MemoryStore) :=
  ((idle failoverService failover).begin (limitCall .never)).begin (limitCall .never)

/-- They interleave. -/
def undisturbed : Pool failoverService (FailoverStore RemoteStore MemoryStore) :=
  [0, 1, 1, 0].foldl (advance failoverInterpreter) started

theorem abandoned_runs : Runs failoverInterpreter (fun _ _ => True)
      (idle failoverService failover) abandoned :=
  (((begin_runs _ _ trivial).trans (begin_runs _ _ trivial)).trans
    (begin_runs _ _ trivial)).trans (schedule_runs _ _)

theorem limitCall_hasRoom {pool : Pool failoverService (FailoverStore RemoteStore MemoryStore)}
    (limits : ∀ thread ∈ pool.threads, thread.call = limitCall .never)
    (room : pool.state.primary.redis.value 0 (utf8 "203.0.113.7") + 1 ≤ maxInt64) :
    HasRoom pool := by
  intro thread member call serves _
  rw [limits thread member] at serves
  cases serves
  exact decide_eq_true room

theorem undisturbed_runs : RunsWhile HasRoom failoverInterpreter
      (fun _ activity => activity.Patient) (idle failoverService failover) undisturbed := by
  refine .trans (.tail (.single ⟨limitCall_hasRoom (by decide) (by decide +kernel),
      .start (limitCall .never) (.inr (.inl rfl))⟩)
    ⟨limitCall_hasRoom (by decide +kernel) (by decide +kernel),
      .start (limitCall .never) (.inr (.inl rfl))⟩) (schedule_runsWhile started _ ?_)
  intro taken member
  refine limitCall_hasRoom ?_ ?_
  all_goals revert taken
  all_goals decide +kernel

end Sample

open Sample

/-- A request whose client has already gone moves everybody to the fallback
although the primary answers: the next patient request is counted as the
first one of its window. -/
theorem cancelled_call_degrades_store : failover.primary.health = .answers ∧
    Runs failoverInterpreter (fun _ _ => True) (idle failoverService failover) abandoned ∧
    abandoned.state.degraded = true ∧
    abandoned.state.primary.health = .answers ∧
    abandoned.returned? 0 = some (.ok (some ⟨1, Duration.minute⟩)) ∧
    abandoned.returned? 2 = some (.ok (some ⟨1, Duration.minute⟩)) ∧
    (abandoned.threads[2]?.map fun thread =>
      (thread.call, thread.trail.answered)) = some (limitCall .never, none) :=
  ⟨rfl, abandoned_runs, by decide +kernel, by decide +kernel,
    by decide +kernel, by decide +kernel, by decide +kernel⟩

/-- Two patient requests are both counted by the primary. -/
theorem primary_answers_patient_calls_sample :
    undisturbed.returned? 0 = some (.ok (some ⟨2, Duration.minute⟩)) ∧
    undisturbed.state.degraded = false ∧
    undisturbed.state.fallback = failover.fallback ∧
    ∀ index thread call value, undisturbed.At index thread →
      thread.call = .serve call → thread.rest = .done value →
      thread.trail.answered = some value :=
  ⟨by decide +kernel, primary_answers_patient_calls rfl rfl undisturbed_runs⟩

/-! ## The signal to the reprobe loop -/

/-- Where a `markDegraded` call stands. -/
inductive MarkPhase where
  | entering
  | sending
  | returned
deriving DecidableEq, Repr

/-- Where the loop stands: at the outer `select`, before a load of `degraded`,
at a probe, or before the store that switches back. -/
inductive LoopPhase where
  | waiting
  | checking
  | probing
  | storing
deriving DecidableEq, Repr

/-- The flag, the channel of capacity one, and those who use them. -/
structure Signalling where
  degraded : Bool := false
  degradedCh : Bool := false
  loop : LoopPhase := .waiting
  calls : List MarkPhase := []
deriving DecidableEq, Repr

namespace Signalling

/-- One atomic action of a call or of the loop. -/
inductive Step : Signalling → Signalling → Prop where
  | call (state) : Step state { state with calls := .entering :: state.calls }
  | compareAndSwap {state left right} (enters : state.calls = left ++ .entering :: right) :
    Step state (if state.degraded then { state with calls := left ++ .returned :: right }
      else { state with degraded := true, calls := left ++ .sending :: right })
  | send {state left right} (sends : state.calls = left ++ .sending :: right) :
    Step state { state with degradedCh := true, calls := left ++ .returned :: right }
  | receive {state} (waits : state.loop = .waiting) (signal : state.degradedCh = true) :
    Step state { state with degradedCh := false, loop := .checking }
  | load {state} (checks : state.loop = .checking) :
    Step state { state with loop := if state.degraded then .probing else .waiting }
  | probe {state} (probes : state.loop = .probing) (healthy : Bool) :
    Step state { state with loop := if healthy then .storing else .checking }
  | store {state} (stores : state.loop = .storing) :
    Step state { state with degraded := false, loop := .waiting }

/-- Sends to come, signals in the channel and rounds of the loop under way. -/
def wakeups (state : Signalling) : Nat :=
  state.calls.count .sending + state.degradedCh.toNat + (decide (state.loop ≠ .waiting)).toNat

theorem wakeups_after_step {before after : Signalling} (step : Step before after)
    (even : before.wakeups = before.degraded.toNat) : after.wakeups = after.degraded.toNat := by
  have bound := Bool.toNat_le before.degraded
  unfold wakeups at even ⊢
  cases step with
  | call => simpa using even
  | compareAndSwap enters =>
    rw [enters] at even
    cases degraded : before.degraded with
    | false =>
      simp [degraded] at even ⊢
      simp [even]
    | true => simpa [degraded] using even
  | send sends =>
    rw [sends] at even
    simp at even ⊢
    omega
  | receive waits signal =>
    simp [waits, signal] at even ⊢
    omega
  | load checks =>
    cases degraded : before.degraded with
    | false => simp [checks, degraded] at even
    | true => simpa [checks, degraded] using even
  | probe probes healthy =>
    cases healthy <;> simpa [probes] using even
  | store stores =>
    simp [stores] at even
    show before.calls.count .sending + before.degradedCh.toNat + 0 = 0
    omega

/-- A degraded store is being probed, or a signal to probe it is in the channel
or about to be sent; no signal is left over from an outage that has ended. -/
theorem no_lost_wakeup {state : Signalling} (runs : Relation.ReflTransGen Step {} state) :
    (state.degraded = true → state.loop ≠ .waiting ∨ state.degradedCh = true ∨
      .sending ∈ state.calls) ∧
    (state.degradedCh = true → state.degraded = true ∨ .sending ∈ state.calls) := by
  have even : state.wakeups = state.degraded.toNat := by
    induction runs with
    | refl => rfl
    | tail _ step induction => exact wakeups_after_step step induction
  unfold wakeups at even
  constructor
  · intro degraded
    by_contra lost
    simp only [not_or, not_not] at lost
    simp [degraded, lost, List.count_eq_zero.mpr lost.2.2] at even
  · intro signal
    cases degraded : state.degraded with
    | false => simp [signal, degraded] at even
    | true => exact .inl rfl

/-- A call that has swapped and not yet sent. -/
theorem no_lost_wakeup_before_send :
    let state : Signalling := { degraded := true, calls := [.sending] }
    Relation.ReflTransGen Step {} state ∧
      (state.loop ≠ .waiting ∨ state.degradedCh = true ∨ .sending ∈ state.calls) := by
  have runs : Relation.ReflTransGen Step {} { degraded := true, calls := [.sending] } :=
    .tail (.single (.call {})) (@Step.compareAndSwap { calls := [.entering] } [] [] rfl)
  exact ⟨runs, (no_lost_wakeup runs).1 rfl⟩

end Signalling

end Vallet.Counter
