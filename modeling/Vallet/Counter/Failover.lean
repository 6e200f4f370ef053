import Vallet.Counter.Redis

/-!
# The failover store

`FailoverStore` prefers a primary over the network and serves from a fallback
once the primary could not answer, until the reprobe loop finds it healthy
again.
-/

namespace Vallet.Counter

/-- A store that can report whether its backend is reachable. -/
class Primary (π : Type) extends CounterStore π where
  ping : π → Except Err Unit

instance : Primary RemoteStore where
  ping := RemoteStore.ping

/-- Where the reprobe loop stands: blocked on the channel, or in the inner
loop that probes while the store is degraded. -/
inductive ReprobeLoop where
  | waiting
  | probing
deriving DecidableEq, Repr

/-- `degradedCh` is the one slot of the channel. -/
structure FailoverStore (π φ : Type) where
  primary : π
  fallback : φ
  degraded : Bool
  degradedCh : Bool
  loop : ReprobeLoop

namespace FailoverStore

variable {π φ α : Type}

def new (primary : π) (fallback : φ) : FailoverStore π φ where
  primary := primary
  fallback := fallback
  degraded := false
  degradedCh := false
  loop := .waiting

def markDegraded (store : FailoverStore π φ) : FailoverStore π φ :=
  if store.degraded then store
  else { store with degraded := true, degradedCh := true }

/-- What `Increment`, `Get` and `Delete` share: an outage of the primary is
answered from the fallback, any other answer is returned. -/
def route (store : FailoverStore π φ)
    (onPrimary : π → Except Err α × π) (onFallback : φ → Except Err α × φ) :
    Except Err α × FailoverStore π φ :=
  let serveFallback := fun store : FailoverStore π φ =>
    let served := onFallback store.fallback
    (served.1, { store with fallback := served.2 })
  if store.degraded then serveFallback store
  else
    let tried := onPrimary store.primary
    let after := { store with primary := tried.2 }
    match tried.1 with
    | .ok value => (.ok value, after)
    | .error failure =>
      if failure.is .storeUnavailable then serveFallback after.markDegraded
      else (.error failure, after)

section Store

variable [CounterStore π] [CounterStore φ]

def increment (store : FailoverStore π φ) (ctx : Ctx) (now : Int)
    (key : GoString) (delta ttl : Int) : Except Err Count × FailoverStore π φ :=
  store.route (CounterStore.increment · ctx now key delta ttl)
    (CounterStore.increment · ctx now key delta ttl)

def get (store : FailoverStore π φ) (ctx : Ctx) (now : Int)
    (key : GoString) : Except Err Count × FailoverStore π φ :=
  store.route (CounterStore.get · ctx now key) (CounterStore.get · ctx now key)

def delete (store : FailoverStore π φ) (ctx : Ctx) (now : Int)
    (key : GoString) : Except Err Unit × FailoverStore π φ :=
  store.route (CounterStore.delete · ctx now key) (CounterStore.delete · ctx now key)

instance : CounterStore (FailoverStore π φ) where
  increment := increment
  get := get
  delete := delete

end Store

/-- One step of the reprobe loop. -/
def reprobe [Primary π] (store : FailoverStore π φ) : FailoverStore π φ :=
  match store.loop with
  | .waiting =>
    if store.degradedCh then
      { store with degradedCh := false, loop := .probing }
    else store
  | .probing =>
    if !store.degraded then { store with loop := .waiting }
    else
      match Primary.ping store.primary with
      | .ok () => { store with degraded := false, loop := .waiting }
      | .error _ => store

@[simp] theorem reprobe_primary [Primary π] (store : FailoverStore π φ) :
    store.reprobe.primary = store.primary := by
  unfold reprobe
  split
  · split <;> rfl
  · split
    · rfl
    · split <;> rfl

/-- A call is answered by the primary, or by the fallback after the primary
was passed over or had failed. -/
theorem route_cases (store : FailoverStore π φ)
    (onPrimary : π → Except Err α × π) (onFallback : φ → Except Err α × φ) :
    (store.degraded = false ∧
      (∀ failure, (onPrimary store.primary).1 = .error failure →
        failure.is .storeUnavailable = false) ∧
      store.route onPrimary onFallback =
        ((onPrimary store.primary).1, { store with primary := (onPrimary store.primary).2 })) ∨
    ((store.degraded = true ∨
        ∃ failure, (onPrimary store.primary).1 = .error failure ∧
          failure.is .storeUnavailable = true) ∧
      (store.route onPrimary onFallback).1 = (onFallback store.fallback).1 ∧
      (store.route onPrimary onFallback).2.fallback = (onFallback store.fallback).2 ∧
      ((store.route onPrimary onFallback).2.primary = store.primary ∨
        (store.route onPrimary onFallback).2.primary = (onPrimary store.primary).2)) := by
  unfold route
  cases degraded : store.degraded with
  | true => exact .inr ⟨.inl rfl, rfl, rfl, .inl rfl⟩
  | false =>
    simp only [Bool.false_eq_true, if_false]
    cases tried : (onPrimary store.primary).1 with
    | ok value =>
      refine .inl ⟨trivial, ?_, rfl⟩
      intro failure failed
      cases failed
    | error failure =>
      by_cases outage : failure.is .storeUnavailable = true
      · simp only [outage, if_true]
        refine .inr ⟨.inr ⟨failure, rfl, outage⟩, ?_⟩
        unfold markDegraded
        split <;> exact ⟨rfl, rfl, .inr rfl⟩
      · simp only [outage]
        refine .inl ⟨trivial, ?_, rfl⟩
        intro other same
        cases same
        exact Bool.eq_false_iff.mpr outage

/-- A primary that is asked and reports no outage decides. -/
theorem route_served {store : FailoverStore π φ} {onPrimary : π → Except Err α × π}
    (fresh : store.degraded = false)
    (serves : ∀ failure, (onPrimary store.primary).1 = .error failure →
      failure.is .storeUnavailable = false) (onFallback : φ → Except Err α × φ) :
    store.route onPrimary onFallback = ((onPrimary store.primary).1,
      { store with primary := (onPrimary store.primary).2 }) := by
  rcases store.route_cases onPrimary onFallback with
    ⟨_, _, served⟩ | ⟨degraded | ⟨failure, failed, outage⟩, _⟩
  · exact served
  · rw [fresh] at degraded
    cases degraded
  · rw [serves failure failed] at outage
    cases outage

end FailoverStore

end Vallet.Counter
