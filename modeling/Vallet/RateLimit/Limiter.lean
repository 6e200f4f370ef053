import Vallet.Auth.Denylist

/-!
# The flat limiter

A tier counts requests of a key in fixed windows and refuses those over the
limit.  Keys carry the tier's name.  Every request is counted, also one that is
refused.
-/

namespace Vallet.RateLimit

open Auth Counter FixedWindow

structure Tier where
  limit : Int
  window : Int
  failOpen : Bool
deriving DecidableEq, Repr

def Tier.validate (tier : Tier) : Except Err Unit :=
  if tier.limit ≤ 0 then
    .error (.errorf "ratelimit: limit must be positive" .invalidInput)
  else if tier.window ≤ 0 then
    .error (.errorf "ratelimit: window must be positive" .invalidInput)
  else
    .ok ()

theorem Tier.validate_eq_ok_iff {tier : Tier} :
    tier.validate = .ok () ↔ 0 < tier.limit ∧ 0 < tier.window := by
  unfold Tier.validate
  split
  · simp only [reduceCtorEq, false_iff, not_and]
    omega
  · split
    · simp only [reduceCtorEq, false_iff, not_and]
      omega
    · simp only [true_iff]
      omega

structure Decision where
  allowed : Bool
  retryAfter : Int := 0
  count : Int := 0
  limit : Int := 0
deriving DecidableEq, Repr

/-- A limiter that `NewLimiter` accepted. -/
structure Limiter where
  name : String
  tier : Tier
  named : name ≠ ""
  valid : tier.validate = .ok ()

def newLimiter (name : String) (tier : Tier) : Except Err Limiter :=
  if named : name = "" then
    .error (.errorf "ratelimit: empty tier name" .invalidInput)
  else
    match valid : tier.validate with
    | .error failure => .error failure
    | .ok () => .ok { name, tier, named, valid }

namespace Limiter

variable {σ : Type} [CounterStore σ]

def key (limiter : Limiter) (k : GoString) : GoString :=
  utf8 "rl:" ++ utf8 limiter.name ++ utf8 ":" ++ k

variable {limiter : Limiter} {store : MemoryStore} {k : GoString}
  {times : List Int} {call : StoreCall}

/-- The tier's policy for a store that failed. -/
def storeFailure (limiter : Limiter) : Decision :=
  if limiter.tier.failOpen then
    { allowed := true, limit := limiter.tier.limit }
  else
    { allowed := false
      retryAfter := limiter.tier.window
      limit := limiter.tier.limit }

def allow (limiter : Limiter) (store : σ) (call : StoreCall) (k : GoString) :
    (Decision × Option Err) × σ :=
  if k.isEmpty then
    (({ allowed := false
        retryAfter := limiter.tier.window
        limit := limiter.tier.limit },
      some (.errorf ("ratelimit: empty key for tier \"" ++ limiter.name ++
        "\"") .invalidInput)), store)
  else
    match CounterStore.increment store call.ctx call.now (limiter.key k) 1 limiter.tier.window with
    | (.error failure, after) => ((limiter.storeFailure, some failure), after)
    | (.ok count, after) =>
      if count.value > limiter.tier.limit then
        (({ allowed := false
            retryAfter := count.ttl
            count := count.value
            limit := limiter.tier.limit }, none), after)
      else
        (({ allowed := true
            count := count.value
            limit := limiter.tier.limit }, none), after)

/-- What a limiter has admitted for a key, as far as its store remembers: the
windows later calls can still see are those of a record of admissions. -/
def Metered (limiter : Limiter) (store : MemoryStore) (clock : Int)
    (k : GoString) (times : List Int) : Prop :=
  ∃ last, (∀ time, clock ≤ time →
      stillOpen time (store.windows (limiter.key k)) = stillOpen time last) ∧
    Budget limiter.tier.limit limiter.tier.window clock last times

theorem metered_new (limiter : Limiter) (clock : Int) (k : GoString) :
    limiter.Metered MemoryStore.new clock k [] := by
  have positive := (Tier.validate_eq_ok_iff.mp limiter.valid).1
  exact ⟨none, fun _ _ => rfl, .initial positive clock⟩

theorem Metered.later {clock now : Int}
    (metered : limiter.Metered store clock k times) (order : clock ≤ now) :
    limiter.Metered store now k times := by
  obtain ⟨last, visible, budget⟩ := metered
  exact ⟨last, fun time afterNow => visible time (order.trans afterNow), budget.later order⟩

/-- A call that is refused before it is counted changes nothing; every other
call grows the window of its key and is allowed while the count is within the
limit. -/
theorem allow_cases (limiter : Limiter) (store : MemoryStore) (call : StoreCall) (k : GoString) :
    ((limiter.allow store call k).2 = store ∧
      ((limiter.allow store call k).1.1.allowed = true → limiter.tier.failOpen = true)) ∨
    (k ≠ [] ∧
      ((limiter.allow store call k).1.1.allowed = true ↔
        (grown call.now (store.windows (limiter.key k)) 1
          limiter.tier.window).value ≤ limiter.tier.limit) ∧
      ∀ time, call.now ≤ time → ∀ key,
        stillOpen time ((limiter.allow store call k).2.windows key) =
          stillOpen time (store.windows.increment call.now (limiter.key k) 1
            limiter.tier.window key)) := by
  unfold allow
  split
  · exact .inl ⟨rfl, fun allowed => by cases allowed⟩
  rename_i filled
  cases refusal : incrementRefusal call.ctx (limiter.key k) 1 limiter.tier.window with
  | some failure =>
    refine .inl ?_
    simp only [CounterStore.increment, MemoryStore.increment_refused refusal]
    refine ⟨trivial, fun allowed => ?_⟩
    unfold storeFailure at allowed
    split at allowed
    · assumption
    · cases allowed
  | none =>
    refine .inr ⟨by simpa using filled, ?_⟩
    have count := MemoryStore.increment_count store call.now refusal
    have effect : ∀ time, call.now ≤ time → ∀ key,
        stillOpen time ((store.increment call.ctx call.now (limiter.key k)
          1 limiter.tier.window).2.windows key) =
        stillOpen time (store.windows.increment call.now (limiter.key k) 1
          limiter.tier.window key) := fun time afterCall key =>
      MemoryStore.stillOpen_windows_increment refusal afterCall key
    simp only [CounterStore.increment]
    cases ran : store.increment call.ctx call.now (limiter.key k) 1 limiter.tier.window with
    | mk result after =>
      rw [ran] at count effect
      simp only at count
      subst count
      simp only
      split
      · rename_i exceeded
        refine ⟨⟨?_, fun within => absurd within (by omega)⟩, effect⟩
        intro allowed
        cases allowed
      · rename_i within
        exact ⟨⟨fun _ => Int.not_lt.mp within, fun _ => rfl⟩, effect⟩

/-- A call is added to the record of its key when it is allowed. -/
theorem Metered.allow (metered : limiter.Metered store call.now k times)
    (failsClosed : limiter.tier.failOpen = false) :
    limiter.Metered (limiter.allow store call k).2 call.now k
      (if (limiter.allow store call k).1.1.allowed then call.now :: times
        else times) := by
  obtain ⟨last, visible, budget⟩ := metered
  obtain ⟨within, positive⟩ := Tier.validate_eq_ok_iff.mp limiter.valid
  rcases limiter.allow_cases store call k with
    ⟨unchanged, onlyOpen⟩ | ⟨_, decided, effect⟩
  · have refused : (limiter.allow store call k).1.1.allowed = false := by
      rw [Bool.eq_false_iff]
      intro allowed
      rw [onlyOpen allowed] at failsClosed
      cases failsClosed
    rw [unchanged, refused]
    exact ⟨last, visible, budget⟩
  · have same : grown call.now (store.windows (limiter.key k)) 1
        limiter.tier.window = grown call.now last 1 limiter.tier.window :=
      grown_congr (visible call.now (le_refl _))
    refine ⟨some (grown call.now last 1 limiter.tier.window), ?_, ?_⟩
    · intro time afterCall
      rw [effect time afterCall, Windows.increment_self, same]
    · simp only [decided, same]
      exact budget.grow within positive

/-- Calls with another key leave a record alone. -/
theorem Metered.allow_of_ne {other : GoString}
    (metered : limiter.Metered store call.now other times) (different : other ≠ k) :
    limiter.Metered (limiter.allow store call k).2 call.now other times := by
  obtain ⟨last, visible, budget⟩ := metered
  rcases limiter.allow_cases store call k with
    ⟨unchanged, _⟩ | ⟨_, _, effect⟩
  · rw [unchanged]
    exact ⟨last, visible, budget⟩
  · refine ⟨last, fun time afterCall => ?_, budget⟩
    rw [effect time afterCall, Windows.increment_of_ne]
    · exact visible time afterCall
    · exact fun same => different (List.append_cancel_left same)

end Limiter

end Vallet.RateLimit
