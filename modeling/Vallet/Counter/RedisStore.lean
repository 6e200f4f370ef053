import Mathlib.Data.Finset.Dedup
import Mathlib.Data.Finset.Order
import Vallet.Counter.Redis
import Vallet.Counter.Refinement

/-!
# The Redis store as a fixed-window counter

On whole milliseconds, and while the counts have at most 53 bits, the Redis
store is the fixed-window counter that the memory store is.  The scripts run in
one piece, so that a key it counts under always has an expiry.
-/

namespace Vallet.Counter

open FixedWindow RemoteStore

namespace RemoteStore

/-- A server without keys that answers every command. -/
def new : RemoteStore where
  redis _ := none
  health := .answers

/-- There is nothing to sweep in Redis. -/
def perform (store : RemoteStore) (now : Int) : CounterCall → CounterAnswer × RemoteStore
  | .increment ctx key delta ttl =>
    let outcome := store.increment ctx now key delta ttl
    (.count outcome.1, outcome.2)
  | .get ctx key =>
    let outcome := store.get ctx now key
    (.count outcome.1, outcome.2)
  | .delete ctx key =>
    let outcome := store.delete ctx key
    (.done outcome.1, outcome.2)
  | .sweep => (.swept, store)

end RemoteStore

/-- The stores name themselves when the context is done. -/
def relabel (failure : Err) : Err :=
  if failure = Counter.unavailable then RemoteStore.unavailable .contextDone
  else failure

def CounterAnswer.relabeled : CounterAnswer → CounterAnswer
  | .count outcome => .count (outcome.mapError relabel)
  | .done outcome => .done (outcome.mapError relabel)
  | .swept => .swept

/-- A count of at most 53 bits. -/
def CounterAnswer.small : CounterAnswer → Bool
  | .count (.ok counted) => counted.value < 9007199254740992
  | _ => true

/-- A lifetime of whole milliseconds. -/
def CounterCall.whole : CounterCall → Bool
  | .increment _ _ _ ttl => ttl % millisecond = 0
  | _ => true

/-- Calls at times in milliseconds, as the clocks of the stores show them. -/
def onClock (calls : List (Int × CounterCall)) : List (Int × CounterCall) :=
  calls.map fun timed => (timed.1 * millisecond, timed.2)

theorem refusal_incrementRefusal (ctx : Ctx) (key : GoString) (delta ttl : Int) :
    refusal (incrementRefusal .live key delta ttl) ctx =
      (incrementRefusal ctx key delta ttl).map relabel := by
  unfold incrementRefusal
  split
  · rfl
  split
  · rfl
  split
  · rfl
  · cases ctx <;> rfl

theorem refusal_accessRefusal (ctx : Ctx) (key : GoString) :
    refusal (accessRefusal .live key) ctx = (accessRefusal ctx key).map relabel := by
  unfold accessRefusal
  split
  · rfl
  · cases ctx <;> rfl

theorem luaNumber_small {value : Int} (positive : 0 < value) (small : value < 9007199254740992) :
    luaNumber value = value :=
  luaNumber_exact (by omega)

namespace Redis

/-- Every key counts something and expires, at a whole millisecond. -/
def Volatile (redis : Redis) : Prop :=
  ∀ key stored, redis key = some stored →
    0 < stored.value ∧ ∃ expiresAt, stored.expiresAt = some (expiresAt * millisecond)

variable {redis : Redis} {now : Int} {key : GoString} {delta ttl : Int}

theorem Volatile.find_cases (volatile : redis.Volatile) (now : Int) (key : GoString) :
    redis.find now key = none ∨ ∃ value expiresAt, 0 < value ∧ now < expiresAt * millisecond ∧
      redis.find now key = some ⟨value, some (expiresAt * millisecond)⟩ := by
  cases found : redis.find now key with
  | none => exact .inl rfl
  | some stored =>
    obtain ⟨present, unexpired⟩ := Option.filter_eq_some_iff.mp found
    obtain ⟨counted, expiresAt, known⟩ := volatile key stored present
    rw [known, Option.all_some, decide_eq_true_eq] at unexpired
    exact .inr ⟨stored.value, expiresAt, counted, unexpired, by rw [← known]⟩

theorem Volatile.update (volatile : redis.Volatile) (key : GoString) {value : Option RedisValue}
    (sound : ∀ stored, value = some stored → 0 < stored.value ∧
      ∃ expiresAt, stored.expiresAt = some (expiresAt * millisecond)) :
    Redis.Volatile (Function.update redis key value) := by
  intro other stored present
  by_cases same : other = key
  · subst same
    rw [Function.update_self] at present
    exact sound stored present
  · rw [Function.update_of_ne same] at present
    exact volatile other stored present

/-- The script adds to the window that is open, or opens one. -/
theorem Volatile.incrementScript (volatile : redis.Volatile)
    (added : 0 < delta) (positive : 0 < ttl) (now : Int) (key : GoString)
    (room : (grown (now * millisecond) (redis.windows key) delta
      (ttl * millisecond)).value ≤ maxInt64) :
    ∃ value expiresAt, 0 < value ∧ now < expiresAt ∧
      redis.incrementScript (now * millisecond) key delta ttl =
        some ((luaNumber value, expiresAt - now), Function.update redis key
          (some ⟨value, some (expiresAt * millisecond)⟩)) ∧
      grown (now * millisecond) (redis.windows key) delta
        (ttl * millisecond) = ⟨value, expiresAt * millisecond⟩ := by
  have current := redis.stillOpen_windows (now * millisecond) key
  rcases volatile.find_cases (now * millisecond) key with
    absent | ⟨value, expiresAt, counted, unexpired, found⟩
  · rw [absent] at current
    rw [grown_of_closed current] at room ⊢
    refine ⟨delta, now + ttl, added, by omega, ?_, by rw [Int.add_mul]⟩
    rw [incrementScript_absent absent room positive, Int.add_mul, Int.add_comm now ttl,
      Int.add_sub_cancel]
  · rw [found] at current
    rw [grown_of_open current] at room ⊢
    refine ⟨value + delta, expiresAt, by omega, by unfold millisecond at unexpired; omega, ?_, rfl⟩
    rw [incrementScript_present found room, ← Int.sub_mul, Int.mul_ediv_cancel _ (by decide)]

theorem countFromReply_eq {value expiresAt now : Int} (counted : 0 < value)
    (unexpired : now < expiresAt) :
    countFromReply (value, expiresAt - now) =
      Count.of (now * millisecond) (some ⟨value, expiresAt * millisecond⟩) := by
  have nonzero : value ≠ 0 := by omega
  have ahead : max (expiresAt - now) 0 = expiresAt - now := by omega
  simp [countFromReply, nonzero, ahead, Count.of, Int.sub_mul]

theorem Volatile.getScript (volatile : redis.Volatile) (now : Int) (key : GoString)
    (small : (Count.of (now * millisecond)
      (redis.windows.current (now * millisecond) key)).value < 9007199254740992) :
    countFromReply (redis.getScript (now * millisecond) key) = Count.of (now * millisecond)
      (redis.windows.current (now * millisecond) key) := by
  rw [Windows.current, stillOpen_windows] at small ⊢
  rcases volatile.find_cases (now * millisecond) key with
    absent | ⟨value, expiresAt, counted, unexpired, found⟩
  · simp only [Redis.getScript, absent]
    rfl
  · have later : now < expiresAt := by
      unfold millisecond at unexpired
      omega
    have ahead : max (expiresAt - now) 0 = expiresAt - now := by omega
    rw [found] at small ⊢
    simp only [Redis.getScript, found, pttl, ← Int.sub_mul,
      Int.mul_ediv_cancel _ (show millisecond ≠ 0 by decide), ahead,
      luaNumber_small counted small]
    exact countFromReply_eq counted later

end Redis

variable {store : RemoteStore}

/-- One call answers as the fixed-window counter does. -/
theorem RemoteStore.perform_specified (answering : store.health = .answers)
    (volatile : store.redis.Volatile) (now : Int) {call : CounterCall}
    (whole : call.whole = true)
    (small : (specify store.redis.windows (now * millisecond) call).1.small = true) :
    (store.perform (now * millisecond) call).1 =
        (specify store.redis.windows (now * millisecond) call).1.relabeled ∧
      (store.perform (now * millisecond) call).2.redis.windows =
        (specify store.redis.windows (now * millisecond) call).2 ∧
      (store.perform (now * millisecond) call).2.redis.Volatile ∧
      (store.perform (now * millisecond) call).2.health = .answers := by
  cases call with
  | increment ctx key delta ttl =>
    simp only [perform, specify, RemoteStore.increment, refusal_incrementRefusal] at small ⊢
    cases checked : incrementRefusal ctx key delta ttl with
    | some failure => exact ⟨rfl, rfl, volatile, answering⟩
    | none =>
      obtain ⟨length, rfl⟩ := Int.dvd_of_emod_eq_zero (of_decide_eq_true whole)
      obtain ⟨added, positive⟩ := incrementRefusal_none checked
      rw [checked] at small
      rw [Int.mul_comm millisecond] at small positive
      have unclosed : now * millisecond < (grown (now * millisecond)
          (store.redis.windows key) delta (length * millisecond)).closesAt :=
        lt_grown_closesAt positive
      simp only [Windows.current, Windows.increment_self, stillOpen_some_of_open unclosed,
        CounterAnswer.small, Count.of, decide_eq_true_eq] at small
      obtain ⟨value, expiresAt, counted, unexpired, ran, window⟩ :=
        volatile.incrementScript added (Int.pos_of_mul_pos_left positive (by decide)) now key
          (by unfold maxInt64; omega)
      rw [Int.mul_ediv_cancel_left length (by decide), ran, receive_answers answering,
        Int.mul_comm millisecond]
      rw [window] at small unclosed
      refine ⟨?_, ?_, volatile.update key ?_, answering⟩
      · simp only [Windows.current, Windows.increment_self, window,
          stillOpen_some_of_open unclosed, luaNumber_small counted small]
        exact congrArg (CounterAnswer.count ∘ Except.ok) (Redis.countFromReply_eq counted unexpired)
      · exact (Redis.windows_update store.redis key _).trans
          (congrArg (Function.update store.redis.windows key ∘ some) window.symm)
      · intro stored same
        cases same
        exact ⟨counted, expiresAt, rfl⟩
  | get ctx key =>
    simp only [perform, specify, RemoteStore.get, refusal_accessRefusal] at small ⊢
    cases checked : accessRefusal ctx key with
    | some failure => exact ⟨rfl, rfl, volatile, answering⟩
    | none =>
      rw [checked] at small
      rw [receive_answers answering]
      refine ⟨?_, rfl, volatile, answering⟩
      exact congrArg (CounterAnswer.count ∘ Except.ok)
        (volatile.getScript now key (of_decide_eq_true small))
  | delete ctx key =>
    simp only [perform, specify, RemoteStore.delete, refusal_accessRefusal]
    cases accessRefusal ctx key with
    | some failure => exact ⟨rfl, rfl, volatile, answering⟩
    | none =>
      rw [receive_answers answering]
      exact ⟨rfl, Redis.windows_update store.redis key none,
        volatile.update key (by rintro _ ⟨⟩), answering⟩
  | sweep => exact ⟨rfl, rfl, volatile, answering⟩

theorem RemoteStore.answers_specified (answering : store.health = .answers)
    (volatile : store.redis.Volatile) {calls : List (Int × CounterCall)}
    (whole : ∀ timed ∈ calls, timed.2.whole = true)
    (small : ∀ answer ∈ (answers specify store.redis.windows (onClock calls)).1,
      answer.small = true) :
    (answers perform store (onClock calls)).1 =
        (answers specify store.redis.windows (onClock calls)).1.map CounterAnswer.relabeled ∧
      (answers perform store (onClock calls)).2.redis.Volatile := by
  induction calls generalizing store with
  | nil => exact ⟨rfl, volatile⟩
  | cons timed calls induction =>
    obtain ⟨answered, left, still, stillAnswering⟩ := perform_specified answering volatile
      timed.1 (whole timed List.mem_cons_self) (small _ List.mem_cons_self)
    obtain ⟨rest, last⟩ := induction stillAnswering still
      (fun other member => whole other (List.mem_cons_of_mem _ member))
      (by rw [left]; exact fun answer member => small answer (List.mem_cons_of_mem _ member))
    rw [left] at rest
    exact ⟨congrArg₂ List.cons answered rest, last⟩

/-- On whole milliseconds and counts of at most 53 bits the Redis store answers
as the memory store does, up to the name in the error of a context that is
done, and every key in Redis expires. -/
theorem redis_counts_as_memory (calls : List (Int × CounterCall))
    (ordered : (calls.map Prod.fst).Pairwise (· ≤ ·))
    (whole : ∀ timed ∈ calls, timed.2.whole = true)
    (small : ∀ answer ∈ (answers MemoryStore.perform .new (onClock calls)).1, answer.small = true) :
    (answers RemoteStore.perform .new (onClock calls)).1 =
        (answers MemoryStore.perform .new (onClock calls)).1.map CounterAnswer.relabeled ∧
      (answers RemoteStore.perform .new (onClock calls)).2.redis.Volatile := by
  obtain ⟨now, after⟩ := ((onClock calls).map Prod.fst).toFinset.exists_le
  have times : ((onClock calls).map Prod.fst ++ [now]).Pairwise (· ≤ ·) := by
    refine List.pairwise_append.mpr ⟨?_, List.pairwise_singleton _ _, ?_⟩
    · rw [onClock, List.map_map, List.pairwise_map]
      refine (List.pairwise_map.mp ordered).imp fun order => ?_
      exact Int.mul_le_mul_of_nonneg_right order (by decide)
    · intro time member last within
      rw [List.mem_singleton.mp within]
      exact after time (List.mem_toFinset.mpr member)
  have alike : (answers MemoryStore.perform .new (onClock calls)).1 =
      (answers specify RemoteStore.new.redis.windows (onClock calls)).1 :=
    (answers_alike (fun _ _ _ _ _ => rfl) times).1
  have empty : RemoteStore.new.redis.Volatile := by
    intro key stored impossible
    cases impossible
  rw [alike] at small ⊢
  exact RemoteStore.answers_specified rfl empty whole small

/-- A key is counted in both stores over the end of its window. -/
theorem redis_counts_as_memory_reopened : let calls := [(0, .increment .live (utf8 "k") 2 10000000),
      (9, .get .live (utf8 "k")), (10, .increment .live (utf8 "k") 1 5000000),
      (11, .get .canceled (utf8 "k"))]
    (answers RemoteStore.perform .new (onClock calls)).1 =
      (answers MemoryStore.perform .new (onClock calls)).1.map CounterAnswer.relabeled :=
  (redis_counts_as_memory _ (by decide) (by decide) (by decide +kernel)).1

/-- With a context that is done the two stores do not return one error. -/
theorem stores_name_themselves :
    (RemoteStore.new.get .canceled 0 (utf8 "k")).1.mapError Err.message =
        .error "redisstore: counter: store unavailable: context canceled" ∧
      (MemoryStore.new.get .canceled 0 (utf8 "k")).1.mapError Err.message =
        .error "counter: counter: store unavailable: context canceled" := by
  decide +kernel

end Vallet.Counter
