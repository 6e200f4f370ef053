import Mathlib.Algebra.Order.Ring.Int
import Vallet.Counter.Memory

/-!
# The Redis store

`redisstore.Store` runs scripts on a server, each in one piece.  The server
keeps a value with an optional expiry, counts in 64 bits and is told lifetimes
in milliseconds; a count that a script returns has been a Lua number.  A
command that got no answer may still have been applied.
-/

namespace Vallet.Counter

open FixedWindow

def millisecond : Int := 1000000

def maxInt64 : Int := 9223372036854775807

/-- The double nearest to an integer, the even one of two; it has 53 bits. -/
def luaNumber (value : Int) : Int :=
  let unit : Int := 2 ^ (value.natAbs.log2 - 52)
  let lower := value / unit * unit
  let rest := 2 * (value - lower)
  if rest < unit ∨ rest = unit ∧ value / unit % 2 = 0 then lower else lower + unit

theorem luaNumber_exact {value : Int} (small : value.natAbs < 2 ^ 53) :
    luaNumber value = value := by
  have digits : value.natAbs.log2 - 52 = 0 := by
    by_cases zero : value.natAbs = 0
    · simp [zero]
    · have short := (Nat.log2_lt zero).mpr small
      omega
  simp [luaNumber, digits]

theorem luaNumber_pos {value : Int} (positive : 0 < value) : 0 < luaNumber value := by
  have unit : (0 : Int) < 2 ^ (value.natAbs.log2 - 52) := pow_pos (by decide) _
  have within : (2 : Int) ^ (value.natAbs.log2 - 52) ≤ value :=
    calc (2 : Int) ^ (value.natAbs.log2 - 52)
      _ ≤ 2 ^ value.natAbs.log2 := pow_le_pow_right₀ (by decide) (Nat.sub_le _ _)
      _ ≤ value.natAbs := by exact_mod_cast Nat.log2_self_le (n := value.natAbs) (by omega)
      _ = value := Int.natAbs_of_nonneg positive.le
  have units : 1 ≤ value / 2 ^ (value.natAbs.log2 - 52) :=
    (Int.le_ediv_iff_mul_le unit).mpr (by rwa [one_mul])
  have lower := Int.mul_pos units unit
  unfold luaNumber
  simp only
  split <;> omega

structure RedisValue where
  value : Int
  expiresAt : Option Int
deriving DecidableEq

abbrev Redis := GoString → Option RedisValue

namespace Redis

/-- A key disappears when its remaining time reaches zero. -/
def find (redis : Redis) (now : Int) (key : GoString) : Option RedisValue :=
  (redis key).filter fun stored => stored.expiresAt.all (now < ·)

/-- The number under a key, zero for one that is absent. -/
def value (redis : Redis) (now : Int) (key : GoString) : Int :=
  ((redis.find now key).map RedisValue.value).getD 0

/-- A sum past 64 bits is an error, and nothing is changed. -/
def incrBy (redis : Redis) (now : Int) (key : GoString) (delta : Int) : Option (Int × Redis) :=
  let sum := redis.value now key + delta
  if sum ≤ maxInt64 then
    some (sum, Function.update redis key
      (some ⟨sum, (redis.find now key).bind RedisValue.expiresAt⟩))
  else none

def pttl (redis : Redis) (now : Int) (key : GoString) : Int :=
  match redis.find now key with
  | some ⟨_, some expiresAt⟩ => (expiresAt - now) / millisecond
  | some ⟨_, none⟩ => -1
  | none => -2

/-- A lifetime that is not positive deletes the key. -/
def pExpire (redis : Redis) (now : Int) (key : GoString) (ttl : Int) : Redis :=
  match redis.find now key with
  | some stored => Function.update redis key
      (if ttl ≤ 0 then none
        else some { stored with expiresAt := some (now + ttl * millisecond) })
  | none => redis

/-- A script ends with the first command that fails. -/
def incrementScript (redis : Redis) (now : Int) (key : GoString)
    (delta ttl : Int) : Option ((Int × Int) × Redis) := do
  let (value, added) ← redis.incrBy now key delta
  let remaining := added.pttl now key
  if remaining = -1 then
    some ((luaNumber value, ttl), added.pExpire now key ttl)
  else some ((luaNumber value, remaining), added)

def getScript (redis : Redis) (now : Int) (key : GoString) : Int × Int :=
  match redis.find now key with
  | none => (0, 0)
  | some stored => (luaNumber stored.value, max (redis.pttl now key) 0)

def countFromReply (reply : Int × Int) : Count :=
  if reply.1 = 0 then .zero
  else { value := reply.1, ttl := max reply.2 0 * millisecond }

/-- The window a stored value stands for. -/
def window? (stored : RedisValue) : Option Window :=
  stored.expiresAt.map fun expiresAt => ⟨stored.value, expiresAt⟩

def windows (redis : Redis) : Windows GoString :=
  fun key => (redis key).bind window?

variable {redis : Redis} {now : Int} {key : GoString} {delta ttl : Int}

theorem stillOpen_windows (redis : Redis) (now : Int) (key : GoString) :
    stillOpen now (redis.windows key) = (redis.find now key).bind window? := by
  simp only [windows, find]
  cases redis key with
  | none => rfl
  | some stored =>
    obtain ⟨value, expiresAt⟩ := stored
    cases expiresAt with
    | none => rfl
    | some expiresAt =>
      by_cases unexpired : now < expiresAt <;>
        simp [window?, stillOpen, Option.filter_some, Window.openAt, unexpired]

theorem windows_update (redis : Redis) (key : GoString) (value : Option RedisValue) :
    windows (Function.update redis key value) =
      Function.update redis.windows key (value.bind window?) := by
  funext other
  by_cases same : other = key
  · subst same
    simp [windows]
  · simp [windows, Function.update_of_ne same]

theorem find_update (redis : Redis) (now : Int) (key : GoString)
    (value : Int) (expiresAt : Option Int)
    (unexpired : expiresAt.all (now < ·) = true) :
    Redis.find (Function.update redis key (some ⟨value, expiresAt⟩)) now
      key = some ⟨value, expiresAt⟩ := by
  simp [find, Function.update_self, Option.filter_some, unexpired]

/-- The script opens a window for a key that is absent. -/
theorem incrementScript_absent (absent : redis.find now key = none)
    (fits : delta ≤ maxInt64) (positive : 0 < ttl) :
    redis.incrementScript now key delta ttl = some ((luaNumber delta, ttl),
      Function.update redis key (some ⟨delta, some (now + ttl * millisecond)⟩)) := by
  have fresh := find_update redis now key delta none rfl
  simp only [incrementScript, incrBy, value, absent, Option.map_none, Option.getD_none, zero_add,
    if_pos fits, pttl, Option.bind_eq_bind, Option.bind_none, Option.bind_some, fresh, if_true,
    pExpire, if_neg (Int.not_le.mpr positive), Function.update_idem]

/-- The script adds to the window that is open. -/
theorem incrementScript_present {value expiresAt : Int}
    (found : redis.find now key = some ⟨value, some expiresAt⟩)
    (fits : value + delta ≤ maxInt64) (ttl : Int) :
    redis.incrementScript now key delta ttl =
      some ((luaNumber (value + delta), (expiresAt - now) / millisecond),
        Function.update redis key (some ⟨value + delta, some expiresAt⟩)) := by
  have unexpired : now < expiresAt := by
    simpa using (Option.filter_eq_some_iff.mp found).2
  have kept := find_update redis now key (value + delta) (some expiresAt) (by simp [unexpired])
  have live : ¬ (expiresAt - now) / millisecond = -1 := by
    unfold millisecond
    omega
  simp only [incrementScript, incrBy, Redis.value, found, Option.map_some, Option.getD_some,
    if_pos fits, Option.bind_eq_bind, Option.bind_some, pttl, kept, if_neg live]

variable {reply : Int × Int} {later : Redis}

theorem pExpire_of_ne (redis : Redis) (now ttl : Int) {other : GoString}
    (different : other ≠ key) : redis.pExpire now key ttl other = redis other := by
  unfold pExpire
  cases redis.find now key with
  | none => rfl
  | some stored => exact Function.update_of_ne different _ _

theorem incrementScript_of_ne {other : GoString} (different : other ≠ key)
    (ran : redis.incrementScript now key delta ttl = some (reply, later)) :
    later other = redis other := by
  simp only [incrementScript, incrBy, Option.bind_eq_bind] at ran
  split at ran
  · simp only [Option.bind_some] at ran
    split at ran
    · cases ran
      rw [pExpire_of_ne _ _ _ different, Function.update_of_ne different]
    · cases ran
      exact Function.update_of_ne different _ _
  · cases ran

/-- A count that is to be seen until some time still is after an increment. -/
theorem incrementScript_covers {other : GoString} {till : Int} (added : 0 < delta)
    (ran : redis.incrementScript now key delta ttl = some (reply, later))
    (covered : Covered (redis.windows other) now till) :
    Covered (later.windows other) now till := by
  by_cases same : other = key
  swap
  · rwa [windows, incrementScript_of_ne same ran]
  subst same
  intro time afterNow beforeTill
  obtain ⟨window, current, counted⟩ := covered now (le_refl now) (by omega)
  have grows := covered.grown ttl added time afterNow beforeTill
  rw [grown_of_open current] at grows
  rw [stillOpen_windows] at current
  obtain ⟨⟨value, expiresAt⟩, found, window⟩ := Option.bind_eq_some_iff.mp current
  obtain ⟨expiresAt, rfl, rfl⟩ := Option.map_eq_some_iff.mp window
  by_cases fits : value + delta ≤ maxInt64
  · rw [incrementScript_present found fits] at ran
    cases ran
    rw [windows_update, Function.update_self]
    exact grows
  · simp [incrementScript, incrBy, Redis.value, found, fits] at ran

theorem incrementScript_isSome (room : redis.value now key + delta ≤ maxInt64) (ttl : Int) :
    (redis.incrementScript now key delta ttl).isSome = true := by
  simp only [incrementScript, incrBy, if_pos room, Option.bind_eq_bind, Option.bind_some]
  split <;> rfl

end Redis

/-- How the server treats the next command. -/
inductive Health where
  | answers
  | silent (applies : Bool)
deriving DecidableEq, Repr

/-- A `redisstore.Store` and the server it talks to. -/
structure RemoteStore where
  redis : Redis
  health : Health

namespace RemoteStore

/-- A transport failure, with its cause. -/
def unavailable (cause : Sentinel) : Err where
  contexts := ["redisstore"]
  wraps := [.storeUnavailable, cause]

/-- The arguments are checked before the context. -/
def refusal (checked : Option Err) (ctx : Ctx) : Option Err :=
  checked.or (if ctx = .canceled then some (unavailable .contextDone) else none)

/-- What the caller gets of a reply of the server; without one the command
failed. -/
def receive {β : Type} (store : RemoteStore) : Option (β × Redis) → Except Err β × RemoteStore
  | none => (.error (unavailable .driver), store)
  | some (reply, redis) =>
    match store.health with
    | .answers => (.ok reply, { store with redis })
    | .silent applies =>
      (.error (unavailable .driver), if applies then { store with redis } else store)

def increment (store : RemoteStore) (ctx : Ctx) (now : Int) (key : GoString)
    (delta ttl : Int) : Except Err Count × RemoteStore :=
  match refusal (incrementRefusal .live key delta ttl) ctx with
  | some failure => (.error failure, store)
  | none =>
    let replied := store.receive
      (store.redis.incrementScript now key delta (ttl / millisecond))
    (replied.1.map Redis.countFromReply, replied.2)

def get (store : RemoteStore) (ctx : Ctx) (now : Int) (key : GoString) :
    Except Err Count × RemoteStore :=
  match refusal (accessRefusal .live key) ctx with
  | some failure => (.error failure, store)
  | none =>
    let replied := store.receive (some (store.redis.getScript now key, store.redis))
    (replied.1.map Redis.countFromReply, replied.2)

def delete (store : RemoteStore) (ctx : Ctx) (key : GoString) : Except Err Unit × RemoteStore :=
  match refusal (accessRefusal .live key) ctx with
  | some failure => (.error failure, store)
  | none => store.receive (some ((), Function.update store.redis key none))

def ping (store : RemoteStore) : Except Err Unit :=
  match store.health with
  | .answers => .ok ()
  | .silent _ => .error (unavailable .driver)

instance : CounterStore RemoteStore where
  increment := increment
  get := get
  delete store ctx _ key := delete store ctx key

variable {store : RemoteStore} {ctx : Ctx} {now delta ttl : Int} {key : GoString}
  {checked : Option Err} {failure : Err} {β : Type}

theorem receive_answers (answers : store.health = .answers) (reply : β) (redis : Redis) :
    store.receive (some (reply, redis)) = (.ok reply, { store with redis }) := by
  simp [receive, answers]

@[simp] theorem receive_health (store : RemoteStore) (replied : Option (β × Redis)) :
    (store.receive replied).2.health = store.health := by
  unfold receive
  split
  · rfl
  split
  · rfl
  · simp only
    split <;> rfl

/-- The server is as before, or has applied the command. -/
theorem receive_redis (store : RemoteStore) (replied : Option (β × Redis)) :
    (store.receive replied).2.redis = store.redis ∨
      ∃ reply, replied = some (reply, (store.receive replied).2.redis) := by
  unfold receive
  split
  · exact .inl rfl
  split
  · exact .inr ⟨_, rfl⟩
  · simp only
    split
    · exact .inr ⟨_, rfl⟩
    · exact .inl rfl

theorem refusal_canceled (checked : Option Err) :
    ∃ failure, refusal checked .canceled = some failure := by
  cases checked <;> exact ⟨_, rfl⟩

/-- A live call is refused for its arguments only. -/
@[simp] theorem refusal_live (checked : Option Err) : refusal checked .live = checked := by
  simp [refusal]

theorem increment_canceled (store : RemoteStore) (now : Int) (key : GoString) (delta ttl : Int) :
    ∃ failure, (store.increment .canceled now key delta ttl).1 = .error failure := by
  obtain ⟨failure, refused⟩ := refusal_canceled (incrementRefusal .live key delta ttl)
  exact ⟨failure, by rw [increment, refused]⟩

theorem get_canceled (store : RemoteStore) (now : Int) (key : GoString) :
    ∃ failure, (store.get .canceled now key).1 = .error failure := by
  obtain ⟨failure, refused⟩ := refusal_canceled (accessRefusal .live key)
  exact ⟨failure, by rw [get, refused]⟩

@[simp] theorem get_snd (store : RemoteStore) (ctx : Ctx) (now : Int)
    (key : GoString) : (store.get ctx now key).2 = store := by
  unfold get receive
  split
  · rfl
  simp only
  split
  · rfl
  · simp

/-- Only an outage or a cancelled context is reported as one. -/
theorem incrementRefusal_live_is (refused : incrementRefusal .live key delta ttl =
      some failure) : failure.is .storeUnavailable = false := by
  unfold incrementRefusal at refused
  split at refused
  · cases refused
    rfl
  split at refused
  · cases refused
    rfl
  split at refused
  · cases refused
    rfl
  · cases refused

theorem accessRefusal_live_is (refused : accessRefusal .live key = some failure) :
    failure.is .storeUnavailable = false := by
  unfold accessRefusal at refused
  split at refused
  · cases refused
    rfl
  · cases refused

/-- A live call on a server that answers, with room for the sum, reports no
outage. -/
theorem increment_answers (answers : store.health = .answers)
    (room : store.redis.value now key + delta ≤ maxInt64)
    (failed : (store.increment .live now key delta ttl).1 = .error failure) :
    failure.is .storeUnavailable = false := by
  unfold increment at failed
  rw [refusal_live] at failed
  split at failed
  · rename_i refused
    cases failed
    exact incrementRefusal_live_is refused
  · obtain ⟨⟨reply, redis⟩, ran⟩ := Option.isSome_iff_exists.mp
      (Redis.incrementScript_isSome room (ttl / millisecond))
    rw [ran, receive_answers answers] at failed
    cases failed

theorem get_answers (answers : store.health = .answers)
    (failed : (store.get .live now key).1 = .error failure) :
    failure.is .storeUnavailable = false := by
  unfold get at failed
  rw [refusal_live] at failed
  split at failed
  · rename_i refused
    cases failed
    exact accessRefusal_live_is refused
  · rw [receive_answers answers] at failed
    cases failed

theorem delete_answers (answers : store.health = .answers)
    (failed : (store.delete .live key).1 = .error failure) :
    failure.is .storeUnavailable = false := by
  unfold delete at failed
  rw [refusal_live] at failed
  split at failed
  · rename_i refused
    cases failed
    exact accessRefusal_live_is refused
  · rw [receive_answers answers] at failed
    cases failed

variable {till : Int} {other : GoString}

theorem increment_covers (added : 0 < delta)
    (covered : Covered (store.redis.windows other) now till) (ctx : Ctx) (key : GoString)
    (ttl : Int) :
    Covered ((store.increment ctx now key delta ttl).2.redis.windows other) now till := by
  unfold increment
  split
  · exact covered
  rcases store.receive_redis
      (store.redis.incrementScript now key delta (ttl / millisecond)) with same | ⟨reply, ran⟩
  · simp only [same]
    exact covered
  · exact Redis.incrementScript_covers added ran covered

/-- A read that was answered shows a positive count. -/
theorem get_positive {count : Count} {window : Window}
    (answered : (store.get ctx now key).1 = .ok count)
    (visible : stillOpen now (store.redis.windows key) = some window)
    (counted : 0 < window.value) : 0 < count.value := by
  rw [Redis.stillOpen_windows] at visible
  obtain ⟨stored, found, shown⟩ := Option.bind_eq_some_iff.mp visible
  obtain ⟨expiresAt, _, rfl⟩ := Option.map_eq_some_iff.mp shown
  have positive := luaNumber_pos counted
  unfold get receive at answered
  split at answered
  · cases answered
  simp only [Redis.getScript, found] at answered
  split at answered
  · cases answered
    rwa [Redis.countFromReply, if_neg positive.ne']
  · cases answered

end RemoteStore

end Vallet.Counter
