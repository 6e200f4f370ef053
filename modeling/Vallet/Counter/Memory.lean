import Vallet.Domain.Values
import Vallet.Foundation.FixedWindow
import Vallet.Foundation.Table

/-!
# Counter stores

`CounterStore` is the port the denylist and the limiters are written against.
`MemoryStore` keeps one entry for each key and purges closed ones every
`sweepInterval` writes.
-/

namespace Vallet.Counter

open FixedWindow Relational

/-- A request context that is live, or cancelled before the call. -/
inductive Ctx where
  | live
  | canceled
deriving DecidableEq, Repr

structure Count where
  value : Int
  ttl : Int
deriving DecidableEq, Repr

def Count.zero : Count where
  value := 0
  ttl := 0

/-- A store and the time its clock shows when the call reads it. -/
class CounterStore (σ : Type) where
  increment (store : σ) (ctx : Ctx) (now : Int) (key : GoString)
    (delta : Int) (ttl : Int) : Except Err Count × σ
  get (store : σ) (ctx : Ctx) (now : Int) (key : GoString) : Except Err Count × σ
  delete (store : σ) (ctx : Ctx) (now : Int) (key : GoString) : Except Err Unit × σ

def emptyKey : Err where
  contexts := ["counter: empty key"]
  wraps := [.invalidKey, .invalidInput]

def unavailable : Err where
  contexts := ["counter"]
  wraps := [.storeUnavailable, .contextDone]

/-- The checks every `Increment` makes before it touches an entry. -/
def incrementRefusal (ctx : Ctx) (key : GoString) (delta : Int) (ttl : Int) : Option Err :=
  if key.isEmpty then some emptyKey
  else if delta ≤ 0 then
    some (.errorf "counter: delta must be positive" .invalidInput)
  else if ttl ≤ 0 then
    some (.errorf "counter: ttl must be positive" .invalidInput)
  else if ctx = .canceled then some unavailable
  else none

/-- The checks `Get` and `Delete` make. -/
def accessRefusal (ctx : Ctx) (key : GoString) : Option Err :=
  if key.isEmpty then some emptyKey
  else if ctx = .canceled then some unavailable
  else none

theorem incrementRefusal_canceled (key : GoString) (delta ttl : Int) :
    ∃ failure, incrementRefusal .canceled key delta ttl = some failure := by
  unfold incrementRefusal
  split
  · exact ⟨_, rfl⟩
  split
  · exact ⟨_, rfl⟩
  split
  all_goals exact ⟨_, rfl⟩

theorem accessRefusal_canceled (key : GoString) :
    ∃ failure, accessRefusal .canceled key = some failure := by
  unfold accessRefusal
  split
  all_goals exact ⟨_, rfl⟩

def sweepInterval : Nat := 256

structure Entry where
  key : GoString
  value : Int
  expiresAt : Int
deriving DecidableEq, Repr

def Entry.window (entry : Entry) : Window where
  value := entry.value
  closesAt := entry.expiresAt

structure MemoryStore where
  entries : Table Entry.key
  ops : Nat
deriving DecidableEq

namespace MemoryStore

def new : MemoryStore where
  entries := .empty
  ops := 0

def purgeLocked (store : MemoryStore) (now : Int) : MemoryStore :=
  { store with
    entries := store.entries.delete fun entry =>
      decide (¬ now < entry.expiresAt) }

def sweepLocked (store : MemoryStore) (now : Int) : MemoryStore :=
  if store.ops + 1 < sweepInterval then
    { store with ops := store.ops + 1 }
  else
    purgeLocked { store with ops := 0 } now

/-- The entry an increment starts from: a stored one that has not expired, or
a new one. -/
def entryFor (store : MemoryStore) (now : Int) (key : GoString) (ttl : Int) : Entry :=
  match store.entries.find? key with
  | some entry =>
    if now < entry.expiresAt then entry
    else { key, value := 0, expiresAt := now + ttl }
  | none => { key, value := 0, expiresAt := now + ttl }

def increment (store : MemoryStore) (ctx : Ctx) (now : Int)
    (key : GoString) (delta : Int) (ttl : Int) : Except Err Count × MemoryStore :=
  match incrementRefusal ctx key delta ttl with
  | some refusal => (.error refusal, store)
  | none =>
    let before := store.entryFor now key ttl
    let entry := { before with value := before.value + delta }
    (.ok { value := entry.value, ttl := entry.expiresAt - now },
      sweepLocked { store with entries := store.entries.put entry } now)

def get (store : MemoryStore) (ctx : Ctx) (now : Int) (key : GoString) :
    Except Err Count × MemoryStore :=
  match accessRefusal ctx key with
  | some refusal => (.error refusal, store)
  | none =>
    match store.entries.find? key with
    | some entry =>
      if now < entry.expiresAt then
        (.ok { value := entry.value, ttl := entry.expiresAt - now }, store)
      else
        (.ok .zero, store)
    | none => (.ok .zero, store)

def delete (store : MemoryStore) (ctx : Ctx) (now : Int) (key : GoString) :
    Except Err Unit × MemoryStore :=
  match accessRefusal ctx key with
  | some refusal => (.error refusal, store)
  | none =>
    (.ok (), sweepLocked { store with
      entries := store.entries.delete fun entry => decide (entry.key = key) }
      now)

def len (store : MemoryStore) : Nat := store.entries.rows.length

/-- Drop every closed entry, and say how many there were. -/
def sweep (store : MemoryStore) (now : Int) : Nat × MemoryStore :=
  let swept := store.purgeLocked now
  (store.len - swept.len, swept)

instance : CounterStore MemoryStore where
  increment := increment
  get := get
  delete := delete

/-- The stored window of a key, whether or not it has closed. -/
def windows (store : MemoryStore) : Windows GoString := fun key =>
  (store.entries.find? key).map Entry.window

variable {key : GoString} {now delta ttl : Int} {store : MemoryStore} {ctx : Ctx}

theorem windows_put_self (store : MemoryStore) (entry : Entry) :
    windows { store with entries := store.entries.put entry } entry.key = some entry.window := by
  simp [windows]

theorem windows_put_of_ne (store : MemoryStore) (entry : Entry) (different : key ≠ entry.key) :
    windows { store with entries := store.entries.put entry } key = store.windows key := by
  simp only [windows, Table.find?_put_of_ne _ _ different]

variable {later : Int}

/-- Purging only drops entries that no later read can see. -/
theorem stillOpen_windows_purgeLocked (store : MemoryStore) (order : now ≤ later) (key : GoString) :
    stillOpen later ((store.purgeLocked now).windows key) =
      stillOpen later (store.windows key) := by
  simp only [windows, purgeLocked, Table.find?_delete]
  cases search : store.entries.find? key with
  | none => rfl
  | some entry =>
    by_cases unexpired : now < entry.expiresAt
    · simp [Option.filter_some, unexpired]
    · have closed : ¬ later < entry.expiresAt := by omega
      simp [Option.filter_some, unexpired, stillOpen, Window.openAt, Entry.window, closed]

theorem stillOpen_windows_sweepLocked (store : MemoryStore) (order : now ≤ later) (key : GoString) :
    stillOpen later ((store.sweepLocked now).windows key) =
      stillOpen later (store.windows key) := by
  unfold sweepLocked
  split
  · rfl
  · exact stillOpen_windows_purgeLocked { store with ops := 0 } order key

@[simp] theorem entryFor_key (store : MemoryStore) (now : Int)
    (key : GoString) (ttl : Int) : (store.entryFor now key ttl).key = key := by
  unfold entryFor
  split
  · rename_i entry found
    split
    · exact (Table.find?_eq_some_iff.mp found).2
    · rfl
  · rfl

/-- An increment starts from the window that is still open. -/
theorem entryFor_window (store : MemoryStore) (now : Int)
    (key : GoString) (delta : Int) (ttl : Int) :
    Entry.window { store.entryFor now key ttl with
      value := (store.entryFor now key ttl).value + delta } =
      grown now (store.windows key) delta ttl := by
  unfold entryFor windows grown
  cases store.entries.find? key with
  | none => simp [Entry.window]
  | some entry =>
    by_cases unexpired : now < entry.expiresAt
    all_goals simp [stillOpen, Option.filter_some, Window.openAt, Entry.window, unexpired]

theorem increment_refused {refusal : Err}
    (refused : incrementRefusal ctx key delta ttl = some refusal) :
    store.increment ctx now key delta ttl = (.error refusal, store) := by
  simp [increment, refused]

theorem increment_count (store : MemoryStore) (now : Int)
    (accepted : incrementRefusal ctx key delta ttl = none) :
    (store.increment ctx now key delta ttl).1 =
      .ok {
        value := (grown now (store.windows key) delta ttl).value
        ttl := (grown now (store.windows key) delta ttl).closesAt - now } := by
  rw [← entryFor_window]
  simp [increment, accepted, Entry.window]

/-- To every later read an increment has grown the window of its key and left
the others alone. -/
theorem stillOpen_windows_increment (accepted : incrementRefusal ctx key delta ttl = none)
    (order : now ≤ later) (other : GoString) :
    stillOpen later ((store.increment ctx now key delta ttl).2.windows other) =
      stillOpen later (store.windows.increment now key delta ttl other) := by
  simp only [increment, accepted]
  rw [stillOpen_windows_sweepLocked _ order]
  by_cases same : other = key
  · subst other
    rw [Windows.increment_self, ← entryFor_window]
    congr 1
    have stored := windows_put_self store { store.entryFor now key ttl with
      value := (store.entryFor now key ttl).value + delta }
    simpa using stored
  · rw [Windows.increment_of_ne _ _ same]
    congr 1
    exact windows_put_of_ne store _ (by simpa using same)

theorem stillOpen_windows_delete {ctx : Ctx}
    (accepted : accessRefusal ctx key = none) (order : now ≤ later) (other : GoString) :
    stillOpen later ((store.delete ctx now key).2.windows other) =
      stillOpen later (store.windows.delete key other) := by
  simp only [delete, accepted]
  rw [stillOpen_windows_sweepLocked _ order]
  unfold Windows.delete
  by_cases same : other = key
  · subst other
    rw [Function.update_self]
    simp only [windows, Table.find?_delete]
    cases search : store.entries.find? key with
    | none => rfl
    | some entry =>
      have named := (Table.find?_eq_some_iff.mp search).2
      simp [Option.filter_some, named]
  · rw [Function.update_of_ne same]
    simp only [windows, Table.find?_delete]
    cases search : store.entries.find? other with
    | none => rfl
    | some entry =>
      have named := (Table.find?_eq_some_iff.mp search).2
      simp [Option.filter_some, named, same]

@[simp] theorem get_snd (store : MemoryStore) (ctx : Ctx) (now : Int)
    (key : GoString) : (store.get ctx now key).2 = store := by
  unfold get
  split
  · rfl
  split
  · split <;> rfl
  · rfl

theorem get_count (accepted : accessRefusal ctx key = none) :
    (store.get ctx now key).1 =
      .ok (match stillOpen now (store.windows key) with
        | some window => { value := window.value, ttl := window.closesAt - now }
        | none => .zero) := by
  simp only [get, accepted, windows]
  cases store.entries.find? key with
  | none => rfl
  | some entry =>
    by_cases unexpired : now < entry.expiresAt
    all_goals simp [unexpired, stillOpen, Option.filter_some, Window.openAt, Entry.window]

theorem increment_canceled (store : MemoryStore) (now : Int) (key : GoString) (delta ttl : Int) :
    ∃ failure, (store.increment .canceled now key delta ttl).1 = .error failure := by
  obtain ⟨failure, refused⟩ := incrementRefusal_canceled key delta ttl
  exact ⟨failure, by rw [increment_refused refused]⟩

theorem get_canceled (store : MemoryStore) (now : Int) (key : GoString) :
    ∃ failure, (store.get .canceled now key).1 = .error failure := by
  obtain ⟨failure, refused⟩ := accessRefusal_canceled key
  exact ⟨failure, by rw [get, refused]⟩

end MemoryStore

end Vallet.Counter
