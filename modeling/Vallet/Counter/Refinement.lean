import Vallet.Counter.Memory

/-!
# The memory store as a fixed-window counter

The specification keeps every window it ever opened and never sweeps.  Lazy
expiry, the purge every `sweepInterval` writes and `Sweep` itself drop only
windows that no later call can see.
-/

namespace Vallet.Counter

open FixedWindow Relational MemoryStore

inductive CounterCall where
  | increment (ctx : Ctx) (key : GoString) (delta ttl : Int)
  | get (ctx : Ctx) (key : GoString)
  | delete (ctx : Ctx) (key : GoString)
  | sweep
deriving DecidableEq

/-- What a call returns; how many entries a `Sweep` dropped is not part of the
specification. -/
inductive CounterAnswer where
  | count (outcome : Except Err Count)
  | done (outcome : Except Err Unit)
  | swept

def MemoryStore.perform (store : MemoryStore) (now : Int) :
    CounterCall → CounterAnswer × MemoryStore
  | .increment ctx key delta ttl =>
    let outcome := store.increment ctx now key delta ttl
    (.count outcome.1, outcome.2)
  | .get ctx key =>
    let outcome := store.get ctx now key
    (.count outcome.1, outcome.2)
  | .delete ctx key =>
    let outcome := store.delete ctx now key
    (.done outcome.1, outcome.2)
  | .sweep => (.swept, (store.sweep now).2)

/-- The count of a key from the window it is counted in. -/
def Count.of (now : Int) : Option Window → Count
  | some window => { value := window.value, ttl := window.closesAt - now }
  | none => .zero

/-- The fixed-window counter: a key is counted in the window its first
increment opened until that window closes or is deleted. -/
def specify (windows : Windows GoString) (now : Int) :
    CounterCall → CounterAnswer × Windows GoString
  | .increment ctx key delta ttl =>
    match incrementRefusal ctx key delta ttl with
    | some refusal => (.count (.error refusal), windows)
    | none =>
      let later := windows.increment now key delta ttl
      (.count (.ok (.of now (later.current now key))), later)
  | .get ctx key =>
    match accessRefusal ctx key with
    | some refusal => (.count (.error refusal), windows)
    | none => (.count (.ok (.of now (windows.current now key))), windows)
  | .delete ctx key =>
    match accessRefusal ctx key with
    | some refusal => (.done (.error refusal), windows)
    | none => (.done (.ok ()), windows.delete key)
  | .sweep => (.swept, windows)

/-- The answers to calls made one after the other, and what they leave. -/
def answers {σ : Type} (perform : σ → Int → CounterCall → CounterAnswer × σ) :
    σ → List (Int × CounterCall) → List CounterAnswer × σ
  | state, [] => ([], state)
  | state, (now, call) :: calls =>
    let rest := answers perform (perform state now call).2 calls
    ((perform state now call).1 :: rest.1, rest.2)

variable {store : MemoryStore} {windows : Windows GoString} {now time : Int} {key : GoString}

theorem incrementRefusal_none {ctx : Ctx} {delta ttl : Int}
    (accepted : incrementRefusal ctx key delta ttl = none) : 0 < delta ∧ 0 < ttl := by
  unfold incrementRefusal at accepted
  split at accepted
  · cases accepted
  split at accepted
  · cases accepted
  split at accepted
  · cases accepted
  · omega

/-- One call: the same answer, and no later read can tell the two apart. -/
theorem perform_alike (alike : Windows.Alike now store.windows windows) (call : CounterCall) :
    (store.perform now call).1 = (specify windows now call).1 ∧
      Windows.Alike now (store.perform now call).2.windows (specify windows now call).2 := by
  cases call with
  | increment ctx key delta ttl =>
    simp only [perform, specify]
    cases checked : incrementRefusal ctx key delta ttl with
    | some refusal =>
      rw [increment_refused checked]
      exact ⟨rfl, alike⟩
    | none =>
      refine ⟨?_, Windows.Alike.trans (fun _ order _ =>
        stillOpen_windows_increment checked order _) (alike.increment key delta ttl)⟩
      have unclosed : now < (grown now (windows key) delta ttl).closesAt :=
        lt_grown_closesAt (incrementRefusal_none checked).2
      rw [increment_count store now checked, grown_congr (alike now (Int.le_refl now) key)]
      simp only [Windows.current, Windows.increment_self, stillOpen_some_of_open unclosed, Count.of]
  | get ctx key =>
    simp only [perform, specify]
    cases checked : accessRefusal ctx key with
    | some refusal =>
      rw [MemoryStore.get, checked]
      exact ⟨rfl, alike⟩
    | none =>
      rw [get_count checked, get_snd, alike now (Int.le_refl now) key]
      refine ⟨?_, alike⟩
      simp only [Windows.current]
      cases stillOpen now (windows key) with
      | none | some => rfl
  | delete ctx key =>
    simp only [perform, specify]
    cases checked : accessRefusal ctx key with
    | some refusal =>
      rw [delete, checked]
      exact ⟨rfl, alike⟩
    | none =>
      refine ⟨?_, Windows.Alike.trans (fun _ order _ =>
        stillOpen_windows_delete checked order _) (alike.delete key)⟩
      rw [delete, checked]
  | sweep =>
    refine ⟨rfl, fun time order key => ?_⟩
    change stillOpen time ((store.purgeLocked now).windows key) = _
    rw [stillOpen_windows_purgeLocked store order]
    exact alike time order key

theorem answers_alike {calls : List (Int × CounterCall)}
    (alike : ∀ time ∈ calls.map Prod.fst ++ [now], Windows.Alike time store.windows windows)
    (ordered : (calls.map Prod.fst ++ [now]).Pairwise (· ≤ ·)) :
    (answers perform store calls).1 = (answers specify windows calls).1 ∧
      Windows.Alike now (answers perform store calls).2.windows
        (answers specify windows calls).2 := by
  induction calls generalizing store windows with
  | nil => exact ⟨rfl, alike now List.mem_cons_self⟩
  | cons timed calls induction =>
    obtain ⟨time, call⟩ := timed
    obtain ⟨after, ordered⟩ := List.pairwise_cons.mp ordered
    obtain ⟨answered, stillAlike⟩ := perform_alike (alike time List.mem_cons_self) call
    obtain ⟨rest, last⟩ := induction (fun later member =>
        stillAlike.later_of_le (after later member)) ordered
    refine ⟨?_, last⟩
    change _ :: _ = _ :: _
    rw [answered, rest]

theorem MemoryStore.resident_purgeLocked (store : MemoryStore) (now : Int) (key : GoString) :
    ((store.purgeLocked now).entries.find? key).isSome =
      (stillOpen now (store.windows key)).isSome := by
  simp only [purgeLocked, Table.find?_delete, windows]
  cases store.entries.find? key with
  | none => rfl
  | some entry =>
    by_cases unexpired : now < entry.expiresAt <;>
      simp [Option.filter_some, stillOpen, Window.openAt, Entry.window, unexpired]

/-- Every call of a run answers as the fixed-window counter does, and a
`Sweep` leaves exactly the keys whose window is open. -/
theorem memory_store_counts_windows (calls : List (Int × CounterCall))
    (now : Int) (ordered : (calls.map Prod.fst ++ [now]).Pairwise (· ≤ ·)) :
    let counted := answers perform .new calls
    let specified := answers specify (fun _ => none) calls
    counted.1 = specified.1 ∧ ∀ key,
      ((counted.2.sweep now).2.entries.find? key).isSome =
        (specified.2.current now key).isSome := by
  have fresh : ∀ time, Windows.Alike time new.windows
      fun _ => none :=
    fun _ _ _ _ => rfl
  obtain ⟨same, alike⟩ := answers_alike (fun time _ => fresh time) ordered
  refine ⟨same, fun key => ?_⟩
  rw [sweep, resident_purgeLocked, alike now (Int.le_refl now) key, Windows.current]

/-- A key is counted over the end of its window and swept away. -/
theorem memory_store_counts_windows_reopened : let calls := [(0, .increment .live (utf8 "k") 2 10),
      (9, .get .live (utf8 "k")), (10, .increment .live (utf8 "k") 1 5)]
    let counted := answers perform .new calls
    let specified := answers specify (fun _ => none) calls
    counted.1 = specified.1 ∧ ∀ key,
      ((counted.2.sweep 15).2.entries.find? key).isSome = (specified.2.current 15 key).isSome :=
  memory_store_counts_windows _ 15 (by decide)

end Vallet.Counter
