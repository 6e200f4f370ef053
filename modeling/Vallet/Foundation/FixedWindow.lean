import Mathlib.Data.Int.Order.Basic
import Mathlib.Data.List.Count
import Mathlib.Logic.Function.Basic

/-!
# Fixed-window counters

A key is counted in windows.  The first increment of a key opens a window of
the length asked for, later ones add to it without moving its end, and a
window that has closed reads as absent.  A limiter that admits an increment
while the grown count is within a limit admits at most twice the limit in any
stretch as long as a window.
-/

namespace FixedWindow

/-- A count and the time at which it is forgotten. -/
structure Window where
  value : Int
  closesAt : Int
deriving DecidableEq, Repr

def Window.openAt (window : Window) (now : Int) : Bool :=
  decide (now < window.closesAt)

variable {window : Window} {now delta ttl since till : Int}
  {stored : Option Window} {times : List Int}

@[simp] theorem Window.openAt_iff : window.openAt now = true ↔ now < window.closesAt := by
  simp [Window.openAt]

/-- The window that still counts at a time. -/
def stillOpen (now : Int) (window : Option Window) : Option Window :=
  window.filter (·.openAt now)

@[simp] theorem stillOpen_none (now : Int) : stillOpen now none = none := rfl

theorem stillOpen_eq_some_iff : stillOpen now stored = some window ↔
      stored = some window ∧ now < window.closesAt := by
  simp [stillOpen, Option.filter_eq_some_iff]

theorem stillOpen_some_of_open (unclosed : now < window.closesAt) :
    stillOpen now (some window) = some window :=
  stillOpen_eq_some_iff.mpr ⟨rfl, unclosed⟩

/-- The window of a key after an increment. -/
def grown (now : Int) (stored : Option Window) (delta ttl : Int) : Window :=
  match stillOpen now stored with
  | some window => { window with value := window.value + delta }
  | none => { value := delta, closesAt := now + ttl }

theorem grown_of_open (current : stillOpen now stored = some window) :
    grown now stored delta ttl = { window with value := window.value + delta } := by
  simp [grown, current]

theorem grown_of_closed (closed : stillOpen now stored = none) :
    grown now stored delta ttl = { value := delta, closesAt := now + ttl } := by
  simp [grown, closed]

theorem grown_congr {left right : Option Window} (same : stillOpen now left = stillOpen now right) :
    grown now left delta ttl = grown now right delta ttl := by
  simp [grown, same]

theorem lt_grown_closesAt (positive : 0 < ttl) : now < (grown now stored delta ttl).closesAt := by
  cases current : stillOpen now stored with
  | none =>
    rw [grown_of_closed current]
    exact Int.lt_add_of_pos_right now positive
  | some window =>
    rw [grown_of_open current]
    exact (stillOpen_eq_some_iff.mp current).2

/-- A positive count is visible at every time from one instant up to, but not
including, another. -/
def Covered (stored : Option Window) (since till : Int) : Prop :=
  ∀ time, since ≤ time → time < till →
    ∃ window, stillOpen time stored = some window ∧ 0 < window.value

theorem Covered.mono {later : Int} (covered : Covered stored since till) (order : since ≤ later) :
    Covered stored later till :=
  fun time afterLater => covered time (Int.le_trans order afterLater)

/-- Only what later reads see matters. -/
theorem Covered.congr {other : Option Window}
    (covered : Covered stored since till) (same : ∀ time, since ≤ time →
      stillOpen time other = stillOpen time stored) :
    Covered other since till := by
  intro time afterSince beforeTill
  rw [same time afterSince]
  exact covered time afterSince beforeTill

/-- Increments never uncover a key. -/
theorem Covered.grown (covered : Covered stored now till) (ttl : Int) (positive : 0 < delta) :
    Covered (some (FixedWindow.grown now stored delta ttl)) now till := by
  intro time afterNow beforeTill
  obtain ⟨window, current, counted⟩ := covered now (le_refl now) (by omega)
  obtain ⟨seen, visible, _⟩ := covered time afterNow beforeTill
  obtain ⟨found, _⟩ := stillOpen_eq_some_iff.mp current
  obtain ⟨seenFound, unclosed⟩ := stillOpen_eq_some_iff.mp visible
  have same : window = seen := Option.some.inj (found.symm.trans seenFound)
  subst seen
  rw [grown_of_open current]
  refine ⟨_, stillOpen_some_of_open unclosed, ?_⟩
  change 0 < window.value + delta
  omega

theorem covered_of_closesAt (counted : 0 < window.value) (longEnough : till ≤ window.closesAt) :
    Covered (some window) since till := by
  intro time _ beforeTill
  exact ⟨window, stillOpen_some_of_open (by omega), counted⟩

/-- The windows of all keys. -/
abbrev Windows (κ : Type) := κ → Option Window

namespace Windows

variable {κ : Type}

def current (windows : Windows κ) (now : Int) (key : κ) : Option Window :=
  stillOpen now (windows key)

def increment [DecidableEq κ] (windows : Windows κ) (now : Int) (key : κ)
    (delta ttl : Int) : Windows κ :=
  Function.update windows key (some (grown now (windows key) delta ttl))

def delete [DecidableEq κ] (windows : Windows κ) (key : κ) : Windows κ :=
  Function.update windows key none

@[simp] theorem increment_self [DecidableEq κ] (windows : Windows κ)
    (now : Int) (key : κ) (delta ttl : Int) :
    windows.increment now key delta ttl key = some (grown now (windows key) delta ttl) := by
  simp [increment]

theorem increment_of_ne [DecidableEq κ] (windows : Windows κ)
    (now : Int) {key other : κ} (different : other ≠ key) (delta ttl : Int) :
    windows.increment now key delta ttl other = windows other := by
  simp [increment, different]

/-- From a time on no read can tell the windows apart. -/
def Alike (now : Int) (left right : Windows κ) : Prop :=
  ∀ time, now ≤ time → ∀ key, stillOpen time (left key) = stillOpen time (right key)

namespace Alike

variable [DecidableEq κ] {now later : Int} {left middle right : Windows κ}

omit [DecidableEq κ] in
theorem later_of_le (alike : Alike now left right) (order : now ≤ later) : Alike later left right :=
  fun time after => alike time (Int.le_trans order after)

omit [DecidableEq κ] in
theorem trans (first : Alike now left middle)
    (second : Alike now middle right) : Alike now left right :=
  fun time after key => (first time after key).trans (second time after key)

theorem increment (alike : Alike now left right) (key : κ) (delta ttl : Int) :
    Alike now (left.increment now key delta ttl) (right.increment now key delta ttl) := by
  intro time after other
  by_cases same : other = key
  · subst other
    rw [increment_self, increment_self, grown_congr (alike now (Int.le_refl now) key)]
  · rw [increment_of_ne _ _ same, increment_of_ne _ _ same]
    exact alike time after other

theorem delete (alike : Alike now left right) (key : κ) :
    Alike now (left.delete key) (right.delete key) := by
  intro time after other
  unfold Windows.delete
  by_cases same : other = key
  · subst other
    rw [Function.update_self, Function.update_self]
  · rw [Function.update_of_ne same, Function.update_of_ne same]
    exact alike time after other

end Alike

end Windows

theorem Covered.increment {κ : Type} [DecidableEq κ] {windows : Windows κ}
    {other : κ} (covered : Covered (windows other) now till) (key : κ)
    (ttl : Int) (positive : 0 < delta) :
    Covered (windows.increment now key delta ttl other) now till := by
  by_cases same : other = key
  · subst other
    rw [Windows.increment_self]
    exact covered.grown ttl positive
  · rw [Windows.increment_of_ne windows now same]
    exact covered

/-! ## Admissions -/

/-- How many recorded times lie between two instants, both included. -/
def between (since till : Int) (times : List Int) : Int :=
  times.countP fun time => decide (since ≤ time ∧ time ≤ till)

theorem between_cons (since till time : Int) (times : List Int) :
    between since till (time :: times) =
      between since till times +
        if since ≤ time ∧ time ≤ till then 1 else 0 := by
  unfold between
  by_cases inside : since ≤ time ∧ time ≤ till
  · rw [List.countP_cons_of_pos (by simpa using inside), if_pos inside]
    simp
  · rw [List.countP_cons_of_neg (by simpa using inside), if_neg inside]
    simp

/-- Recorded times that lie in a second interval whenever they lie in the
first are counted there too. -/
theorem between_le_between {wideSince wideTill : Int}
    (wider : ∀ time ∈ times, since ≤ time → time ≤ till → wideSince ≤ time ∧ time ≤ wideTill) :
    between since till times ≤ between wideSince wideTill times := by
  unfold between
  refine Int.ofNat_le.mpr (List.countP_mono_left fun time member inside => ?_)
  simp only [decide_eq_true_eq] at inside ⊢
  exact wider time member inside.1 inside.2

/-- Selecting records by one property or by another that holds of them during
the stretch. -/
theorem between_filter_le {ρ : Type} {records : List ρ} {time : ρ → Int}
    {narrow wide : ρ → Bool} (wider : ∀ record ∈ records, narrow record = true →
      since ≤ time record → time record ≤ till → wide record = true) :
    between since till ((records.filter narrow).map time) ≤
      between since till ((records.filter wide).map time) := by
  simp only [between, List.countP_map, List.countP_filter]
  refine Int.ofNat_le.mpr (List.countP_mono_left fun record member inside => ?_)
  simp only [Function.comp_apply, Bool.and_eq_true, decide_eq_true_eq] at inside ⊢
  exact ⟨inside.1, wider record member inside.2 inside.1.1 inside.1.2⟩

theorem between_split (since middle till : Int) (times : List Int) :
    between since till times ≤ between since (middle - 1) times + between middle till times := by
  induction times with
  | nil => simp [between]
  | cons time times induction =>
    simp only [between_cons]
    split <;> split <;> split <;> omega

theorem between_eq_zero (outside : ∀ time ∈ times, since ≤ time → ¬ time ≤ till) :
    between since till times = 0 := by
  unfold between
  rw [Int.natCast_eq_zero, List.countP_eq_zero]
  intro time member
  simp only [decide_eq_true_eq, not_and]
  exact outside time member

/-- What a limiter has recorded that admits an increment while the grown count
stays within `limit`.  `last` is the window it opened last: it holds at most
`limit` admissions, the stretch of the same length before it holds at most
`limit` more, and no stretch of that length ever holds over twice as many. -/
structure Budget (limit length clock : Int) (last : Option Window) (times : List Int) : Prop where
  recorded : ∀ time ∈ times, time ≤ clock
  untouched : last = none → times = []
  opened : ∀ window ∈ last, window.closesAt ≤ clock + length
  unclosed : ∀ window ∈ last, ∀ time ∈ times, time < window.closesAt
  current : ∀ window ∈ last, between (window.closesAt - length) clock times ≤ window.value ∧
      between (window.closesAt - length) clock times ≤ limit
  previous : ∀ window ∈ last, between (window.closesAt - length - length)
      (window.closesAt - length - 1) times ≤ limit
  total : ∀ since, between since (since + length) times ≤ 2 * limit

namespace Budget

variable {limit length clock now : Int} {last : Option Window} {times : List Int} {window : Window}

theorem initial (positive : 0 < limit) (clock : Int) : Budget limit length clock none [] where
  recorded := by simp
  untouched _ := rfl
  opened := by simp
  unclosed := by simp
  current := by simp
  previous := by simp
  total := by
    intro since
    simp only [between, List.countP_nil]
    omega

theorem later (budget : Budget limit length clock last times)
    (order : clock ≤ now) : Budget limit length now last times where
  recorded time member := Int.le_trans (budget.recorded time member) order
  untouched := budget.untouched
  opened window isLast := by
    have opened := budget.opened window isLast
    omega
  unclosed := budget.unclosed
  current window isLast := by
    have same : between (window.closesAt - length) now times ≤
        between (window.closesAt - length) clock times :=
      between_le_between fun time member since _ =>
        ⟨since, budget.recorded time member⟩
    obtain ⟨value, bounded⟩ := budget.current window isLast
    exact ⟨Int.le_trans same value, Int.le_trans same bounded⟩
  previous := budget.previous
  total := budget.total

section

variable (budget : Budget limit length now (some window) times)

include budget

theorem admit_open (unclosed : now < window.closesAt) (within : window.value + 1 ≤ limit) :
    Budget limit length now (some { window with value := window.value + 1 }) (now :: times) where
  recorded := by
    intro time member
    rcases List.mem_cons.mp member with rfl | member
    · exact le_refl _
    · exact budget.recorded time member
  untouched := by simp
  opened := by
    rintro _ ⟨⟩
    exact budget.opened window rfl
  unclosed := by
    rintro _ ⟨⟩ time member
    rcases List.mem_cons.mp member with rfl | member
    · exact unclosed
    · exact budget.unclosed window rfl time member
  current := by
    rintro _ ⟨⟩
    obtain ⟨value, _⟩ := budget.current window rfl
    simp only [between_cons]
    split <;> omega
  previous := by
    rintro _ ⟨⟩
    have opened := budget.opened window rfl
    have previous := budget.previous window rfl
    simp only [between_cons]
    split <;> omega
  total := by
    intro since
    rw [between_cons]
    split
    case isFalse => simpa using budget.total since
    case isTrue inside =>
      -- the stretch ends after the window opened, so it starts less than one
      -- length before it
      have opened := budget.opened window rfl
      have split := between_split since (window.closesAt - length) (since + length) times
      have before : between since (window.closesAt - length - 1) times ≤
          between (window.closesAt - length - length) (window.closesAt - length - 1) times :=
        between_le_between fun time _ afterSince beforeOpening =>
          ⟨by omega, beforeOpening⟩
      have inWindow : between (window.closesAt - length) (since + length)
          times ≤ between (window.closesAt - length) now times :=
        between_le_between fun time member afterOpening _ =>
          ⟨afterOpening, budget.recorded time member⟩
      have previous := budget.previous window rfl
      obtain ⟨value, _⟩ := budget.current window rfl
      omega

theorem refuse_open :
    Budget limit length now (some { window with value := window.value + 1 }) times where
  recorded := budget.recorded
  untouched := by simp
  opened := by
    rintro _ ⟨⟩
    exact budget.opened window rfl
  unclosed := by
    rintro _ ⟨⟩
    exact budget.unclosed window rfl
  current := by
    rintro _ ⟨⟩
    obtain ⟨value, bounded⟩ := budget.current window rfl
    exact ⟨by simp only; omega, bounded⟩
  previous := by
    rintro _ ⟨⟩
    exact budget.previous window rfl
  total := budget.total

end

theorem closesAt_le_of_closed (closed : stillOpen now (some window) = none) :
    window.closesAt ≤ now := by
  by_contra unclosed
  rw [stillOpen_some_of_open (by omega)] at closed
  cases closed

variable (budget : Budget limit length now last times)

include budget

theorem lt_of_closed (closed : stillOpen now last = none) {time : Int}
    (member : time ∈ times) : time < now := by
  cases last with
  | none =>
    rw [budget.untouched rfl] at member
    cases member
  | some window =>
    exact Int.lt_of_lt_of_le (budget.unclosed window rfl time member) (closesAt_le_of_closed closed)

/-- Once the last window has closed, all that was admitted during the last
stretch was admitted in it. -/
theorem recent_of_closed (closed : stillOpen now last = none) (nonnegative : 0 ≤ limit) :
    between (now - length) now times ≤ limit := by
  cases last with
  | none =>
    rw [budget.untouched rfl]
    exact nonnegative
  | some window =>
    have closesAt := closesAt_le_of_closed closed
    refine Int.le_trans ?_ (budget.current window rfl).2
    exact between_le_between fun time _ since till => ⟨by omega, till⟩

theorem admit_closed
    (closed : stillOpen now last = none) (within : 1 ≤ limit) (positive : 0 < length) :
    Budget limit length now (some { value := 1, closesAt := now + length }) (now :: times) := by
  have past : ∀ time ∈ times, time < now :=
    fun time member => budget.lt_of_closed closed member
  have recent : between (now - length) now times ≤ limit :=
    budget.recent_of_closed closed (by omega)
  constructor
  case recorded =>
    intro time member
    rcases List.mem_cons.mp member with rfl | member
    · exact le_refl _
    · exact budget.recorded time member
  case untouched => simp
  case opened =>
    rintro _ ⟨⟩
    exact le_refl _
  case unclosed =>
    rintro _ ⟨⟩ time member
    have recorded : time ≤ now := by
      rcases List.mem_cons.mp member with rfl | member
      · exact le_refl _
      · exact budget.recorded time member
    simp only
    omega
  case current =>
    rintro _ ⟨⟩
    have none : between (now + length - length) now times = 0 :=
      between_eq_zero fun time member since => by
        have := past time member
        omega
    simp only [between_cons, none]
    split <;> omega
  case previous =>
    rintro _ ⟨⟩
    have same : between (now + length - length - length)
        (now + length - length - 1) times ≤ between (now - length) now times :=
      between_le_between fun time _ since till => ⟨by omega, by omega⟩
    simp only [between_cons]
    split <;> omega
  case total =>
    intro since
    rw [between_cons]
    split
    case isFalse => simpa using budget.total since
    case isTrue inside =>
      have same : between since (since + length) times ≤ between (now - length) now times :=
        between_le_between fun time member afterSince _ =>
          ⟨by omega, budget.recorded time member⟩
      omega

/-- One increment, admitted while the grown count is within the limit. -/
theorem grow (within : 1 ≤ limit) (positive : 0 < length) :
    Budget limit length now (some (grown now last 1 length))
      (if (grown now last 1 length).value ≤ limit then now :: times
        else times) := by
  cases current : stillOpen now last with
  | none =>
    rw [grown_of_closed current, if_pos within]
    exact budget.admit_closed current within positive
  | some window =>
    obtain ⟨rfl, unclosed⟩ := stillOpen_eq_some_iff.mp current
    rw [grown_of_open current]
    split
    case isTrue admitted => exact budget.admit_open unclosed admitted
    case isFalse => exact budget.refuse_open

end Budget

end FixedWindow
