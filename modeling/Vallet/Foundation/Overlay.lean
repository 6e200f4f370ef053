import Mathlib.Data.List.Induction
import Mathlib.Data.Set.Basic

/-!
# Decisions laid over a base set

A decision says of one key that it is in the set or that it is not.  Laying
decisions over a base one after the other gives the set in which the last
decision about a key holds and an undecided key is as in the base.
-/

namespace Overlay

variable {δ κ : Type} [DecidableEq κ] (key : δ → κ) (present : δ → Bool)

def lay (set : Set κ) (decision : δ) : Set κ :=
  { wanted | if wanted = key decision then present decision = true
    else wanted ∈ set }

/-- All decisions, in order. -/
def settle (base : Set κ) (decisions : List δ) : Set κ :=
  decisions.foldl (lay key present) base

/-- The last decision about a key. -/
def last? (decisions : List δ) (wanted : κ) : Option δ :=
  decisions.foldl
    (fun found decision =>
      if wanted = key decision then some decision else found) none

variable {key present}

@[simp] theorem mem_lay {set : Set κ} {decision : δ} {wanted : κ} :
    wanted ∈ lay key present set decision ↔
      if wanted = key decision then present decision = true
      else wanted ∈ set :=
  Iff.rfl

theorem last?_append_singleton (decisions : List δ) (decision : δ) (wanted : κ) :
    last? key (decisions ++ [decision]) wanted =
      if wanted = key decision then some decision
      else last? key decisions wanted := by
  simp [last?, List.foldl_append]

theorem settle_append_singleton (base : Set κ) (decisions : List δ) (decision : δ) :
    settle key present base (decisions ++ [decision]) =
      lay key present (settle key present base decisions) decision := by
  simp [settle, List.foldl_append]

/-- The last decision about a key holds; an undecided key is as in the
base. -/
theorem mem_settle {base : Set κ} {decisions : List δ} {wanted : κ} :
    wanted ∈ settle key present base decisions ↔
      match last? key decisions wanted with
      | some decision => present decision = true
      | none => wanted ∈ base := by
  induction decisions using List.reverseRecOn with
  | nil => exact Iff.rfl
  | append_singleton earlier decision induction =>
    rw [settle_append_singleton, mem_lay, last?_append_singleton]
    by_cases same : wanted = key decision
    · simp [same]
    · simp [same, induction]

/-- A decision that no later one is about is the last. -/
theorem last?_eq_of_split (earlier later : List δ) (decision : δ)
    (unrevised : ∀ other ∈ later, key other ≠ key decision) :
    last? key (earlier ++ decision :: later) (key decision) = some decision := by
  induction later using List.reverseRecOn with
  | nil => rw [last?_append_singleton, if_pos rfl]
  | append_singleton others last induction =>
    have differs := unrevised last (by simp)
    rw [← List.cons_append, ← List.append_assoc, last?_append_singleton, if_neg differs.symm]
    apply induction
    intro other member
    exact unrevised other (List.mem_append_left _ member)

end Overlay
