import Vallet.Domain.Values
import Mathlib.Algebra.Order.Ring.Int

/-!
# The backoff curve of the auth tier

Each failure over the limit doubles the lockout, up to a cap.  The doubling is
a shift of an `int64`: what does not fit is lost, and only a result that is not
positive is taken for an overflow.
-/

namespace Vallet.RateLimit

structure AuthTier where
  limit : Int
  window : Int
  horizon : Int
  cap : Int
deriving DecidableEq, Repr

namespace AuthTier

def validate (tier : AuthTier) : Except Err Unit :=
  if tier.limit ≤ 0 then
    .error (.errorf "ratelimit: auth limit must be positive" .invalidInput)
  else if tier.window ≤ 0 then
    .error (.errorf "ratelimit: auth window must be positive" .invalidInput)
  else if tier.horizon ≤ 0 then
    .error (.errorf "ratelimit: auth horizon must be positive" .invalidInput)
  else if tier.cap ≤ 0 then
    .error (.errorf "ratelimit: auth cap must be positive" .invalidInput)
  else if tier.horizon ≤ tier.cap then
    .error (.errorf ("ratelimit: auth horizon must exceed cap, else backoff " ++
      "resets by waiting") .invalidInput)
  else
    .ok ()

def maxShift : Int := 62

def lockout (tier : AuthTier) (n : Int) : Int :=
  if n ≤ tier.limit then 0
  else
    let shift := n - tier.limit - 1
    if shift > maxShift then tier.cap
    else
      let d := (tier.window * 2 ^ shift.toNat).bmod (2 ^ 64)
      if d ≤ 0 ∨ d > tier.cap then tier.cap else d

/-- The window doubled for level `n`, in exact integers. -/
def doubled (tier : AuthTier) (n : Int) : Int :=
  tier.window * 2 ^ (n - tier.limit - 1).toNat

/-- The curve that the tier is meant to follow. -/
def curve (tier : AuthTier) (n : Int) : Int :=
  if n ≤ tier.limit then 0 else min tier.cap (tier.doubled n)

/-- The doubled window needs more than 64 bits, and the low 64 make a lockout
below the cap. -/
structure Wraps (tier : AuthTier) (n : Int) : Prop where
  beyond : tier.limit < n
  shifted : n - tier.limit - 1 ≤ maxShift
  wide : 2 ^ 64 ≤ tier.doubled n
  positive : 0 < tier.doubled n % 2 ^ 64
  below : tier.doubled n % 2 ^ 64 < tier.cap

variable {tier : AuthTier}

theorem pos_of_validate (accepted : tier.validate = .ok ()) : 0 < tier.window ∧ 0 < tier.cap := by
  unfold validate at accepted
  split_ifs at accepted with _ window _ cap
  exact ⟨Int.not_le.mp window, Int.not_le.mp cap⟩

theorem doubled_pos (positive : 0 < tier.window) (n : Int) : 0 < tier.doubled n :=
  Int.mul_pos positive (pow_pos (by decide) _)

theorem doubled_mono (positive : 0 < tier.window) {m n : Int} (order : m ≤ n) :
    tier.doubled m ≤ tier.doubled n := by
  refine Int.mul_le_mul_of_nonneg_left ?_ positive.le
  exact pow_le_pow_right₀ (by decide) (by omega)

theorem curve_mono (accepted : tier.validate = .ok ()) {m n : Int} (order : m ≤ n) :
    tier.curve m ≤ tier.curve n := by
  obtain ⟨window, cap⟩ := pos_of_validate accepted
  have doubling := doubled_mono window order
  have positive := doubled_pos window n
  unfold curve
  split <;> split <;> omega

/-- Past the largest shift the exact curve has reached every cap there is. -/
theorem le_doubled (positive : 0 < tier.window) {n : Int}
    (far : n - tier.limit - 1 > maxShift) : 2 ^ 63 ≤ tier.doubled n := by
  have power : (2 : Int) ^ 63 ≤ 2 ^ (n - tier.limit - 1).toNat :=
    pow_le_pow_right₀ (by decide) (by unfold maxShift at far; omega)
  calc (2 : Int) ^ 63 ≤ 1 * 2 ^ (n - tier.limit - 1).toNat := by rw [one_mul]; exact power
    _ ≤ tier.doubled n := Int.mul_le_mul_of_nonneg_right positive (pow_pos (by decide) _).le

/-- The tier follows its curve at every level whose lockout does not wrap, and
at no other; without a wrapped level its lockouts only grow. -/
theorem lockout_eq_curve_iff (tier : AuthTier) (accepted : tier.validate = .ok ())
    (machine : tier.cap < 2 ^ 63) :
    (∀ n, tier.lockout n = tier.curve n ↔ ¬ tier.Wraps n) ∧
      ((∀ n, ¬ tier.Wraps n) → ∀ m n, m ≤ n → tier.lockout m ≤ tier.lockout n) := by
  obtain ⟨window, cap⟩ := pos_of_validate accepted
  have agrees : ∀ n, tier.lockout n = tier.curve n ↔ ¬ tier.Wraps n := by
    intro n
    unfold lockout curve
    split
    · rename_i within
      exact iff_of_true rfl fun wraps => absurd wraps.beyond (by omega)
    rename_i passed
    simp only
    split
    · rename_i far
      have reached := le_doubled window far
      exact iff_of_true (by omega) fun wraps => absurd wraps.shifted (by omega)
    · rename_i near
      have wraps : tier.Wraps n ↔ 2 ^ 64 ≤ tier.doubled n ∧
          0 < tier.doubled n % 2 ^ 64 ∧ tier.doubled n % 2 ^ 64 < tier.cap :=
        ⟨fun wraps => ⟨wraps.wide, wraps.positive, wraps.below⟩,
          fun ⟨wide, positive, below⟩ =>
            ⟨by omega, by omega, wide, positive, below⟩⟩
      have positive := doubled_pos window n
      rw [wraps, ← doubled, Int.bmod_def]
      split <;> omega
  refine ⟨agrees, fun never m n order => ?_⟩
  rw [(agrees m).mpr (never m), (agrees n).mpr (never n)]
  exact curve_mono accepted order

end AuthTier

namespace Sample

/-- A window of a quarter of the range and a little more. -/
def wideTier : AuthTier := ⟨1, 2 ^ 62 + 1, 20, 10⟩

def minuteTier : AuthTier := ⟨5, 60000000000, 7200000000000, 3600000000000⟩

end Sample

open Sample in
/-- The fourth failure is locked out for four nanoseconds, the second for ten. -/
theorem lockout_wraps : wideTier.validate = .ok () ∧ wideTier.lockout 2 = 10 ∧
    wideTier.lockout 4 = 4 ∧ wideTier.curve 4 = 10 := by
  decide +kernel

open Sample in
/-- Each failure after the fifth one doubles a minute, up to an hour. -/
theorem lockout_eq_curve_minutes : minuteTier.lockout 8 = minuteTier.curve 8 :=
  ((minuteTier.lockout_eq_curve_iff (by decide +kernel) (by decide)).1 8).mpr
    fun wraps => absurd wraps.wide (by decide +kernel)

end Vallet.RateLimit
