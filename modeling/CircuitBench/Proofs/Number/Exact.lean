import CircuitBench.Number.Binary
import Mathlib.Algebra.Order.Field.Power
import Mathlib.Data.Rat.Floor
import Mathlib.Tactic.Positivity

/-!
# The exact value of a floating-point number

A finite floating-point number is a rational number: a significand times a power of two, with a sign.
Whether it is an integer, and what is left of it without its fraction, are computed on the
significand by division; both are what they are of the rational number.

## Main results

* `isIntegral_iff` : the test for integers is a test of the exact value.
* `truncate?_eq` : a fraction is dropped towards zero.
-/

namespace CircuitBench.Number

/-- A rational number without its fraction. -/
def towardZero (q : ℚ) : ℤ :=
  if 0 ≤ q then ⌊q⌋ else ⌈q⌉

theorem towardZero_intCast (n : ℤ) : towardZero n = n := by
  unfold towardZero
  split
  · exact Int.floor_intCast n
  · exact Int.ceil_intCast n

theorem towardZero_neg (q : ℚ) : towardZero (-q) = -towardZero q := by
  unfold towardZero
  rcases lt_trichotomy q 0 with hNegative | rfl | hPositive
  · rw [if_pos (by linarith), if_neg (by linarith), Int.floor_neg]
  · simp
  · rw [if_neg (by linarith), if_pos (by linarith), Int.ceil_neg]

namespace Binary

/-! ## Magnitudes -/

/-- The absolute value of a finite number. -/
def magnitude (m : Nat) (e : Int) : ℚ :=
  m * 2 ^ e

theorem magnitude_nonneg (m : Nat) (e : Int) : 0 ≤ magnitude m e := by
  unfold magnitude
  positivity

theorem cast_pow_of_nonneg {e : Int} (h : 0 ≤ e) : ((Nat.pow 2 e.toNat : Nat) : ℚ) = 2 ^ e := by
  obtain ⟨k, rfl⟩ := Int.eq_ofNat_of_zero_le h
  show ((2 ^ k : Nat) : ℚ) = 2 ^ (k : Int)
  rw [zpow_natCast]
  push_cast
  rfl

theorem cast_pow_of_nonpos {e : Int} (h : e ≤ 0) :
    ((Nat.pow 2 (-e).toNat : Nat) : ℚ) = (2 ^ e)⁻¹ := by
  rw [cast_pow_of_nonneg (by omega), zpow_neg]

theorem magnitude_of_nonneg {e : Int} (h : 0 ≤ e) (m : Nat) :
    magnitude m e = ((m * Nat.pow 2 e.toNat : Nat) : ℚ) := by
  rw [Nat.cast_mul, cast_pow_of_nonneg h, magnitude]

theorem magnitude_of_neg {e : Int} (h : e < 0) (m : Nat) :
    magnitude m e = (m : ℚ) / (Nat.pow 2 (-e).toNat : Nat) := by
  rw [cast_pow_of_nonpos (by omega), div_inv_eq_mul, magnitude]

/-- What is left of a magnitude without the fraction. -/
theorem floor_magnitude (m : Nat) (e : Int) : ⌊magnitude m e⌋ = wholePart m e := by
  unfold wholePart
  split
  · rename_i hWhole
    rw [magnitude_of_nonneg hWhole]
    exact Int.floor_natCast _
  · rename_i hFraction
    rw [magnitude_of_neg (by omega)]
    exact Rat.floor_natCast_div_natCast m _

/-- A magnitude is an integer exactly if the power of two divides it. -/
theorem magnitude_eq_natCast_iff (m : Nat) (e : Int) :
    (0 ≤ e ∨ m % Nat.pow 2 (-e).toNat = 0) ↔ ∃ n : Nat, magnitude m e = n := by
  by_cases hWhole : 0 ≤ e
  · exact iff_of_true (.inl hWhole) ⟨_, magnitude_of_nonneg hWhole m⟩
  · have hPower : (0 : ℚ) < (Nat.pow 2 (-e).toNat : Nat) :=
      Nat.cast_pos.mpr (Nat.pow_pos (by decide))
    rw [or_iff_right hWhole, magnitude_of_neg (by omega)]
    constructor
    · intro hDivides
      obtain ⟨n, hn⟩ := Nat.dvd_of_mod_eq_zero hDivides
      refine ⟨n, ?_⟩
      rw [div_eq_iff hPower.ne', hn, Nat.cast_mul, mul_comm]
    · rintro ⟨n, hn⟩
      rw [div_eq_iff hPower.ne'] at hn
      exact Nat.mod_eq_zero_of_dvd ⟨n, by rw [mul_comm]; exact_mod_cast hn⟩

/-! ## Values -/

/-- The exact value of a number, if it is finite. -/
def value? : Binary → Option ℚ
  | finite negative m e => some (if negative then -magnitude m e else magnitude m e)
  | infinite _ => none
  | nan => none

/-- The test for integers is a test of the exact value. -/
theorem isIntegral_iff (x : Binary) :
    x.isIntegral = true ↔ ∃ n : ℤ, x.value? = some (n : ℚ) := by
  cases x with
  | infinite => simp [isIntegral, value?]
  | nan => simp [isIntegral, value?]
  | finite negative m e =>
      have hTest : (finite negative m e).isIntegral = true ↔ ∃ n : Nat, magnitude m e = n := by
        rw [← magnitude_eq_natCast_iff, isIntegral, Bool.or_eq_true, decide_eq_true_eq, beq_iff_eq]
      rw [hTest]
      simp only [value?, Option.some.injEq]
      constructor
      · rintro ⟨n, hn⟩
        cases negative with
        | false => exact ⟨n, by simp [hn]⟩
        | true => exact ⟨-n, by simp [hn]⟩
      · rintro ⟨n, hn⟩
        -- the integer without its sign is the magnitude, which is not negative
        refine ⟨n.natAbs, ?_⟩
        have hMagnitude := magnitude_nonneg m e
        have hAbs : |(n : ℚ)| = magnitude m e := by
          rw [← hn]
          split
          · rw [abs_neg, abs_of_nonneg hMagnitude]
          · rw [abs_of_nonneg hMagnitude]
        rw [← hAbs, ← Int.cast_abs, Int.abs_eq_natAbs]
        rfl

/-- A fraction is dropped towards zero. -/
theorem truncate?_eq (x : Binary) : x.truncate? = x.value?.map towardZero := by
  cases x with
  | infinite => rfl
  | nan => rfl
  | finite negative m e =>
      have hWhole : towardZero (magnitude m e) = wholePart m e := by
        rw [towardZero, if_pos (magnitude_nonneg m e), floor_magnitude]
      rw [truncate?, value?, Option.map_some]
      cases negative with
      | false => rw [if_neg Bool.false_ne_true, hWhole]; rfl
      | true => rw [if_pos rfl, towardZero_neg, hWhole]; rfl

end Binary

end CircuitBench.Number
