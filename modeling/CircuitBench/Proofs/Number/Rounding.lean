import CircuitBench.Proofs.Number.Exact
import Mathlib.Tactic.GCongr
import Mathlib.Tactic.FieldSimp
import Mathlib.Tactic.Linarith
import Mathlib.Tactic.Ring

/-!
# Numbers that a format holds

A format holds the multiples of its powers of two whose significand has no more bits than it keeps.
Rounding picks the power of two by the size of the number, as fine as the bits allow; so a number
that the format holds is a whole number of these powers, and is not changed by rounding.  Whatever is
rounded becomes a number that the format holds, and what a format holds is held by every format with
more bits and a wider range.

## Main results

* `quotientLog_spec` : the size of a quotient, as a power of two.
* `ofQuotient_exact` : a quotient that the format holds is not changed.
* `value?_round` : a number that the format holds keeps its value.
* `fits_round` : rounding gives a number that the format holds.
-/

namespace CircuitBench.Number.Binary

/-! ## The size of a quotient -/

theorem scale_spec (num : Nat) {den : Nat} (hDen : 0 < den) (e : Int) :
    0 < (scale num den e).2 ∧
      ((scale num den e).1 : ℚ) / (scale num den e).2 = num / den / 2 ^ e := by
  have hPower : ∀ k, 0 < Nat.pow 2 k := fun k => Nat.pow_pos (by decide)
  unfold scale
  split
  · rename_i hWhole
    refine ⟨Nat.mul_pos hDen (hPower _), ?_⟩
    rw [Nat.cast_mul, cast_pow_of_nonneg hWhole, div_div]
  · rename_i hFraction
    refine ⟨hDen, ?_⟩
    rw [Nat.cast_mul, cast_pow_of_nonpos (by omega), div_div, ← div_eq_mul_inv, div_div, mul_comm]

theorem log2_bounds {n : Nat} (h : 0 < n) :
    (2 : ℚ) ^ (n.log2 : ℤ) ≤ n ∧ (n : ℚ) < 2 ^ ((n.log2 : ℤ) + 1) := by
  have hLow : 2 ^ n.log2 ≤ n := Nat.log2_self_le (by omega)
  have hHigh : n < 2 ^ (n.log2 + 1) := Nat.lt_log2_self
  constructor
  · rw [zpow_natCast]
    exact_mod_cast hLow
  · rw [show (n.log2 : ℤ) + 1 = ((n.log2 + 1 : ℕ) : ℤ) by omega, zpow_natCast]
    exact_mod_cast hHigh

/-- A quotient lies between two powers of two, of which the smaller is the size of it. -/
theorem quotientLog_spec {num den : Nat} (hNum : 0 < num) (hDen : 0 < den) :
    (2 : ℚ) ^ quotientLog num den ≤ num / den ∧
      (num / den : ℚ) < 2 ^ (quotientLog num den + 1) := by
  obtain ⟨hNumLow, hNumHigh⟩ := log2_bounds hNum
  obtain ⟨hDenLow, hDenHigh⟩ := log2_bounds hDen
  have hDenPos : (0 : ℚ) < den := Nat.cast_pos.mpr hDen
  generalize hGuess : (num.log2 : ℤ) - (den.log2 : ℤ) = guess
  -- the logarithms of the two sides leave one power of two open
  have hLow : (2 : ℚ) ^ (guess - 1) ≤ num / den := by
    rw [le_div_iff₀ hDenPos]
    calc (2 : ℚ) ^ (guess - 1) * den ≤ 2 ^ (guess - 1) * 2 ^ ((den.log2 : ℤ) + 1) := by gcongr
      _ = 2 ^ (num.log2 : ℤ) := by rw [← zpow_add₀ (by norm_num)]; congr 1; omega
      _ ≤ num := hNumLow
  have hHigh : (num / den : ℚ) < 2 ^ (guess + 1) := by
    rw [div_lt_iff₀ hDenPos]
    calc (num : ℚ) < 2 ^ ((num.log2 : ℤ) + 1) := hNumHigh
      _ = 2 ^ (guess + 1) * 2 ^ (den.log2 : ℤ) := by
        rw [← zpow_add₀ (by norm_num)]; congr 1; omega
      _ ≤ 2 ^ (guess + 1) * den := by gcongr
  obtain ⟨hScaledPos, hScaled⟩ := scale_spec num hDen guess
  have hPower : (0 : ℚ) < 2 ^ guess := by positivity
  have hCompare : (scale num den guess).1 < (scale num den guess).2 ↔
      (num / den : ℚ) < 2 ^ guess := by
    have hPos : (0 : ℚ) < (scale num den guess).2 := Nat.cast_pos.mpr hScaledPos
    rw [← Nat.cast_lt (α := ℚ), ← div_lt_one hPos, hScaled, div_lt_one hPower]
  have hLog : quotientLog num den =
      if (scale num den guess).1 < (scale num den guess).2 then guess - 1 else guess := by
    rw [← hGuess]
    rfl
  rw [hLog]
  split
  · rename_i hBelow
    refine ⟨hLow, ?_⟩
    rw [sub_add_cancel]
    exact hCompare.mp hBelow
  · rename_i hAbove
    exact ⟨not_lt.mp (mt hCompare.mpr hAbove), hHigh⟩

/-! ## Rounding a quotient -/

/-- The power of two that a quotient is rounded to in a format. -/
def unitOf (format : Format) (num den : Nat) : Int :=
  max format.leastExponent (quotientLog num den - (format.precision - 1))

/-- A quotient is less than as many units as the bits of the format count. -/
theorem scaled_lt (format : Format) {num den : Nat} (hNum : 0 < num) (hDen : 0 < den) :
    (num / den / 2 ^ unitOf format num den : ℚ) < 2 ^ format.precision := by
  have hUnit : quotientLog num den + 1 - format.precision ≤ unitOf format num den := by
    unfold unitOf
    omega
  rw [div_lt_iff₀ (by positivity), ← zpow_natCast, ← zpow_add₀ (by norm_num)]
  calc (num / den : ℚ) < 2 ^ (quotientLog num den + 1) := (quotientLog_spec hNum hDen).2
    _ ≤ 2 ^ ((format.precision : ℤ) + unitOf format num den) :=
      zpow_le_zpow_right₀ (by norm_num) (by omega)

/-- Rounding a quotient, as the significand that it is rounded to in units, one bit less and a unit
twice as large where the significand has a bit too many. -/
theorem ofQuotient_eq (format : Format) (negative : Bool) {num : Nat} (hNum : 0 < num) (den : Nat) :
    ofQuotient format negative num den =
      let e := unitOf format num den
      let m := roundHalfEven (scale num den e).1 (scale num den e).2
      if m = Nat.pow 2 format.precision then
        if format.greatestExponent < e + 1 then infinite negative else finite negative (m / 2) (e + 1)
      else if format.greatestExponent < e then infinite negative else finite negative m e := by
  have hNonzero : ¬ num = 0 := by omega
  rw [ofQuotient, if_neg hNonzero]
  dsimp only
  rw [← unitOf]
  split
  · rfl
  · rfl

/-- A quotient that the format holds is not changed. -/
theorem ofQuotient_exact {format : Format} (negative : Bool) {num den : Nat} (hNum : 0 < num)
    (hDen : 0 < den) {m : Nat} {e : Int} (hBits : m < 2 ^ format.precision)
    (hLeast : format.leastExponent ≤ e) (hGreatest : e ≤ format.greatestExponent)
    (h : (num / den : ℚ) = magnitude m e) :
    ∃ m' e', ofQuotient format negative num den = finite negative m' e' ∧
      magnitude m' e' = magnitude m e := by
  have hUnit : unitOf format num den ≤ e := by
    have hSize : (2 : ℚ) ^ quotientLog num den < 2 ^ ((format.precision : ℤ) + e) := by
      calc (2 : ℚ) ^ quotientLog num den ≤ num / den := (quotientLog_spec hNum hDen).1
        _ = m * 2 ^ e := h
        _ < 2 ^ (format.precision : ℤ) * 2 ^ e := by
          have hCast : (m : ℚ) < 2 ^ (format.precision : ℤ) := by
            rw [zpow_natCast]
            exact_mod_cast hBits
          gcongr
        _ = 2 ^ ((format.precision : ℤ) + e) := (zpow_add₀ (by norm_num) _ _).symm
    have hLog := (zpow_lt_zpow_iff_right₀ (by norm_num : (1 : ℚ) < 2)).mp hSize
    unfold unitOf
    omega
  generalize hE : unitOf format num den = unit at hUnit
  -- in units of the power of two, the quotient is a whole number
  obtain ⟨count, hCount⟩ : ∃ count : Nat, (num / den / 2 ^ unit : ℚ) = count := by
    obtain ⟨k, hk⟩ := Int.eq_ofNat_of_zero_le (show 0 ≤ e - unit by omega)
    refine ⟨m * 2 ^ k, ?_⟩
    rw [h, magnitude, mul_div_assoc, ← zpow_sub₀ (by norm_num), hk]
    push_cast
    rfl
  obtain ⟨hPos, hScaled⟩ := scale_spec num hDen unit
  have hWhole : (scale num den unit).1 = count * (scale num den unit).2 := by
    rw [hCount, div_eq_iff (Nat.cast_pos.mpr hPos).ne'] at hScaled
    exact_mod_cast hScaled
  have hRounded : roundHalfEven (scale num den unit).1 (scale num den unit).2 = count := by
    rw [hWhole, roundHalfEven_mul_self _ _ hPos]
  have hFew : count < 2 ^ format.precision := by
    have hBound := scaled_lt format hNum hDen
    rw [hE, hCount] at hBound
    exact_mod_cast hBound
  refine ⟨count, unit, ?_, ?_⟩
  · rw [ofQuotient_eq format negative hNum, hE]
    dsimp only
    rw [hRounded, if_neg (show ¬ count = Nat.pow 2 format.precision from hFew.ne),
      if_neg (by omega)]
  · rw [← h, magnitude, ← hCount, div_mul_cancel₀ _ (by positivity)]

/-! ## What a format holds -/

/-- Whether a format holds a number: a number that is not finite, and one that is a significand of
no more bits than the format has, times a power of two of the format. -/
def Fits (format : Format) (x : Binary) : Prop :=
  ∀ q, x.value? = some q → ∃ m e, m < 2 ^ format.precision ∧ format.leastExponent ≤ e ∧
    e ≤ format.greatestExponent ∧ |q| = magnitude m e

theorem abs_value (negative : Bool) (m : Nat) (e : Int) :
    |if negative then -magnitude m e else magnitude m e| = magnitude m e := by
  cases negative with
  | false => exact abs_of_nonneg (magnitude_nonneg m e)
  | true => exact (abs_neg _).trans (abs_of_nonneg (magnitude_nonneg m e))

/-- Whether a number fits is a matter of its value. -/
theorem Fits.of_value? {format : Format} {x y : Binary} (h : Fits format x)
    (hSame : y.value? = x.value?) : Fits format y :=
  fun q hq => h q (hSame.symm.trans hq)

/-- What a format holds is held by a format with more bits and a wider range. -/
theorem Fits.mono {narrow wide : Format} (hBits : narrow.precision ≤ wide.precision)
    (hLeast : wide.leastExponent ≤ narrow.leastExponent)
    (hGreatest : narrow.greatestExponent ≤ wide.greatestExponent) {x : Binary}
    (h : Fits narrow x) : Fits wide x := by
  intro q hq
  obtain ⟨m, e, hm, hLow, hHigh, hAbs⟩ := h q hq
  have hPower : 2 ^ narrow.precision ≤ 2 ^ wide.precision := Nat.pow_le_pow_right (by decide) hBits
  exact ⟨m, e, by omega, by omega, by omega, hAbs⟩

/-- Rounding a finite number is rounding a quotient of its magnitude. -/
theorem round_finite (format : Format) (negative : Bool) (m : Nat) (e : Int) :
    ∃ num den : Nat, 0 < den ∧ (num / den : ℚ) = magnitude m e ∧
      round format (finite negative m e) = ofQuotient format negative num den := by
  unfold round
  dsimp only
  split
  · rename_i hWhole
    refine ⟨_, 1, Nat.one_pos, ?_, rfl⟩
    rw [magnitude_of_nonneg hWhole, Nat.cast_one, div_one]
  · rename_i hFraction
    refine ⟨m, Nat.pow 2 (-e).toNat, Nat.pow_pos (by decide), ?_, rfl⟩
    rw [magnitude_of_neg (by omega)]

theorem ofQuotient_zero (format : Format) (negative : Bool) (den : Nat) :
    ofQuotient format negative 0 den = finite negative 0 format.leastExponent := rfl

/-- A number that the format holds keeps its value. -/
theorem value?_round {format : Format} {x : Binary} (h : Fits format x) :
    (x.round format).value? = x.value? := by
  cases x with
  | infinite => rfl
  | nan => rfl
  | finite negative m e =>
      obtain ⟨num, den, hDen, hQuotient, hRound⟩ := round_finite format negative m e
      rw [hRound]
      rcases Nat.eq_zero_or_pos num with rfl | hNum
      · have hZero : magnitude m e = 0 := by
          rw [← hQuotient]
          simp
        rw [ofQuotient_zero, value?, value?, hZero]
        simp [magnitude]
      · obtain ⟨m', e', hBits, hLeast, hGreatest, hAbs⟩ := h _ rfl
        rw [abs_value] at hAbs
        obtain ⟨m'', e'', hExact, hSame⟩ :=
          ofQuotient_exact negative hNum hDen hBits hLeast hGreatest (hQuotient.trans hAbs)
        rw [hExact, value?, value?, hSame, hAbs]

theorem fits_finite {format : Format} {m : Nat} {e : Int} (hBits : m < 2 ^ format.precision)
    (hLeast : format.leastExponent ≤ e) (hGreatest : e ≤ format.greatestExponent)
    (negative : Bool) : Fits format (finite negative m e) := by
  intro q hq
  cases hq
  exact ⟨m, e, hBits, hLeast, hGreatest, abs_value negative m e⟩

theorem roundHalfEven_le (num den : Nat) : roundHalfEven num den ≤ num / den + 1 := by
  unfold roundHalfEven
  dsimp only
  split
  · omega
  · split
    · omega
    · split
      · omega
      · omega

/-- A rounded quotient is held by the format. -/
theorem fits_ofQuotient {format : Format}
    (hRange : format.leastExponent ≤ format.greatestExponent) (negative : Bool) (num : Nat)
    {den : Nat} (hDen : 0 < den) : Fits format (ofQuotient format negative num den) := by
  have hInfinite : Fits format (infinite negative) := nofun
  rcases Nat.eq_zero_or_pos num with rfl | hNum
  · exact fits_finite (Nat.two_pow_pos _) (Int.le_refl _) hRange negative
  have hLeast : format.leastExponent ≤ unitOf format num den := Int.le_max_left _ _
  -- the significand has at most one bit too many, and then it is a power of two
  have hCount : roundHalfEven (scale num den (unitOf format num den)).1
      (scale num den (unitOf format num den)).2 ≤ 2 ^ format.precision := by
    obtain ⟨hPos, hScaled⟩ := scale_spec num hDen (unitOf format num den)
    have hBound := scaled_lt format hNum hDen
    rw [← hScaled, div_lt_iff₀ (Nat.cast_pos.mpr hPos)] at hBound
    have hFloor := (Nat.div_lt_iff_lt_mul hPos).mpr (show _ < 2 ^ format.precision * _ by
      exact_mod_cast hBound)
    have hRounded := roundHalfEven_le (scale num den (unitOf format num den)).1
      (scale num den (unitOf format num den)).2
    omega
  rw [ofQuotient_eq format negative hNum]
  dsimp only
  split
  · rename_i hCarry
    split
    · exact hInfinite
    · refine fits_finite ?_ (by omega) (by omega) negative
      have hPower : 0 < 2 ^ format.precision := Nat.two_pow_pos _
      rw [hCarry]
      exact Nat.div_lt_self hPower (by decide)
  · rename_i hNoCarry
    split
    · exact hInfinite
    · exact fits_finite (Nat.lt_of_le_of_ne hCount hNoCarry) hLeast (by omega) negative

/-- Rounding gives a number that the format holds. -/
theorem fits_round {format : Format}
    (hRange : format.leastExponent ≤ format.greatestExponent) (x : Binary) :
    Fits format (x.round format) := by
  cases x with
  | infinite => nofun
  | nan => nofun
  | finite negative m e =>
      obtain ⟨num, den, hDen, -, hRound⟩ := round_finite format negative m e
      rw [hRound]
      exact fits_ofQuotient hRange negative num hDen

end CircuitBench.Number.Binary
