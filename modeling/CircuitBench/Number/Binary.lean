/-!
# Binary floating-point numbers at their exact value

Input values may be floating-point numbers, and whether one of them is an integer must be decided of
the number itself, not of a rounded picture of it.  So a number is kept as what it is: a sign, a
significand and a power of two.  Such numbers are read from decimal text, moved between formats,
tested, truncated and compared.  Each of these is exact arithmetic on natural numbers.

A format fixes how many bits the significand has and how far the power of two may go.  Reading
rounds to the nearest number of the format, a tie going to the even significand; a value beyond the
largest number by half a step or more becomes infinite.

## Main results

* `truncate_eq_of_isIntegral` : truncating an integral number loses nothing.
* `roundHalfEven_mul_self` : a quotient that is exact is not changed by rounding.
-/

namespace CircuitBench.Number

/-! ## Formats -/

/-- A floating-point format: the bits of a significand, and the least and greatest power of two that
a significand is scaled by. -/
structure Format where
  precision : Nat
  leastExponent : Int
  greatestExponent : Int
deriving DecidableEq, Repr

/-- The format of 64 bits. -/
def Format.double : Format := ⟨53, -1074, 971⟩

/-- The format of 32 bits. -/
def Format.single : Format := ⟨24, -149, 104⟩

/-- The format of 16 bits. -/
def Format.half : Format := ⟨11, -24, 5⟩

/-! ## Numbers -/

/-- A floating-point number.  The finite number `finite negative significand exponent` has the
absolute value `significand * 2 ^ exponent`; zero has a sign like any other. -/
inductive Binary
  | finite (negative : Bool) (significand : Nat) (exponent : Int)
  | infinite (negative : Bool)
  | nan
deriving DecidableEq, Repr, Inhabited

/-- Gives a natural number the sign of a floating-point number. -/
def signed (negative : Bool) (n : Nat) : Int :=
  if negative then -(n : Int) else n

/-- The quotient rounded to the nearest integer, a tie going to the even one. -/
def roundHalfEven (num den : Nat) : Nat :=
  let q := num / den
  let r := num % den
  if 2 * r < den then q
  else if den < 2 * r then q + 1
  else if q % 2 = 0 then q else q + 1

theorem roundHalfEven_mul_self (q den : Nat) (h : 0 < den) : roundHalfEven (q * den) den = q := by
  simp [roundHalfEven, h]

namespace Binary

/-- Whether a number is zero, of either sign. -/
def isZero : Binary → Bool
  | finite _ m _ => m == 0
  | _ => false

/-- Whether a number is finite and has no fractional part. -/
def isIntegral : Binary → Bool
  | finite _ m e => 0 ≤ e || m % Nat.pow 2 (-e).toNat == 0
  | infinite _ => false
  | nan => false

/-- The absolute value of a finite number without its fractional part. -/
def wholePart (m : Nat) (e : Int) : Nat :=
  if 0 ≤ e then m * Nat.pow 2 e.toNat else m / Nat.pow 2 (-e).toNat

/-- A finite number without its fractional part. -/
def truncate? : Binary → Option Int
  | finite negative m e => some (signed negative (wholePart m e))
  | infinite _ => none
  | nan => none

theorem truncate_eq_of_isIntegral {negative : Bool} {m : Nat} {e : Int} (he : e < 0)
    (h : isIntegral (finite negative m e) = true) :
    wholePart m e * Nat.pow 2 (-e).toNat = m := by
  have hdiv : m % Nat.pow 2 (-e).toNat = 0 := by
    have hneg : ¬ (0 ≤ e) := by omega
    simpa [isIntegral, hneg] using h
  have hneg : ¬ (0 ≤ e) := by omega
  simp only [wholePart, hneg, if_false]
  exact Nat.div_mul_cancel (Nat.dvd_of_mod_eq_zero hdiv)

/-! ## Rounding into a format -/

/-- The quotient `num / den` scaled down by a power of two, as a quotient. -/
def scale (num den : Nat) (e : Int) : Nat × Nat :=
  if 0 ≤ e then (num, den * Nat.pow 2 e.toNat) else (num * Nat.pow 2 (-e).toNat, den)

/-- The largest `k` with `2 ^ k ≤ num / den`, for positive `num` and `den`. -/
def quotientLog (num den : Nat) : Int :=
  let guess : Int := (Nat.log2 num : Int) - (Nat.log2 den : Int)
  let (n, d) := scale num den guess
  if n < d then guess - 1 else guess

/-- The number of a format nearest to `num / den`. -/
def ofQuotient (format : Format) (negative : Bool) (num den : Nat) : Binary :=
  if num = 0 then finite negative 0 format.leastExponent
  else
    let e := max format.leastExponent (quotientLog num den - (format.precision - 1))
    let (n, d) := scale num den e
    let m := roundHalfEven n d
    let (m, e) := if m = Nat.pow 2 format.precision then (m / 2, e + 1) else (m, e)
    if format.greatestExponent < e then infinite negative else finite negative m e

/-- The number of a format nearest to `digits * 10 ^ exponent`.  Powers that are certain to leave
the range of every format are not computed. -/
def ofDecimal (format : Format) (negative : Bool) (digits : Nat) (exponent : Int) : Binary :=
  if digits = 0 then finite negative 0 format.leastExponent
  else if 400 < exponent then infinite negative
  else if exponent < -(400 + (Nat.log2 digits : Int)) then finite negative 0 format.leastExponent
  else if 0 ≤ exponent then ofQuotient format negative (digits * Nat.pow 10 exponent.toNat) 1
  else ofQuotient format negative digits (Nat.pow 10 (-exponent).toNat)

/-- The number of a format nearest to an integer. -/
def ofInt (format : Format) (n : Int) : Binary :=
  ofQuotient format (n < 0) n.natAbs 1

/-- The number of a format nearest to a number of any format. -/
def round (format : Format) : Binary → Binary
  | finite negative m e =>
    if 0 ≤ e then ofQuotient format negative (m * Nat.pow 2 e.toNat) 1
    else ofQuotient format negative m (Nat.pow 2 (-e).toNat)
  | infinite negative => infinite negative
  | nan => nan

/-! ## Order -/

/-- Numerator and denominator of a finite number. -/
def quotient (negative : Bool) (m : Nat) (e : Int) : Int × Nat :=
  if 0 ≤ e then (signed negative (m * Nat.pow 2 e.toNat), 1)
  else (signed negative m, Nat.pow 2 (-e).toNat)

/-- The exact comparison of a number with an integer, if the number is one that can be ordered. -/
def compareInt? (x : Binary) (n : Int) : Option Ordering :=
  match x with
  | finite negative m e =>
    let (p, q) := quotient negative m e
    some (compare p (n * q))
  | infinite negative => some (if negative then .lt else .gt)
  | nan => none

/-- The exact comparison of two numbers, if both can be ordered. -/
def compare? (x y : Binary) : Option Ordering :=
  match x, y with
  | nan, _ => none
  | _, nan => none
  | infinite a, infinite b => some (compare b.toNat a.toNat)
  | infinite a, _ => some (if a then .lt else .gt)
  | _, infinite b => some (if b then .gt else .lt)
  | finite a m e, finite b m' e' =>
    let (p, q) := quotient a m e
    let (p', q') := quotient b m' e'
    some (compare (p * q') (p' * q))

end Binary

end CircuitBench.Number
