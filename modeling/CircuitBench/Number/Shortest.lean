import CircuitBench.Number.Binary

/-!
# The shortest decimal of a floating-point number

A floating-point number is shown by the fewest decimal digits that read back as the same number.
The reals that round to a number form an interval around it, its ends included when the significand
is even; the decimals `d * 10 ^ k` with a fixed `k` form a grid.  Going from coarse grids to fine
ones, the first grid with a point in the interval gives the fewest digits, and of the two points
next to the number the nearer one is taken.

How the digits are laid out is a decision of the format of the output, kept in the record `Layout`:
where positional notation ends, and how an exponent is written.
-/

namespace CircuitBench.Number

/-! ## Digits -/

/-- A positive decimal `digits * 10 ^ exponent`. -/
structure Decimal where
  digits : Nat
  exponent : Int
deriving DecidableEq, Repr

/-- The interval that rounds to `significand * 2 ^ exponent`, in quarters of a step: `low`, `middle`
and `high` are to be multiplied by `2 ^ scale`.  Below a power of two the step is half as wide. -/
structure Rounding where
  low : Nat
  middle : Nat
  high : Nat
  scale : Int
  closed : Bool

/-- The rounding interval of a positive finite number of a format. -/
def Rounding.of (format : Format) (m : Nat) (e : Int) : Rounding :=
  let narrow := m = Nat.pow 2 (format.precision - 1) ∧ format.leastExponent < e
  { low := 4 * m - (if narrow then 1 else 2)
    middle := 4 * m
    high := 4 * m + 2
    scale := e - 2
    closed := m % 2 = 0 }

/-- The factors that bring `_ * 2 ^ scale` and `_ * 10 ^ k` to one common unit. -/
def unitFactors (scale k : Int) : Nat × Nat :=
  (Nat.pow 2 scale.toNat * Nat.pow 10 (-k).toNat, Nat.pow 10 k.toNat * Nat.pow 2 (-scale).toNat)

/-- The decimal on the grid of `10 ^ k` that lies in the interval and is nearest to its middle. -/
def Rounding.onGrid? (r : Rounding) (k : Int) : Option Decimal :=
  let (two, ten) := unitFactors r.scale k
  let low := r.low * two
  let middle := r.middle * two
  let high := r.high * two
  let inside := fun d : Nat =>
    let x := d * ten
    if r.closed then low ≤ x && x ≤ high else low < x && x < high
  let below := middle / ten
  let above := below + 1
  let belowGap := middle - below * ten
  let aboveGap := above * ten - middle
  let belowIn := 0 < below && inside below
  let aboveIn := inside above
  let takeAbove :=
    aboveIn && (!belowIn || aboveGap < belowGap || (aboveGap == belowGap && above % 2 == 0))
  if takeAbove then some ⟨above, k⟩
  else if belowIn then some ⟨below, k⟩
  else none

/-- The first grid with a point in the interval, from `10 ^ k` through at most `count` finer
ones. -/
def Rounding.firstGrid? (r : Rounding) (k : Int) : Nat → Option Decimal
  | 0 => r.onGrid? k
  | count + 1 => (r.onGrid? k).orElse fun _ => r.firstGrid? (k - 1) count

/-- A power of ten at or above `m * 2 ^ e`, but not far above it. -/
def coarseExponent (m : Nat) (e : Int) : Int :=
  ((Nat.log2 m : Int) + 1 + e) * 30103 / 100000 + 2

/-- The shortest decimal that reads back as the positive number `m * 2 ^ e` of a format. -/
def shortest (format : Format) (m : Nat) (e : Int) : Decimal :=
  ((Rounding.of format m e).firstGrid? (coarseExponent m e) 24).getD ⟨m, e⟩

/-! ## Layout -/

/-- How the digits of a decimal are laid out: the number of places before the point for which
positional notation is used, and the least number of digits of an exponent. -/
structure Layout where
  leastPlaces : Int
  greatestPlaces : Int
  exponentWidth : Nat

/-- Numbers from `0.0001` up to below `10 ^ 16` are written positionally, with at least one digit on
either side of the point; all others with an exponent of at least two digits that carries its
sign. -/
def Layout.standard : Layout := ⟨-3, 16, 2⟩

/-- An exponent with its sign. -/
def Layout.exponentText (layout : Layout) (n : Int) : List Char :=
  let digits := (toString n.natAbs).toList
  (if n < 0 then '-' else '+') :: (List.replicate (layout.exponentWidth - digits.length) '0' ++ digits)

/-- A positive decimal laid out. -/
def Layout.decimalText (layout : Layout) (d : Decimal) : List Char :=
  let digits := (toString d.digits).toList
  let places : Int := digits.length + d.exponent
  if layout.leastPlaces ≤ places ∧ places ≤ layout.greatestPlaces then
    if places ≤ 0 then '0' :: '.' :: (List.replicate (-places).toNat '0' ++ digits)
    else if (digits.length : Int) ≤ places then
      digits ++ List.replicate (places - digits.length).toNat '0' ++ ['.', '0']
    else digits.take places.toNat ++ '.' :: digits.drop places.toNat
  else
    let significand :=
      match digits with
      | [] => []
      | [d] => [d]
      | d :: more => d :: '.' :: more
    significand ++ 'e' :: layout.exponentText (places - 1)

/-- The text of a number that may not be finite. -/
def Binary.textBy (positive : Nat → Int → List Char) : Binary → String
  | .nan => "nan"
  | .infinite negative => if negative then "-inf" else "inf"
  | .finite negative m e =>
    let body := if m = 0 then ['0', '.', '0'] else positive m e
    String.ofList (if negative then '-' :: body else body)

/-- A number of a format as text. -/
def Binary.text (format : Format) (x : Binary) : String :=
  x.textBy fun m e => Layout.standard.decimalText (shortest format m e)

/-! ## Numbers of arrays -/

/-- The number of places before the point up to which a number of an array is written positionally:
about as many as the format can tell apart. -/
def Format.positionalPlaces (format : Format) : Int :=
  if format.precision ≤ 11 then 3 else if format.precision ≤ 24 then 6 else 16

/-- Whether a positive number lies below `0.0001`. -/
def isTiny (m : Nat) (e : Int) : Bool :=
  let (num, den) := Binary.quotient false m e
  num * 10000 < den

/-- A number of an array as text.  Short formats leave positional notation early, and whether a
number is too small for it is asked of the number itself and not of its shortest decimal. -/
def Binary.cellText (format : Format) (x : Binary) : String :=
  x.textBy fun m e =>
    let layout : Layout := ⟨-3, if isTiny m e then -4 else format.positionalPlaces, 2⟩
    layout.decimalText (shortest format m e)

end CircuitBench.Number
