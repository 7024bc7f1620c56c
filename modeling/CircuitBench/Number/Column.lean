import CircuitBench.Number.Shortest

/-!
# Numbers in columns

Numbers that stand together are written with the points under each other.  All of them are written
either positionally or with an exponent, with at most eight digits after the point, and padded on
both sides to the longest.  A number that is shown by fewer digits is not filled up in positional
notation; with an exponent, it is.

An exponent is used when the largest number has more places before the point than the notation
allows, when the smallest lies below `0.0001`, or when one is more than a thousand times the other.
Zeros and numbers that are not finite have no say in this.

## Main results

* `length_text_positional` : in a positional column, every finite number is as wide as the column.
-/

namespace CircuitBench.Number

/-! ## Parts of a number -/

/-- The most digits after the point. -/
def columnPlaces : Nat := 8

/-- A number taken apart: its sign and the digits before the point, the digits after it, and, with
an exponent, that. -/
structure Parts where
  whole : List Char
  fraction : List Char
  exponent : Int

/-- Digits without the zeros at their end. -/
def dropZeros (digits : List Char) : List Char :=
  (digits.reverse.dropWhile (· == '0')).reverse

/-- The digits of a number, at least so many. -/
def digitsOf (width n : Nat) : List Char :=
  let digits := (toString n).toList
  List.replicate (width - digits.length) '0' ++ digits

/-- The number `m * 2 ^ e` in units of `10 ^ k`, rounded to the nearest, a tie going to the even
one. -/
def inUnits (m : Nat) (e k : Int) : Nat :=
  let (two, ten) := unitFactors e k
  roundHalfEven (m * two) ten

/-- The shortest decimal of a positive number, or the nearest one on the grid of `10 ^ k` if that is
coarser. -/
def cutDecimal (format : Format) (m : Nat) (e k : Int) : Decimal :=
  let d := shortest format m e
  if k ≤ d.exponent then d else ⟨inUnits m e k, k⟩

/-- A sign in front of digits. -/
def withSign (negative : Bool) (digits : List Char) : List Char :=
  if negative then '-' :: digits else digits

/-- The decimal places of a decimal split at the point. -/
def Decimal.split (d : Decimal) : List Char × List Char :=
  if 0 ≤ d.exponent then (digitsOf 1 (d.digits * Nat.pow 10 d.exponent.toNat), [])
  else
    let places := (-d.exponent).toNat
    let digits := digitsOf (places + 1) d.digits
    (digits.take (digits.length - places), digits.drop (digits.length - places))

/-- The parts of a finite number in positional notation. -/
def positionalParts (format : Format) (negative : Bool) (m : Nat) (e : Int) : Parts :=
  if m = 0 then ⟨withSign negative ['0'], [], 0⟩
  else
    let (whole, fraction) := (cutDecimal format m e (-columnPlaces)).split
    ⟨withSign negative whole, dropZeros fraction, 0⟩

/-- The parts of a finite number with an exponent. -/
def exponentParts (format : Format) (negative : Bool) (m : Nat) (e : Int) : Parts :=
  if m = 0 then ⟨withSign negative ['0'], [], 0⟩
  else
    let d := shortest format m e
    let top : Int := (toString d.digits).length + d.exponent - 1
    let cut := cutDecimal format m e (top - columnPlaces)
    let digits := (toString cut.digits).toList
    ⟨withSign negative (digits.take 1), dropZeros (digits.drop 1), digits.length + cut.exponent - 1⟩

/-! ## Columns -/

/-- How the numbers of a column are written: with an exponent or without, how many characters there
are before the point and how many after it, and the digits of an exponent. -/
structure Column where
  format : Format
  exponential : Bool
  left : Nat
  right : Nat
  exponentDigits : Nat

/-- The absolute value of a finite number other than zero. -/
def magnitude? : Binary → Option Binary
  | .finite _ m e => if m = 0 then none else some (.finite false m e)
  | _ => none

/-- The greater of two numbers. -/
def greater (x y : Binary) : Binary :=
  if x.compare? y == some .lt then y else x

/-- The lesser of two numbers. -/
def lesser (x y : Binary) : Binary :=
  if y.compare? x == some .lt then y else x

/-- The quotient of two positive numbers, rounded into a format. -/
def ratio (format : Format) : Binary → Binary → Binary
  | .finite _ m e, .finite _ m' e' =>
    let (num, den) := Binary.quotient false m e
    let (num', den') := Binary.quotient false m' e'
    Binary.ofQuotient format false (num.toNat * den') (den * num'.toNat)
  | x, _ => x

/-- Whether numbers ask for an exponent. -/
def wantsExponent (format : Format) (numbers : List Binary) : Bool :=
  match numbers.filterMap magnitude? with
  | [] => false
  | first :: rest =>
    let most := rest.foldl greater first
    let least := rest.foldl lesser first
    let places := min (columnPlaces : Int) (format.positionalPlaces)
    !(most.compare? (Binary.ofDecimal format false 1 places) == some .lt) ||
      least.compare? (Binary.ofDecimal format false 1 (-4)) == some .lt ||
      (ratio format most least).compare? (Binary.ofDecimal format false 1 3) == some .gt

/-- The parts of the finite ones among numbers. -/
def allParts (partsOf : Bool → Nat → Int → Parts) (numbers : List Binary) : List Parts :=
  numbers.filterMap fun x =>
    match x with
    | .finite negative m e => some (partsOf negative m e)
    | _ => none

/-- The greatest of some lengths. -/
def longest (lengths : List Nat) : Nat :=
  lengths.foldl max 0

/-- The number of characters that a number which is not finite takes. -/
def wordLength : Binary → Nat
  | .nan => 3
  | .infinite negative => if negative then 4 else 3
  | .finite _ _ _ => 0

/-- The column for numbers of a format. -/
def Column.of (format : Format) (numbers : List Binary) : Column :=
  let exponential := wantsExponent format numbers
  let parts := allParts (if exponential then exponentParts format else positionalParts format) numbers
  let digits := longest (parts.map fun p => (toString p.exponent.natAbs).length)
  let right := longest (parts.map fun p => p.fraction.length)
  let exponentDigits := max 2 digits
  let words := longest (numbers.map wordLength)
  let behind := if exponential then right + exponentDigits + 2 else right
  ⟨format, exponential, max (longest (parts.map fun p => p.whole.length)) (words - (behind + 1)), right,
    exponentDigits⟩

/-- The number of characters behind the point. -/
def Column.behind (c : Column) : Nat :=
  if c.exponential then c.right + c.exponentDigits + 2 else c.right

/-- Characters with blanks in front, to a width. -/
def padLeft (width : Nat) (s : List Char) : List Char :=
  List.replicate (width - s.length) ' ' ++ s

/-- Characters with others behind, to a width. -/
def padRight (filler : Char) (width : Nat) (s : List Char) : List Char :=
  s ++ List.replicate (width - s.length) filler

/-- A finite number in a column. -/
def Column.finiteText (c : Column) (negative : Bool) (m : Nat) (e : Int) : List Char :=
  if c.exponential then
    let p := exponentParts c.format negative m e
    let layout : Layout := ⟨0, 0, c.exponentDigits⟩
    padLeft c.left p.whole ++ '.' :: padRight '0' c.right p.fraction ++ 'e' :: layout.exponentText p.exponent
  else
    let p := positionalParts c.format negative m e
    padLeft c.left p.whole ++ '.' :: padRight ' ' c.right p.fraction

/-- A number in a column. -/
def Column.text (c : Column) : Binary → List Char
  | .finite negative m e => c.finiteText negative m e
  | x => padLeft (c.left + c.behind + 1) (x.text c.format).toList

/-! ## Laws -/

theorem length_padLeft {width : Nat} {s : List Char} (h : s.length ≤ width) :
    (padLeft width s).length = width := by
  simp only [padLeft, List.length_append, List.length_replicate]
  omega

theorem length_padRight {filler : Char} {width : Nat} {s : List Char} (h : s.length ≤ width) :
    (padRight filler width s).length = width := by
  simp only [padRight, List.length_append, List.length_replicate]
  omega

theorem length_text_positional (c : Column) (hc : c.exponential = false) (negative : Bool) (m : Nat)
    (e : Int) (hwhole : (positionalParts c.format negative m e).whole.length ≤ c.left)
    (hfraction : (positionalParts c.format negative m e).fraction.length ≤ c.right) :
    (c.text (.finite negative m e)).length = c.left + c.behind + 1 := by
  simp only [Column.text, Column.finiteText, Column.behind, hc, Bool.false_eq_true, if_false,
    List.length_append, List.length_cons, length_padLeft hwhole, length_padRight hfraction]
  omega

end CircuitBench.Number
