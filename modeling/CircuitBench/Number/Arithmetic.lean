import CircuitBench.Number.Binary

/-!
# Arithmetic on binary floating-point numbers

A sum, a product and a remainder are formed exactly and then rounded into a format once.  Two finite
numbers are brought to the finer of their two powers of two, and from then on are integers.

A remainder has the sign of the divisor, which is not zero.  A remainder of nothing keeps that sign
too.

## Main results

* `add_nan`, `multiply_nan` : what is undefined stays so.
-/

namespace CircuitBench.Number.Binary

/-- The significands of two finite numbers, with their signs, at the finer of their powers of
two. -/
def aligned (a : Bool) (m : Nat) (e : Int) (b : Bool) (n : Nat) (f : Int) : Int × Int × Int :=
  let finer := min e f
  (signed a (m * Nat.pow 2 (e - finer).toNat), signed b (n * Nat.pow 2 (f - finer).toNat), finer)

/-- The number with the other sign. -/
def negate : Binary → Binary
  | finite negative m e => finite (!negative) m e
  | infinite negative => infinite (!negative)
  | nan => nan

/-- The sum of two numbers.  Two numbers that cancel leave the positive zero. -/
def add (format : Format) (x y : Binary) : Binary :=
  match x, y with
  | nan, _ => nan
  | _, nan => nan
  | infinite a, infinite b => if a = b then x else nan
  | infinite _, _ => x
  | _, infinite _ => y
  | finite a m e, finite b n f =>
    let (p, q, finer) := aligned a m e b n f
    let negative := if p + q = 0 then a && b else p + q < 0
    (finite negative (p + q).natAbs finer).round format

/-- The product of two numbers. -/
def multiply (format : Format) (x y : Binary) : Binary :=
  match x, y with
  | nan, _ => nan
  | _, nan => nan
  | finite a m e, finite b n f => (finite (a != b) (m * n) (e + f)).round format
  | infinite a, infinite b => infinite (a != b)
  | infinite a, finite b n _ => if n = 0 then nan else infinite (a != b)
  | finite a m _, infinite b => if m = 0 then nan else infinite (a != b)

/-- The remainder of a number by another one that is not zero. -/
def remainder (format : Format) (x y : Binary) : Binary :=
  match x, y with
  | finite a m e, finite b n f =>
    let (p, q, finer) := aligned a m e b n f
    let rest := p.natAbs % q.natAbs
    let fromBelow := if rest = 0 ∨ a = b then rest else q.natAbs - rest
    (finite b fromBelow finer).round format
  | finite a m _, infinite b => if m = 0 then finite b 0 format.leastExponent else if a = b then x else y
  | _, _ => nan

/-! ## Laws -/

theorem add_nan (format : Format) (x : Binary) : add format x nan = nan := by
  cases x <;> rfl

theorem multiply_nan (format : Format) (x : Binary) : multiply format x nan = nan := by
  cases x <;> rfl

end CircuitBench.Number.Binary
