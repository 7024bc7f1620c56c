/-!
# Decimal digits of every script

A decimal integer may be written with the digits of any script: Unicode gives each script that has
decimal digits ten consecutive code points, from zero to nine, so the class is fixed by the list of
its zeros.  A digit beyond nine is an ASCII letter, in either case.

## Main results

* `decimalDigit?_ascii` : the ASCII digits have their usual values.
* `digitValue?_lt` : a digit of base `b` has a value below `b`.
-/

namespace CircuitBench.Text

/-- The code points of the decimal zeros (general category `Nd`, value zero).  The nine code points
after each are the digits one to nine of the same script. -/
def decimalZeros : List Nat := [
  0x30, 0x660, 0x6F0, 0x7C0, 0x966, 0x9E6, 0xA66, 0xAE6,
  0xB66, 0xBE6, 0xC66, 0xCE6, 0xD66, 0xDE6, 0xE50, 0xED0,
  0xF20, 0x1040, 0x1090, 0x17E0, 0x1810, 0x1946, 0x19D0, 0x1A80,
  0x1A90, 0x1B50, 0x1BB0, 0x1C40, 0x1C50, 0xA620, 0xA8D0, 0xA900,
  0xA9D0, 0xA9F0, 0xAA50, 0xABF0, 0xFF10, 0x104A0, 0x10D30, 0x11066,
  0x110F0, 0x11136, 0x111D0, 0x112F0, 0x11450, 0x114D0, 0x11650, 0x116C0,
  0x11730, 0x118E0, 0x11950, 0x11C50, 0x11D50, 0x11DA0, 0x16A60, 0x16AC0,
  0x16B50, 0x1D7CE, 0x1D7D8, 0x1D7E2, 0x1D7EC, 0x1D7F6, 0x1E140, 0x1E2F0,
  0x1E950, 0x1FBF0]

/-- The value of a decimal digit of any script. -/
def decimalDigit? (c : Char) : Option Nat :=
  let n := c.toNat
  if n < 0x80 then
    if 0x30 ≤ n ∧ n ≤ 0x39 then some (n - 0x30) else none
  else
    (decimalZeros.find? fun z => decide (z ≤ n ∧ n < z + 10)).map fun z => n - z

/-- The value of an ASCII letter as a digit: `a` and `A` are ten. -/
def letterDigit? (c : Char) : Option Nat :=
  let n := c.toNat
  if 0x61 ≤ n ∧ n ≤ 0x7A then some (n - 0x61 + 10)
  else if 0x41 ≤ n ∧ n ≤ 0x5A then some (n - 0x41 + 10)
  else none

/-- The value of a character as a digit of the given base, if it is one. -/
def digitValue? (base : Nat) (c : Char) : Option Nat :=
  match (decimalDigit? c).or (letterDigit? c) with
  | some d => if d < base then some d else none
  | none => none

theorem digitValue?_lt {base : Nat} {c : Char} {d : Nat} (h : digitValue? base c = some d) :
    d < base := by
  unfold digitValue? at h
  split at h
  · split at h
    · simp_all
    · simp at h
  · simp at h

theorem decimalDigit?_ascii (d : Nat) (h : d < 10) :
    decimalDigit? (Char.ofNat (0x30 + d)) = some d := by
  have : ∀ e, e < 10 → decimalDigit? (Char.ofNat (0x30 + e)) = some e := by decide
  exact this d h

end CircuitBench.Text
