import CircuitBench.Text.Blank
import CircuitBench.Text.Digit
import CircuitBench.Number.Binary

/-!
# Number literals

Integers reach the library as text in three places: the fields of a symbol file, the values of an
input assignment, and the options of a build.  All of them accept the same literals: white space
around the number, one sign, decimal digits of any script, and single underscores between digits.
In base sixteen the digits may follow a `0x`, and one underscore may stand after it.

Decimal literals are limited in length, because converting one takes time quadratic in it; the limit
is on the digits alone.  Printing an integer has the same limit.  Base sixteen has none.

## Main results

* `scanDigits_lt` : every digit that is read is below the base.
* `ofDigits_append_singleton` : one more digit multiplies by the base and adds the digit.
-/

namespace CircuitBench.Number

open Text

/-! ## Faults -/

/-- What is wrong with an integer literal: it is not one, or it has too many digits. -/
inductive LiteralFault
  | malformed (base : Nat)
  | tooManyDigits (count : Nat)
deriving DecidableEq, Repr

/-- The most digits of a decimal integer that are read or written. -/
def digitLimit : Nat := 4300

/-! ## Reading integers -/

/-- Whether a text goes on with a digit of the base. -/
def startsWithDigit (base : Nat) : List Char → Bool
  | [] => false
  | c :: _ => (digitValue? base c).isSome

/-- Reads the run of digits that a text starts with, most significant first, and returns the rest.
A single underscore may stand between two digits; a run with an underscore anywhere else is
malformed.  The flag says whether a digit has just been read. -/
def scanFrom (base : Nat) (afterDigit : Bool) : List Char → Option (List Nat × List Char)
  | [] => some ([], [])
  | c :: rest =>
    match digitValue? base c with
    | some d => (scanFrom base true rest).map fun (ds, r) => (d :: ds, r)
    | none =>
      if c = '_' then
        if afterDigit && startsWithDigit base rest then scanFrom base false rest else none
      else some ([], c :: rest)

/-- Reads the run of digits that a text starts with. -/
def scanDigits (base : Nat) (s : List Char) : Option (List Nat × List Char) :=
  scanFrom base false s

/-- The number that a run of digits is worth, most significant first. -/
def ofDigits (base : Nat) (digits : List Nat) : Nat :=
  digits.foldl (fun n d => base * n + d) 0

/-- White space that may stand around a number: every blank character but the separators. -/
def isPadding (c : Char) : Bool :=
  isBlank c && !isSeparator c

/-- Takes one sign off a text: whether it was a minus, and the rest. -/
def splitSign : List Char → Bool × List Char
  | '+' :: rest => (false, rest)
  | '-' :: rest => (true, rest)
  | s => (false, s)

/-- Takes the mark of base sixteen off a text, with an underscore after it. -/
def dropHexMark : List Char → List Char
  | z :: x :: rest =>
    if decimalDigit? z = some 0 ∧ (x = 'x' ∨ x = 'X') then
      match rest with
      | '_' :: more => more
      | _ => rest
    else z :: x :: rest
  | s => s

/-- Reads an integer literal of base ten or sixteen. -/
def readInteger (base : Nat) (s : List Char) : Except LiteralFault Int :=
  let (negative, body) := splitSign (s.dropWhile isPadding)
  let body := if base = 16 then dropHexMark body else body
  match scanDigits base body with
  | none => .error (.malformed base)
  | some (digits, rest) =>
    if digits.isEmpty then .error (.malformed base)
    else if base = 10 ∧ digitLimit < digits.length then .error (.tooManyDigits digits.length)
    else if rest.all isPadding then .ok (signed negative (ofDigits base digits))
    else .error (.malformed base)

/-- The decimal text of an integer, if it has no more digits than the limit. -/
def printInteger? (n : Int) : Option String :=
  let s := toString n
  if digitLimit < (toString n.natAbs).length then none else some s

/-! ## Reading floating-point numbers -/

/-- Reads the digits of a fraction: the digits after the point, if there is one. -/
def scanFraction : List Char → Option (List Nat × List Char)
  | '.' :: rest =>
    match rest with
    | '_' :: _ => none
    | _ => scanDigits 10 rest
  | s => some ([], s)

/-- Reads an exponent, if there is one. -/
def scanExponent : List Char → Option (Int × List Char)
  | e :: rest =>
    if e = 'e' ∨ e = 'E' then
      let (negative, body) := splitSign rest
      match scanDigits 10 body with
      | none => none
      | some ([], _) => none
      | some (digits, r) => some (signed negative (ofDigits 10 digits), r)
    else some (0, e :: rest)
  | [] => some (0, [])

/-- A character in lower case, of the ASCII letters. -/
def lower (c : Char) : Char :=
  if c.toNat < 0x80 then c.toLower else c

/-- Reads a floating-point literal: decimal digits with an optional point and exponent, or the names
of infinity and of the undefined number in any case. -/
def readFloating? (s : List Char) : Option Binary :=
  let (negative, body) := splitSign (trim s)
  let name := String.ofList (body.map lower)
  if name = "inf" ∨ name = "infinity" then some (.infinite negative)
  else if name = "nan" then some .nan
  else
    match scanDigits 10 body with
    | none => none
    | some (whole, r) =>
      match scanFraction r with
      | none => none
      | some (fraction, r) =>
        if whole.isEmpty ∧ fraction.isEmpty then none
        else
          match scanExponent r with
          | some (e, []) =>
            some (Binary.ofDecimal .double negative (ofDigits 10 (whole ++ fraction)) (e - fraction.length))
          | _ => none

/-! ## Laws -/

theorem ofDigits_nil (base : Nat) : ofDigits base [] = 0 := rfl

theorem ofDigits_append_singleton (base : Nat) (digits : List Nat) (d : Nat) :
    ofDigits base (digits ++ [d]) = base * ofDigits base digits + d := by
  simp [ofDigits]

theorem scanFrom_lt {base : Nat} {afterDigit : Bool} {s : List Char} {digits : List Nat}
    {rest : List Char} (h : scanFrom base afterDigit s = some (digits, rest)) :
    ∀ d ∈ digits, d < base := by
  fun_induction scanFrom base afterDigit s generalizing digits rest with
  | case1 => simp_all
  | case2 _ c rest' d hd ih =>
    obtain ⟨⟨ds, r⟩, hds, heq⟩ := Option.map_eq_some_iff.1 h
    simp only [Prod.mk.injEq] at heq
    obtain ⟨rfl, rfl⟩ := heq
    intro x hx
    rcases List.mem_cons.1 hx with rfl | hx
    · exact digitValue?_lt hd
    · exact ih hds x hx
  | case3 _ _ _ _ ih => exact ih h
  | case4 => simp at h
  | case5 => simp_all

theorem scanDigits_lt {base : Nat} {s : List Char} {digits : List Nat} {rest : List Char}
    (h : scanDigits base s = some (digits, rest)) : ∀ d ∈ digits, d < base :=
  scanFrom_lt h

end CircuitBench.Number
