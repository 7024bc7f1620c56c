import CircuitBench.Bytes.Cursor
import CircuitBench.Number.Arithmetic
import CircuitBench.Value.Order

/-!
# Arithmetic on values

Numbers of any kind can be added, subtracted, multiplied and divided with a remainder.  Integers
stay exact, and a floating-point number makes the result one.  Values of other kinds have no
arithmetic of their own, though a sequence can be repeated, and a text takes a number for an
argument that it has no place for.

Next to a number of array code, the result is of its kind.  A plain integer must then fit that kind,
and an integer that has become too large for it loses its upper bits.  Array code divides by zero
without complaint.

## Main results

* `perform_int` : on integers, an operation is that of integers.
-/

namespace CircuitBench

open Number

/-! ## Operations -/

/-- An operation on two numbers. -/
inductive Operation
  | sum
  | difference
  | product
  | remainder
deriving DecidableEq, Repr

namespace Operation

/-- The sign of an operation, as reports give it.  A sum is formed by adding to what there is. -/
def sign : Operation → String
  | sum => "+="
  | difference => "-"
  | product => "*"
  | remainder => "%"

/-- The result of an operation on integers.  A remainder has the sign of the divisor. -/
def onIntegers (op : Operation) (m n : Int) : Except Error Int :=
  match op with
  | sum => .ok (m + n)
  | difference => .ok (m - n)
  | product => .ok (m * n)
  | remainder => if n = 0 then .error .moduloByZero else .ok (m.fmod n)

/-- The result of an operation on floating-point numbers, none for a remainder by zero. -/
def onFloats? (op : Operation) (format : Format) (x y : Binary) : Option Binary :=
  match op with
  | sum => some (x.add format y)
  | difference => some (x.add format y.negate)
  | product => some (x.multiply format y)
  | remainder => if y.isZero then none else some (x.remainder format y)

end Operation

/-! ## Cells -/

/-- How many bits a cell of an integer kind has. -/
def IntegerCell.bits : IntegerCell → Nat
  | int8 => 8
  | int16 => 16
  | int32 => 32
  | int64 => 64
  | uint8 => 8
  | uint16 => 16
  | uint32 => 32
  | uint64 => 64

/-- Whether a cell of an integer kind can be negative. -/
def IntegerCell.isSigned : IntegerCell → Bool
  | int8 => true
  | int16 => true
  | int32 => true
  | int64 => true
  | _ => false

/-- The number of an integer kind that agrees with an integer in the bits of the kind. -/
def IntegerCell.wrap (kind : IntegerCell) (n : Int) : Int :=
  let count : Int := Nat.pow 2 kind.bits
  let low := n.fmod count
  if kind.isSigned && count ≤ 2 * low then low - count else low

/-- An integer as a number of an integer kind. -/
def IntegerCell.hold (kind : IntegerCell) (n : Int) : Except Error Int :=
  if kind.wrap n = n then .ok n
  else if kind.isSigned && !isSize n then .error (.overflow (.integerToWord true))
  else if !kind.isSigned && (Nat.pow 2 64 : Nat) ≤ n then .error (.overflow (.integerToWord false))
  else .error (.overflow (.integerToCell n kind.name))

/-- The integer kind in which an operation with a cell is done. -/
def CellKind.integerKind? : CellKind → Option IntegerCell
  | truth => some .int64
  | integer kind => some kind
  | floating _ => none

/-- The floating-point kind in which an operation with a cell is done. -/
def CellKind.floatKind : CellKind → FloatCell
  | floating kind => kind
  | _ => .double

/-! ## Numbers -/

namespace Comparand

/-- A number in the double format. -/
def toDouble (a : Comparand) : Except Error Binary :=
  match a.number with
  | .whole n => doubleOf n
  | .real x => .ok x

/-- The result of an operation on integers in a kind of cell. -/
def performInCell (kind : IntegerCell) (op : Operation) (m n : Int) : Except Error Value := do
  let m ← kind.hold m
  let n ← kind.hold n
  if op = .remainder ∧ n = 0 then return .integerCell kind 0
  else
    let result ← op.onIntegers m n
    return .integerCell kind (kind.wrap result)

/-- The result of an operation on floating-point numbers, in a kind of cell or plain. -/
def performOnFloats (kind : Option CellKind) (op : Operation) (x y : Binary) : Except Error Value :=
  match kind with
  | none =>
    match op.onFloats? .double x y with
    | some result => .ok (.float result)
    | none => .error .floatModuloByZero
  | some kind =>
    let format := kind.floatKind.format
    let result := op.onFloats? format (x.round format) (y.round format)
    .ok (.floatCell kind.floatKind (result.getD .nan))

/-- The result of an operation on two numbers. -/
def perform (op : Operation) (a b : Comparand) : Except Error Value :=
  let kind := a.kind.or b.kind
  match a.number, b.number with
  | .whole m, .whole n =>
    match kind.bind CellKind.integerKind? with
    | none => (op.onIntegers m n).map Value.int
    | some kind => performInCell kind op m n
  | _, _ => do
    let x ← a.toDouble
    let y ← b.toDouble
    performOnFloats kind op x y

end Comparand

namespace Value

/-- An array without dimensions as its cell, any other value as itself. -/
def scalar : Value → Value
  | array kind (list items) => array kind (list items)
  | array kind content => cell kind content
  | v => v

/-- The fault of an operation that is not one of numbers. -/
def operandFault (op : Operation) (a b : Value) : TypeFault :=
  match op, a.text?, a with
  | .remainder, some _, _ => .notFormatted "string"
  | .remainder, none, bytes _ => .notFormatted "bytes"
  | op, _, _ => .notOperands op.sign a.fullKindName b.fullKindName

/-- The result of an operation on two values. -/
def perform (op : Operation) (a b : Value) : Except Error Value :=
  match a.scalar.comparand?, b.scalar.comparand? with
  | some x, some y => x.perform op y
  | _, _ => .error (.type (operandFault op a b))

/-- Whether a value is a sequence that can be repeated. -/
def isRepeatable : Value → Bool
  | text _ => true
  | textCell _ => true
  | bytes _ => true
  | list _ => true
  | tuple _ => true
  | _ => false

/-- Adds a multiple of a value to a number.  The multiple of a sequence is its repetition, which
cannot be added to a number, and has a length. -/
def addMultiple (sum : Value) (factor : Int) (v : Value) : Except Error Value :=
  if v.isRepeatable then
    if isSize factor then .error (.type (operandFault .sum sum v))
    else .error (.overflow (.integerToIndex "int"))
  else do
    let product ← perform .product (int factor) v
    perform .sum sum product

/-! ## Laws -/

theorem perform_int (op : Operation) (m n : Int) :
    perform op (int m) (int n) = (op.onIntegers m n).map int := by
  cases op <;> rfl

end Value

end CircuitBench
