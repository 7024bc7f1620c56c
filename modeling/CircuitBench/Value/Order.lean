import CircuitBench.Error

/-!
# The order of values

Numbers are ordered by value, texts by code points, bytes by their numbers, and sequences by the
first place in which they differ.  Values of other kinds, and of kinds that do not belong together,
have no order, though they still are the same or not.  Which of the two asked values the failure to
order them names first depends on which of them belongs to array code.

A number of array code is compared in the format of its kind, so that a plain number may lose
digits, and even be beyond the format.

## Main results

* `less_text` : texts are ordered by their code points.
* `sameItems_nil`, `lessItems_nil` : no sequence comes before the empty one.
-/

namespace CircuitBench

open Number Text

/-! ## Numbers -/

/-- A number as it is compared: a whole one, or one in a floating-point format. -/
inductive Numeral
  | whole (n : Int)
  | real (x : Binary)

/-- A number together with the kind of its cell, if it is one. -/
structure Comparand where
  kind : Option CellKind
  number : Numeral

/-- A value as a number. -/
def Value.comparand? : Value → Option Comparand
  | bool b => some ⟨none, .whole b.toNat⟩
  | int n => some ⟨none, .whole n⟩
  | float x => some ⟨none, .real x⟩
  | boolCell b => some ⟨some .truth, .whole b.toNat⟩
  | integerCell k n => some ⟨some (.integer k), .whole n⟩
  | floatCell k x => some ⟨some (.floating k), .real x⟩
  | _ => none

/-- An integer as a floating-point number, unless it is too large. -/
def doubleOf (n : Int) : Except Error Binary :=
  match Binary.ofInt .double n with
  | .infinite _ => .error (.overflow .integerToFloat)
  | x => .ok x

/-- Compares a whole number with one in a floating-point format. -/
def compareWhole (a : Option CellKind) (n : Int) (b : Option CellKind) (x : Binary) :
    Except Error (Option Ordering) :=
  match a, b with
  | none, none => .ok ((x.compareInt? n).map Ordering.swap)
  | none, some (.floating k) => (doubleOf n).map fun y => (y.round k.format).compare? x
  | _, _ => (doubleOf n).map fun y => y.compare? x

/-- Compares two numbers.  The undefined number has no place among the others. -/
def Comparand.compare (a b : Comparand) : Except Error (Option Ordering) :=
  match a.number, b.number with
  | .whole m, .whole n => .ok (some (Ord.compare m n))
  | .whole m, .real y => compareWhole a.kind m b.kind y
  | .real x, .whole n => (compareWhole b.kind n a.kind x).map fun o => o.map Ordering.swap
  | .real x, .real y =>
    match a.kind, b.kind with
    | none, some (.floating k) => .ok ((x.round k.format).compare? y)
    | some (.floating k), none => .ok (x.compare? (y.round k.format))
    | _, _ => .ok (x.compare? y)

/-! ## Sameness -/

namespace Value

mutual

/-- Whether two values are the same by value. -/
def same : Value → Value → Except Error Bool
  | null, null => .ok true
  | bytes s, bytes t => .ok (s == t)
  | list xs, list ys => sameItems xs ys
  | tuple xs, tuple ys => sameItems xs ys
  | table xs, table ys => if xs.length = ys.length then sameEntries xs ys else .ok false
  | set xs, set ys => .ok (xs.length == ys.length && xs.all fun x => ys.any (x.sameKey ·))
  | a, b =>
    match a.text?, b.text?, a.comparand?, b.comparand? with
    | some s, some t, _, _ => .ok (s == t)
    | _, _, some x, some y => (x.compare y).map (· == some .eq)
    | _, _, _, _ => .ok false

/-- Whether two sequences are the same. -/
def sameItems : List Value → List Value → Except Error Bool
  | [], [] => .ok true
  | x :: xs, y :: ys => do
    if ← same x y then sameItems xs ys else return false
  | _, _ => .ok false

/-- Whether a table has given entries. -/
def sameEntries : List (Value × Value) → List (Value × Value) → Except Error Bool
  | [], _ => .ok true
  | (k, v) :: rest, found =>
    match found.find? fun e => e.1.sameKey k with
    | none => .ok false
    | some e => do
      if ← same v e.2 then sameEntries rest found else return false

end

/-! ## Order -/

/-- The name of a kind of cell, as the failure to order cells gives it. -/
def cellClass : CellKind → String
  | .truth => "BoolDType"
  | .integer k => classOf k.name
  | .floating k => classOf k.name
where
  /-- The name of the class of a kind. -/
  classOf (name : String) : String :=
    match name.toList with
    | 'u' :: 'i' :: rest => "UI" ++ String.ofList rest ++ "DType"
    | 'i' :: rest => "I" ++ String.ofList rest ++ "DType"
    | 'f' :: rest => "F" ++ String.ofList rest ++ "DType"
    | _ => name

/-- The name of the kind that the number of a cell is of. -/
def plainKind : CellKind → String
  | .truth => "bool"
  | .integer _ => "int"
  | .floating _ => "float"

/-- The kind of the cell that a value is. -/
def cellKind? (v : Value) : Option CellKind :=
  v.comparand?.bind Comparand.kind

/-- The failure to order a number of array code and another value. -/
def cellUnordered (side : OrderSide) (kind : CellKind) (other : Value) : TypeFault :=
  match other.text?, other with
  | some _, _ => .cellsNotOrdered side (cellClass kind) "StrDType"
  | none, bytes _ => .cellsNotOrdered side (cellClass kind) "BytesDType"
  | none, v => .notOrdered side (plainKind kind) v.fullKindName

/-- The failure to order two values. -/
def unordered (a b : Value) : Error :=
  .type
    (match a.cellKind?, b.cellKind? with
    | some kind, _ => cellUnordered .less kind b
    | none, some kind => cellUnordered .greater kind a
    | none, none => .notOrdered .less a.fullKindName b.fullKindName)

mutual

/-- Whether one value comes before another. -/
def less : Value → Value → Except Error Bool
  | bytes s, bytes t => .ok (decide (s.map UInt8.toNat < t.map UInt8.toNat))
  | list xs, list ys => lessItems xs ys
  | tuple xs, tuple ys => lessItems xs ys
  | set xs, set ys => .ok (decide (xs.length < ys.length) && xs.all fun x => ys.any (x.sameKey ·))
  | a, b =>
    match a.text?, b.text?, a.comparand?, b.comparand? with
    | some s, some t, _, _ => .ok (comesBefore s t)
    | _, _, some x, some y => (x.compare y).map (· == some .lt)
    | _, _, _, _ => .error (unordered a b)

/-- Whether one sequence comes before another. -/
def lessItems : List Value → List Value → Except Error Bool
  | [], [] => .ok false
  | [], _ :: _ => .ok true
  | _ :: _, [] => .ok false
  | x :: xs, y :: ys => do
    if ← same x y then lessItems xs ys else less x y

end

/-! ## Laws -/

theorem less_text (s t : String) : less (text s) (text t) = .ok (comesBefore s t) := by
  simp [less, text?]

theorem sameItems_nil : sameItems [] [] = .ok true := by
  simp [sameItems]

theorem lessItems_nil (xs : List Value) : lessItems xs [] = .ok false := by
  cases xs <;> simp [lessItems]

end Value

end CircuitBench
