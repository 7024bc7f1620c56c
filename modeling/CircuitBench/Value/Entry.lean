import CircuitBench.Bytes.Cursor
import CircuitBench.Value.Access

/-!
# Entries by index

A sequence has a length, and a member for each index below it; a negative index counts from the end.
A table has entries for the numbers among its keys.  A value of another kind has neither length nor
entries.

## Main results

* `size_list`, `entry_list` : a list has the length and the members of its items.
-/

namespace CircuitBench.Value

/-- The number of members of a value. -/
def size : Value → Except Error Nat
  | text s => .ok s.length
  | textCell s => .ok s.length
  | bytes bs => .ok bs.length
  | list items => .ok items.length
  | tuple items => .ok items.length
  | set items => .ok items.length
  | table entries => .ok entries.length
  | array _ (list items) => .ok items.length
  | array _ _ => .error (.type .unsizedArray)
  | v => .error (.type (.unsized v.fullKindName))

/-- The entry of a value at an index. -/
def entry (v : Value) (index : Int) : Except Error Value :=
  match v with
  | text s => memberAt (characters s) index (.outOfRange "string")
  | textCell s => memberAt (characters s) index (.outOfRange "string")
  | bytes bs => memberAt (bs.map fun b => int b.toNat) index .beyondBytes
  | list items => atIndex items index
  | tuple items => memberAt items index (.outOfRange "tuple")
  | table entries =>
    match entries.find? fun e => e.1.sameKey (int index) with
    | some e => .ok e.2
    | none => .error (.missingKey (toString index))
  | array kind (list items) =>
    memberAt (items.map (subArray kind)) index (.beyondArray index items.length)
  | array _ _ => .error (.index .noDimensions)
  | boolCell _ => .error (.index .scalarCell)
  | integerCell _ _ => .error (.index .scalarCell)
  | floatCell _ _ => .error (.index .scalarCell)
  | v => .error (.type (.notIndexed v.fullKindName))

/-! ## Laws -/

theorem size_list (items : List Value) : size (list items) = .ok items.length := rfl

theorem entry_list (items : List Value) (index : Int) :
    entry (list items) index = atIndex items index := rfl

end CircuitBench.Value
