import CircuitBench.Bytes.Cursor
import CircuitBench.Field.Element
import CircuitBench.Signal.Flatten
import CircuitBench.Signal.Name
import CircuitBench.Symbol.Table

/-!
# Outputs of a witness

A symbol table tells on which wire of a witness the value of a signal is found.  A signal that the
compiler removed has a negative wire and no value.  Values are looked up by name, listed for the
main component, or compared with expected ones.

## Main results

* `signalValue_removed` : a signal that was removed has no value.
* `expectAll_nil` : nothing expected is always met.
-/

namespace CircuitBench

open Signal

/-! ## Looking up -/

/-- The value of a signal, none when the signal was removed, from the values on the wires of a
witness. -/
def signalValue {α : Type} (onWire : Int → Except Error α) (s : Symbol) : Except Error (Option α) :=
  if s.wire < 0 then .ok none else (onWire s.wire).map some

/-- Puts the value of a named signal into a list of values by name. -/
def putOutput {α : Type} (name : String) (value : Option α) :
    List (String × Option α) → List (String × Option α)
  | [] => [(name, value)]
  | (n, v) :: rest => if n = name then (n, value) :: rest else (n, v) :: putOutput name value rest

/-- Looks up the values of named signals and puts them into a list of values by name. -/
def outputsInto {α : Type} (symbols : SymbolTable) (onWire : Int → Except Error α)
    (found : List (String × Option α)) : List Value → Except Error (List (String × Option α))
  | [] => .ok found
  | v :: rest => do
    let name ← qualifyValue v
    let given ← v.plainText
    match symbols.get? name with
    | none => .error (.missingKey ("unknown signal " ++ given))
    | some s =>
      let value ← signalValue onWire s
      outputsInto symbols onWire (putOutput given value found) rest

/-- The values of the signals that a value names, each under the name it was asked for by. -/
def outputs {α : Type} (symbols : SymbolTable) (onWire : Int → Except Error α) (names : Value) :
    Except Error (List (String × Option α)) := do
  let items ← names.members
  outputsInto symbols onWire [] items

/-! ## Listing -/

/-- Whether a signal is listed with its value: it was not removed, and the name without indices has
a single dot. -/
def isListed (signal : String × Symbol) : Bool :=
  0 ≤ signal.2.wire && depth (baseChars signal.1.toList) == 1

/-- The line that lists a signal with its value. -/
def outputLine (onWire : Int → Except Error Value) (signal : String × Symbol) :
    Except Error String := do
  let value ← onWire signal.2.wire
  let text ← value.inlineText
  return signal.1 ++ " --> " ++ text

/-- The lines that list signals with their values. -/
def outputLines (onWire : Int → Except Error Value) :
    List (String × Symbol) → Except Error (List String)
  | [] => .ok []
  | signal :: rest => do
    let line ← outputLine onWire signal
    let more ← outputLines onWire rest
    return line :: more

/-- The signals of the main component with their values, a line each. -/
def listing (symbols : SymbolTable) (onWire : Int → Except Error Value) : Except Error String := do
  let lines ← outputLines onWire (symbols.filter isListed)
  return "\n".intercalate lines

/-! ## Comparing -/

/-- Fails with a difference from what was expected, or because one of the numbers is too long to
print. -/
def differ (signal : String) (expected got : Int) : Except Error Unit := do
  let _ ← Value.integerText expected
  let _ ← Value.integerText got
  .error (.expectation (.differs signal expected got))

/-- Expects a signal of a witness to have the value that a leaf stands for. -/
def expectLeaf (symbols : SymbolTable) (prime : Int) (witness : List Int) (leaf : String × Value) :
    Except Error Unit :=
  match symbols.get? leaf.1 with
  | none => .error (.expectation (.notInWitness leaf.1))
  | some s =>
    if s.wire < 0 then .error (.expectation (.notInWitness leaf.1))
    else do
      let value ← atIndex witness s.wire
      let got ← Field.residue value prime
      let expected ← Field.ofValue leaf.2 prime
      if got = expected then return () else differ leaf.1 expected got

/-- Expects signals of a witness to have the values that leaves stand for, in order. -/
def expectLeaves (symbols : SymbolTable) (prime : Int) (witness : List Int) :
    List (String × Value) → Except Error Unit
  | [] => .ok ()
  | leaf :: rest => do
    expectLeaf symbols prime witness leaf
    expectLeaves symbols prime witness rest

/-- Expects a witness to have the values of a table from signal names to values, entry by entry. -/
def expectAll (symbols : SymbolTable) (prime : Int) (witness : List Int) :
    List (Value × Value) → Except Error Unit
  | [] => .ok ()
  | (key, value) :: rest => do
    let name ← qualifyValue key
    expectLeaves symbols prime witness (flatten name value)
    expectAll symbols prime witness rest

/-- Expects a witness to have the values of an assignment. -/
def checkOutputs (symbols : SymbolTable) (prime : Int) (witness : List Int) (expected : Value) :
    Except Error Unit := do
  let entries ← expected.items
  expectAll symbols prime witness entries

/-! ## Laws -/

theorem signalValue_removed {α : Type} (onWire : Int → Except Error α) {s : Symbol}
    (h : s.wire < 0) :
    signalValue onWire s = .ok none :=
  if_pos h

theorem expectAll_nil (symbols : SymbolTable) (prime : Int) (witness : List Int) :
    expectAll symbols prime witness [] = .ok () := rfl

end CircuitBench
