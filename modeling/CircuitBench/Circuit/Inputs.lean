import CircuitBench.Constraint.System
import CircuitBench.Signal.Flatten
import CircuitBench.Signal.Name
import CircuitBench.Symbol.Table
import CircuitBench.Field.Element

/-!
# Inputs of a circuit

An input assignment is a table from signal names to values, where the value of an array is a nested
list.  The strict check wants it to name the inputs of the main component exactly: each entry is
spread over the elements of its value, and the names that come out are compared with those of the
signals on the input wires.  A name that is no input is reported before an input that is not named.

For the witness generator each leaf is replaced by the decimal text of its field element, under the
keys as they were given.

## Main results

* `checkNames_ok_iff` : names are accepted exactly when they are, as a set, the expected ones.
-/

namespace CircuitBench

open Signal

/-! ## The strict check -/

/-- The names that entries of an assignment give values to, entry by entry. -/
def providedNames : List (Value × Value) → Except Error (List String)
  | [] => .ok []
  | (key, value) :: rest => do
    let name ← qualifyValue key
    let more ← providedNames rest
    return (flatten name value).map Prod.fst ++ more

/-- The order of names by code points. -/
def nameOrder (a b : String) : Bool :=
  Text.comesNoLater a b

/-- The names that are not expected, sorted, each once. -/
def unknownNames (expected provided : List String) : List String :=
  ((provided.filter fun name => !expected.contains name).eraseDups).mergeSort nameOrder

/-- The expected names that are not provided, in the order in which they are expected. -/
def missingNames (expected provided : List String) : List String :=
  expected.filter fun name => !provided.contains name

/-- Compares the names that are provided with those that are expected. -/
def checkNames (expected provided : List String) : Except WitnessFault Unit :=
  if unknownNames expected provided ≠ [] then
    .error (.unknownInputs (unknownNames expected provided))
  else if missingNames expected provided ≠ [] then
    .error (.inputsNotSet (missingNames expected provided))
  else .ok ()

/-- The names of the signals that an assignment must give values to. -/
def expectedNames (symbols : SymbolTable) (header : ConstraintHeader) : List String :=
  symbols.inputSignals header.firstInput header.endInput

/-- Checks that an assignment gives values to the inputs of the main component and to nothing
else. -/
def checkInputs (symbols : SymbolTable) (header : ConstraintHeader) (inputs : Value) :
    Except Error Unit := do
  let entries ← inputs.items
  let provided ← providedNames entries
  match checkNames (expectedNames symbols header) provided with
  | .ok () => .ok ()
  | .error fault => .error (.circuit (.witness fault none))

/-! ## The input document -/

/-- The entries of an assignment with each leaf replaced by the decimal text of its field
element. -/
def encodeEntries (prime : Int) : List (Value × Value) → Except Error (List (Value × Value))
  | [] => .ok []
  | (key, value) :: rest => do
    let encoded ← Field.encode prime value
    let more ← encodeEntries prime rest
    return (key, encoded) :: more

/-- The assignment that the witness generator reads. -/
def inputDocument (prime : Int) (inputs : Value) : Except Error Value := do
  let entries ← inputs.items
  let encoded ← encodeEntries prime entries
  return .table encoded

/-! ## Laws -/

theorem unknownNames_nil_iff (expected provided : List String) :
    unknownNames expected provided = [] ↔ ∀ name ∈ provided, name ∈ expected := by
  have hmem (name : String) :
      name ∈ unknownNames expected provided ↔ name ∈ provided ∧ name ∉ expected := by
    simp [unknownNames, List.mem_eraseDups]
  rw [List.eq_nil_iff_forall_not_mem]
  constructor
  · intro h name hp
    exact Classical.byContradiction fun he => h name ((hmem name).2 ⟨hp, he⟩)
  · intro h name hu
    obtain ⟨hp, he⟩ := (hmem name).1 hu
    exact he (h name hp)

theorem missingNames_nil_iff (expected provided : List String) :
    missingNames expected provided = [] ↔ ∀ name ∈ expected, name ∈ provided := by
  simp [missingNames, List.filter_eq_nil_iff]

theorem checkNames_ok_iff (expected provided : List String) :
    checkNames expected provided = .ok () ↔ ∀ name, name ∈ provided ↔ name ∈ expected := by
  unfold checkNames
  constructor
  · intro h
    split at h
    · exact nomatch h
    · rename_i hu
      split at h
      · exact nomatch h
      · rename_i hm
        rw [Classical.not_not] at hu hm
        exact fun name =>
          ⟨(unknownNames_nil_iff _ _).1 hu name, (missingNames_nil_iff _ _).1 hm name⟩
  · intro h
    rw [if_neg, if_neg]
    · rw [Classical.not_not, missingNames_nil_iff]
      exact fun name hn => (h name).2 hn
    · rw [Classical.not_not, unknownNames_nil_iff]
      exact fun name hn => (h name).1 hn

end CircuitBench
