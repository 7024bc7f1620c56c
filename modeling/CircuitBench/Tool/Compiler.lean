import CircuitBench.Value.Access

/-!
# The arguments of the compiler

The options of a build become arguments of the compiler: the folders in which includes are looked
for, the prime of the field, the level of simplification, and whether constraints are also written
as JSON. The constraints, the symbols and the witness program are always asked for.

## Main results

* `compilerArguments_empty` : without options, only the outputs are asked for.
-/

namespace CircuitBench

/-- The arguments that make the compiler look for includes in folders. -/
def includeArguments : List Value → Except Error (List String)
  | [] => .ok []
  | v :: vs => do
    let text ← v.plainText
    let more ← includeArguments vs
    return "-l" :: text :: more

/-- The argument that makes the compiler use another prime, if one is asked for. -/
def primeArguments (options : Table) : Except Error (List String) := do
  let prime := options.getD "prime" .null
  if ← prime.truth then
    let text ← prime.plainText
    return ["--prime", text]
  else return []

/-- The argument that sets the level of simplification, if one is asked for. -/
def simplificationArguments (options : Table) : Except Error (List String) :=
  match options.getD "O" .null with
  | .null => .ok []
  | v => do
    let level ← v.toInteger
    let text ← Value.integerText level
    return ["--O" ++ text]

/-- The argument that makes the compiler also write JSON, if it is asked for. -/
def jsonArguments (options : Table) : Except Error (List String) := do
  if ← (options.getD "json" .null).truth then return ["--json"] else return []

/-- The arguments with which the compiler builds a circuit into a folder. -/
def compilerArguments (circuitPath output : String) (options : Table) :
    Except Error (List String) := do
  let folders ← (options.getD "include" .null).orElse (.list [])
  let items ← folders.members
  let includes ← includeArguments items
  let prime ← primeArguments options
  let simplification ← simplificationArguments options
  let json ← jsonArguments options
  return [circuitPath, "--r1cs", "--wasm", "--sym", "-o", output] ++ includes ++ prime ++
    simplification ++ json

theorem compilerArguments_empty (circuitPath output : String) :
    compilerArguments circuitPath output [] =
      .ok [circuitPath, "--r1cs", "--wasm", "--sym", "-o", output] := rfl

end CircuitBench
