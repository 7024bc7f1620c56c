import CircuitBench.Bench.Basic
import CircuitBench.Constraint.System
import CircuitBench.Symbol.Table

/-!
# Compiled circuits

A compiled circuit is a folder with the files that the compiler made of one source: its constraints,
its symbols, and, in a folder of its own, the witness program.  The files are named after the
source, without the ending.  Constraints and symbols are read when they are first needed and kept
from then on.

Work on a circuit goes on at a bench; a session holds both, and what was read before a failure stays
read.

## Main results

* `onBench_circuit` : work at the bench alone leaves the circuit as it is.
-/

namespace CircuitBench

/-- A compiled circuit: its source, the name of its files, their folder, the options it was built
with, whether the folder belongs to the circuit alone, and what has been read of its files. -/
structure Circuit where
  source : String
  name : String
  folder : FilePath
  options : Value
  ownsOutput : Bool
  symbols : Option SymbolTable := none
  constraints : Option ConstraintSystem := none

namespace Circuit

/-- The circuit of a source that is compiled into a folder. -/
def ofPaths (source output : String) (options : Value) (ownsOutput : Bool) : Circuit :=
  ⟨source, (FilePath.ofString source).stem, FilePath.ofString output, options, ownsOutput, none,
    none⟩

/-- The folder of the witness program. -/
def programFolder (c : Circuit) : FilePath :=
  c.folder.child (c.name ++ "_js")

/-- The witness program. -/
def programPath (c : Circuit) : FilePath :=
  c.programFolder.child (c.name ++ ".wasm")

/-- The script that runs the witness program. -/
def scriptPath (c : Circuit) : FilePath :=
  c.programFolder.child "generate_witness.js"

/-- The file of the constraints. -/
def constraintsPath (c : Circuit) : FilePath :=
  c.folder.child (c.name ++ ".r1cs")

/-- The file of the symbols. -/
def symbolsPath (c : Circuit) : FilePath :=
  c.folder.child (c.name ++ ".sym")

/-- The prime of a circuit whose constraints have been read. -/
def prime (c : Circuit) : Except Error Nat :=
  match c.constraints with
  | some system => .ok system.prime
  | none => .error .notLoaded

end Circuit

/-! ## Sessions -/

/-- A circuit at a bench. -/
structure Session where
  bench : Bench
  circuit : Circuit

/-- A step of work on a circuit. -/
abbrev Step := EStateM Error Session

namespace Session

/-- An action at the bench, as a step of work on a circuit. -/
def onBench {α : Type} (action : Action α) : Step α := fun s =>
  match action s.bench with
  | .ok a bench => .ok a { s with bench }
  | .error e bench => .error e { s with bench }

/-- The circuit as it is now. -/
def circuitNow : Step Circuit := fun s => .ok s.circuit s

/-- The constraints of the circuit, which are read if they have not been. -/
def keepConstraints (read : Circuit → Action ConstraintSystem) : Step ConstraintSystem := do
  let c ← circuitNow
  match c.constraints with
  | some system => return system
  | none =>
    let system ← onBench (read c)
    modify fun s => { s with circuit := { s.circuit with constraints := some system } }
    return system

/-- The symbols of the circuit, which are read if they have not been. -/
def keepSymbols (read : Circuit → Action SymbolTable) : Step SymbolTable := do
  let c ← circuitNow
  match c.symbols with
  | some table => return table
  | none =>
    let table ← onBench (read c)
    modify fun s => { s with circuit := { s.circuit with symbols := some table } }
    return table

/-! ## Laws -/

theorem onBench_circuit {α : Type} (action : Action α) (s : Session) :
    (match onBench action s with
      | .ok _ s' => s'.circuit
      | .error _ s' => s'.circuit) = s.circuit := by
  unfold onBench
  cases action s.bench <;> rfl

theorem keepConstraints_of_some (read : Circuit → Action ConstraintSystem) {s : Session}
    {system : ConstraintSystem} (h : s.circuit.constraints = some system) :
    keepConstraints read s = .ok system s := by
  simp only [keepConstraints, bind, EStateM.bind, circuitNow, h]
  rfl

theorem keepSymbols_of_some (read : Circuit → Action SymbolTable) {s : Session}
    {table : SymbolTable} (h : s.circuit.symbols = some table) :
    keepSymbols read s = .ok table s := by
  simp only [keepSymbols, bind, EStateM.bind, circuitNow, h]
  rfl

end Session

end CircuitBench
