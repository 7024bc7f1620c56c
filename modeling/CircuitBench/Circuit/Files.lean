import CircuitBench.Circuit.Basic
import CircuitBench.Constraint.File
import CircuitBench.Symbol.Text
import CircuitBench.Witness.File

/-!
# Reading the files of a circuit

A file is read in full and then taken apart; a failure to take it apart names the file by the path
it was read from.

## Main results

* `loadConstraints_of_some`, `loadSymbols_of_some` : what has been read is not read again.
-/

namespace CircuitBench

namespace Bench

/-- The bytes of a file. -/
def readBytes (path : String) : Action (List UInt8) :=
  ask fun b => b.disk.readFile b.current path

/-- Reads a container file. -/
def readContainer (path magic : String) : Action Container := do
  let bytes ← readBytes path
  attempt ((Container.parse bytes magic path).mapError .format)

/-- Reads a constraint file. -/
def readConstraints (path : String) : Action ConstraintSystem := do
  let bytes ← readBytes path
  attempt (ConstraintSystem.read path bytes)

/-- Reads a symbol file. -/
def readSymbols (path : String) : Action SymbolTable := do
  let bytes ← readBytes path
  attempt (SymbolTable.read path bytes)

/-- Reads a witness file. -/
def readWitness (path : String) : Action WitnessFile := do
  let bytes ← readBytes path
  attempt (WitnessFile.read path bytes)

/-- Whether all of some paths lead to something. -/
def allExist : List String → Action Bool
  | [] => return true
  | path :: rest => do
    if ← ask fun b => b.disk.probe b.current path then allExist rest else return false

end Bench

namespace Session

/-- The constraints of the circuit. -/
def loadConstraints : Step ConstraintSystem :=
  keepConstraints fun c => Bench.readConstraints c.constraintsPath.text

/-- The symbols of the circuit. -/
def loadSymbols : Step SymbolTable :=
  keepSymbols fun c => Bench.readSymbols c.symbolsPath.text

/-- Whether the files of the circuit are there. -/
def artifactsExist : Step Bool := do
  let c ← circuitNow
  onBench (Bench.allExist [c.programPath.text, c.constraintsPath.text, c.symbolsPath.text])

/-- Removes the folder of the circuit if it belongs to the circuit alone. -/
def release : Step Unit := do
  let c ← circuitNow
  if c.ownsOutput then
    onBench (Bench.removing fun b => b.disk.clearFolder b.current c.folder.text)

/-! ## Laws -/

theorem loadConstraints_of_some {s : Session} {system : ConstraintSystem}
    (h : s.circuit.constraints = some system) : loadConstraints s = .ok system s :=
  keepConstraints_of_some _ h

theorem loadSymbols_of_some {s : Session} {table : SymbolTable}
    (h : s.circuit.symbols = some table) :
    loadSymbols s = .ok table s :=
  keepSymbols_of_some _ h

end Session

end CircuitBench
