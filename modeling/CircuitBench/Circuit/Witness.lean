import CircuitBench.Circuit.Files
import CircuitBench.Circuit.Inputs
import CircuitBench.Circuit.Loose
import CircuitBench.Json.Document
import CircuitBench.Tool.Run

/-!
# Computing and using a witness

A witness is computed in a temporary folder: the encoded inputs are written there, the witness
program is run in its own folder, and the witness it leaves is read.  The folder is removed once the
witness has been read.  With the strict check, inputs that do not fit the circuit are refused before
anything is written or run, and a witness that does not have a value for each wire is refused
afterwards.

A witness is then checked against the constraints, and its values are looked up through the symbols.
It may be one that was handed over as a value of any kind.

## Main results

* `strictCheck_off` : without the strict check, inputs are not looked at.
-/

namespace CircuitBench.Session

open Bench

/-! ## Computing -/

/-- The strict check of inputs, if it is asked for. -/
def strictCheck (strict : Bool) (system : ConstraintSystem) (inputs : Value) : Step Unit :=
  if strict then do
    let symbols ← loadSymbols
    attempt (checkInputs symbols system.toConstraintHeader inputs)
  else return ()

/-- The file in a work folder that the witness program reads. -/
def inputFile (work : String) : FilePath :=
  (FilePath.ofString work).child "input.json"

/-- The file in a work folder that the witness program writes. -/
def witnessFile (work : String) : FilePath :=
  (FilePath.ofString work).child "witness.wtns"

/-- The arguments with which a witness program is run. -/
def generatorArguments (c : Circuit) (work : String) : List String :=
  [c.scriptPath.text, c.programPath.text, (inputFile work).text, (witnessFile work).text]

/-- Refuses the outcome of a run that failed or left no witness. -/
def requireWitness (c : Circuit) (work : String) (outcome : Outcome) : Action Unit := do
  let failure : Error :=
    .circuit (.witness (.generation c.name outcome.exitCode) (some outcome.report))
  if outcome.exitCode ≠ 0 then throw failure
  else if ← pathExists (witnessFile work).text then return ()
  else throw failure

/-- Runs the witness program of a circuit on inputs in a work folder, and reads the witness. -/
def generate (c : Circuit) (node : Program) (work : String) (prime : Int) (inputs : Value) :
    Action (List Nat) := do
  let document ← attempt (inputDocument prime inputs)
  writeDocument (inputFile work).text document documentIndent
  let outcome ← run node (generatorArguments c work) (some c.programFolder.text)
  requireWitness c work outcome
  let file ← readWitness (witnessFile work).text
  return file.values

/-- Removes a work folder. -/
def clearWork (work : String) : Action Unit :=
  removing fun b => b.disk.clearFolder b.current work

/-- Computes the witness of a circuit whose constraints are at hand. -/
def computeWitness (c : Circuit) (prime : Int) (inputs : Value) : Action (List Nat) := do
  let options ← attempt c.options.record
  let node ← requireProgram (options.getD "node" .null) "node" interpreterAdvice
  let work ← openFolder (c.name ++ "_wtns_") none
  let values ← generate c node work prime inputs
  clearWork work
  return values

/-- The witness that the circuit computes from inputs. -/
def calculateWitness (inputs : Value) (strict : Bool) : Step (List Nat) := do
  let system ← loadConstraints
  strictCheck strict system inputs
  let c ← circuitNow
  let values ← onBench (computeWitness c system.prime inputs)
  if strict ∧ values.length ≠ system.wires then
    throw (.circuit (.witness (.wrongLength values.length system.wires) none))
  else return values

/-! ## Using -/

/-- Checks a witness against the constraints of the circuit. -/
def checkConstraints (witness : List Int) : Step Unit := do
  let system ← loadConstraints
  let c ← circuitNow
  attempt (checkWitness system c.symbols witness)

/-- Checks a witness of loosely typed values against the constraints of the circuit. -/
def checkLoosely (witness : Value) : Step Unit := do
  let system ← loadConstraints
  let c ← circuitNow
  attempt (checkValues system c.symbols witness)

/-- The values of named signals, from the values on the wires of a witness. -/
def getOutput {α : Type} (onWire : Int → Except Error α) (names : Value) :
    Step (List (String × Option α)) := do
  let symbols ← loadSymbols
  attempt (outputs symbols onWire names)

/-- The signals of the main component with their values, a line each. -/
def decoratedOutput (onWire : Int → Except Error Value) : Step String := do
  let symbols ← loadSymbols
  attempt (listing symbols onWire)

/-- Expects a witness to have given values. -/
def assertOutputs (witness : List Int) (expected : Value) : Step Unit := do
  let symbols ← loadSymbols
  let system ← loadConstraints
  attempt (checkOutputs symbols system.prime witness expected)

/-- Expects a witness of loosely typed values to have given values. -/
def assertLoosely (witness expected : Value) : Step Unit := do
  let symbols ← loadSymbols
  let system ← loadConstraints
  attempt (checkOutputValues symbols system.prime witness expected)

/-! ## Laws -/

theorem strictCheck_off (system : ConstraintSystem) (inputs : Value) (s : Session) :
    strictCheck false system inputs s = .ok () s := rfl

end CircuitBench.Session
