import CircuitBench.Circuit.Files
import CircuitBench.Settings.Options
import CircuitBench.Temporary.Fresh
import CircuitBench.Tool.Compiler
import CircuitBench.Tool.Run

/-!
# Building a circuit

A build compiles a source into a folder: the one that the options name, or a temporary one that then
belongs to the circuit.  When the options allow it and all files of the circuit are there already,
they are used as they are.

## Main results

* `judgeCompilation_zero` : a compilation that ends well is accepted.
-/

namespace CircuitBench.Bench

/-- The part of the library that tells what builds do. -/
def buildLogger : String := "circom_tester"

/-- The command line that compiles a source into a folder. -/
def compilerCommand (circom circuitPath output : String) (options : Value) :
    Except Error (List String) := do
  let table ← options.record
  let arguments ← compilerArguments circuitPath output table
  return circom :: arguments

/-- Tells what the compiler said, if that is asked for. -/
def reportCompilation (options : Table) (outcome : Outcome) : Action Unit := do
  if ← attempt (options.getD "verbose" .null).truth then
    if outcome.output.isEmpty then return ()
    else inform buildLogger ("circom output:\n" ++ Text.trimEndString outcome.output)

/-- Refuses a compilation that did not end well. -/
def judgeCompilation (circuitPath : String) (outcome : Outcome) : Action Unit :=
  if outcome.exitCode = 0 then return ()
  else throw (.circuit (.compilation circuitPath outcome.exitCode outcome.report))

/-- Compiles a source into a folder. -/
def compile (circuitPath output : String) (options : Table) : Action Unit := do
  let circom ← requireProgram (options.getD "circom" .null) "circom" compilerAdvice
  let arguments ← attempt (compilerArguments circuitPath output options)
  let outcome ← run circom arguments none
  reportCompilation options outcome
  judgeCompilation circuitPath outcome

/-- The folder that a build writes to, and whether it belongs to the circuit alone. -/
def outputFolder (options : Table) : Action (String × Bool) := do
  let output := options.getD "output" .null
  if ← attempt output.truth then
    let path ← attempt output.plainText
    return (path, false)
  else
    let path ← openFolder "circom_" none
    return (path, true)

/-- Whether the files of a circuit that has been built before are used as they are. -/
def canReuse (options : Table) (c : Circuit) : Action Bool := do
  if ← attempt (options.getD "recompile" (.bool true)).truth then return false
  else allExist [c.programPath.text, c.constraintsPath.text, c.symbolsPath.text]

/-- Builds a source with the options of a configuration and of the caller. -/
def build (config : Value) (circuitPath : String) (overrides : Value) : Action Circuit := do
  let options ← attempt (Settings.resolve config overrides)
  let (output, owned) ← outputFolder options
  makeFolders (FilePath.ofString output)
  let c := Circuit.ofPaths circuitPath output (.table options) owned
  if ← canReuse options c then
    inform buildLogger ("reusing compiled artifacts in " ++ output)
  else
    compile circuitPath output options
  return c

/-! ## Laws -/

theorem judgeCompilation_zero (circuitPath : String) (outcome : Outcome) (h : outcome.exitCode = 0)
    (b : Bench) : judgeCompilation circuitPath outcome b = .ok () b := by
  rw [judgeCompilation, if_pos h]
  rfl

end CircuitBench.Bench
