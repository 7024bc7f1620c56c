import CircuitBench.Circuit.Build
import CircuitBench.Circuit.Witness
import CircuitBench.Pipeline.Execution
import CircuitBench.Template.Synthesis

/-!
# From a template to a checked witness

The pipeline writes a main component for a template, builds it, executes the circuit on inputs, and
prints a summary of the witness unless it is told to be quiet.  Without a registry of the caller's,
temporary files are kept in one of its own, which is cleaned up whatever the end.

## Main results

* `announce_quiet` : a quiet run announces nothing.
-/

namespace CircuitBench

/-! ## Circuits at a bench -/

namespace Session

/-- The operations of the circuit of a session. -/
def operations : CircuitOperations Session (List Nat) where
  calculateWitness := calculateWitness
  checkConstraints witness := checkConstraints (witness.map Int.ofNat)
  loadSymbols := do
    let _ ← loadSymbols
    return ()

/-- Executes the circuit of a session. -/
def execute (inputs : Value) : Step (List Nat) :=
  operations.execute inputs

/-- A witness as a value. -/
def witnessValues (witness : List Nat) : List Value :=
  witness.map fun n : Nat => .int n

/-- The listing of the signals of the circuit, as a value. -/
def listing (witness : List Nat) : Step Value := do
  let text ← decoratedOutput (Value.list (witnessValues witness)).entry
  return .text text

/-- Prints a text on a line of its own. -/
def printLine (text : String) : Step Unit :=
  onBench (Bench.printLine text)

/-- Executes the circuit of a session, and prints a summary of the witness unless it is to be
quiet. -/
def executeAndReport (inputs : Value) (quiet : Bool) : Step (List Nat) := do
  let witness ← execute inputs
  if quiet then return witness
  else
    printLine ("[runner] Witness ok: " ++ toString witness.length ++ " values")
    printSummary printLine (some (listing witness)) (.list (witnessValues witness))
    return witness

end Session

/-- Does a step of work on a circuit at the bench. -/
def Circuit.inSession {α : Type} (c : Circuit) (step : Step α) : Action α := fun b =>
  match step ⟨b, c⟩ with
  | .ok a s => .ok a s.bench
  | .error e s => .error e s.bench

/-! ## The pipeline -/

/-- What a pipeline is asked for: a main component and the inputs of its circuit, the configuration
and the options of the caller, and whether it is to be quiet. -/
structure PipelineRequest extends MainRequest where
  inputs : Value
  config : Value := .null
  buildOptions : Value := .null
  quiet : Bool := false

namespace Bench

/-- The configuration of a pipeline: the defaults, and the caller's on top, if it counts as true. -/
def pipelineConfig (config : Value) : Except Error Table := do
  if ← config.truth then Settings.defaults.update config else return Settings.defaults

/-- The synthesizer that builds circuits, which is the one that is meant when no builder is given. -/
def Synthesizer.ofConfig (config : Value) : Synthesizer Circuit where
  config := config
  builder path options := return .awaited (build config path options)

/-- Tells what is built, unless the pipeline is quiet. -/
def announce (r : PipelineRequest) : Action Unit :=
  if r.quiet then return ()
  else do
    let template ← attempt r.template.inlineText
    let file ← attempt r.templateFile.inlineText
    printLine ("[runner] Building " ++ template ++ " from " ++ file ++ " ...")

/-- Builds and executes a circuit with the registry of the bench. -/
def buildAndExecute (config : Table) (r : PipelineRequest) : Action (List Nat) := do
  announce r
  let circuit ← synthesize (.table config) r.toMainRequest r.buildOptions (build (.table config))
  circuit.inSession (Session.executeAndReport r.inputs r.quiet)

/-- Runs a pipeline, with the registry of the bench or with one of its own. -/
def runPipeline (r : PipelineRequest) (ownRegistry : Bool) : Action (List Nat) := do
  let config ← attempt (pipelineConfig r.config)
  if ownRegistry then withPrivateRegistry (buildAndExecute config r) else buildAndExecute config r

theorem announce_quiet (r : PipelineRequest) (h : r.quiet = true) (b : Bench) :
    announce r b = .ok () b := by
  rw [announce, if_pos h]
  rfl

end Bench

end CircuitBench
