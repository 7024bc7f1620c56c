import CircuitBench.CommandLine.Grammar
import CircuitBench.Pipeline.Run
import CircuitBench.Settings.File

/-!
# The command line

The command line takes a template, its arguments and its public inputs.  It either shows the source
of a main component as it would stand in the current folder, or runs the pipeline on the inputs of a
file.  A fault of the command line and an input file that is not there end the program with two; a
failure that the tools or the checks report ends it with one.  Any other failure is not its
business.

## Main results

* `renderOnly_disk` : showing a source leaves the disk alone.
-/

namespace CircuitBench.CommandLine

open Bench

/-- What an option that has no value stands for: an empty list. -/
def optionValue (value : Option String) : Value :=
  (value.map Value.text).getD (.list [])

/-- What a command line asks for.  A file or folder that is not named is not asked for. -/
structure Arguments where
  templateFile : Value := .text ""
  template : Value := .text ""
  publicSignals : List Value := []
  parameters : Value := .text "[]"
  input : Option String := none
  config : Option String := none
  outputFolder : Option String := none
  renderOnly : Bool := false
  quiet : Bool := false
  verbose : Bool := false

/-- Takes an option that is given into account.  A later value replaces an earlier one, but public
inputs add up. -/
def Arguments.apply (a : Arguments) : Given → Arguments
  | (.templateFile, value) => { a with templateFile := optionValue value }
  | (.template, value) => { a with template := optionValue value }
  | (.publicSignal, value) => { a with publicSignals := a.publicSignals ++ [optionValue value] }
  | (.parameters, value) => { a with parameters := optionValue value }
  | (.input, value) => { a with input := named value }
  | (.config, value) => { a with config := named value }
  | (.outputFolder, value) => { a with outputFolder := named value }
  | (.renderOnly, _) => { a with renderOnly := true }
  | (.quiet, _) => { a with quiet := true }
  | (.verbose, _) => { a with verbose := true }
  | (.help, _) => a
where
  /-- The name of a file or folder; an empty one names nothing. -/
  named (value : Option String) : Option String :=
    value.filter fun name => !name.isEmpty

/-- What the options that are given ask for. -/
def Arguments.ofGiven (given : List Given) : Arguments :=
  given.foldl Arguments.apply {}

/-! ## Ends -/

/-- The number that the program ends with. -/
abbrev ExitCode := Nat

/-- The name that complaints about the command line start with. -/
def programName : String := "cli.py"

/-- Ends with a complaint about the command line. -/
def refuse (text : String) : Action ExitCode := do
  complain (programName ++ ": error: " ++ text)
  return 2

/-- Ends with the report of a failure of the tools or the checks. -/
def reportFailure (fault : CircuitFault) : Action ExitCode := do
  complain ("ERROR: " ++ fault.message)
  return 1

/-- Ends well after an action, or with the report of a failure of the tools or the checks. -/
def endWith {α : Type} (action : Action α) : Action ExitCode := fun b =>
  match action b with
  | .ok _ b' => .ok 0 b'
  | .error (.circuit fault) b' => reportFailure fault b'
  | .error e b' => .error e b'

/-! ## Parts -/

/-- The configuration: the defaults with the file that is named, if any. -/
def configuration (a : Arguments) : Action Table :=
  match a.config with
  | none => return Settings.defaults
  | some path => Settings.load path Settings.defaults

/-- The main component that is asked for. -/
def mainRequest (a : Arguments) (parameters : Value) : MainRequest :=
  ⟨a.templateFile, a.template, .list a.publicSignals, parameters⟩

/-- The file in which a source would stand in the current folder. -/
def shownFile : String := "main.circom"

/-- Shows the source of the main component. -/
def renderOnly (a : Arguments) (config : Table) (parameters : Value) : Action ExitCode := do
  let b ← get
  let source ← attempt (mainSource config b.current shownFile (mainRequest a parameters))
  print source
  return 0

/-- The options of a build that the command line gives: the output folder, which is made. -/
def buildOptions (a : Arguments) : Action Value := do
  match a.outputFolder with
  | none => return .table []
  | some path =>
    makeFolders (FilePath.ofString path)
    return .table [(.text "output", .text path)]

/-- Runs the pipeline on the inputs of a file. -/
def runOnInputs (a : Arguments) (config : Table) (parameters : Value) (path : String) :
    Action ExitCode := do
  match ← readDocument path with
  | .null =>
    complain ("ERROR: input file not found: " ++ path)
    return 2
  | inputs =>
    let options ← buildOptions a
    endWith (runPipeline ⟨mainRequest a parameters, inputs, .table config, options, a.quiet⟩ true)

/-! ## The program -/

/-- The parameters that the command line gives, as JSON. -/
def readParameters (a : Arguments) : Except Error Value :=
  match a.parameters.text? with
  | some text => parseJson text
  | none => .error (.type (.notJson a.parameters.kindName))

/-- Does what a command line asks for. -/
def perform (a : Arguments) : Action ExitCode := do
  showFrom (if a.verbose then .debug else .warning)
  let config ← configuration a
  match readParameters a with
  | .error .malformedJson => refuse "--params is not valid JSON: malformed text"
  | .error (.value fault) => refuse ("--params is not valid JSON: " ++ fault.message)
  | .error e => throw e
  | .ok (.list items) =>
    if a.renderOnly then renderOnly a config (.list items)
    else
      match a.input with
      | none => refuse "--input is required unless --render-only is given"
      | some path => runOnInputs a config (.list items) path
  | .ok _ => refuse "--params must be a JSON list"

/-- Runs the program on the words of a command line, read by a convention. -/
def run (convention : Convention) (words : List String) : Action ExitCode :=
  match parse convention words with
  | .error fault => refuse fault.message
  | .ok given =>
    if (given.map Prod.fst).contains .help then return 0 else perform (Arguments.ofGiven given)

/-! ## Laws -/

theorem renderOnly_disk (a : Arguments) (config : Table) (parameters : Value) (b : Bench) :
    (match renderOnly a config parameters b with
      | .ok _ b' => b'.disk
      | .error _ b' => b'.disk) = b.disk := by
  change (match (do
      print (← attempt (mainSource config b.current shownFile (mainRequest a parameters)))
      return 0 : Action ExitCode) b with
    | .ok _ b' => b'.disk
    | .error _ b' => b'.disk) = b.disk
  cases mainSource config b.current shownFile (mainRequest a parameters) <;> rfl

end CircuitBench.CommandLine
