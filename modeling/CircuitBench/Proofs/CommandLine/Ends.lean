import CircuitBench.Proofs.Bench.Complaints
import CircuitBench.Proofs.CommandLine.RenderOnly
import CircuitBench.Proofs.Pipeline.Stumbles

/-!
# How a command line ends

A command line that asks for a pipeline on inputs, with parameters that are a list, ends in one of
three ways, whatever the programs do that it runs.  It ends with zero, and then a witness has been
verified.  It ends with one, and then it has complained once, of what the tools or the checks of a
circuit have reported.  Or a failure of another kind leaves the program as it is, without a complaint,
and then no program that was run has ended badly: the configuration or the parameters could not be
read, no circuit was built, or its execution has stumbled.  Other parameters are refused.

Failures of the last kind are not the business of the command line.  Malformed files are among them.

## Main results

* `run_ends` : the ways to end, for all words that ask for a pipeline.
* `run_garbled` : a malformed file leaves the program without a complaint.
-/

namespace CircuitBench.CommandLine

open Bench

/-! ## Errands -/

/-- What words ask for that ask for a pipeline on inputs: what they say, the inputs that are read, and
the options of the build. -/
structure Errand where
  arguments : Arguments
  inputs : Table
  options : Value

/-- The pipeline that is run on an errand, with a configuration and parameters that have been read. -/
def Errand.request (x : Errand) (config : Table) (items : List Value) : PipelineRequest where
  toMainRequest := mainRequest x.arguments (.list items)
  inputs := .table x.inputs
  config := .table config
  buildOptions := x.options
  quiet := x.arguments.quiet

/-- Whether words ask for an errand: they are accepted, and do not ask for help or for the source; the
file of the inputs is there and holds an object; and the folder for the output, if there is to be one,
is there or can be made.  With that, the bench is ready. -/
structure Errand.IsOf (x : Errand) (convention : Convention) (words : List String)
    (b ready : Bench) : Prop where
  accepted : ∃ given, parse convention words = .ok given ∧ .help ∉ given.map Prod.fst ∧
    .renderOnly ∉ given.map Prod.fst ∧ x.arguments = .ofGiven given
  inputs : ∃ path, x.arguments.input = some path ∧
    readDocument path (begun x.arguments b) = .ok (.table x.inputs) (begun x.arguments b)
  options : buildOptions x.arguments (begun x.arguments b) = .ok x.options ready

/-- Whether the pipeline of an errand is run, on a request. -/
def Errand.Runs (x : Errand) (b : Bench) (r : PipelineRequest) : Prop :=
  ∃ config items, readParameters x.arguments = .ok (.list items) ∧ r = x.request config items ∧
    configuration x.arguments (begun x.arguments b) = .ok config (begun x.arguments b)

/-! ## Ends -/

/-- How a command line may end that asks for an errand at a bench: with a witness that its pipeline
has verified; with a complaint of what its pipeline has reported; with a complaint of parameters that
are no list; with parameters or a configuration that cannot be read; or with what its pipeline has
failed over otherwise. -/
inductive Ending (x : Errand) (b ready : Bench) : EStateM.Result Error Bench ExitCode → Prop
  | verified {r : PipelineRequest} {witness : List Nat} {left : Bench} (runs : x.Runs b r)
      (returns : runPipeline r true ready = .ok witness left)
      (verifies : Verifies r witness ready left) (ranWell : RanWell b left)
      (silent : left.complaints = b.complaints) : Ending x b ready (.ok 0 left)
  | reported {r : PipelineRequest} {fault : CircuitFault} {left : Bench} (runs : x.Runs b r)
      (fails : runPipeline r true ready = .error (.circuit fault) left) :
      Ending x b ready (.ok 1
        { left with complaints := b.complaints ++ ("ERROR: " ++ fault.message) ++ "\n" })
  | refused {reason : String}
      (unlisted : ∀ items, readParameters x.arguments ≠ .ok (.list items)) :
      Ending x b ready (.ok 2 { begun x.arguments b with
        complaints :=
          b.complaints ++ (programName ++ ": error: " ++ ("--params " ++ reason)) ++ "\n" })
  | unread {e : Error} (fails : readParameters x.arguments = .error e) :
      Ending x b ready (.error e (begun x.arguments b))
  | unconfigured {e : Error} {left : Bench}
      (fails : configuration x.arguments (begun x.arguments b) = .error e left)
      (ranNothing : left.runs = b.runs) (silent : left.complaints = b.complaints) :
      Ending x b ready (.error e left)
  | stumbled {r : PipelineRequest} {e : Error} {left : Bench} (runs : x.Runs b r)
      (fails : runPipeline r true ready = .error e left) (unreported : ¬ e.IsReported)
      (stumbles : CannotMake r e { ready with registry := {} } left ∨
        StumblesOver r e { ready with registry := {} } left)
      (ranWell : RanWell b left) (silent : left.complaints = b.complaints) :
      Ending x b ready (.error e left)

section Telling

variable {α : Type} {action : Action α} {b left : Bench}

theorem endWith_ok {result : α} (h : action b = .ok result left) :
    endWith action b = .ok 0 left := by
  rw [endWith, h]

theorem endWith_reported {fault : CircuitFault} (h : action b = .error (.circuit fault) left) :
    endWith action b = .ok 1
      { left with complaints := left.complaints ++ ("ERROR: " ++ fault.message) ++ "\n" } := by
  rw [endWith, h]
  rfl

theorem endWith_other {e : Error} (h : action b = .error e left) (hOther : ¬ e.IsReported) :
    endWith action b = .error e left := by
  rw [endWith, h]
  split
  · rename_i hSame
    cases hSame
  · rename_i fault left' hSame
    cases hSame
    exact absurd ⟨fault, rfl⟩ hOther
  · rename_i hSame
    cases hSame
    rfl

end Telling

section Ends

variable {x : Errand} {convention : Convention} {words : List String} {b ready : Bench}

theorem complained_buildOptions (a : Arguments) (text : String) :
    Preserves (Complained text) (buildOptions a) := by
  rw [buildOptions]
  cases a.outputFolder with
  | none => exact preserves_pure _
  | some path => exact (complained_makeFolders _).bind fun _ => preserves_pure _

/-- Words that ask for an errand have their configuration read and are answered. -/
theorem run_errand (h : x.IsOf convention words b ready) :
    run convention words b =
      (configuration x.arguments >>= answer x.arguments) (begun x.arguments b) := by
  obtain ⟨given, hParsed, hHelp, -, hArguments⟩ := h.accepted
  rw [run_eq hParsed hHelp, ← hArguments, perform_eq]

/-- With parameters that are a list, the answer is how the pipeline ends. -/
theorem answer_errand {config : Table} {items : List Value} (h : x.IsOf convention words b ready)
    (hItems : readParameters x.arguments = .ok (.list items)) :
    answer x.arguments config (begun x.arguments b) =
      endWith (runPipeline (x.request config items) true) ready := by
  obtain ⟨given, -, -, hFlag, hArguments⟩ := h.accepted
  have hBuilds : x.arguments.renderOnly = false := by
    rw [hArguments, renderOnly_ofGiven]
    exact Bool.eq_false_iff.mpr (mt List.contains_iff_mem.mp hFlag)
  obtain ⟨path, hInput, hInputs⟩ := h.inputs
  rw [answer_items hItems, hBuilds, if_neg Bool.false_ne_true, hInput]
  dsimp only
  rw [runOnInputs, bind_ok hInputs]
  exact bind_ok h.options

/-- How the pipeline ends that is run on an errand. -/
theorem endWith_errand {config : Table} {items : List Value} (hTree : b.disk.IsTree)
    (h : x.IsOf convention words b ready)
    (hRead : configuration x.arguments (begun x.arguments b) = .ok config (begun x.arguments b))
    (hItems : readParameters x.arguments = .ok (.list items)) :
    Ending x b ready (endWith (runPipeline (x.request config items) true) ready) := by
  have hRuns : x.Runs b (x.request config items) := ⟨config, items, hItems, rfl, hRead⟩
  have hReady := (buildOptions_afterRuns Disk.keptByFolders_isTree (begun x.arguments b)).of_ok
    h.options (afterRuns_self hTree)
  have hSilent : Complained b.complaints ready :=
    (complained_buildOptions x.arguments b.complaints).of_ok h.options rfl
  have hWell : ∀ left, RanWell ready left → RanWell b left := by
    rintro left ⟨made, hMade, hEnded⟩
    have hBefore : ready.runs = b.runs := hReady.runs.trans (List.append_nil _)
    rw [hReady.toolbox] at hEnded
    exact ⟨made, by rw [hMade, hBefore], hEnded⟩
  have hComplaints := complained_runPipeline (x.request config items) true ready hSilent
  have hSayable := isSayable_configuration hRead
  rcases runPipeline_cases (r := x.request config items) hReady.disk
      (fun config' hConfig => isSayable_pipelineConfig hSayable hConfig)
      (isSayable_buildOptions h.options) with
    ⟨witness, left, hEnd, hVerifies⟩ | ⟨fault, left, hEnd⟩ |
    ⟨e, left, hEnd, hOther, hRan, hCause⟩
  all_goals rw [hEnd] at hComplaints
  · rw [endWith_ok hEnd]
    exact .verified hRuns hEnd hVerifies (hWell left hVerifies.ranWell) hComplaints
  · have hBefore : left.complaints = b.complaints := hComplaints
    rw [endWith_reported hEnd, hBefore]
    exact .reported hRuns hEnd
  · rw [endWith_other hEnd hOther]
    exact .stumbled hRuns hEnd hOther hCause (hWell left hRan) hComplaints

/-- Words that ask for an errand end in one of these ways, by whatever convention they are read and
whatever the programs do that are run. -/
theorem run_ends (hTree : b.disk.IsTree) (h : x.IsOf convention words b ready) :
    Ending x b ready (run convention words b) := by
  rw [run_errand h]
  cases hRead : configuration x.arguments (begun x.arguments b) with
  | error e left =>
      have hRuns : Preserves (HasRun b.runs) (configuration x.arguments) := preserves_configuration _
      have hSilent : Preserves (Complained b.complaints) (configuration x.arguments) :=
        preserves_configuration _
      rw [bind_error hRead]
      exact .unconfigured hRead (hRuns.of_error hRead rfl) (hSilent.of_error hRead rfl)
  | ok config b₁ =>
      obtain rfl := configuration_state hRead
      rw [bind_ok hRead]
      rcases answer_cases x.arguments config with
        ⟨items, hItems⟩ | ⟨hUnlisted, reason, hRefuses⟩ | ⟨e, hFails, hThrows⟩
      · rw [answer_errand h hItems]
        exact endWith_errand hTree h hRead hItems
      · rw [hRefuses]
        exact .refused hUnlisted
      · rw [hThrows]
        exact .unread hFails

end Ends

/-! ## The square of ten -/

/-- A command line that asks for the square of an input, which is public. -/
def tenWords : List String :=
  ["-f", "lib/square.circom", "-t", "Square", "-p", "a", "--params", "[3]", "-i", "input.json"]

/-- What it asks for, with the inputs of its file. -/
def tenErrand : Errand where
  arguments := {
    templateFile := .text "lib/square.circom"
    template := .text "Square"
    publicSignals := [.text "a"]
    parameters := .text "[3]"
    input := some "input.json" }
  inputs := [(.text "a", .int 10)]
  options := .table []

/-- The bench with a folder of its own for the command line, with programs that make a square, but for
the symbols that the compiler writes. -/
def tenBench (symbols : String) : Bench :=
  { homeBench with
    toolbox := { squareTools with circom := some (compiler fun _ =>
      { squareCompilation with symbols := some (Text.Utf8.encode symbols) }) } }

/-- The symbols of a square. -/
def squareSymbols : String := "1,1,0,main.c\n2,2,0,main.a\n"

/-- Whether a text has been read as an object that gives one number. -/
def givesOnly (key : String) (n : Int) : Except Error Value → Bool
  | .ok (.table [(.text k, .int m)]) => k == key && m == n
  | _ => false

theorem eq_of_givesOnly {key : String} {n : Int} {r : Except Error Value}
    (h : givesOnly key n r = true) : r = .ok (.table [(.text key, .int n)]) := by
  rw [givesOnly.eq_def] at h
  split at h
  · obtain ⟨hKey, hNumber⟩ := Bool.and_eq_true_iff.mp h
    rw [eq_of_beq hKey, eq_of_beq hNumber]
  · cases h

/-- The words ask for that, whatever the symbols are. -/
theorem isOf_ten (symbols : String) :
    tenErrand.IsOf .present tenWords (tenBench symbols) (tenBench symbols) where
  accepted := by
    have hParsed : parse .present tenWords = .ok squareGiven.tail := by decide +kernel
    exact ⟨_, hParsed, by decide, by decide, rfl⟩
  inputs := by
    have hBytes : homeBench.disk.readFile homeBench.current (FilePath.ofString "input.json").text =
        .ok (Text.Utf8.encode "\x7b\"a\": 10\x7d") := by decide +kernel
    have hText : Text.Utf8.decode? (Text.Utf8.encode "\x7b\"a\": 10\x7d") =
        some "\x7b\"a\": 10\x7d" := by decide +kernel
    have hParsed : givesOnly "a" 10 (parseJson "\x7b\"a\": 10\x7d") = true := by decide +kernel
    exact ⟨"input.json", rfl, readDocument_of_readFile hBytes hText (eq_of_givesOnly hParsed)⟩
  options := rfl

theorem isTree_ten (symbols : String) : (tenBench symbols).disk.IsTree := by
  have hHome : homeBench.disk.IsTree := Disk.isTree_of_nodes (by decide)
  exact hHome

/-- The square of ten is found. -/
theorem run_ten :
    Ending tenErrand (tenBench squareSymbols) (tenBench squareSymbols)
      (run .present tenWords (tenBench squareSymbols)) ∧
    (outcome (run .present tenWords) (tenBench squareSymbols)).1.toOption = some 0 := by
  have hZero : (outcome (run .present tenWords) (tenBench squareSymbols)).1.toOption = some 0 := by
    decide +kernel
  exact ⟨run_ends (isTree_ten squareSymbols) (isOf_ten squareSymbols), hZero⟩

/-- Whether a malformed file has left the program without a complaint. -/
def endsMalformed : EStateM.Result Error Bench ExitCode → Bool
  | .error e left => e.isFormat && left.complaints == ""
  | .ok _ _ => false

/-- A symbol file with too few fields in a line does. -/
theorem run_garbled :
    tenErrand.IsOf .present tenWords (tenBench "1,1,0\n") (tenBench "1,1,0\n") ∧
    ∃ e left, run .present tenWords (tenBench "1,1,0\n") = .error e left ∧ e.isFormat = true ∧
      left.complaints = "" := by
  refine ⟨isOf_ten _, ?_⟩
  have hMalformed : endsMalformed (run .present tenWords (tenBench "1,1,0\n")) = true := by
    decide +kernel
  cases hRun : run .present tenWords (tenBench "1,1,0\n") with
  | ok code left =>
      rw [hRun] at hMalformed
      cases hMalformed
  | error e left =>
      rw [hRun] at hMalformed
      obtain ⟨hFormat, hSilent⟩ := Bool.and_eq_true_iff.mp hMalformed
      exact ⟨e, left, rfl, hFormat, eq_of_beq hSilent⟩

end CircuitBench.CommandLine
