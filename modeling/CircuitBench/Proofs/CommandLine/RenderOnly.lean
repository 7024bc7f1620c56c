import CircuitBench.Proofs.CommandLine.Words
import CircuitBench.Proofs.Pipeline.Compiled
import CircuitBench.Proofs.Settings.Version

/-!
# What is shown is what would be built

With the flag that asks for the source only, the command line prints the source of a main component as
it would stand in the current folder, and without it the synthesizer writes one to a temporary file.
The two go different ways: the source that is printed takes its version from the configuration of the
command line, and the one that is written takes it from that of the pipeline; and each has an include
line for the folder of its own.  All the same they say the same, but for the include line, and there
both lead to the same file.

## Main results

* `perform_renders` : what the flag does to the bench.
* `sameButInclude` : two sources of the same main component.
* `renderOnly_shows` : the source that is printed, and those that are written and compiled.
-/

namespace CircuitBench

open CircuitBench.Path

/-! ## Sources -/

/-- Whether two sources say the same but for their include lines, which lead to the file of a
template: that of the first from the current folder, and that of the second from the folder of a
path. -/
def SameButInclude (templateFile : Value) (current : Location) (path shown written : String) : Prop :=
  ∃ file version clause template parameters line line',
    Bench.templatePath templateFile = .ok file ∧
    shown = MainComponent.sourceText version line clause template parameters ∧
    written = MainComponent.sourceText version line' clause template parameters ∧
    resolve current line = resolve current file ∧
    resolve (resolve current path).dropLast line' = resolve current file

namespace MainComponent

/-- The source is put together from its parts, and only the include line is taken as it is. -/
theorem source_eq_ok {m : MainComponent} {text : String} (h : m.source = .ok text) :
    ∃ version clause template parameters, text = sourceText version m.includePath clause template
        parameters ∧
      ∀ line, ({ m with includePath := line } : MainComponent).source =
        .ok (sourceText version line clause template parameters) := by
  have hWhole := h
  obtain ⟨version, hVersion, h⟩ := except_bind_eq_ok h
  obtain ⟨clause, hClause, h⟩ := except_bind_eq_ok h
  obtain ⟨template, hTemplate, h⟩ := except_bind_eq_ok h
  obtain ⟨parameters, hParameters, h⟩ := except_bind_eq_ok h
  cases h
  refine ⟨version, clause, template, parameters, rfl, fun line => ?_⟩
  simp only [source, hVersion, hClause, hTemplate, hParameters]
  rfl

end MainComponent

namespace Bench

theorem resolve_shownFile (current : Location) :
    (resolve current CommandLine.shownFile).dropLast = current := by
  have hPlace : resolve current CommandLine.shownFile = current ++ ["main.circom"] := by
    rw [resolve, show isAbsolute CommandLine.shownFile = false by decide,
      show names CommandLine.shownFile = ["main.circom"] by decide]
    rfl
  rw [hPlace, List.dropLast_concat]

/-- Two sources of the same main component, of which one is shown, differ in nothing else. -/
theorem sameButInclude {config config' : Table} {m : MainRequest} {current : Location}
    {path shown written : String} (hVersion : Settings.version config' = Settings.version config)
    (hShown : IsSourceOf config m current CommandLine.shownFile shown)
    (hWritten : IsSourceOf config' m current path written) :
    SameButInclude m.templateFile current path shown written := by
  obtain ⟨file, line, hFile, hLine, hSource⟩ := hShown
  obtain ⟨file', line', hFile', hLine', hSource'⟩ := hWritten
  cases hFile.symm.trans hFile'
  rw [resolve_shownFile] at hLine
  obtain ⟨version, clause, template, parameters, hText, hOthers⟩ := MainComponent.source_eq_ok hSource
  rw [hVersion, hOthers line'] at hSource'
  cases hSource'
  exact ⟨file, version, clause, template, parameters, line, line', hFile, hText, rfl, hLine, hLine'⟩

/-- What can be written can be shown, unless the current folder has been removed. -/
theorem mainSource_shownFile {config config' : Table} {m : MainRequest} {current : Location}
    {path written : String} (hThere : current ≠ nowhere)
    (hVersion : Settings.version config' = Settings.version config)
    (h : mainSource config' current path m = .ok written) :
    ∃ shown, mainSource config current CommandLine.shownFile m = .ok shown := by
  obtain ⟨component, hComponent, hSource⟩ := except_bind_eq_ok h
  obtain ⟨file, hFile, hComponent⟩ := except_bind_eq_ok hComponent
  obtain ⟨line, hLine, hComponent⟩ := except_bind_eq_ok hComponent
  cases hComponent
  obtain ⟨version, clause, template, parameters, -, hOthers⟩ := MainComponent.source_eq_ok hSource
  have hAbsolute : ∀ name, absolutePath current name = .ok (absoluteText current name) :=
    fun name => if_neg fun hGone => hThere hGone.1
  have hLine' : includeLine current CommandLine.shownFile file =
      .ok (includePath current CommandLine.shownFile file) := by
    rw [includeLine, hAbsolute, hAbsolute]
    rfl
  refine ⟨MainComponent.sourceText version (includePath current CommandLine.shownFile file) clause
    template parameters, ?_⟩
  rw [mainSource, mainComponent, hFile]
  simp only [bind, Except.bind, pure, Except.pure, hLine', ← hVersion]
  exact hOthers _

/-! ## Reading -/

/-- Reading a document changes nothing. -/
theorem preserves_readDocument? {P : Bench → Prop} (path : String) :
    Preserves P (readDocument? path) := by
  refine (preserves_ask _).bind fun there => Preserves.ite ?_ (preserves_pure _)
  refine Preserves.bind ?_ fun text => (preserves_attempt _).bind fun v => preserves_pure _
  refine (preserves_ask _).bind fun bytes => ?_
  split
  · exact preserves_pure _
  · exact preserves_throw _

end Bench

namespace CommandLine

open Bench

/-- Neither does reading a configuration. -/
theorem preserves_configuration {P : Bench → Prop} (a : Arguments) :
    Preserves P (configuration a) := by
  rw [configuration]
  cases a.config with
  | none => exact preserves_pure _
  | some path =>
      refine (preserves_readDocument? path).bind fun found => ?_
      cases found with
      | none => exact preserves_throw _
      | some data => exact (preserves_attempt _).bind fun entries => preserves_attempt _

theorem configuration_state {a : Arguments} {config : Table} {b b' : Bench}
    (h : configuration a b = .ok config b') : b' = b := by
  have hSame : Preserves (fun b' => b' = b) (configuration a) := preserves_configuration a
  exact hSame.of_ok h rfl

/-! ## What is asked for -/

/-- The bench at which the work on a command line begins. -/
def begun (a : Arguments) (b : Bench) : Bench :=
  { b with threshold := if a.verbose then .debug else .warning }

/-- Whether a command line asks for a main component, with a configuration that it has read. -/
def Asks (a : Arguments) (b : Bench) (read : Table) (m : MainRequest) : Prop :=
  configuration a (begun a b) = .ok read (begun a b) ∧
    ∃ items, readParameters a = .ok (.list items) ∧ m = mainRequest a (.list items)

/-- Whether a command line asks for a main component that the synthesizer of its pipeline writes with
a configuration. -/
def AsksToWrite (a : Arguments) (b : Bench) (config : Table) (m : MainRequest) : Prop :=
  ∃ read, Asks a b read m ∧ pipelineConfig (.table read) = .ok config

/-- A command line asks for one main component at most, with one configuration. -/
theorem Asks.unique {a : Arguments} {b : Bench} {read read' : Table} {m m' : MainRequest}
    (h : Asks a b read m) (h' : Asks a b read' m') : read = read' ∧ m = m' := by
  obtain ⟨hRead, items, hItems, rfl⟩ := h
  obtain ⟨hRead', items', hItems', rfl⟩ := h'
  cases hRead.symm.trans hRead'
  cases hItems.symm.trans hItems'
  exact ⟨rfl, rfl⟩

/-- What is done with a configuration that has been read. -/
def answer (a : Arguments) (config : Table) : Action ExitCode :=
  match readParameters a with
  | .error .malformedJson => refuse "--params is not valid JSON: malformed text"
  | .error (.value fault) => refuse ("--params is not valid JSON: " ++ fault.message)
  | .error e => throw e
  | .ok (.list items) =>
    if a.renderOnly then renderOnly a config (.list items)
    else
      match a.input with
      | none => refuse "--input is required unless --render-only is given"
      | some path => runOnInputs a config (.list items) path
  | .ok _ => refuse "--params must be a JSON list"

theorem perform_eq (a : Arguments) (b : Bench) :
    perform a b = (configuration a >>= answer a) (begun a b) := rfl

theorem answer_items {a : Arguments} {items : List Value} (h : readParameters a = .ok (.list items))
    (config : Table) : answer a config = if a.renderOnly then renderOnly a config (.list items)
      else match a.input with
        | none => refuse "--input is required unless --render-only is given"
        | some path => runOnInputs a config (.list items) path := by
  rw [answer, h]

/-- Parameters that can be used are a list.  Others are refused, if no failure that is not a matter of
their value keeps them from being read. -/
theorem answer_cases (a : Arguments) (config : Table) :
    (∃ items, readParameters a = .ok (.list items)) ∨
    ((∀ items, readParameters a ≠ .ok (.list items)) ∧
      ∃ reason, answer a config = refuse ("--params " ++ reason)) ∨
    ∃ e, readParameters a = .error e ∧ answer a config = throw e := by
  have hJoin : ∀ reason : String,
      "--params is not valid JSON: " ++ reason = "--params " ++ ("is not valid JSON: " ++ reason) :=
    fun reason => by rw [← String.append_assoc]; rfl
  rw [answer]
  split
  · rename_i hRead
    exact .inr (.inl ⟨fun items h => (nomatch hRead.symm.trans h),
      "is not valid JSON: malformed text", rfl⟩)
  · rename_i fault hRead
    exact .inr (.inl ⟨fun items h => (nomatch hRead.symm.trans h), _, congrArg refuse (hJoin _)⟩)
  · rename_i e _ _ hFails
    exact .inr (.inr ⟨e, hFails, rfl⟩)
  · rename_i items hItems
    exact .inl ⟨items, hItems⟩
  · rename_i v hNoList hRead
    refine .inr (.inl ⟨fun items h => ?_, "must be a JSON list", rfl⟩)
    cases hRead.symm.trans h
    exact hNoList items rfl

/-- To refuse a command line is to complain. -/
theorem preserves_refuse {P : Bench → Prop}
    (hComplains : ∀ b text, P b → P { b with complaints := text }) (text : String) :
    Preserves P (refuse text) := by
  rw [refuse]
  exact Preserves.bind (preserves_modify fun b => hComplains b _) fun _ => preserves_pure 2

/-! ## Showing -/

section Showing

variable {a : Arguments} {b b₁ : Bench} {read config : Table} {m : MainRequest}

/-- With the flag, no program is run and the disk stays as it is. -/
theorem perform_renders (hRender : a.renderOnly = true) (b : Bench) :
    (endState (perform a b)).disk = b.disk ∧ (endState (perform a b)).runs = b.runs := by
  have hKeeps : Preserves (fun b' : Bench => b'.disk = b.disk ∧ b'.runs = b.runs)
      (configuration a >>= answer a) := by
    refine (preserves_configuration a).bind fun read => ?_
    rcases answer_cases a read with ⟨items, hItems⟩ | ⟨-, reason, hRefused⟩ | ⟨e, -, hFails⟩
    · rw [answer_items hItems, if_pos hRender]
      refine preserves_get.bind fun b₀ => (preserves_attempt _).bind fun source => ?_
      exact Preserves.bind (preserves_modify fun _ h => h) fun _ => preserves_pure 0
    · rw [hRefused]
      exact preserves_refuse (fun _ _ h => h) _
    · rw [hFails]
      exact preserves_throw e
  rw [perform_eq]
  exact hKeeps (begun a b) ⟨rfl, rfl⟩

/-- If that ends well, the source of the main component has been printed, as it would stand in the
current folder. -/
theorem perform_shows (hRender : a.renderOnly = true) (h : perform a b = .ok 0 b₁) :
    ∃ read m shown, Asks a b read m ∧ mainSource read b.current shownFile m = .ok shown ∧
      b₁.printed = b.printed ++ shown := by
  rw [perform_eq] at h
  obtain ⟨read, b₀, hRead, h⟩ := bind_eq_ok h
  obtain rfl := configuration_state hRead
  rcases answer_cases a read with ⟨items, hItems⟩ | ⟨-, reason, hRefused⟩ | ⟨e, -, hFails⟩
  · rw [answer_items hItems, if_pos hRender] at h
    obtain ⟨b₂, b₃, hGet, h⟩ := bind_eq_ok h
    cases hGet
    obtain ⟨shown, b₄, hSource, h⟩ := bind_eq_ok h
    obtain ⟨hShown, rfl⟩ := attempt_eq_ok hSource
    cases h
    exact ⟨read, _, shown, ⟨hRead, items, hItems, rfl⟩, hShown, rfl⟩
  · rw [hRefused] at h
    cases h
  · rw [hFails] at h
    cases h

/-- It ends well if there is a source to print. -/
theorem perform_of_shown (hRender : a.renderOnly = true) (hAsks : Asks a b read m) {shown : String}
    (hShown : mainSource read b.current shownFile m = .ok shown) : ∃ b₁, perform a b = .ok 0 b₁ := by
  obtain ⟨hRead, items, hItems, rfl⟩ := hAsks
  rw [perform_eq, bind_ok hRead, answer_items hItems, if_pos hRender, renderOnly]
  exact ⟨_, (bind_ok rfl).trans (attempt_bind_ok hShown)⟩

/-- If it does not end well, nothing has been printed. -/
theorem perform_silent (hRender : a.renderOnly = true) (b : Bench) :
    (∃ b₁, perform a b = .ok 0 b₁) ∨ (endState (perform a b)).printed = b.printed := by
  have hKept : Preserves (fun b' : Bench => b'.printed = b.printed) (configuration a) :=
    preserves_configuration a
  rw [perform_eq]
  cases hRead : configuration a (begun a b) with
  | error e b₀ =>
      rw [bind_error hRead]
      exact .inr (hKept.of_error hRead rfl)
  | ok read b₀ =>
  obtain rfl := configuration_state hRead
  rw [bind_ok hRead]
  rcases answer_cases a read with ⟨items, hItems⟩ | ⟨-, reason, hRefused⟩ | ⟨e, -, hFails⟩
  · rw [answer_items hItems, if_pos hRender]
    cases hSource : mainSource read b.current shownFile (mainRequest a (.list items)) with
    | ok shown => exact .inl ⟨_, (bind_ok rfl).trans (attempt_bind_ok hSource)⟩
    | error e =>
        have hEnd : renderOnly a read (.list items) (begun a b) = .error e (begun a b) :=
          (bind_ok rfl).trans (attempt_bind_error hSource)
        rw [hEnd]
        exact .inr rfl
  · rw [hRefused]
    exact .inr rfl
  · rw [hFails]
    exact .inr rfl

end Showing

/-! ## Building -/

section Building

variable {a : Arguments} {b : Bench}

/-- The folder for the output is made, if one is asked for. -/
theorem buildOptions_afterRuns {P : Disk → Prop}
    (hFolders : ∀ current, Disk.KeptByFolders P current) (start : Bench) :
    Preserves (AfterRuns start [] P) (buildOptions a) := by
  rw [buildOptions]
  cases a.outputFolder with
  | none => exact preserves_pure _
  | some path => exact (AfterRuns.makeFolders hFolders _).bind fun _ => preserves_pure _

theorem buildOptions_afterWork (start : Bench) :
    Preserves (AfterWork start []) (buildOptions a) :=
  buildOptions_afterRuns (fun _ _ _ _ _ h _ => h) start

/-- To tell how an action ended is to run nothing more. -/
theorem runs_endWith {α : Type} (action : Action α) (b : Bench) :
    (endState (endWith action b)).runs = (endState (action b)).runs := by
  rw [endWith]
  cases action b with
  | ok x b' => rfl
  | error e b' => cases e <;> rfl

theorem compiled_endWith {α : Type} {P : ToolRun → Prop} {action : Action α}
    (h : Compiled P b (endState (action b))) : Compiled P b (endState (endWith action b)) := by
  obtain ⟨made, hRuns, hMade⟩ := h
  exact ⟨made, (runs_endWith action b).trans hRuns, hMade⟩

/-- With inputs, the compiler is given the source of the main component that is asked for. -/
theorem runOnInputs_compiles (hPlaced : b.IsPlaced) (config : Table) (parameters : Value)
    (path : String) :
    Compiled (fun r => ∃ config', pipelineConfig (.table config) = .ok config' ∧
      r.ReadsSource config' (mainRequest a parameters) b.current) b
      (endState (runOnInputs a config parameters path b)) := by
  have hStart : AfterWork b [] b := afterRuns_self trivial
  have hReads : Preserves (AfterWork b []) (readDocument path) :=
    (preserves_readDocument? path).bind fun _ => preserves_pure _
  rw [runOnInputs]
  refine endState_bind (fun e b₁ hFails => ?_) fun inputs b₁ hInputs => ?_
  · exact (hReads.of_error hFails hStart).compiled
  have h₁ := hReads.of_ok hInputs hStart
  split
  · have hRuns : b₁.runs = b.runs ++ [] := h₁.runs
    exact compiled_of_runs_eq (hRuns.trans (List.append_nil _))
  refine endState_bind (fun e b₂ hFails => ?_) fun options b₂ hOptions => ?_
  · exact ((buildOptions_afterWork b).of_error hFails h₁).compiled
  have h₂ := (buildOptions_afterWork b).of_ok hOptions h₁
  refine h₂.compiled.trans (compiled_endWith ?_)
  cases hConfig : pipelineConfig (.table config) with
  | error e =>
      rw [runPipeline, hConfig]
      exact compiled_of_runs_eq rfl
  | ok config' =>
      refine (runPipeline_compiles (hPlaced.of_current h₂.current) hConfig true).mono
        fun r hReadsSource => ⟨config', rfl, ?_⟩
      rw [← h₂.current]
      exact hReadsSource

/-- Without the flag, whatever the compiler is given is the source of the main component that is asked
for. -/
theorem perform_compiles (hBuilds : a.renderOnly = false) (hPlaced : b.IsPlaced) :
    Compiled (fun r => ∃ config m, AsksToWrite a b config m ∧ r.ReadsSource config m b.current) b
      (endState (perform a b)) := by
  have hKept : Preserves (HasRun b.runs) (configuration a) := preserves_configuration a
  have hRefused : ∀ text, Preserves (HasRun b.runs) (refuse text) :=
    preserves_refuse fun _ _ h => h
  rw [perform_eq]
  refine endState_bind (fun e b₁ hFails => ?_) fun read b₁ hRead => ?_
  · exact compiled_of_runs_eq (hKept.of_error hFails rfl)
  obtain rfl := configuration_state hRead
  rcases answer_cases a read with ⟨items, hItems⟩ | ⟨-, reason, hRefuses⟩ | ⟨e, -, hFails⟩
  · rw [answer_items hItems, hBuilds, if_neg Bool.false_ne_true]
    cases a.input with
    | none => exact compiled_of_runs_eq (hRefused _ (begun a b) rfl)
    | some path =>
        obtain ⟨made, hRuns, hMade⟩ :=
          runOnInputs_compiles (b := begun a b) hPlaced read (.list items) path
        refine ⟨made, hRuns, fun r hr hCompiles => ?_⟩
        obtain ⟨config, hConfig, hReads⟩ := hMade r hr hCompiles
        exact ⟨config, _, ⟨read, ⟨hRead, items, hItems, rfl⟩, hConfig⟩, hReads⟩
  · rw [hRefuses]
    exact compiled_of_runs_eq (hRefused _ (begun a b) rfl)
  · rw [hFails]
    exact compiled_of_runs_eq rfl

end Building

/-! ## Both ways -/

/-- Whether bytes are those of a source that says the same as one that is shown. -/
def StoresShown (templateFile : Value) (current : Location) (shown path : String)
    (bytes : List UInt8) : Prop :=
  ∃ written, storedBytes written = .ok bytes ∧
    SameButInclude templateFile current path shown written

/-- Whether words ask for a main component that the synthesizer writes with a configuration. -/
def WordsAskToWrite (convention : Convention) (words : List String) (b : Bench) (config : Table)
    (m : MainRequest) : Prop :=
  ∃ given, parse convention words = .ok given ∧ AsksToWrite (.ofGiven given) b config m

/-- Whether a source that is shown says what is built for words: the file to which the synthesizer
writes the main component, wherever the folder for temporary files is, and the files that the compiler
is given. -/
structure SaysWhatIsBuilt (convention : Convention) (templateFile : Value) (words : List String)
    (b : Bench) (shown : String) : Prop where
  written : ∀ config m b₂ path b₃, WordsAskToWrite convention words b config m →
    b₂.current = b.current → writeMain (.table config) m b₂ = .ok path b₃ → ∃ bytes,
      b₃.disk.readFile b.current path = .ok bytes ∧ StoresShown templateFile b.current shown path bytes
  compiled : Compiled (fun r => ∃ path more bytes, r.arguments = path :: more ∧
    r.given = some bytes ∧ StoresShown templateFile b.current shown path bytes) b
      (endState (run convention words b))

/-- Whether words ask for the source only of what is built without the flag: they leave the disk
alone, run no program, and print a source that says what is built, or nothing.  Where the main
component can be written, there is one to print, unless the current folder has been removed. -/
structure RendersOnly (convention : Convention) (templateFile : Value) (words : List String)
    (b : Bench) : Prop where
  disk : (endState (run convention words b)).disk = b.disk
  runs : (endState (run convention words b)).runs = b.runs
  shows : ∀ b₁, run convention words b = .ok 0 b₁ → ∃ shown, b₁.printed = b.printed ++ shown ∧
    SaysWhatIsBuilt convention templateFile (withoutRenderOnly words) b shown
  silent : (∀ b₁, run convention words b ≠ .ok 0 b₁) →
    (endState (run convention words b)).printed = b.printed
  ends : b.current ≠ nowhere → ∀ config m b₂ path b₃,
    WordsAskToWrite convention (withoutRenderOnly words) b config m → b₂.current = b.current →
    writeMain (.table config) m b₂ = .ok path b₃ → ∃ b₁, run convention words b = .ok 0 b₁

section BothWays

variable {a : Arguments} {b b₂ b₃ : Bench} {read config : Table} {m m' : MainRequest}
  {path shown : String}

/-- The pipeline of a command line writes the main component that the command line shows, with the
version that it shows. -/
theorem AsksToWrite.same (hWrites : AsksToWrite a b config m') (hAsks : Asks a b read m) :
    m' = m ∧ Settings.version config = Settings.version read := by
  obtain ⟨read', hAsks', hConfig⟩ := hWrites
  obtain ⟨rfl, rfl⟩ := hAsks.unique hAsks'
  obtain ⟨v, hSays⟩ := Settings.saysVersion_configuration hAsks.1
  exact ⟨rfl, Settings.version_pipelineConfig hSays hConfig⟩

/-- A source of the main component that is asked for says the same as the one that is shown. -/
theorem storesShown (hPlaced : b.IsPlaced) (hAsks : Asks a b read m)
    (hShown : mainSource read b.current shownFile m = .ok shown) (hWrites : AsksToWrite a b config m')
    {written : String} {bytes : List UInt8} (hWritten : IsSourceOf config m' b.current path written)
    (hBytes : storedBytes written = .ok bytes) :
    StoresShown a.templateFile b.current shown path bytes := by
  obtain ⟨rfl, hVersion⟩ := hWrites.same hAsks
  obtain ⟨-, items, -, rfl⟩ := hAsks
  exact ⟨written, hBytes, sameButInclude hVersion (isSourceOf_mainSource hPlaced hShown) hWritten⟩

/-- What a main component that was written holds. -/
theorem writeMain_source (hCurrent : b₂.current = b.current)
    (h : writeMain (.table config) m b₂ = .ok path b₃) : ∃ written bytes,
      mainSource config b.current path m = .ok written ∧ storedBytes written = .ok bytes ∧
      b₃.disk.readFile b.current path = .ok bytes := by
  rcases writeMain_cases (.table config) m b₂ with
    ⟨fields, path', n, l, b', hFields, hWritten, hEnd⟩ |
    ⟨e, fields, path', n, l, d, -, -, -, -, hEnd⟩ | ⟨e, n, -, hEnd⟩
  · cases hFields
    cases hEnd.symm.trans h
    rw [← hCurrent]
    exact hWritten.readFile
  · cases hEnd.symm.trans h
  · cases hEnd.symm.trans h

end BothWays

theorem run_eq {convention : Convention} {words : List String} {given : List Given}
    (hParsed : parse convention words = .ok given) (hHelp : .help ∉ given.map Prod.fst) (b : Bench) :
    run convention words b = perform (.ofGiven given) b := by
  rw [run, hParsed]
  dsimp only
  rw [if_neg (mt List.contains_iff_mem.mp hHelp)]

/-- With the flag, a command line shows what is built without it, and does nothing else, by whatever
convention it is read. -/
theorem renderOnly_shows {convention : Convention} {words : List String} {given : List Given}
    {b : Bench} (hPlaced : b.IsPlaced) (hParsed : parse convention words = .ok given)
    (hHelp : .help ∉ given.map Prod.fst) (hFlag : .renderOnly ∈ given.map Prod.fst) :
    RendersOnly convention (Arguments.ofGiven given).templateFile words b := by
  have hRender : (Arguments.ofGiven given).renderOnly = true := by
    rw [renderOnly_ofGiven, List.contains_iff_mem]
    exact hFlag
  have hOthers := parse_withoutRenderOnly hParsed
  -- without the flag, the same is asked for
  have hSame : ∀ {config m}, WordsAskToWrite convention (withoutRenderOnly words) b config m →
      AsksToWrite (.ofGiven given) b config m := by
    rintro config m ⟨others, hParsed', hWrites⟩
    cases hOthers.symm.trans hParsed'
    rw [ofGiven_othersOf] at hWrites
    exact hWrites
  have hHelp' : .help ∉ (othersOf given).map Prod.fst := by
    rw [← List.contains_iff_mem, contains_othersOf given (by decide), List.contains_iff_mem]
    exact hHelp
  have hRenders := perform_renders hRender b
  rw [← run_eq hParsed hHelp] at hRenders
  refine ⟨hRenders.1, hRenders.2, fun b₁ hRun => ?_, fun hFails => ?_, ?_⟩
  · rw [run_eq hParsed hHelp] at hRun
    obtain ⟨read, m, shown, hAsks, hShown, hPrinted⟩ := perform_shows hRender hRun
    refine ⟨shown, hPrinted, ?_, ?_⟩
    · intro config m' b₂ path b₃ hWrites hCurrent hEnd
      obtain ⟨written, bytes, hWritten, hBytes, hRead⟩ := writeMain_source hCurrent hEnd
      exact ⟨bytes, hRead, storesShown hPlaced hAsks hShown (hSame hWrites)
        (isSourceOf_mainSource hPlaced hWritten) hBytes⟩
    · rw [run_eq hOthers hHelp', ofGiven_othersOf]
      refine (perform_compiles rfl hPlaced).mono ?_
      rintro r ⟨config, m', hWrites, path, more, written, bytes, hArguments, hWritten, hBytes, hGiven⟩
      exact ⟨path, more, bytes, hArguments, hGiven,
        storesShown hPlaced hAsks hShown hWrites hWritten hBytes⟩
  · rw [run_eq hParsed hHelp] at hFails ⊢
    exact (perform_silent hRender b).resolve_left fun ⟨b₁, hRun⟩ => hFails b₁ hRun
  · intro hThere config m b₂ path b₃ hWrites hCurrent hEnd
    obtain ⟨written, bytes, hWritten, -, -⟩ := writeMain_source hCurrent hEnd
    obtain ⟨read, hAsks, hConfig⟩ := hSame hWrites
    have hVersion := (AsksToWrite.same ⟨read, hAsks, hConfig⟩ hAsks).2
    obtain ⟨shown, hShown⟩ := mainSource_shownFile hThere hVersion hWritten
    rw [run_eq hParsed hHelp]
    exact perform_of_shown hRender hAsks hShown

/-- A command line that asks for the source of the square of an input, which is public. -/
def squareWords : List String :=
  ["--render-only", "-f", "lib/square.circom", "-t", "Square", "-p", "a", "--params", "[3]", "-i",
    "input.json"]

/-- The options of that command line. -/
def squareGiven : List Given :=
  [(.renderOnly, none), (.templateFile, some "lib/square.circom"), (.template, some "Square"),
    (.publicSignal, some "a"), (.parameters, some "[3]"), (.input, some "input.json")]

/-- A bench with a folder of its own for the command line, the inputs in it, and a compiler that
refuses whatever it is given. -/
def homeBench : Bench :=
  { squareBench with
    disk := ⟨(["home"], .folder) ::
      (["home", "input.json"], .file (Text.Utf8.encode "\x7b\"a\": 10\x7d")) :: squareBench.disk.nodes⟩
    current := ["home"]
    toolbox := { squareTools with circom := some (compiler fun _ => { exitCode := 1 }) } }

/-- The source of the square, by the line that leads to its template. -/
def squareSource (line : String) : String :=
  "pragma circom 2.0.0;\ninclude \"" ++ line ++ "\";\n" ++
    "component main \x7b public [a] \x7d = Square (3);\n"

/-- The source that is printed includes the template from the current folder, and the one that the
compiler is given does so from the folder for temporary files. -/
theorem renderOnly_square :
    RendersOnly .present (.text "lib/square.circom") squareWords homeBench ∧
    (endState (run .present squareWords homeBench)).printed = squareSource "lib/square.circom" ∧
    (endState (run .present (withoutRenderOnly squareWords) homeBench)).runs.head?.bind ToolRun.given =
      some (Text.Utf8.encode (squareSource "../home/lib/square.circom")) := by
  have hPlaced : homeBench.IsPlaced := .inr (by decide)
  have hParsed : parse .present squareWords = .ok squareGiven := by decide +kernel
  refine ⟨renderOnly_shows hPlaced hParsed (by decide) (by decide), ?_, ?_⟩
  · decide +kernel
  · decide +kernel

end CommandLine

end CircuitBench
