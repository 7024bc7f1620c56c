import CircuitBench.Proofs.Circuit.CheckEnds
import CircuitBench.Proofs.Circuit.Failures
import CircuitBench.Proofs.Pipeline.Quiet
import CircuitBench.Proofs.Template.Calls

/-!
# What a pipeline stumbles over

A pipeline that fails does so by what the tools or the checks of a circuit report, or it stumbles.
The programs that were run before it stumbles have all ended well: one that does not is reported at
once, and so is one that cannot be found or leaves no witness.  What is left to stumble over are files
that cannot be read, inputs that are no names or numbers, refusals of the file system, a check or a
listing that comes to no end, and whatever keeps a circuit from being built before the compiler is
run.

## Main results

* `Stumble` : what an execution stumbles over, and the programs that it has run.
* `executeAndReport_eq_error` : an execution that fails otherwise than by a report has stumbled.
* `runPipeline_cases` : how a whole pipeline ends.
-/

namespace CircuitBench

open CircuitBench.Path Bench

/-! ## Runs -/

/-- Whether all programs that have been run at a bench since an earlier moment ended well. -/
def Bench.RanWell (b b' : Bench) : Prop :=
  ∃ made, b'.runs = b.runs ++ made ∧ ∀ r ∈ made, r.EndedWell b.toolbox

/-! ## Executing -/

namespace Session

/-- What the execution of a circuit on inputs stumbles over at a bench that a build has left, and the
programs that have been run by then. -/
inductive Stumble (c : Circuit) (inputs : Value) (built : Bench) (e : Error) : List ToolRun → Prop
  | constraints (unread : readConstraints c.constraintsPath.text built = .error e built) :
      Stumble c inputs built e []
  | symbols (unread : readSymbols c.symbolsPath.text built = .error e built) :
      Stumble c inputs built e []
  | names {system : ConstraintSystem} {symbols : SymbolTable}
      (system_read : readConstraints c.constraintsPath.text built = .ok system built)
      (symbols_read : readSymbols c.symbolsPath.text built = .ok symbols built)
      (unchecked : checkInputs symbols system.toConstraintHeader inputs = .error e) :
      Stumble c inputs built e []
  | interpreter {options : Table} (given : c.options = .table options)
      (unnamed : ¬ NamesProgram (options.getD "node" .null) "node") : Stumble c inputs built e []
  | document {system : ConstraintSystem}
      (system_read : readConstraints c.constraintsPath.text built = .ok system built)
      (unwritten : inputBytes system.prime inputs = .error e) : Stumble c inputs built e []
  | refused (refused : e.IsRefusal) : Stumble c inputs built e []
  | tooLong (r : ToolRun) (tooLong : e = .disk .nameTooLong) : Stumble c inputs built e [r]
  | witness (r : ToolRun) {work : String} {left : Bench}
      (unreadable : IsUnreadable (witnessFile work).text left e) : Stumble c inputs built e [r]
  | check (r : ToolRun) {system : ConstraintSystem} {file : WitnessFile}
      (system_read : readConstraints c.constraintsPath.text built = .ok system built)
      (wrote : Wrote built.toolbox r file)
      (lacks : system.LacksConstant (file.values.map Int.ofNat) ∨
        system.LacksField (file.values.map Int.ofNat) ∨
        system.LacksWire (file.values.map Int.ofNat)) : Stumble c inputs built e [r]
  | listing (x : Execution) {witness : List Nat}
      (sound : x.IsSound built.toolbox c inputs built witness)
      (unlisted : ¬ CanListAll x.symbols witness) : Stumble c inputs built e [x.generated]

variable {inputs : Value} {quiet : Bool} {options : Table} {e : Error} {s s' : Session}

/-- Whether an execution has stumbled, with programs run on the way that have all ended well. -/
def Stumbled (c : Circuit) (inputs : Value) (e : Error) (built left : Bench) : Prop :=
  ∃ made, Stumble c inputs built e made ∧ left.runs = built.runs ++ made ∧
    ∀ r ∈ made, r.EndedWell built.toolbox

namespace Stumble

variable {c : Circuit} {built left : Bench}

/-- What an execution stumbles over before anything is run. -/
theorem stumbled (h : Stumble c inputs built e []) (hRuns : left.runs = built.runs) :
    Stumbled c inputs e built left :=
  ⟨[], h, by rw [hRuns, List.append_nil], fun _ hr => absurd hr List.not_mem_nil⟩

/-- What it stumbles over behind a run that ended well. -/
theorem stumbled_behind {r : ToolRun} (h : Stumble c inputs built e [r])
    (hRuns : left.runs = built.runs ++ [r]) (hEnded : r.EndedWell built.toolbox) :
    Stumbled c inputs e built left :=
  ⟨[r], h, hRuns, List.forall_mem_singleton.mpr hEnded⟩

end Stumble

/-- The work on a witness that fails otherwise than by a report has stumbled. -/
theorem calculateWitness_eq_error (hOptions : s.circuit.options = .table options)
    (hSayable : options.IsSayable) (hConstraints : s.circuit.constraints = none)
    (hSymbols : s.circuit.symbols = none) (h : calculateWitness inputs true s = .error e s')
    (hOther : ¬ e.IsReported) : Stumbled s.circuit inputs e s.bench s'.bench := by
  rcases bind_eq_error h with hLoad | ⟨system, s₁, hLoad, h⟩
  · obtain ⟨hRead, rfl⟩ := loadConstraints_eq_error hConstraints hLoad
    exact (Stumble.constraints hRead).stumbled rfl
  obtain ⟨hSystem, rfl⟩ := loadConstraints_of_none hConstraints hLoad
  rcases bind_eq_error h with hStrict | ⟨_, s₂, hStrict, h⟩
  · rcases bind_eq_error hStrict with hTable | ⟨symbols, s₂, hTable, hCheck⟩
    · obtain ⟨hRead, rfl⟩ := loadSymbols_eq_error (by exact hSymbols) hTable
      have hUnread : readSymbols s.circuit.symbolsPath.text s.bench = .error e s.bench := hRead
      exact (Stumble.symbols hUnread).stumbled rfl
    · obtain ⟨hRead, rfl⟩ := loadSymbols_of_none (by exact hSymbols) hTable
      obtain ⟨hNames, rfl⟩ := attempt_eq_error hCheck
      exact (Stumble.names hSystem hRead hNames).stumbled rfl
  obtain ⟨symbols, s₃, hTable, hCheck⟩ := bind_eq_ok hStrict
  obtain ⟨-, rfl⟩ := loadSymbols_of_none (by exact hSymbols) hTable
  obtain ⟨-, rfl⟩ := attempt_eq_ok hCheck
  rcases bind_eq_error h with hNow | ⟨c, s₄, hNow, h⟩
  · cases hNow
  cases hNow
  rcases bind_eq_error h with hCompute | ⟨values, s₅, -, h⟩
  · obtain ⟨b, hFails, rfl⟩ := onBench_eq_error hCompute
    have hStart : AfterWork s.bench [] s.bench := afterRuns_self trivial
    rcases computeWitness_eq_error (by exact hOptions) hSayable hStart hFails hOther with
      ⟨hKept, hUnnamed | hBytes | hRefused⟩ | ⟨r, work, hRan, hEnded, hLong | hUnreadable⟩
    · exact (Stumble.interpreter hOptions hUnnamed).stumbled (by simpa using hKept.runs)
    · exact (Stumble.document hSystem hBytes).stumbled (by simpa using hKept.runs)
    · exact (Stumble.refused hRefused).stumbled (by simpa using hKept.runs)
    · exact (Stumble.tooLong r hLong).stumbled_behind (by simpa using hRan.runs) hEnded
    · exact (Stumble.witness r hUnreadable).stumbled_behind (by simpa using hRan.runs) hEnded
  · split at h
    · cases h
      exact absurd ⟨_, rfl⟩ hOther
    · cases h

/-- An execution that fails otherwise than by a report has stumbled. -/
theorem execute_eq_error (hTree : s.bench.disk.IsTree) (hOptions : s.circuit.options = .table options)
    (hSayable : options.IsSayable) (hConstraints : s.circuit.constraints = none)
    (hSymbols : s.circuit.symbols = none) (h : execute inputs s = .error e s')
    (hOther : ¬ e.IsReported) : Stumbled s.circuit inputs e s.bench s'.bench := by
  rcases bind_eq_error h with hCalculate | ⟨computed, s₁, hCalculate, h⟩
  · exact calculateWitness_eq_error hOptions hSayable hConstraints hSymbols hCalculate hOther
  obtain ⟨system, -, r, q, hSystem, -, -, hWrote, -, hRuns, hKept⟩ :=
    calculateWitness_eq_ok (afterRuns_self hTree) hConstraints hSymbols hCalculate
  obtain ⟨symbols, -, hThere⟩ := symbols_of_calculateWitness hConstraints hSymbols hCalculate
  have hCheck := checkConstraints_of_load (loadConstraints_of_some hKept) (computed.map Int.ofNat)
  rcases bind_eq_error h with hFails | ⟨_, s₂, hPassed, h⟩
  · have hSame : operations.checkConstraints computed =
        checkConstraints (computed.map Int.ofNat) := rfl
    rw [hSame, hCheck] at hFails
    obtain ⟨hFails, rfl⟩ := attempt_eq_error hFails
    obtain ⟨⟨bytes, -, hParsed⟩, -⟩ := readConstraints_eq_ok hSystem
    have hNonneg := ConstraintSystem.support_nonneg_of_read hParsed
    have hLacks : system.LacksConstant (computed.map Int.ofNat) ∨
        system.LacksField (computed.map Int.ofNat) ∨ system.LacksWire (computed.map Int.ofNat) := by
      rcases checkWitness_ends hNonneg s'.circuit.symbols (computed.map Int.ofNat) with
        ⟨hOk | ⟨fault, hFault⟩, -⟩ | ⟨-, hLacks⟩ | ⟨-, hLacks⟩
      · cases hFails.symm.trans hOk
      · cases hFails.symm.trans hFault
        exact absurd ⟨_, rfl⟩ hOther
      · exact hLacks.imp id .inr
      · exact .inr (.inl hLacks)
    exact (Stumble.check r hSystem hWrote hLacks).stumbled_behind hRuns hWrote.endedWell
  · have hThere₂ := (hasSymbols_checkConstraints computed).of_ok hPassed hThere
    have hLoad : operations.loadSymbols s₂ = .ok () s₂ := bind_ok (loadSymbols_of_some hThere₂)
    rcases bind_eq_error h with hFails | ⟨_, s₃, -, h⟩
    · cases hLoad.symm.trans hFails
    · cases h

/-- So has one that is reported on. -/
theorem executeAndReport_eq_error {quiet : Bool} (hTree : s.bench.disk.IsTree)
    (hOptions : s.circuit.options = .table options) (hSayable : options.IsSayable)
    (hConstraints : s.circuit.constraints = none) (hSymbols : s.circuit.symbols = none)
    (h : executeAndReport inputs quiet s = .error e s') (hOther : ¬ e.IsReported) :
    Stumbled s.circuit inputs e s.bench s'.bench := by
  rcases bind_eq_error h with hExecute | ⟨witness, s₁, hExecute, h⟩
  · exact execute_eq_error hTree hOptions hSayable hConstraints hSymbols hExecute hOther
  obtain ⟨x, hSound, hRuns⟩ :=
    execute_eq_ok (afterRuns_self hTree) hConstraints hSymbols hExecute
  obtain ⟨symbols, hRead, hThere⟩ := symbols_of_execute hConstraints hSymbols hExecute
  cases quiet with
  | true => cases h
  | false =>
      rcases report_cases witness hThere with
        ⟨-, text, hReport⟩ | ⟨hNot, e₁, text, -, hReport⟩
      · cases hReport.symm.trans h
      · cases hReport.symm.trans h
        cases hRead.symm.trans hSound.symbols
        exact (Stumble.listing x hSound hNot).stumbled_behind hRuns hSound.generated.endedWell

end Session

/-! ## Making a circuit -/

namespace Bench

section Making

variable {start b b' : Bench} {done : List ToolRun} {config : Table} {m : MainRequest} {e : Error}

/-- What keeps a main component from being written: its template has no name, a file has no name by
it, it has no source, or the file system refuses something. -/
inductive Unwritten (config : Table) (m : MainRequest) (current : Location) (e : Error) : Prop
  | template (unnamed : m.template.plainText = .error e)
  | name (unnamed : nameAround m.template (Settings.suffix config) = .error e)
  | source {path : String}
      (unsaid : mainSource config current path m >>= storedBytes = .error e)
  | refused (refused : e.IsRefusal)

theorem preserves_prepare (config : Value) (m : MainRequest) :
    Preserves (AfterRuns start done Disk.IsTree) (prepare config m) :=
  (preserves_attempt _).bind fun _ => (AfterRuns.inform _ _).bind fun _ => AfterRuns.writeMain _ _

theorem prepare_eq_error (hStart : AfterRuns start done Disk.IsTree b)
    (h : prepare (.table config) m b = .error e b') : Unwritten config m start.current e := by
  rcases bind_eq_error h with hTemplate | ⟨template, b₁, hTemplate, h⟩
  · exact .template (attempt_eq_error hTemplate).1
  obtain ⟨-, rfl⟩ := attempt_eq_ok hTemplate
  rcases bind_eq_error h with hInform | ⟨_, b₂, hInform, h⟩
  · cases hInform
  have h₂ := (AfterRuns.inform _ _).of_ok hInform hStart
  have hRecord : (Value.table config).record = .ok config := rfl
  rw [writeMain, attempt_bind_ok hRecord] at h
  rcases bind_eq_error h with hName | ⟨around, b₃, hName, h⟩
  · exact .name (attempt_eq_error hName).1
  obtain ⟨-, rfl⟩ := attempt_eq_ok hName
  rcases bind_eq_error h with hOpen | ⟨path, b₃, hOpen, h⟩
  · exact .refused (openFile_eq_error hOpen)
  have h₃ := (AfterRuns.openFile _ _ _).of_ok hOpen h₂
  rcases bind_eq_error h with hGet | ⟨b₄, b₅, hGet, h⟩
  · cases hGet
  cases hGet
  rcases bind_eq_error h with hStore | ⟨_, b₆, -, h⟩
  · rcases store_eq_error hStore with hRefused | hUnsaid
    · exact .refused hRefused
    · rw [h₃.current] at hUnsaid
      exact .source hUnsaid
  · cases h

theorem announce_eq_error {r : PipelineRequest} (h : announce r b = .error e b') :
    r.template.inlineText = .error e ∨ r.templateFile.inlineText = .error e := by
  rw [announce] at h
  split at h
  · cases h
  rcases bind_eq_error h with hTemplate | ⟨template, b₁, -, h⟩
  · exact .inl (attempt_eq_error hTemplate).1
  rcases bind_eq_error h with hFile | ⟨file, b₂, -, h⟩
  · exact .inr (attempt_eq_error hFile).1
  · cases h

theorem isSayable_givenOptions {options : Value} (h : options.IsSayable) :
    (givenOptions options).IsSayable := by
  rw [givenOptions.eq_def]
  split
  · exact Table.isSayable_nil.toValue
  · exact h

/-- The circuit that is built has the options that were asked for. -/
theorem options_of_synthesize {config options : Value} {c : Circuit} (hConfig : config.IsSayable)
    (hOptions : options.IsSayable)
    (h : synthesize config m options (build config) b = .ok c b') :
    ∃ given : Table, c.options = .table given ∧ given.IsSayable := by
  rw [synthesize_eq] at h
  obtain ⟨path, b₁, -, h⟩ := bind_eq_ok h
  obtain ⟨output, given, owned, hResolved, rfl⟩ := ofPaths_of_build h
  exact ⟨given, rfl,
    Settings.isSayable_resolve hConfig (isSayable_givenOptions hOptions) hResolved⟩

end Making

/-! ## Pipelines -/

variable {config : Table} {r : PipelineRequest} {own : Bool} {e : Error} {b b' : Bench}

/-- What keeps a pipeline from making a circuit, if the tools have nothing to report: its
configuration cannot be read, the build cannot be announced, or the main component cannot be written
or built. -/
inductive Unmade (r : PipelineRequest) (current : Location) (e : Error) : Prop
  | configuration (unread : pipelineConfig r.config = .error e)
  | announcement
      (unsaid : r.template.inlineText = .error e ∨ r.templateFile.inlineText = .error e)
  | component {config : Table} (configured : pipelineConfig r.config = .ok config)
      (unwritten : Unwritten config r.toMainRequest current e)
  | build {config : Table} {path : String} (configured : pipelineConfig r.config = .ok config)
      (unbuilt : Unbuilt (.table config) (givenOptions r.buildOptions) path e)

/-- Whether a pipeline has not come to a circuit, and has run nothing. -/
def CannotMake (r : PipelineRequest) (e : Error) (b b' : Bench) : Prop :=
  Unmade r b.current e ∧ b'.runs = b.runs

/-- Whether a pipeline has made a circuit and has stumbled over its execution. -/
def StumblesOver (r : PipelineRequest) (e : Error) (b b' : Bench) : Prop :=
  ∃ (config : Table) (compiled : List ToolRun) (c : Circuit) (built : Bench) (made : List ToolRun),
    pipelineConfig r.config = .ok config ∧ IsBuiltFor config r b compiled c built ∧
    Session.Stumble c r.inputs built e made ∧ b'.runs = b.runs ++ compiled ++ made

theorem CannotMake.ranWell (h : CannotMake r e b b') : RanWell b b' :=
  ⟨[], h.2.trans (List.append_nil _).symm, fun _ hr => absurd hr List.not_mem_nil⟩

/-- A pipeline with the registry of the bench that fails otherwise than by a report has run nothing
that ended badly, and has stumbled or not come to a circuit. -/
theorem buildAndExecute_eq_error (hTree : b.disk.IsTree)
    (hConfig : pipelineConfig r.config = .ok config) (hSayable : config.IsSayable)
    (hOptions : r.buildOptions.IsSayable) (h : buildAndExecute config r b = .error e b')
    (hOther : ¬ e.IsReported) :
    RanWell b b' ∧ (CannotMake r e b b' ∨ StumblesOver r e b b') := by
  have hStart : AfterRuns b [] Disk.IsTree b := afterRuns_self hTree
  have hFailed : AfterRuns b [] Disk.IsTree b' → Unmade r b.current e →
      RanWell b b' ∧ (CannotMake r e b b' ∨ StumblesOver r e b b') := by
    intro hKept hUnmade
    have hCannot : CannotMake r e b b' := ⟨hUnmade, hKept.runs.trans (List.append_nil _)⟩
    exact ⟨hCannot.ranWell, .inl hCannot⟩
  rcases bind_eq_error h with hAnnounce | ⟨_, b₁, hAnnounce, h⟩
  · exact hFailed ((AfterRuns.announce r).of_error hAnnounce hStart)
      (.announcement (announce_eq_error hAnnounce))
  have h₁ := (AfterRuns.announce r).of_ok hAnnounce hStart
  rcases bind_eq_error h with hMake | ⟨c, built, hMake, h⟩
  · rw [synthesize_eq] at hMake
    rcases bind_eq_error hMake with hPrepare | ⟨path, b₂, hPrepare, hBuild⟩
    · exact hFailed ((preserves_prepare _ _).of_error hPrepare h₁)
        (.component hConfig (prepare_eq_error h₁ hPrepare))
    · have h₂ := (preserves_prepare _ _).of_ok hPrepare h₁
      obtain ⟨hKept, hUnbuilt⟩ :=
        build_eq_error hSayable.toValue (isSayable_givenOptions hOptions) h₂ hBuild hOther
      exact hFailed hKept (.build hConfig hUnbuilt)
  obtain ⟨path, given, b₂, h₂, hBuild⟩ := synthesize_eq_ok h₁ hMake
  obtain ⟨compiled, h₃, hCompiled, hConstraints, hSymbols⟩ := build_eq_ok h₂ hBuild
  rw [List.nil_append] at h₃
  obtain ⟨options, hGiven, hSaid⟩ := options_of_synthesize hSayable.toValue hOptions hMake
  rw [Circuit.inSession] at h
  split at h
  · cases h
  rename_i e₁ s hExecute
  cases h
  obtain ⟨made, hStumble, hRuns, hWell⟩ := Session.executeAndReport_eq_error (by exact h₃.disk)
    (by exact hGiven) hSaid hConstraints hSymbols hExecute hOther
  have hAll : s.bench.runs = b.runs ++ compiled ++ made := by rw [hRuns, h₃.runs]
  refine ⟨⟨compiled ++ made, by rw [hAll, List.append_assoc], ?_⟩,
    .inr ⟨config, compiled, c, built, made, hConfig,
      ⟨(bind_ok hAnnounce).trans hMake, h₃.runs, hCompiled⟩, hStumble, hAll⟩⟩
  refine List.forall_mem_append.mpr ⟨hCompiled.endedWell, fun r hr => ?_⟩
  rw [← h₃.toolbox]
  exact hWell r hr

/-- Whether a pipeline with a registry of its own has verified a witness: it has built a circuit and
executed it soundly, and has run nothing else. -/
def Verifies (r : PipelineRequest) (witness : List Nat) (b b' : Bench) : Prop :=
  ∃ (config : Table) (compiled : List ToolRun) (c : Circuit) (built : Bench) (x : Execution),
    pipelineConfig r.config = .ok config ∧
    IsBuiltFor config r { b with registry := {} } compiled c built ∧
    x.IsSound b.toolbox c r.inputs built witness ∧ b'.runs = b.runs ++ compiled ++ [x.generated]

/-- A witness is verified by programs that have ended well. -/
theorem Verifies.ranWell {witness : List Nat} (h : Verifies r witness b b') : RanWell b b' := by
  obtain ⟨config, compiled, c, built, x, -, hBuilt, hSound, hRuns⟩ := h
  refine ⟨compiled ++ [x.generated], by rw [hRuns, List.append_assoc], ?_⟩
  exact List.forall_mem_append.mpr ⟨hBuilt.compiled.endedWell,
    List.forall_mem_singleton.mpr hSound.generated.endedWell⟩

/-- A pipeline with a registry of its own ends in one of three ways: with a witness that it has
verified; with a failure that the tools or the checks report; or it has stumbled or not come to a
circuit, and has run nothing that ended badly. -/
theorem runPipeline_cases (hTree : b.disk.IsTree)
    (hSayable : ∀ config, pipelineConfig r.config = .ok config → config.IsSayable)
    (hOptions : r.buildOptions.IsSayable) :
    (∃ witness b', runPipeline r true b = .ok witness b' ∧ Verifies r witness b b') ∨
    (∃ fault b', runPipeline r true b = .error (.circuit fault) b') ∨
    ∃ e b', runPipeline r true b = .error e b' ∧ ¬ e.IsReported ∧ RanWell b b' ∧
      (CannotMake r e { b with registry := {} } b' ∨
        StumblesOver r e { b with registry := {} } b') := by
  cases hConfig : pipelineConfig r.config with
  | error e =>
      have hEnd : runPipeline r true b = .error e b := attempt_bind_error hConfig
      by_cases hReported : e.IsReported
      · obtain ⟨fault, rfl⟩ := hReported
        exact .inr (.inl ⟨fault, b, hEnd⟩)
      · have hCannot : CannotMake r e { b with registry := {} } b :=
          ⟨.configuration hConfig, rfl⟩
        exact .inr (.inr ⟨e, b, hEnd, hReported, hCannot.ranWell, .inl hCannot⟩)
  | ok config =>
  have hRun : runPipeline r true b = withPrivateRegistry (buildAndExecute config r) b :=
    attempt_bind_ok hConfig
  rw [hRun]
  have hPrivate : ({ b with registry := {} } : Bench).disk.IsTree := hTree
  cases hWork : buildAndExecute config r { b with registry := {} } with
  | ok witness left =>
      obtain ⟨compiled, c, built, x, hBuilt, hSound, hRuns⟩ :=
        buildAndExecute_eq_ok hPrivate hWork
      exact .inl ⟨witness, _, withPrivateRegistry_ok hWork, config, compiled, c, built, x, hConfig,
        hBuilt, hSound, hRuns⟩
  | error e left =>
      by_cases hReported : e.IsReported
      · obtain ⟨fault, rfl⟩ := hReported
        exact .inr (.inl ⟨fault, _, withPrivateRegistry_error hWork⟩)
      · obtain ⟨hWell, hCause⟩ := buildAndExecute_eq_error hPrivate hConfig
          (hSayable config hConfig) hOptions hWork hReported
        exact .inr (.inr ⟨e, _, withPrivateRegistry_error hWork, hReported, hWell, hCause⟩)

end Bench

end CircuitBench
