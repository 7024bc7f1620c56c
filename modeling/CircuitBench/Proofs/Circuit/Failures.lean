import CircuitBench.Proofs.Circuit.Command
import CircuitBench.Proofs.Settings.Sayable

/-!
# What a failed step leaves behind

A step fails with what the tools or the checks of a circuit report, or with something else.  The
first kind comes of programs that cannot be found, that end badly or that leave no witness; so a step
that fails in another way has run no program that ended badly.  What it was that failed is told by the
step: the file system has refused something, the inputs have no document, or the witness cannot be
read.

Options are taken to be those that JSON can say: an array among them may have no truth, which is found
out only after the compiler has been run.

## Main results

* `compile_eq_error`, `build_eq_error` : a build that fails in another way has run nothing.
* `computeWitness_eq_error` : what the work on a witness may fail over in another way.
-/

namespace CircuitBench

open CircuitBench.Path

/-- Whether a failure is one that the tools or the checks of a circuit report. -/
def Error.IsReported (e : Error) : Prop :=
  ∃ fault, e = .circuit fault

/-- Whether a failure is a refusal of the file system. -/
def Error.IsRefusal (e : Error) : Prop :=
  ∃ fault, e = .disk fault

namespace Bench

variable {start b b' : Bench} {done : List ToolRun} {e : Error}

/-! ## Files -/

theorem changeDisk_eq_error {change : Bench → Except DiskFault Disk}
    (h : changeDisk change b = .error e b') : e.IsRefusal := by
  rw [changeDisk] at h
  split at h
  · cases h
  · cases h
    exact ⟨_, rfl⟩

theorem makeFolders_eq_error {path : FilePath} (h : makeFolders path b = .error e b') :
    e.IsRefusal := by
  rw [makeFolders] at h
  split at h
  · cases h
  · cases h
    exact ⟨_, rfl⟩

theorem create_eq_error {make : Disk → Location → String → Except DiskFault (Location × Disk)}
    {pathOf : String → String} {attempts : Nat} (h : create make pathOf attempts b = .error e b') :
    e.IsRefusal := by
  induction attempts generalizing b with
  | zero =>
      cases h
      exact ⟨_, rfl⟩
  | succ attempts ih =>
      rw [create] at h
      dsimp only at h
      split at h
      · cases h
      · exact ih h
      · cases h
        exact ⟨_, rfl⟩

theorem absolutePath_eq_error {current : Location} {path : String}
    (h : absolutePath current path = .error e) : e.IsRefusal := by
  rw [absolutePath] at h
  split at h
  · cases h
    exact ⟨_, rfl⟩
  · cases h

theorem openFile_eq_error {lead ending : String} {asked : Option String}
    (h : openFile lead ending asked b = .error e b') : e.IsRefusal := by
  rcases bind_eq_error h with hGet | ⟨b₀, b₁, -, h⟩
  · cases hGet
  rcases bind_eq_error h with hFolder | ⟨folder, b₂, -, h⟩
  · exact absolutePath_eq_error (attempt_eq_error hFolder).1
  rcases bind_eq_error h with hCreate | ⟨path, b₃, -, h⟩
  · exact create_eq_error hCreate
  · cases h

theorem openFolder_eq_error {lead : String} {asked : Option String}
    (h : openFolder lead asked b = .error e b') : e.IsRefusal := by
  rcases bind_eq_error h with hGet | ⟨b₀, b₁, -, h⟩
  · cases hGet
  rcases bind_eq_error h with hCreate | ⟨path, b₂, -, h⟩
  · exact create_eq_error hCreate
  · cases h

theorem openBeside_eq_error {target : FilePath} (h : openBeside target b = .error e b') :
    e.IsRefusal := by
  rcases bind_eq_error h with hGet | ⟨b₀, b₁, -, hCreate⟩
  · cases hGet
  · exact create_eq_error hCreate

/-- The bytes of the document of a value. -/
def documentBytes (data indent : Value) : Except Error (List UInt8) :=
  Json.documentText indent data >>= storedBytes

theorem store_eq_error {path : String} {text : Except Error String}
    (h : store path text b = .error e b') : e.IsRefusal ∨ text >>= storedBytes = .error e := by
  rcases bind_eq_error h with hText | ⟨written, b₁, hText, h⟩
  · obtain ⟨hNone, -⟩ := attempt_eq_error hText
    exact .inr (by rw [hNone]; rfl)
  obtain ⟨rfl, rfl⟩ := attempt_eq_ok hText
  rcases bind_eq_error h with hBytes | ⟨bytes, b₂, -, h⟩
  · exact .inr (attempt_eq_error hBytes).1
  · exact .inl (changeDisk_eq_error h)

/-- A document that is not written has no bytes, or the file system has refused it. -/
theorem writeDocument_eq_error {path : String} {data indent : Value}
    (h : writeDocument path data indent b = .error e b') :
    e.IsRefusal ∨ documentBytes data indent = .error e := by
  rcases bind_eq_error h with hFolder | ⟨_, b₁, -, h⟩
  · rcases bind_eq_error hFolder with hMake | ⟨_, b₁, -, h⟩
    · exact .inl (makeFolders_eq_error hMake)
    · cases h
  rcases bind_eq_error h with hOpen | ⟨temporary, b₂, -, h⟩
  · exact .inl (openBeside_eq_error hOpen)
  rw [ensuring] at h
  split at h
  · split at h
    · cases h
    · rename_i hDiscard
      cases hDiscard
  · rename_i e₁ b₃ hFirst
    have hSame : e₁ = e := by
      split at h
      · cases h
        rfl
      · rename_i hDiscard
        cases hDiscard
    subst hSame
    rcases bind_eq_error hFirst with hStore | ⟨_, b₄, -, hMove⟩
    · exact store_eq_error hStore
    · exact .inl (changeDisk_eq_error hMove)

/-! ## Programs -/

/-- A program with a path that cannot be started is refused by the system. -/
theorem start_eq_error {path : String} {arguments : List String} {asked : Option String}
    (h : Bench.start path arguments asked b = .error e b') : e.IsRefusal := by
  rw [Bench.start] at h
  split at h
  · cases h
    exact ⟨_, rfl⟩
  split at h
  · cases h
    exact ⟨_, rfl⟩
  split at h
  · cases h
    exact ⟨_, rfl⟩
  split at h
  · cases h
    exact ⟨_, rfl⟩
  · cases h

/-- Whether an option names a program by a text, if it is left open what it is called without the
option. -/
def NamesProgram (option : Value) (default : String) : Prop :=
  ∃ name, option.orElse (.text default) = .ok (.text name)

/-- A program that is looked for is found or reported as missing, if it is named by a text. -/
theorem requireNamed_eq_error {name advice : String} (h : requireNamed name advice b = .error e b') :
    e.IsReported := by
  rcases bind_eq_error h with hGet | ⟨b₁, b₂, -, h⟩
  · cases hGet
  cases hFound : b₁.findProgram? name with
  | some path =>
      rw [hFound] at h
      cases h
  | none =>
      rw [hFound] at h
      cases h
      exact ⟨_, rfl⟩

theorem requireNamed_eq_ok {name advice : String} {program : Program}
    (h : requireNamed name advice b = .ok program b') : ∃ path, program = .named path := by
  obtain ⟨b₁, b₂, -, h⟩ := bind_eq_ok h
  cases hFound : b₁.findProgram? name with
  | some path =>
      rw [hFound] at h
      exact ⟨path, (pure_eq_ok h).1.symm⟩
  | none =>
      rw [hFound] at h
      cases h

theorem requireProgram_eq_error {option : Value} {name advice : String}
    (h : requireProgram option name advice b = .error e b') (hOther : ¬ e.IsReported) :
    ¬ NamesProgram option name := by
  rintro ⟨text, hText⟩
  rcases bind_eq_error h with hGet | ⟨b₁, b₂, -, h⟩
  · cases hGet
  rw [attempt_bind_ok hText] at h
  exact hOther (requireNamed_eq_error h)

/-- A program that is found by an option that JSON can say is named by a text. -/
theorem requireProgram_named {option : Value} {name advice : String} {program : Program}
    (hSayable : option.IsSayable) (h : requireProgram option name advice b = .ok program b') :
    ∃ path, program = .named path := by
  obtain ⟨b₁, b₂, -, h⟩ := bind_eq_ok h
  obtain ⟨v, b₃, hAttempt, h⟩ := bind_eq_ok h
  obtain ⟨hValue, rfl⟩ := attempt_eq_ok hAttempt
  have hSaid : v.IsSayable := by
    obtain ⟨counts, -, hChosen⟩ := except_bind_eq_ok hValue
    split at hChosen
    · cases hChosen
      exact hSayable
    · cases hChosen
      exact .text _
  cases hSaid with
  | text s => exact requireNamed_eq_ok h
  | _ => cases h

/-! ## Building -/

/-- What the compiler said is told if the option for it has a truth. -/
theorem reportCompilation_eq_ok {options : Table} (hSayable : options.IsSayable) (o : Outcome)
    (b : Bench) : ∃ b', reportCompilation options o b = .ok () b' := by
  obtain ⟨verbose, hVerbose⟩ := (hSayable.getD "verbose" .null).truth
  rw [reportCompilation, attempt_bind_ok hVerbose]
  cases verbose with
  | false => exact ⟨b, rfl⟩
  | true =>
      cases hSilent : o.output.isEmpty with
      | true => exact ⟨b, by rw [if_pos rfl]; rfl⟩
      | false => exact ⟨_, by rw [if_pos rfl]; rfl⟩

/-- What keeps a source from being compiled into a folder, if the tools have nothing to report. -/
inductive Uncompiled (circuitPath output : String) (options : Table) (e : Error) : Prop
  | compiler (unnamed : ¬ NamesProgram (options.getD "circom" .null) "circom")
  | arguments (unsaid : compilerArguments circuitPath output options = .error e)
  | refused (refused : e.IsRefusal)

/-- A compilation that fails otherwise than by what the tools report has not come to a run. -/
theorem compile_eq_error {circuitPath output : String} {options : Table}
    (hSayable : options.IsSayable) (hStart : AfterRuns start done Disk.IsTree b)
    (h : compile circuitPath output options b = .error e b') (hOther : ¬ e.IsReported) :
    AfterRuns start done Disk.IsTree b' ∧ Uncompiled circuitPath output options e := by
  rcases bind_eq_error h with hProgram | ⟨circom, b₁, hProgram, h⟩
  · exact ⟨(AfterRuns.requireProgram _ _ _).of_error hProgram hStart,
      .compiler (requireProgram_eq_error hProgram hOther)⟩
  have h₁ := (AfterRuns.requireProgram _ _ _).of_ok hProgram hStart
  obtain ⟨path, rfl⟩ := requireProgram_named (hSayable.getD "circom" .null) hProgram
  rcases bind_eq_error h with hArguments | ⟨arguments, b₂, hArguments, h⟩
  · obtain ⟨hUnsaid, rfl⟩ := attempt_eq_error hArguments
    exact ⟨h₁, .arguments hUnsaid⟩
  obtain ⟨-, rfl⟩ := attempt_eq_ok hArguments
  rcases bind_eq_error h with hRun | ⟨o, b₃, -, h⟩
  · rw [run_eq_error hRun]
    exact ⟨h₁, .refused (start_eq_error hRun)⟩
  obtain ⟨b₄, hReport⟩ := reportCompilation_eq_ok hSayable o b₃
  rw [bind_ok hReport, judgeCompilation] at h
  split at h
  · cases h
  · cases h
    exact absurd ⟨_, rfl⟩ hOther

/-- The folder for the output is not asked for by a text, or the file system refuses a fresh one. -/
theorem outputFolder_eq_error {options : Table} (hSayable : options.IsSayable)
    (h : outputFolder options b = .error e b') :
    e.IsRefusal ∨ (options.getD "output" .null).plainText = .error e := by
  obtain ⟨asked, hAsked⟩ := (hSayable.getD "output" .null).truth
  rw [outputFolder, attempt_bind_ok hAsked] at h
  cases asked with
  | true =>
      rcases bind_eq_error h with hPath | ⟨path, b₁, -, h⟩
      · exact .inr (attempt_eq_error hPath).1
      · cases h
  | false =>
      rcases bind_eq_error h with hOpen | ⟨path, b₁, -, h⟩
      · exact .inl (openFolder_eq_error hOpen)
      · cases h

theorem allExist_eq_error {paths : List String} (h : allExist paths b = .error e b') :
    e.IsRefusal := by
  induction paths with
  | nil => cases h
  | cons path rest ih =>
      rcases bind_eq_error h with hAsk | ⟨there, b₁, hAsk, h⟩
      · obtain ⟨fault, -, rfl, -⟩ := ask_eq_error hAsk
        exact ⟨fault, rfl⟩
      · obtain ⟨-, rfl⟩ := ask_eq_ok hAsk
        cases there with
        | true => exact ih h
        | false => cases h

theorem canReuse_eq_error {options : Table} {c : Circuit} (hSayable : options.IsSayable)
    (h : canReuse options c b = .error e b') : e.IsRefusal := by
  obtain ⟨anew, hAnew⟩ := (hSayable.getD "recompile" (.bool true)).truth
  rw [canReuse, attempt_bind_ok hAnew] at h
  cases anew with
  | true => cases h
  | false => exact allExist_eq_error h

/-- What keeps a source from being built with the options of a configuration and of the caller, if the
tools have nothing to report. -/
inductive Unbuilt (config overrides : Value) (circuitPath : String) (e : Error) : Prop
  | options (unresolved : Settings.resolve config overrides = .error e)
  | output {options : Table} (resolved : Settings.resolve config overrides = .ok options)
      (unnamed : (options.getD "output" .null).plainText = .error e)
  | compilation {options : Table} {output : String}
      (resolved : Settings.resolve config overrides = .ok options)
      (uncompiled : Uncompiled circuitPath output options e)
  | refused (refused : e.IsRefusal)

/-- A build that fails in such a way has not come to a run either. -/
theorem build_eq_error {config overrides : Value} {circuitPath : String} (hConfig : config.IsSayable)
    (hOverrides : overrides.IsSayable) (hStart : AfterRuns start done Disk.IsTree b)
    (h : build config circuitPath overrides b = .error e b') (hOther : ¬ e.IsReported) :
    AfterRuns start done Disk.IsTree b' ∧ Unbuilt config overrides circuitPath e := by
  rcases bind_eq_error h with hOptions | ⟨options, b₁, hOptions, h⟩
  · obtain ⟨hUnresolved, rfl⟩ := attempt_eq_error hOptions
    exact ⟨hStart, .options hUnresolved⟩
  obtain ⟨hResolved, rfl⟩ := attempt_eq_ok hOptions
  have hSayable := Settings.isSayable_resolve hConfig hOverrides hResolved
  rcases bind_eq_error h with hOutput | ⟨output, b₂, hOutput, h⟩
  · refine ⟨(AfterRuns.outputFolder Disk.keptByFolders_isTree _).of_error hOutput hStart, ?_⟩
    rcases outputFolder_eq_error hSayable hOutput with hRefused | hUnnamed
    · exact .refused hRefused
    · exact .output hResolved hUnnamed
  have h₂ := (AfterRuns.outputFolder Disk.keptByFolders_isTree _).of_ok hOutput hStart
  have hFolders : Preserves (AfterRuns start done Disk.IsTree)
      (makeFolders (FilePath.ofString output.1)) := AfterRuns.makeFolders Disk.keptByFolders_isTree _
  rcases bind_eq_error h with hMake | ⟨_, b₃, hMake, h⟩
  · exact ⟨hFolders.of_error hMake h₂, .refused (makeFolders_eq_error hMake)⟩
  have h₃ := hFolders.of_ok hMake h₂
  rcases bind_eq_error h with hReuse | ⟨reuse, b₄, hReuse, h⟩
  · exact ⟨(preserves_canReuse _ _).of_error hReuse h₃,
      .refused (canReuse_eq_error hSayable hReuse)⟩
  have h₄ := (preserves_canReuse _ _).of_ok hReuse h₃
  split at h
  · cases h
  · rcases bind_eq_error h with hCompile | ⟨_, b₅, -, h⟩
    · obtain ⟨hKept, hUncompiled⟩ := compile_eq_error hSayable h₄ hCompile hOther
      exact ⟨hKept, .compilation hResolved hUncompiled⟩
    · cases h

end Bench

/-! ## Computing -/

namespace Session

open Bench

variable {start b b' : Bench} {done : List ToolRun} {e : Error}

/-- The bytes of the document that the witness program reads. -/
def inputBytes (prime : Int) (inputs : Value) : Except Error (List UInt8) := do
  let document ← inputDocument prime inputs
  documentBytes document documentIndent

/-- An outcome that ended well is refused for want of a witness, or because its path is too long. -/
theorem requireWitness_eq_error {c : Circuit} {work : String} {o : Outcome}
    (h : requireWitness c work o b = .error e b') (hOther : ¬ e.IsReported) :
    o.exitCode = 0 ∧ e = .disk .nameTooLong ∧ b' = b := by
  rw [requireWitness] at h
  split at h
  · cases h
    exact absurd ⟨_, rfl⟩ hOther
  rename_i hZero
  rcases bind_eq_error h with hProbe | ⟨there, b₁, -, h⟩
  · obtain ⟨fault, hFault, rfl, rfl⟩ := ask_eq_error hProbe
    rw [Disk.probe] at hFault
    split at hFault
    · cases hFault
    · cases hFault
      exact ⟨Classical.not_not.mp hZero, rfl, rfl⟩
    · cases hFault
  · split at h
    · cases h
    · cases h
      exact absurd ⟨_, rfl⟩ hOther

theorem pathExists_of_requireWitness {c : Circuit} {work : String} {o : Outcome}
    (h : requireWitness c work o b = .ok () b') :
    pathExists (witnessFile work).text b = .ok true b := by
  rw [requireWitness] at h
  split at h
  · cases h
  obtain ⟨there, b₁, hProbe, h⟩ := bind_eq_ok h
  have hSame : b = b₁ := (ask_eq_ok hProbe).2
  subst hSame
  cases there with
  | true => exact hProbe
  | false => cases h

/-- Whether a witness that is there at the path of a file cannot be read. -/
def IsUnreadable (path : String) (b : Bench) (e : Error) : Prop :=
  pathExists path b = .ok true b ∧ readWitness path b = .error e b

/-- Why no witness is read in a work folder, other than by what the tools report: the inputs have no
document or the file system has refused something, before the witness program is run; or that ended
well, and the witness that it has left cannot be read, or is at too long a path. -/
theorem generate_eq_error {c : Circuit} {path work : String} {prime : Int} {inputs : Value}
    (hStart : AfterWork start done b)
    (h : generate c (.named path) work prime inputs b = .error e b') (hOther : ¬ e.IsReported) :
    (AfterWork start done b' ∧ (inputBytes prime inputs = .error e ∨ e.IsRefusal)) ∨
    ∃ r : ToolRun, AfterWork start (done ++ [r]) b' ∧ r.EndedWell start.toolbox ∧
      (e = .disk .nameTooLong ∨ IsUnreadable (witnessFile work).text b' e) := by
  rcases bind_eq_error h with hDocument | ⟨document, b₁, hDocument, h⟩
  · obtain ⟨hNone, rfl⟩ := attempt_eq_error hDocument
    exact .inl ⟨hStart, .inl (by rw [inputBytes, hNone]; rfl)⟩
  obtain ⟨hMade, rfl⟩ := attempt_eq_ok hDocument
  rcases bind_eq_error h with hWrite | ⟨_, b₂, hWrite, h⟩
  · refine .inl ⟨(AfterRuns.writeDocument_any _ _ _).of_error hWrite hStart, ?_⟩
    rcases writeDocument_eq_error hWrite with hRefused | hBytes
    · exact .inr hRefused
    · exact .inl (by rw [inputBytes, hMade]; exact hBytes)
  have h₂ := (AfterRuns.writeDocument_any _ _ _).of_ok hWrite hStart
  rcases bind_eq_error h with hRun | ⟨o, b₃, hRun, h⟩
  · rw [run_eq_error hRun]
    exact .inl ⟨h₂, .inr (start_eq_error hRun)⟩
  obtain ⟨r, -, -, -, hOf, rfl, h₃⟩ := h₂.run hRun
  have hRan : AfterWork start (done ++ [r]) b₃ :=
    ⟨h₃.toolbox, h₃.current, h₃.runs, trivial⟩
  rcases bind_eq_error h with hRequire | ⟨_, b₄, hRequire, h⟩
  · obtain ⟨hZero, rfl, rfl⟩ := requireWitness_eq_error hRequire hOther
    exact .inr ⟨r, hRan, ⟨hOf, hZero⟩, .inl rfl⟩
  have hThere := pathExists_of_requireWitness hRequire
  obtain ⟨hZero, rfl⟩ := requireWitness_eq_ok hRequire
  rcases bind_eq_error h with hRead | ⟨file, b₅, -, h⟩
  · obtain rfl := readWitness_eq_error hRead
    exact .inr ⟨r, hRan, ⟨hOf, hZero⟩, .inr ⟨hThere, hRead⟩⟩
  · cases h

/-- Nor is one computed, if the interpreter is not named by a text. -/
theorem computeWitness_eq_error {c : Circuit} {options : Table} {prime : Int} {inputs : Value}
    (hOptions : c.options = .table options) (hSayable : options.IsSayable)
    (hStart : AfterWork start done b) (h : computeWitness c prime inputs b = .error e b')
    (hOther : ¬ e.IsReported) :
    (AfterWork start done b' ∧ (¬ NamesProgram (options.getD "node" .null) "node" ∨
      inputBytes prime inputs = .error e ∨ e.IsRefusal)) ∨
    ∃ (r : ToolRun) (work : String), AfterWork start (done ++ [r]) b' ∧
      r.EndedWell start.toolbox ∧
      (e = .disk .nameTooLong ∨ IsUnreadable (witnessFile work).text b' e) := by
  have hRecord : c.options.record = .ok options := by
    rw [hOptions]
    rfl
  rw [computeWitness, attempt_bind_ok hRecord] at h
  rcases bind_eq_error h with hProgram | ⟨node, b₁, hProgram, h⟩
  · exact .inl ⟨(AfterRuns.requireProgram _ _ _).of_error hProgram hStart,
      .inl (requireProgram_eq_error hProgram hOther)⟩
  have h₁ := (AfterRuns.requireProgram _ _ _).of_ok hProgram hStart
  obtain ⟨path, rfl⟩ := requireProgram_named (hSayable.getD "node" .null) hProgram
  rcases bind_eq_error h with hWork | ⟨work, b₂, hWork, h⟩
  · exact .inl ⟨(AfterRuns.openFolder_any _ _).of_error hWork h₁,
      .inr (.inr (openFolder_eq_error hWork))⟩
  have h₂ := (AfterRuns.openFolder_any _ _).of_ok hWork h₁
  rcases bind_eq_error h with hGenerate | ⟨values, b₃, -, h⟩
  · rcases generate_eq_error h₂ hGenerate hOther with
      ⟨hKept, hFails⟩ | ⟨r, hRan, hEnded, hFails⟩
    · exact .inl ⟨hKept, .inr hFails⟩
    · exact .inr ⟨r, work, hRan, hEnded, hFails⟩
  · cases h

end Session

end CircuitBench
