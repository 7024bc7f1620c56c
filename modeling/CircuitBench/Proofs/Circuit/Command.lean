import CircuitBench.Proofs.Circuit.Build
import CircuitBench.Proofs.Circuit.Witness
import CircuitBench.Proofs.Path.Climb
import CircuitBench.Tool.Acts

/-!
# The command that runs a witness program

The command names its program and four files by paths that were made in the current folder, and is
started in the folder of the witness program.  A path that is absolute means the same in both.  The
paths of the script and the witness program start with the path of the output folder, those of the
document and the witness with the folder for temporary files, and the path of the interpreter is
what was found for an option; any of these may be relative, and then it is followed from another
folder than it was made for.

The work on a witness runs at most one program, so there is at most one command; what it was is told
of every end, as the command may fail, or what comes after it.

## Main results

* `Session.Commanded` : the command of a run, and where it was started.
* `Session.calculateWitness_commanded` : the run that the work on a witness makes.
* `Session.calculateWitness_paths` : which paths of the command mean the same in both folders.
-/

namespace CircuitBench

open CircuitBench.Path

namespace Bench

variable {start : Bench} {done : List ToolRun}

/-- The bench as it is after some runs, whatever its disk. -/
abbrev AfterWork (start : Bench) (done : List ToolRun) : Bench → Prop :=
  AfterRuns start done fun _ => True

theorem AfterRuns.openFolder_any (lead : String) (asked : Option String) :
    Preserves (AfterWork start done) (Bench.openFolder lead asked) :=
  openFolder (fun _ {_ _ _ _} _ _ => trivial) lead asked

theorem AfterRuns.writeDocument_any (path : String) (data indent : Value) :
    Preserves (AfterWork start done) (Bench.writeDocument path data indent) := by
  refine Preserves.bind ?_ fun _ => Preserves.bind ?_ fun temporary => ?_
  · exact (makeFolders (fun _ {_ _ _ _} _ _ => trivial) _).bind fun _ => preserves_pure _
  · exact preserves_get.bind fun b => create (fun _ _ => trivial) _
  · refine Preserves.ensuring ?_ (preserves_modify fun b h => h.withDisk trivial)
    refine Preserves.bind (store (fun _ _ => trivial) _) fun _ => ?_
    exact changeDisk fun _ _ => trivial

end Bench

/-! ## Names of circuits -/

/-- Whether a circuit is one of a source that is compiled into a folder. -/
structure Circuit.IsOf (c : Circuit) (source output : String) : Prop where
  name : c.name = (FilePath.ofString source).stem
  folder : c.folder = FilePath.ofString output

/-- Every circuit that is built is one of its source and of some folder. -/
theorem Circuit.isOf_of_build {config overrides : Value} {source : String} {c : Circuit}
    {b b' : Bench} (h : Bench.build config source overrides b = .ok c b') :
    ∃ output, c.IsOf source output := by
  obtain ⟨output, options, owned, -, rfl⟩ := Bench.ofPaths_of_build h
  exact ⟨output, rfl, rfl⟩

namespace Session

open Bench

/-! ## Commands -/

/-- Whether a run is that of the command for a circuit at a bench: the interpreter is what is found
for the option of the circuit, the work folder is a fresh one in the folder for temporary files, the
arguments are the paths of the four files, and the run was started where the folder of the witness
program is. -/
structure Commanded (c : Circuit) (b : Bench) (node work : String) (r : ToolRun) : Prop where
  found : ∃ options, c.options.record = .ok options ∧
    requireProgram (options.getD "node" .null) "node" interpreterAdvice b = .ok (.named node) b
  fresh : ∃ n, work =
    join ((b.registry.folder none).getD b.temporary) (c.name ++ "_wtns_" ++ Registry.token n)
  arguments : r.arguments = generatorArguments c work
  started : ∃ b₁ o b₂, b₁.current = b.current ∧
    b₁.startFolder (some c.programFolder.text) =
      .ok (resolve b.current c.programFolder.text) ∧
    start node r.arguments (some c.programFolder.text) b₁ = .ok o b₂ ∧ b₂.runs = b₁.runs ++ [r]

/-- Whether at most one program has been run since an earlier moment, by the command for a
circuit. -/
def RanCommand (c : Circuit) (b b' : Bench) : Prop :=
  ∃ made, b'.runs = b.runs ++ made ∧ (made = [] ∨
    ∃ r node work, made = [r] ∧ Commanded c b node work r)

/-- What has been read of a circuit does not show in its command. -/
theorem RanCommand.of_read {c : Circuit} {b b' : Bench} (symbols : Option SymbolTable)
    (constraints : Option ConstraintSystem)
    (h : RanCommand { c with symbols := symbols, constraints := constraints } b b') :
    RanCommand c b b' := by
  obtain ⟨made, hRuns, hNone | ⟨r, node, work, hMade, hCommand⟩⟩ := h
  · exact ⟨made, hRuns, .inl hNone⟩
  · exact ⟨made, hRuns, .inr ⟨r, node, work, hMade, hCommand.found, hCommand.fresh,
      hCommand.arguments, hCommand.started⟩⟩

theorem ranCommand_of_afterWork {c : Circuit} {b b' : Bench} (h : AfterWork b [] b') :
    RanCommand c b b' :=
  ⟨[], h.runs, .inl rfl⟩

/-- The path of a fresh folder. -/
theorem openFolder_path {lead : String} {asked : Option String} {path : String} {b b' : Bench}
    (h : openFolder lead asked b = .ok path b') :
    ∃ n, path = join ((b.registry.folder asked).getD b.temporary) (lead ++ Registry.token n) := by
  obtain ⟨b₀, b₁, hGet, h⟩ := bind_eq_ok h
  cases hGet
  obtain ⟨created, b₂, hCreated, h⟩ := bind_eq_ok h
  obtain ⟨n, -, -, hPath, -⟩ := create_eq_ok hCreated
  obtain ⟨_, b₃, -, h⟩ := bind_eq_ok h
  obtain ⟨rfl, -⟩ := pure_eq_ok h
  exact ⟨n, hPath⟩

/-- What is left to do behind a run changes nothing. -/
theorem preserves_afterRun {P : Bench → Prop} (c : Circuit) (work : String) (o : Outcome) :
    Preserves P (do
      requireWitness c work o
      let file ← readWitness (witnessFile work).text
      return file.values) := by
  refine Preserves.bind ?_ fun _ => ?_
  · refine Preserves.ite (preserves_throw _) ?_
    exact (preserves_ask _).bind fun there => (preserves_pure ()).ite (preserves_throw _)
  · exact ((preserves_ask _).bind fun bytes => preserves_attempt _).bind fun file =>
      preserves_pure _

/-- The run that is made in a work folder, if any. -/
theorem generate_commanded {c : Circuit} {b b₁ : Bench} {node : Program} {work : String}
    {options : Table} (prime : Int) (inputs : Value) (hOptions : c.options.record = .ok options)
    (hNode : requireProgram (options.getD "node" .null) "node" interpreterAdvice b = .ok node b)
    (hWork : ∃ n, work = join ((b.registry.folder none).getD b.temporary)
      (c.name ++ "_wtns_" ++ Registry.token n))
    (h₁ : AfterWork b [] b₁) : RanCommand c b (endState (generate c node work prime inputs b₁)) := by
  rw [generate]
  refine endState_attempt_bind (ranCommand_of_afterWork h₁) fun document _ => ?_
  refine endState_bind (fun e b₂ hFails => ?_) fun _ b₂ hWrite => ?_
  · exact ranCommand_of_afterWork ((AfterRuns.writeDocument_any _ _ _).of_error hFails h₁)
  have h₂ := (AfterRuns.writeDocument_any _ _ _).of_ok hWrite h₁
  refine endState_bind (fun e b₃ hFails => ?_) fun o b₃ hRun => ?_
  · rw [run_eq_error hFails]
    exact ranCommand_of_afterWork h₂
  obtain ⟨path, rfl, hStart⟩ := run_eq_ok hRun
  obtain ⟨tool, folder, hFolder, -, -, hEnd⟩ := start_eq_ok hStart
  have hPlace := startFolder_eq_ok hFolder
  rw [h₂.current] at hPlace
  have hRuns : b₃.runs = b₂.runs ++ [b₂.nextRun tool folder (generatorArguments c work)] := by
    rw [hEnd]
  refine ⟨[b₂.nextRun tool folder (generatorArguments c work)], ?_,
    .inr ⟨_, path, work, rfl, ?_⟩⟩
  · have hBefore : b₂.runs = b.runs := by rw [h₂.runs, List.append_nil]
    have hKept := preserves_afterRun (P := HasRun b₃.runs) c work o b₃ rfl
    exact hKept.trans (by rw [hRuns, hBefore])
  · exact ⟨⟨options, hOptions, hNode⟩, hWork, rfl,
      ⟨b₂, o, b₃, h₂.current, by rw [hFolder, hPlace], hStart, hRuns⟩⟩

/-- The run that is made to compute a witness, if any. -/
theorem computeWitness_commanded (c : Circuit) (prime : Int) (inputs : Value) (b : Bench) :
    RanCommand c b (endState (computeWitness c prime inputs b)) := by
  have hNone : RanCommand c b b := ⟨[], (List.append_nil _).symm, .inl rfl⟩
  rw [computeWitness]
  refine endState_attempt_bind hNone fun options hOptions => ?_
  refine endState_requireProgram_bind hNone fun node hNode => ?_
  have hStart : AfterWork b [] b := afterRuns_self trivial
  refine endState_bind (fun e b₂ hFails => ?_) fun work b₂ hWork => ?_
  · exact ranCommand_of_afterWork ((AfterRuns.openFolder_any _ _).of_error hFails hStart)
  have h₂ := (AfterRuns.openFolder_any _ _).of_ok hWork hStart
  have hRan := generate_commanded prime inputs hOptions hNode (openFolder_path hWork) h₂
  refine endState_bind (fun e b₃ hFails => ?_) fun values b₃ hGenerate => ?_
  · rwa [hFails] at hRan
  rw [hGenerate] at hRan
  obtain ⟨made, hRuns, hMade⟩ := hRan
  exact ⟨made, ((clearWork_runs work _).bind fun _ => preserves_pure values) b₃ hRuns, hMade⟩

/-- Whether a session is another one in which something may have been read of the circuit. -/
def HasRead (s s' : Session) : Prop :=
  ∃ symbols constraints,
    s' = ⟨s.bench, { s.circuit with symbols := symbols, constraints := constraints }⟩

theorem hasRead_onBench {α : Type} {s : Session} {action : Action α}
    (h : ∀ b, Preserves (fun b' => b' = b) action) : Preserves (HasRead s) (onBench action) := by
  intro s' hs
  have hSame := h s'.bench s'.bench rfl
  rw [onBench]
  cases hEnd : action s'.bench with
  | ok a b =>
      have hBench : b = s'.bench := by rwa [hEnd] at hSame
      rw [hBench]
      exact hs
  | error e b =>
      have hBench : b = s'.bench := by rwa [hEnd] at hSame
      rw [hBench]
      exact hs

theorem hasRead_loadConstraints (s : Session) : Preserves (HasRead s) loadConstraints := by
  refine Preserves.bind (fun s' h => h) fun c => ?_
  split
  · exact preserves_pure _
  · refine Preserves.bind (hasRead_onBench fun b => ?_) fun system => ?_
    · exact (preserves_ask _).bind fun bytes => preserves_attempt _
    refine Preserves.bind (preserves_modify ?_) fun _ => preserves_pure system
    rintro _ ⟨symbols, constraints, rfl⟩
    exact ⟨symbols, some system, rfl⟩

theorem hasRead_loadSymbols (s : Session) : Preserves (HasRead s) loadSymbols := by
  refine Preserves.bind (fun s' h => h) fun c => ?_
  split
  · exact preserves_pure _
  · refine Preserves.bind (hasRead_onBench fun b => ?_) fun table => ?_
    · exact (preserves_ask _).bind fun bytes => preserves_attempt _
    refine Preserves.bind (preserves_modify ?_) fun _ => preserves_pure table
    rintro _ ⟨symbols, constraints, rfl⟩
    exact ⟨some table, constraints, rfl⟩

/-- The work on a witness ends as the computation does, in what is said of the bench, or as it
began. -/
theorem calculateWitness_end {P : Bench → Prop} (inputs : Value) (strict : Bool) {s : Session}
    (hStart : P s.bench)
    (hCompute : ∀ symbols constraints system s₁, loadConstraints s = .ok system s₁ →
      P (endState (computeWitness { s.circuit with symbols := symbols, constraints := constraints }
        system.prime inputs s.bench))) :
    P (endState (calculateWitness inputs strict s)).bench := by
  have hRead : HasRead s s := ⟨s.circuit.symbols, s.circuit.constraints, rfl⟩
  have hNone : ∀ {s'}, HasRead s s' → P s'.bench := by
    rintro _ ⟨symbols, constraints, rfl⟩
    exact hStart
  have hStrict : ∀ system, Preserves (HasRead s) (strictCheck strict system inputs) := by
    intro system
    refine Preserves.ite ?_ (preserves_pure ())
    exact (hasRead_loadSymbols s).bind fun symbols => preserves_attempt _
  rw [calculateWitness]
  apply endState_bind (P := fun s' : Session => P s'.bench)
  · exact fun e s₁ hFails => hNone ((hasRead_loadConstraints s).of_error hFails hRead)
  intro system s₁ hLoad
  have h₁ := (hasRead_loadConstraints s).of_ok hLoad hRead
  apply endState_bind (P := fun s' : Session => P s'.bench)
  · exact fun e s₂ hFails => hNone ((hStrict system).of_error hFails h₁)
  intro _ s₂ hChecked
  obtain ⟨symbols, constraints, rfl⟩ := (hStrict system).of_ok hChecked h₁
  have hComputed := hCompute symbols constraints system s₁ hLoad
  apply endState_bind (P := fun s' : Session => P s'.bench)
  · intro e s₃ hFails
    cases hFails
  intro c s₃ hNow
  cases hNow
  apply endState_bind (P := fun s' : Session => P s'.bench)
  · intro e s₃ hFails
    obtain ⟨b, hEnd, rfl⟩ := onBench_eq_error hFails
    rwa [hEnd] at hComputed
  · intro values s₃ hValues
    obtain ⟨b, hEnd, rfl⟩ := onBench_eq_ok hValues
    rw [hEnd] at hComputed
    exact ((preserves_throw _).ite (preserves_pure values) :
      Preserves (fun s' : Session => P s'.bench) _) _ hComputed

/-- The run that the work on a witness makes, if any. -/
theorem calculateWitness_commanded (inputs : Value) (strict : Bool) (s : Session) :
    RanCommand s.circuit s.bench (endState (calculateWitness inputs strict s)).bench :=
  calculateWitness_end inputs strict ⟨[], (List.append_nil _).symm, .inl rfl⟩
    fun symbols constraints _ _ _ => (computeWitness_commanded _ _ _ _).of_read symbols constraints

/-! ## Paths of a command -/

/-- Whether a path means the same in the folder in which the command for a circuit is started as in
the current one. -/
def MeansTheSame (c : Circuit) (current : Location) (path : String) : Prop :=
  resolve (resolve current c.programFolder.text) path = resolve current path

section Paths

variable {c : Circuit} {source output : String}

/-- A path that leads below another one, wherever it is followed from, means the same if that one
does. -/
theorem meansTheSame_iff_of_below {path folder : String} {more : Location}
    (h : ∀ here, resolve here path = resolve here folder ++ more) (current : Location) :
    MeansTheSame c current path ↔ MeansTheSame c current folder := by
  rw [MeansTheSame, MeansTheSame, h, h, List.append_left_inj]

/-- The names of files that a circuit gives have no slash in them. -/
theorem slash_not_mem_name (h : c.IsOf source output) {ending : String}
    (hEnding : '/' ∉ ending.toList) : '/' ∉ (c.name ++ ending).toList := by
  rw [h.name]
  exact slash_not_mem_append (FilePath.slash_not_mem_stem source) hEnding

theorem spelled_programFolder (h : c.IsOf source output) : c.programFolder.Spelled := by
  rw [Circuit.programFolder, h.folder]
  exact (FilePath.spelled_ofString output).child (isPlain_append ⟨'_', by decide, by decide⟩)
    (slash_not_mem_name h (by decide))

/-- The folder of the witness program lies right below the output folder. -/
theorem resolve_programFolder (h : c.IsOf source output) (here : Location) :
    resolve here c.programFolder.text = resolve here output ++ [c.name ++ "_js"] := by
  rw [Circuit.programFolder, h.folder]
  exact FilePath.resolve_child here output (isPlain_append ⟨'_', by decide, by decide⟩)
    (slash_not_mem_name h (by decide))

/-- A file in the folder of the witness program. -/
theorem resolve_in_programFolder (h : c.IsOf source output) (file : String) (hPlain : IsPlain file)
    (hSlash : '/' ∉ file.toList) (here : Location) :
    resolve here (c.programFolder.child file).text =
      resolve here output ++ [c.name ++ "_js", file] := by
  have hText : FilePath.ofString c.programFolder.text = c.programFolder :=
    FilePath.ofString_text (spelled_programFolder h)
      (by simp [Circuit.programFolder, FilePath.child])
  have hChild := FilePath.resolve_child here c.programFolder.text hPlain hSlash
  rw [hText, resolve_programFolder h, List.append_assoc] at hChild
  exact hChild

/-- The script and the witness program mean the same exactly when the output folder does. -/
theorem meansTheSame_output_iff (h : c.IsOf source output) (current : Location) {path : String}
    (hPath : path ∈ [c.scriptPath.text, c.programPath.text]) :
    MeansTheSame c current path ↔ MeansTheSame c current output := by
  have hScript := resolve_in_programFolder h "generate_witness.js"
    (by unfold IsPlain; decide) (by decide)
  have hProgram := resolve_in_programFolder h (c.name ++ ".wasm")
    (isPlain_append ⟨'w', by decide, by decide⟩) (slash_not_mem_name h (by decide))
  simp only [List.mem_cons, List.not_mem_nil, or_false] at hPath
  rcases hPath with rfl | rfl
  · exact meansTheSame_iff_of_below hScript current
  · exact meansTheSame_iff_of_below hProgram current

/-- The document and the witness mean the same exactly when the folder for temporary files does. -/
theorem meansTheSame_base_iff (h : c.IsOf source output) (current : Location) {base work : String}
    {n : Nat} (hWork : work = join base (c.name ++ "_wtns_" ++ Registry.token n)) {path : String}
    (hPath : path ∈ [(inputFile work).text, (witnessFile work).text]) :
    MeansTheSame c current path ↔ MeansTheSame c current base := by
  have hFolder : ∀ here, resolve here work =
      resolve here base ++ [c.name ++ "_wtns_" ++ Registry.token n] := by
    intro here
    rw [hWork]
    exact AfterRuns.resolve_join_token here base (slash_not_mem_name h (by decide)) n
  rw [← meansTheSame_iff_of_below hFolder current]
  have hIn : ∀ file, IsPlain file → '/' ∉ file.toList →
      ∀ here, resolve here ((FilePath.ofString work).child file).text =
        resolve here work ++ [file] :=
    fun file hPlain hName here => FilePath.resolve_child here work hPlain hName
  simp only [List.mem_cons, List.not_mem_nil, or_false] at hPath
  rcases hPath with rfl | rfl
  · exact meansTheSame_iff_of_below (hIn _ (by unfold IsPlain; decide) (by decide)) current
  · exact meansTheSame_iff_of_below (hIn _ (by unfold IsPlain; decide) (by decide)) current

/-- A relative output folder is followed from a folder right below it. -/
theorem meansTheSame_relative_iff (h : c.IsOf source output) (current : Location) :
    MeansTheSame c current output ↔ isAbsolute output = true ∨
      (way output).climbs = (way output).names.length + 1 ∨
      current.length ≤ (way output).climbs ∧
        (way output).names.length + 1 ≤ (way output).climbs := by
  rw [MeansTheSame, resolve_programFolder h]
  cases hAbsolute : isAbsolute output with
  | true =>
      rw [resolve_absolute hAbsolute _ current]
      exact iff_of_true rfl (.inl rfl)
  | false =>
      rw [resolve_from_below_iff hAbsolute]
      exact (or_iff_right Bool.false_ne_true).symm

end Paths

/-! ### A relative output folder -/

/-- A circuit that was built into a relative folder, at a bench with an interpreter that writes
nothing. -/
def relativeSession : Session where
  bench := {
    disk := ⟨[(["tmp"], .folder), (["w"], .folder), (["w", "build"], .folder),
      (["w", "build", "m_js"], .folder), (["bin"], .folder), (["bin", "node"], .file [])]⟩
    current := ["w"]
    toolbox := { folder := ["bin"], node := some (interpreter fun _ => {}) } }
  circuit := { Circuit.ofPaths "m.circom" "build" (.table []) false with
    constraints := some ⟨⟨7, 8, 4, 1, 0, 2, 4, 1⟩, []⟩ }

theorem runs_relativeSession :
    ∃ r, (endState (calculateWitness (.table []) false relativeSession)).bench.runs = [r] ∧
      r.arguments = ["build/m_js/generate_witness.js", "build/m_js/m.wasm",
        "/tmp/m_wtns_k0000000/input.json", "/tmp/m_wtns_k0000000/witness.wtns"] := by
  have hArguments : (endState (calculateWitness (.table []) false relativeSession)).bench.runs.map
      (fun r => r.arguments) = [["build/m_js/generate_witness.js", "build/m_js/m.wasm",
        "/tmp/m_wtns_k0000000/input.json", "/tmp/m_wtns_k0000000/witness.wtns"]] := by
    decide +kernel
  exact List.map_eq_singleton_iff.mp hArguments

/-- The paths of the command for a witness.  The work on a witness runs one program at most.  A path
of its command means the same in the folder in which it is started as in the current one exactly
when it is absolute, or the two folders have in common what is left of them behind the climb.  For
the script and the witness program this comes down to the path of the output folder: it is absolute,
or it climbs by one folder more than it goes down, or at least as far and beyond the root.  For the
document and the witness it comes down to the folder for temporary files. -/
theorem calculateWitness_paths {s : Session} {source output : String}
    (hOf : s.circuit.IsOf source output) (inputs : Value) (strict : Bool) :
    ∃ made, (endState (calculateWitness inputs strict s)).bench.runs = s.bench.runs ++ made ∧
      made.length ≤ 1 ∧ ∀ r ∈ made, ∃ node work, Commanded s.circuit s.bench node work r ∧
        let current := s.bench.current
        let started := resolve current s.circuit.programFolder.text
        let base := (s.bench.registry.folder none).getD s.bench.temporary
        (∀ path ∈ node :: r.arguments, MeansTheSame s.circuit current path ↔
          isAbsolute path = true ∨ started.take (started.length - (way path).climbs) =
            current.take (current.length - (way path).climbs)) ∧
        (∀ path ∈ [s.circuit.scriptPath.text, s.circuit.programPath.text],
          MeansTheSame s.circuit current path ↔ isAbsolute output = true ∨
            (way output).climbs = (way output).names.length + 1 ∨
            current.length ≤ (way output).climbs ∧
              (way output).names.length + 1 ≤ (way output).climbs) ∧
        ∀ path ∈ [(inputFile work).text, (witnessFile work).text],
          MeansTheSame s.circuit current path ↔ MeansTheSame s.circuit current base := by
  obtain ⟨made, hRuns, hMade⟩ := calculateWitness_commanded inputs strict s
  refine ⟨made, hRuns, ?_, ?_⟩
  · rcases hMade with rfl | ⟨r, node, work, rfl, -⟩ <;> simp
  · intro r hMem
    rcases hMade with rfl | ⟨r', node, work, rfl, hCommand⟩
    · cases hMem
    obtain rfl := List.mem_singleton.mp hMem
    obtain ⟨n, hWork⟩ := hCommand.fresh
    refine ⟨node, work, hCommand, fun path _ => resolve_eq_resolve_iff _ _ path,
      fun path hPath => ?_, fun path hPath => meansTheSame_base_iff hOf _ hWork hPath⟩
    rw [meansTheSame_output_iff hOf _ hPath, meansTheSame_relative_iff hOf]

/-- The script is looked for in the folder that it lies in, from which its path leads nowhere near
it. -/
theorem calculateWitness_paths_relative :
    ∃ r, (endState (calculateWitness (.table []) false relativeSession)).bench.runs = [r] ∧
      r.arguments.head? = some relativeSession.circuit.scriptPath.text ∧
      ¬ MeansTheSame relativeSession.circuit relativeSession.bench.current
        relativeSession.circuit.scriptPath.text := by
  obtain ⟨r, hRuns, hArguments⟩ := runs_relativeSession
  have hOf : relativeSession.circuit.IsOf "m.circom" "build" := ⟨rfl, rfl⟩
  obtain ⟨made, hMade, -, hEach⟩ := calculateWitness_paths hOf (.table []) false
  have hMember : r ∈ made := by
    have hSame : [r] = made := hRuns.symm.trans hMade
    rw [← hSame]
    exact List.mem_cons_self
  obtain ⟨node, work, -, -, hScript, -⟩ := hEach r hMember
  refine ⟨r, hRuns, ?_, ?_⟩
  · rw [hArguments]
    decide +kernel
  · rw [hScript _ List.mem_cons_self]
    decide +kernel

/-- The paths of a command need not mean the same where it is started as in the current folder. -/
theorem command_started_elsewhere :
    ¬ ∀ (s : Session) (source output : String) (inputs : Value) (strict : Bool) (r : ToolRun),
      s.circuit.IsOf source output →
      (endState (calculateWitness inputs strict s)).bench.runs = s.bench.runs ++ [r] →
        ∀ path ∈ r.arguments, MeansTheSame s.circuit s.bench.current path := by
  intro h
  obtain ⟨r, hRuns, hArguments⟩ := runs_relativeSession
  have hSame := h relativeSession "m.circom" "build" (.table []) false r ⟨rfl, rfl⟩ hRuns
    "build/m_js/generate_witness.js" (by rw [hArguments]; exact List.mem_cons_self)
  revert hSame
  unfold MeansTheSame
  decide +kernel

end Session

end CircuitBench
