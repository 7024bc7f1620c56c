import CircuitBench.Proofs.Pipeline.Leftovers
import CircuitBench.Proofs.Template.Calls

/-!
# What the compiler is given to read

A pipeline writes the main component that it is asked for, and the compiler reads it where it was
written.  In between, folders are made and a folder is opened, at places that were free, so the file
is as it was.  Whatever else a pipeline runs is no compilation, and does not read the file.

## Main results

* `build_compiles` : what the compiler is given in a build.
* `runPipeline_compiles` : what it is given in a pipeline, however that ends.
-/

namespace CircuitBench

open CircuitBench.Path

/-- Whether a run is one of the compiler that is told of an output folder. -/
def ToolRun.Compiles (r : ToolRun) : Prop :=
  r.tool = .circom ∧ argumentAfter? "-o" r.arguments ≠ none

/-- Whether a run has been given the source of the main component that a request asks for, as it was
written to the path that the run was told of. -/
def ToolRun.ReadsSource (r : ToolRun) (config : Table) (m : MainRequest) (current : Location) : Prop :=
  ∃ path more text bytes, r.arguments = path :: more ∧ Bench.IsSourceOf config m current path text ∧
    Bench.storedBytes text = .ok bytes ∧ r.given = some bytes

namespace Disk

/-- A file is read as it was on a disk on which nothing is gone or changed. -/
theorem readFile_of_kept {d d' : Disk} {here : Location} {path : String} {bytes : List UInt8}
    (hKept : ∀ m node, d.get? m = some node → d'.get? m = some node)
    (h : d.readFile here path = .ok bytes) : d'.readFile here path = .ok bytes := by
  rw [readFile] at h
  split at h
  · cases h
  · cases h
  rename_i l bytes' hStatus
  cases h
  rw [status] at hStatus
  split at hStatus
  · cases hStatus
  rename_i place hPlace
  split at hStatus
  · cases hStatus
  · rename_i hNode
    split at hStatus
    · cases hStatus
    · rename_i hFile
      cases hStatus
      rw [readFile, status, locate_of_folders (fun m => hKept m .folder) hPlace]
      simp only [hKept _ _ hNode, if_neg hFile]
  · cases hStatus

/-- A folder that is made leaves files as they are. -/
theorem keptByFolders_readFile (here : Location) (path : String) (bytes : List UInt8)
    (current : Location) : KeptByFolders (fun d => d.readFile here path = .ok bytes) current := by
  intro d d' folder l hRead hMade
  obtain ⟨-, -, hFree, rfl⟩ := makeFolder_eq_ok hMade
  refine readFile_of_kept (fun m node hNode => ?_) hRead
  rw [get?_put_of_ne d, hNode]
  rintro rfl
  cases hFree.symm.trans hNode

end Disk

namespace Bench

open Registry

/-! ## Compilations -/

/-- Whether all that has been compiled at a bench since an earlier moment has a property. -/
def Compiled (P : ToolRun → Prop) (b b' : Bench) : Prop :=
  ∃ made, b'.runs = b.runs ++ made ∧ ∀ r ∈ made, r.Compiles → P r

section Compiled

variable {P : ToolRun → Prop} {b b₁ b₂ : Bench}

theorem compiled_of_runs_eq (h : b₁.runs = b.runs) : Compiled P b b₁ :=
  ⟨[], by rw [h, List.append_nil], fun _ hr => absurd hr List.not_mem_nil⟩

/-- Work that runs nothing compiles nothing. -/
theorem AfterRuns.compiled {Q : Disk → Prop} (h : AfterRuns b [] Q b₁) : Compiled P b b₁ :=
  compiled_of_runs_eq (by rw [h.runs, List.append_nil])

theorem Compiled.trans (h : Compiled P b b₁) (h' : Compiled P b₁ b₂) : Compiled P b b₂ := by
  obtain ⟨made, hRuns, hMade⟩ := h
  obtain ⟨made', hRuns', hMade'⟩ := h'
  exact ⟨made ++ made', by rw [hRuns', hRuns, List.append_assoc],
    List.forall_mem_append.mpr ⟨hMade, hMade'⟩⟩

theorem Compiled.mono {Q : ToolRun → Prop} (h : Compiled P b b₁) (hPQ : ∀ r, P r → Q r) :
    Compiled Q b b₁ := by
  obtain ⟨made, hRuns, hMade⟩ := h
  exact ⟨made, hRuns, fun r hr hCompiles => hPQ r (hMade r hr hCompiles)⟩

end Compiled

section Builds

variable {b : Bench} {path : String} {bytes : List UInt8}

/-- Whether a run was told of a path first, and was given the bytes of a file there. -/
def Reads (path : String) (bytes : List UInt8) (r : ToolRun) : Prop :=
  (∃ more, r.arguments = path :: more) ∧ r.given = some bytes

/-- The compiler is told of its source first. -/
theorem compilerArguments_source {source output : String} {options : Table}
    {arguments : List String} (h : compilerArguments source output options = .ok arguments) :
    ∃ more, arguments = source :: more := by
  obtain ⟨folders, -, h⟩ := except_bind_eq_ok h
  obtain ⟨items, -, h⟩ := except_bind_eq_ok h
  obtain ⟨includes, -, h⟩ := except_bind_eq_ok h
  obtain ⟨prime, -, h⟩ := except_bind_eq_ok h
  obtain ⟨simplification, -, h⟩ := except_bind_eq_ok h
  obtain ⟨json, -, h⟩ := except_bind_eq_ok h
  cases h
  exact ⟨_, rfl⟩

/-- In a build, the compiler is given the file that is built. -/
theorem build_compiles (config overrides : Value)
    (h : b.disk.readFile b.current path = .ok bytes) :
    Compiled (Reads path bytes) b (endState (build config path overrides b)) := by
  rcases build_cases (Disk.keptByFolders_readFile b.current path bytes) h config overrides path with
    hNone | @⟨r, output, options, hRead, -, hFolder, hArguments, hRan⟩
  · exact hNone.compiled
  refine ⟨[r], hRan.runs, List.forall_mem_singleton.mpr ?_⟩
  rintro ⟨hTool, -⟩
  obtain ⟨more, hFirst⟩ := compilerArguments_source hArguments
  refine ⟨⟨more, hFirst⟩, ?_⟩
  rw [ToolRun.given, hTool, hFirst, hFolder]
  show (r.disk.readFile b.current path).toOption = some bytes
  rw [hRead]
  rfl

end Builds

/-! ## Pipelines -/

section Pipelines

variable {b : Bench}

/-- When a main component is written and built, the compiler is given its source. -/
theorem synthesize_compiles (hPlaced : b.IsPlaced) (config : Table) (m : MainRequest)
    (options : Value) : Compiled (·.ReadsSource config m b.current) b
      (endState (synthesize (.table config) m options (build (.table config)) b)) := by
  obtain ⟨hAdds, hEnds⟩ := prepare_cases hPlaced (.table config) m
  rw [synthesize_eq]
  rcases hEnds with ⟨path, b₁, hEnd, hPrepared⟩ | ⟨e, b₁, hEnd⟩
  · rw [hEnd] at hAdds
    rw [bind_ok hEnd]
    obtain ⟨fields, text, bytes, hFields, hSource, hBytes, hRead, -⟩ := hPrepared.holds
    cases hFields
    rw [← hAdds.current] at hRead
    refine (compiled_of_runs_eq hAdds.runs).trans
      ((build_compiles (.table config) (givenOptions options) hRead).mono ?_)
    rintro r ⟨⟨more, hArguments⟩, hGiven⟩
    exact ⟨path, more, text, bytes, hArguments, hSource, hBytes, hGiven⟩
  · rw [hEnd] at hAdds
    rw [bind_error hEnd]
    exact compiled_of_runs_eq hAdds.runs

/-- Executing a circuit compiles nothing. -/
theorem execute_compiles (P : ToolRun → Prop) (c : Circuit) (inputs : Value) (quiet : Bool) :
    Compiled P b (endState (c.inSession (Session.executeAndReport inputs quiet) b)) := by
  have hSession : endState (c.inSession (Session.executeAndReport inputs quiet) b) =
      (endState (Session.executeAndReport inputs quiet ⟨b, c⟩)).bench := by
    rw [Circuit.inSession]
    cases Session.executeAndReport inputs quiet ⟨b, c⟩ <;> rfl
  rw [hSession]
  refine Session.executeAndReport_end (fun line => preserves_modify fun _ h => h) ?_
  obtain ⟨made, hRuns, hMade⟩ := Session.calculateWitness_commanded inputs true ⟨b, c⟩
  refine ⟨made, hRuns, fun r hr hCompiles => ?_⟩
  rcases hMade with rfl | ⟨r', node, work, rfl, hCommand⟩
  · exact absurd hr List.not_mem_nil
  · obtain rfl := List.mem_singleton.mp hr
    refine absurd ?_ hCompiles.2
    rw [hCommand.arguments]
    exact option_of_outputArgument? (Session.generatorArguments_no_output _ _)

theorem buildAndExecute_compiles (hPlaced : b.IsPlaced) (config : Table) (r : PipelineRequest) :
    Compiled (·.ReadsSource config r.toMainRequest b.current) b
      (endState (buildAndExecute config r b)) := by
  have hStart : AfterWork b [] b := afterRuns_self trivial
  rw [buildAndExecute]
  refine endState_bind (fun e b₁ hFails => ?_) fun _ b₁ hAnnounced => ?_
  · exact ((AfterRuns.announce r).of_error hFails hStart).compiled
  have h₁ := (AfterRuns.announce r).of_ok hAnnounced hStart
  have hBuilt := synthesize_compiles (hPlaced.of_current h₁.current) config r.toMainRequest r.buildOptions
  rw [h₁.current] at hBuilt
  refine h₁.compiled.trans ?_
  refine endState_bind (fun e b₂ hFails => ?_) fun c b₂ hDone => ?_
  · rwa [hFails] at hBuilt
  · rw [hDone] at hBuilt
    exact hBuilt.trans (execute_compiles _ c r.inputs r.quiet)

/-- In a pipeline, the compiler is given the source of the main component that was asked for, however
the pipeline ends. -/
theorem runPipeline_compiles (hPlaced : b.IsPlaced) {config : Table} {r : PipelineRequest}
    (hConfig : pipelineConfig r.config = .ok config) (own : Bool) :
    Compiled (·.ReadsSource config r.toMainRequest b.current) b (endState (runPipeline r own b)) := by
  rw [runPipeline, hConfig, attempt_bind_ok rfl]
  cases own with
  | false => exact buildAndExecute_compiles hPlaced config r
  | true =>
      rw [if_pos rfl, endState_withPrivateRegistry]
      have hPrivate : ({ b with registry := {} } : Bench).IsPlaced := hPlaced
      exact buildAndExecute_compiles hPrivate config r

end Pipelines

end Bench

end CircuitBench
