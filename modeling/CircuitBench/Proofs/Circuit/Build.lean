import CircuitBench.Circuit.Build
import CircuitBench.Proofs.Bench.AfterRuns
import CircuitBench.Template.Synthesis

/-!
# What a build leaves behind

A build runs at most one program, the compiler, and ends well only if that did.  Of the circuit
nothing has been read yet; so what is read of it later stands on the disk that the build has left.

## Main results

* `build_eq_ok` : a build that ends well ran at most one program, which ended well.
* `build_cases` : what a build runs, and what is on the disk then, whatever its end.
* `synthesize_eq_ok` : before a main component is handed to its builder, nothing is run.
-/

namespace CircuitBench.Bench

open CircuitBench.Path

variable {start : Bench} {done : List ToolRun}

/-! ## Compiling -/

/-- Whether some runs are those of one build: at most one, which ended well. -/
structure IsBuild (t : Toolbox) (compiled : List ToolRun) : Prop where
  once : compiled.length ≤ 1
  endedWell : ∀ r ∈ compiled, r.EndedWell t

theorem isBuild_nil (t : Toolbox) : IsBuild t [] :=
  ⟨by simp, by simp⟩

theorem isBuild_singleton {t : Toolbox} {r : ToolRun} (h : r.EndedWell t) :
    IsBuild t [r] :=
  ⟨by simp, by simpa using h⟩

theorem AfterRuns.reportCompilation {P : Disk → Prop} (options : Table) (o : Outcome) :
    Preserves (AfterRuns start done P) (Bench.reportCompilation options o) := by
  refine (preserves_attempt _).bind fun verbose => ?_
  refine Preserves.ite ?_ (preserves_pure _)
  exact Preserves.ite (preserves_pure _) (inform _ _)

theorem judgeCompilation_eq_ok {circuitPath : String} {o : Outcome} {b b' : Bench}
    (h : judgeCompilation circuitPath o b = .ok () b') : o.exitCode = 0 ∧ b = b' := by
  rw [judgeCompilation] at h
  split at h
  · rename_i hZero
    cases h
    exact ⟨hZero, rfl⟩
  · cases h

/-- A compilation that ends well is one run that ended well. -/
theorem compile_eq_ok {circuitPath output : String} {options : Table} {b b' : Bench}
    (hStart : AfterRuns start done Disk.IsTree b)
    (h : compile circuitPath output options b = .ok () b') :
    ∃ r : ToolRun, AfterRuns start (done ++ [r]) Disk.IsTree b' ∧
      r.EndedWell start.toolbox := by
  rw [compile] at h
  obtain ⟨circom, b₁, hProgram, h⟩ := bind_eq_ok h
  have h₁ := (AfterRuns.requireProgram _ _ _).of_ok hProgram hStart
  obtain ⟨arguments, b₂, hArguments, h⟩ := bind_eq_ok h
  obtain ⟨-, rfl⟩ := attempt_eq_ok hArguments
  obtain ⟨o, b₃, hRun, h⟩ := bind_eq_ok h
  obtain ⟨r, h₃, hEnded⟩ := h₁.run_tree hRun
  obtain ⟨_, b₄, hReport, h⟩ := bind_eq_ok h
  have h₄ := (AfterRuns.reportCompilation _ _).of_ok hReport h₃
  obtain ⟨hZero, rfl⟩ := judgeCompilation_eq_ok h
  exact ⟨r, h₄, hEnded hZero⟩

/-! ## Building -/

theorem AfterRuns.outputFolder {P : Disk → Prop}
    (hFolders : ∀ current, Disk.KeptByFolders P current) (options : Table) :
    Preserves (AfterRuns start done P) (Bench.outputFolder options) := by
  refine (preserves_attempt _).bind fun given => ?_
  refine Preserves.ite ?_ ?_
  · exact (preserves_attempt _).bind fun path => preserves_pure _
  · exact (openFolder hFolders _ _).bind fun path => preserves_pure _

theorem preserves_allExist {P : Bench → Prop} (paths : List String) :
    Preserves P (allExist paths) := by
  induction paths with
  | nil => exact preserves_pure true
  | cons path rest ih =>
      refine (preserves_ask _).bind fun there => ?_
      exact Preserves.ite ih (preserves_pure false)

theorem preserves_canReuse {P : Bench → Prop} (options : Table) (c : Circuit) :
    Preserves P (canReuse options c) := by
  refine (preserves_attempt _).bind fun recompile => ?_
  exact Preserves.ite (preserves_pure false) (preserves_allExist _)

/-- A build that ends well ran at most one program, which ended well, and has read nothing of its
circuit. -/
theorem build_eq_ok {config overrides : Value} {circuitPath : String} {c : Circuit} {b b' : Bench}
    (hStart : AfterRuns start done Disk.IsTree b)
    (h : build config circuitPath overrides b = .ok c b') :
    ∃ compiled, AfterRuns start (done ++ compiled) Disk.IsTree b' ∧ IsBuild start.toolbox compiled ∧
      c.constraints = none ∧ c.symbols = none := by
  rw [build] at h
  obtain ⟨options, b₁, hOptions, h⟩ := bind_eq_ok h
  obtain ⟨-, rfl⟩ := attempt_eq_ok hOptions
  obtain ⟨⟨output, owned⟩, b₂, hOutput, h⟩ := bind_eq_ok h
  have h₂ := (AfterRuns.outputFolder Disk.keptByFolders_isTree _).of_ok hOutput hStart
  obtain ⟨_, b₃, hFolders, h⟩ := bind_eq_ok h
  have h₃ := (AfterRuns.makeFolders Disk.keptByFolders_isTree _).of_ok hFolders h₂
  obtain ⟨reuse, b₄, hReuse, h⟩ := bind_eq_ok h
  have h₄ := (preserves_canReuse _ _).of_ok hReuse h₃
  split at h
  · obtain ⟨_, b₅, hInform, h⟩ := bind_eq_ok h
    have h₅ := (AfterRuns.inform _ _).of_ok hInform h₄
    obtain ⟨rfl, rfl⟩ := pure_eq_ok h
    exact ⟨[], by rwa [List.append_nil], isBuild_nil _, rfl, rfl⟩
  · obtain ⟨_, b₅, hCompile, h⟩ := bind_eq_ok h
    obtain ⟨r, h₅, hEnded⟩ := compile_eq_ok h₄ hCompile
    obtain ⟨rfl, rfl⟩ := pure_eq_ok h
    exact ⟨[r], h₅, isBuild_singleton hEnded, rfl, rfl⟩

/-- How a bench is left by a build: nothing has been run, and something is known of the disk; or that
was known until one program was run in the current folder, to compile the source. -/
inductive BuildEnd (start : Bench) (P : Disk → Prop) (source : String) (b : Bench) : Prop
  | unrun (after : AfterRuns start [] P b)
  | ran {r : ToolRun} {output : String} {options : Table} (before : P r.disk)
      (isOf : r.IsOf start.toolbox) (folder : r.folder = start.current)
      (arguments : compilerArguments source output options = .ok r.arguments)
      (after : AfterRuns start [r] (· = r.after) b)

section Ends

variable {P : Disk → Prop} {b : Bench}

/-- A compilation runs a program or none, and nothing is done to the disk before. -/
theorem compile_cases (source output : String) (options : Table) (h : AfterRuns start [] P b) :
    BuildEnd start P source (endState (compile source output options b)) := by
  rw [compile]
  refine endState_requireProgram_bind (.unrun h) fun circom _ => ?_
  refine endState_attempt_bind (.unrun h) fun arguments hArguments => ?_
  refine endState_bind (fun e b₁ hFails => ?_) fun o b₁ hRun => ?_
  · rw [run_eq_error hFails]
    exact .unrun h
  obtain ⟨r, hFolder, rfl, hDisk, hOf, -, h₁⟩ := h.run hRun
  have hHere : r.folder = start.current := by
    rw [← h.current]
    exact (Except.ok.inj hFolder).symm
  have hJudge : Preserves (AfterRuns start [r] (· = r.after)) (judgeCompilation source o) :=
    Preserves.ite (preserves_pure _) (preserves_throw _)
  have hBefore : P r.disk := by
    rw [hDisk]
    exact h.disk
  exact .ran hBefore hOf hHere hArguments
    (((AfterRuns.reportCompilation options o).bind fun _ => hJudge) b₁ h₁)

/-- A build runs a program or none, and before that the disk keeps what is kept when folders are
made. -/
theorem build_cases (hFolders : ∀ current, Disk.KeptByFolders P current) (hDisk : P b.disk)
    (config overrides : Value) (source : String) :
    BuildEnd b P source (endState (build config source overrides b)) := by
  have hStart : AfterRuns b [] P b := afterRuns_self hDisk
  rw [build]
  refine endState_attempt_bind (.unrun hStart) fun options _ => ?_
  refine endState_bind (fun e b₁ hFails => ?_) fun output b₁ hOutput => ?_
  · exact .unrun ((AfterRuns.outputFolder hFolders options).of_error hFails hStart)
  have h₁ := (AfterRuns.outputFolder hFolders options).of_ok hOutput hStart
  refine endState_bind (fun e b₂ hFails => ?_) fun _ b₂ hMade => ?_
  · exact .unrun ((AfterRuns.makeFolders hFolders _).of_error hFails h₁)
  have h₂ := (AfterRuns.makeFolders hFolders _).of_ok hMade h₁
  refine endState_bind (fun e b₃ hFails => ?_) fun reuse b₃ hReuse => ?_
  · exact .unrun ((preserves_canReuse _ _).of_error hFails h₂)
  have h₃ := (preserves_canReuse _ _).of_ok hReuse h₂
  split
  · exact .unrun (((AfterRuns.inform _ _).bind fun _ => preserves_pure _) b₃ h₃)
  · have hCompiled := compile_cases source output.1 options h₃
    refine endState_bind (fun e b₄ hFails => ?_) fun _ b₄ hDone => ?_
    · rwa [hFails] at hCompiled
    · rwa [hDone] at hCompiled

end Ends

/-- Behind the choice of its folder, a build that ends well gives the circuit of its source there. -/
theorem ofPaths_of_buildInto {circuitPath output : String} {options : Table} {owned : Bool}
    {c : Circuit} {b b' : Bench}
    (h : (do
      if ← canReuse options (Circuit.ofPaths circuitPath output (.table options) owned) then
        inform buildLogger ("reusing compiled artifacts in " ++ output)
      else
        compile circuitPath output options
      return Circuit.ofPaths circuitPath output (.table options) owned) b = .ok c b') :
    c = Circuit.ofPaths circuitPath output (.table options) owned := by
  obtain ⟨reuse, b₁, -, h⟩ := bind_eq_ok h
  split at h
  · obtain ⟨_, b₂, -, h⟩ := bind_eq_ok h
    exact (pure_eq_ok h).1.symm
  · obtain ⟨_, b₂, -, h⟩ := bind_eq_ok h
    exact (pure_eq_ok h).1.symm

/-- Whatever the bench, a build that ends well gives the circuit of its source in some folder, with
the options that were asked for. -/
theorem ofPaths_of_build {config overrides : Value} {circuitPath : String} {c : Circuit}
    {b b' : Bench} (h : build config circuitPath overrides b = .ok c b') :
    ∃ (output : String) (options : Table) (owned : Bool),
      Settings.resolve config overrides = .ok options ∧
      c = Circuit.ofPaths circuitPath output (.table options) owned := by
  rw [build] at h
  obtain ⟨options, b₁, hOptions, h⟩ := bind_eq_ok h
  obtain ⟨hResolved, rfl⟩ := attempt_eq_ok hOptions
  obtain ⟨⟨output, owned⟩, b₂, -, h⟩ := bind_eq_ok h
  obtain ⟨_, b₃, -, h⟩ := bind_eq_ok h
  exact ⟨output, options, owned, hResolved, ofPaths_of_buildInto h⟩

/-! ## Main components -/

theorem AfterRuns.writeMain (config : Value) (r : MainRequest) :
    Preserves (AfterRuns start done Disk.IsTree) (Bench.writeMain config r) := by
  refine (preserves_attempt _).bind fun fields => ?_
  refine (preserves_attempt _).bind fun around => ?_
  refine (openFile _ _ _).bind fun path => ?_
  refine preserves_get.bind fun b => ?_
  exact (store (fun hTree hWritten => hTree.writeFile hWritten) _).bind fun _ => preserves_pure path

/-- A main component is handed to its builder, if anything comes of it. -/
theorem builder_of_synthesize {α : Type} {config buildOptions : Value} {r : MainRequest}
    {builder : String → Value → Action α} {a : α} {b b' : Bench}
    (h : synthesize config r buildOptions builder b = .ok a b') :
    ∃ path options b₁, builder path options b₁ = .ok a b' := by
  rw [synthesize] at h
  obtain ⟨template, b₁, -, h⟩ := bind_eq_ok h
  obtain ⟨_, b₂, -, h⟩ := bind_eq_ok h
  obtain ⟨path, b₃, -, h⟩ := bind_eq_ok h
  split at h
  · exact ⟨path, _, b₃, h⟩
  · exact ⟨path, _, b₃, h⟩

/-- Before a main component is handed to its builder, nothing is run. -/
theorem synthesize_eq_ok {α : Type} {config buildOptions : Value} {r : MainRequest}
    {builder : String → Value → Action α} {a : α} {b b' : Bench}
    (hStart : AfterRuns start done Disk.IsTree b)
    (h : synthesize config r buildOptions builder b = .ok a b') :
    ∃ path options b₁, AfterRuns start done Disk.IsTree b₁ ∧
      builder path options b₁ = .ok a b' := by
  rw [synthesize] at h
  obtain ⟨template, b₁, hTemplate, h⟩ := bind_eq_ok h
  obtain ⟨-, rfl⟩ := attempt_eq_ok hTemplate
  obtain ⟨_, b₂, hInform, h⟩ := bind_eq_ok h
  have h₂ := (AfterRuns.inform _ _).of_ok hInform hStart
  obtain ⟨path, b₃, hWrite, h⟩ := bind_eq_ok h
  have h₃ := (AfterRuns.writeMain _ _).of_ok hWrite h₂
  split at h
  · exact ⟨path, _, b₃, h₃, h⟩
  · exact ⟨path, _, b₃, h₃, h⟩

end CircuitBench.Bench
