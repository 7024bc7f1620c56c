import CircuitBench.Pipeline.Run
import CircuitBench.Proofs.Circuit.Build
import CircuitBench.Proofs.Circuit.Check
import CircuitBench.Proofs.Circuit.Inputs
import CircuitBench.Proofs.Circuit.Witness
import CircuitBench.Tool.Acts

/-!
# A returned witness is a sound one

Nothing is assumed of the programs that build and run a circuit but that they write where they are
told to: they may end in any way and write anything there, in every run as they please.  All the
same, a pipeline that returns a witness has run them with success, has read the witness from the file
that the interpreter wrote, and has found it to satisfy the constraints that it read.  Malformed files
do not get that far, whatever is wrong with them.

The disk is taken to be a tree, as any file system is: no file lies in a folder that is not there.

## Main results

* `Session.executeAndReport_eq_ok` : what an execution that ends well has read, run and checked.
* `Bench.runPipeline_sound` : the same of a whole pipeline, from the template to the witness.
-/

namespace CircuitBench

open Bench

/-! ## Executing -/

/-- What an execution has read and run on the way to a witness. -/
structure Execution where
  system : ConstraintSystem
  symbols : SymbolTable
  generated : ToolRun
  file : WitnessFile

/-- What makes an execution of a circuit on inputs a sound one, with a toolbox at a bench that a
build has left: its constraints and symbols were read there; the inputs name exactly those of the
main component; the interpreter ended well and wrote the witness file, of which the witness is the
values; and the witness has one value for each wire and satisfies the constraints, as equations
between residues, which look at no other wires. -/
structure Execution.IsSound (x : Execution) (t : Toolbox) (c : Circuit) (inputs : Value)
    (built : Bench) (witness : List Nat) : Prop where
  constraints : readConstraints c.constraintsPath.text built = .ok x.system built
  symbols : readSymbols c.symbolsPath.text built = .ok x.symbols built
  inputs : ∃ entries, inputs.items = .ok entries ∧ (∀ e ∈ entries, e.1.text? ≠ none) ∧
    ∀ name, GivesName entries name ↔ IsMainInput x.symbols x.system.toConstraintHeader name
  generated : Session.Wrote t x.generated x.file
  values : witness = x.file.values
  length : witness.length = x.system.wires
  prime : 2 ≤ x.system.prime
  within : ∀ k ∈ x.system.constraints, k.Within witness.length
  satisfies : x.system.Satisfies (witness.map Int.ofNat)

namespace Session

/-! ### Summaries -/

section Summaries

variable {P : Bench → Prop} (hPrint : ∀ line, Preserves P (Bench.printLine line))

include hPrint

/-- A summary preserves what does not depend on what was printed. -/
theorem preserves_printSummary (witness : List Nat) (v : Value) :
    Preserves (fun s : Session => P s.bench)
      (printSummary printLine (some (Session.listing witness)) v) := by
  have hLine : ∀ line, Preserves (fun s : Session => P s.bench) (printLine line) :=
    fun line => preserves_onBench (hPrint line)
  have hListing : Preserves (fun s : Session => P s.bench) (Session.listing witness) := by
    refine Preserves.bind ?_ fun text => preserves_pure _
    exact preserves_loadSymbols.bind fun symbols => preserves_attempt _
  refine (hLine _).bind fun _ => hListing.bind fun list => ?_
  split
  · exact (hLine _).bind fun _ => hLine _
  · exact (preserves_throw _).bind fun _ => hLine _

/-- What comes behind the work on a witness preserves it too. -/
theorem executeAndReport_end {inputs : Value} {quiet : Bool} {s : Session}
    (h : P (endState (calculateWitness inputs true s)).bench) :
    P (endState (executeAndReport inputs quiet s)).bench := by
  have hCheck : ∀ witness, Preserves (fun s : Session => P s.bench)
      (operations.checkConstraints witness) := by
    intro witness
    refine preserves_loadConstraints.bind fun system => ?_
    exact Preserves.bind (fun s hs => hs) fun c => preserves_attempt _
  have hLoad : Preserves (fun s : Session => P s.bench) operations.loadSymbols :=
    preserves_loadSymbols.bind fun symbols => preserves_pure ()
  have hExecuted : P (endState (execute inputs s)).bench := by
    apply endState_bind (P := fun s' : Session => P s'.bench)
    · intro e s₁ hFails
      rwa [show calculateWitness inputs true s = _ from hFails] at h
    · intro witness s₁ hComputed
      rw [show calculateWitness inputs true s = _ from hComputed] at h
      exact ((hCheck witness).bind fun _ => hLoad.bind fun _ => preserves_pure witness) s₁ h
  apply endState_bind (P := fun s' : Session => P s'.bench)
  · intro e s₁ hFails
    rwa [hFails] at hExecuted
  · intro witness s₁ hEnd
    rw [hEnd] at hExecuted
    revert hExecuted
    apply Preserves.ite (P := fun s' : Session => P s'.bench) (preserves_pure witness)
    refine Preserves.bind (preserves_onBench (hPrint _)) fun _ => ?_
    exact (preserves_printSummary hPrint witness _).bind fun _ => preserves_pure witness

end Summaries

/-- Printing runs nothing. -/
theorem hasRun_printLine {runs : List ToolRun} (line : String) :
    Preserves (HasRun runs) (Bench.printLine line) :=
  preserves_modify fun _ h => h

/-! ### Soundness -/

/-- An execution that ends well is a sound one, and has run one program. -/
theorem execute_eq_ok {start : Bench} {done : List ToolRun} {inputs : Value} {witness : List Nat}
    {s s' : Session} (hStart : AfterRuns start done Disk.IsTree s.bench)
    (hConstraints : s.circuit.constraints = none) (hSymbols : s.circuit.symbols = none)
    (h : execute inputs s = .ok witness s') :
    ∃ x : Execution, x.IsSound start.toolbox s.circuit inputs s.bench witness ∧
      HasRun (start.runs ++ (done ++ [x.generated])) s'.bench := by
  obtain ⟨computed, s₁, hCalculate, h⟩ := bind_eq_ok h
  obtain ⟨system, symbols, r, q, hSystem, hTable, hInputs, hWrote, hLength, hRuns, hKept⟩ :=
    calculateWitness_eq_ok hStart hConstraints hSymbols hCalculate
  obtain ⟨_, s₂, hCheck, h⟩ := bind_eq_ok h
  rw [
    show operations.checkConstraints computed = checkConstraints (computed.map Int.ofNat) from rfl,
    checkConstraints_of_load (loadConstraints_of_some hKept)] at hCheck
  obtain ⟨hChecked, rfl⟩ := attempt_eq_ok hCheck
  obtain ⟨_, s₃, hLoad, h⟩ := bind_eq_ok h
  have hRuns' : HasRun (start.runs ++ (done ++ [r])) s₃.bench := by
    have hKeeps : Preserves (fun s : Session => HasRun (start.runs ++ (done ++ [r])) s.bench)
        operations.loadSymbols := preserves_loadSymbols.bind fun _ => preserves_pure _
    exact hKeeps.of_ok hLoad hRuns
  obtain ⟨rfl, rfl⟩ := pure_eq_ok h
  obtain ⟨⟨bytes, -, hParsed⟩, -⟩ := readConstraints_eq_ok hSystem
  have hNonneg := ConstraintSystem.support_nonneg_of_read hParsed
  obtain ⟨hPrime, -, hWithin, hSatisfies⟩ := checkWitness_sound hNonneg hChecked
  rw [List.length_map] at hWithin
  exact ⟨⟨system, symbols, r, ⟨q, computed⟩⟩,
    ⟨hSystem, hTable, (checkInputs_eq_ok_iff _ _ _).mp hInputs, hWrote,
    rfl, hLength, hPrime, hWithin, hSatisfies⟩, hRuns'⟩

/-- A summary takes nothing away from an execution. -/
theorem executeAndReport_eq_ok {start : Bench} {done : List ToolRun} {inputs : Value} {quiet : Bool}
    {witness : List Nat} {s s' : Session} (hStart : AfterRuns start done Disk.IsTree s.bench)
    (hConstraints : s.circuit.constraints = none) (hSymbols : s.circuit.symbols = none)
    (h : executeAndReport inputs quiet s = .ok witness s') :
    ∃ x : Execution, x.IsSound start.toolbox s.circuit inputs s.bench witness ∧
      HasRun (start.runs ++ (done ++ [x.generated])) s'.bench := by
  obtain ⟨executed, s₁, hExecute, h⟩ := bind_eq_ok h
  obtain ⟨x, hSound, hRuns⟩ := execute_eq_ok hStart hConstraints hSymbols hExecute
  split at h
  · obtain ⟨rfl, rfl⟩ := pure_eq_ok h
    exact ⟨x, hSound, hRuns⟩
  · obtain ⟨_, s₂, hPrint, h⟩ := bind_eq_ok h
    have h₂ := (preserves_onBench (hasRun_printLine _)).of_ok hPrint hRuns
    obtain ⟨_, s₃, hSummary, h⟩ := bind_eq_ok h
    have h₃ := (preserves_printSummary hasRun_printLine _ _).of_ok hSummary h₂
    obtain ⟨rfl, rfl⟩ := pure_eq_ok h
    exact ⟨x, hSound, h₃⟩

end Session

/-! ## The pipeline -/

namespace Bench

/-- Cleaning up runs nothing. -/
theorem cleanUp_runs {runs : List ToolRun} :
    Preserves (HasRun runs) (do let _ ← cleanUp; return ()) := by
  refine Preserves.bind ?_ fun _ => preserves_pure _
  exact fun b h => h

/-- Announcing a build runs nothing. -/
theorem AfterRuns.announce {start : Bench} {done : List ToolRun} {P : Disk → Prop}
    (r : PipelineRequest) : Preserves (AfterRuns start done P) (Bench.announce r) := by
  rw [Bench.announce]
  refine Preserves.ite (preserves_pure _) ?_
  refine (preserves_attempt _).bind fun template => ?_
  exact (preserves_attempt _).bind fun file => print _

/-- Whether a circuit was built for a request under a configuration: its main component was
announced, written and built, and the compiler was run at most once, and well. -/
structure IsBuiltFor (config : Table) (r : PipelineRequest) (b : Bench) (compiled : List ToolRun)
    (c : Circuit) (built : Bench) : Prop where
  build : (do
    announce r
    synthesize (.table config) r.toMainRequest r.buildOptions (build (.table config))) b =
    .ok c built
  runs : built.runs = b.runs ++ compiled
  compiled : IsBuild b.toolbox compiled

/-- A pipeline that ends well has built a circuit and executed it soundly. -/
theorem buildAndExecute_eq_ok {config : Table} {r : PipelineRequest} {witness : List Nat}
    {b b' : Bench} (hTree : b.disk.IsTree) (h : buildAndExecute config r b = .ok witness b') :
    ∃ (compiled : List ToolRun) (c : Circuit) (built : Bench) (x : Execution),
      IsBuiltFor config r b compiled c built ∧ x.IsSound b.toolbox c r.inputs built witness ∧
      HasRun (b.runs ++ compiled ++ [x.generated]) b' := by
  obtain ⟨_, b₁, hAnnounce, h⟩ := bind_eq_ok h
  have h₁ := (AfterRuns.announce r).of_ok hAnnounce (afterRuns_self hTree)
  obtain ⟨c, built, hSynthesize, h⟩ := bind_eq_ok h
  obtain ⟨path, options, b₂, h₂, hBuild⟩ := synthesize_eq_ok h₁ hSynthesize
  obtain ⟨compiled, h₃, hCompiled, hConstraints, hSymbols⟩ := build_eq_ok h₂ hBuild
  rw [List.nil_append] at h₃
  rw [Circuit.inSession] at h
  split at h
  · rename_i s hExecute
    cases h
    obtain ⟨x, hSound, hRuns⟩ := Session.executeAndReport_eq_ok h₃ hConstraints hSymbols hExecute
    rw [← List.append_assoc] at hRuns
    refine ⟨compiled, c, built, x, ⟨?_, h₃.runs, hCompiled⟩, hSound, hRuns⟩
    rw [bind_ok hAnnounce, hSynthesize]
  · cases h

/-- A pipeline that returns a witness is sound, whatever the programs did that it ran: the circuit
was built, with success if the compiler was run; the interpreter was run once, with success, and
wrote the witness file that the witness was read from; the inputs name exactly those of the main
component; and the witness has a value for each wire, carries one on wire zero and satisfies every
constraint. -/
theorem runPipeline_sound {r : PipelineRequest} {own : Bool} {witness : List Nat} {b b' : Bench}
    (hTree : b.disk.IsTree) (h : runPipeline r own b = .ok witness b') :
    ∃ (config : Table) (compiled : List ToolRun) (c : Circuit) (built : Bench) (x : Execution),
      pipelineConfig r.config = .ok config ∧
      IsBuiltFor config r (if own then { b with registry := {} } else b) compiled c built ∧
      x.IsSound b.toolbox c r.inputs built witness ∧
      b'.runs = b.runs ++ compiled ++ [x.generated] := by
  obtain ⟨config, b₁, hConfig, h⟩ := bind_eq_ok h
  obtain ⟨hResolved, rfl⟩ := attempt_eq_ok hConfig
  refine ⟨config, ?_⟩
  cases own with
  | false =>
      obtain ⟨compiled, c, built, x, hBuilt, hSound, hRuns⟩ := buildAndExecute_eq_ok hTree h
      exact ⟨compiled, c, built, x, hResolved, hBuilt, hSound, hRuns⟩
  | true =>
      have hPrivate : withPrivateRegistry (buildAndExecute config r) b = .ok witness b' := h
      rw [withPrivateRegistry] at hPrivate
      split at hPrivate
      · rename_i b₂ hWork
        cases hPrivate
        obtain ⟨b₃, hExecute, hCleanUp⟩ := ensuring_eq_ok hWork
        obtain ⟨compiled, c, built, x, hBuilt, hSound, hRuns⟩ :=
          buildAndExecute_eq_ok (by exact hTree) hExecute
        have hEnd := cleanUp_runs.of_ok hCleanUp hRuns
        exact ⟨compiled, c, built, x, hResolved, hBuilt, hSound, hEnd⟩
      · cases hPrivate

/-- A compilation of a circuit that squares its input `a` into its output `c`, over the residues of
seven. -/
def squareCompilation : CompilerAct where
  constraints := some (Container.encode constraintMagic ⟨1, [
    (1, ConstraintHeader.encode ⟨7, 1, 3, 1, 0, 1, 3, 1⟩),
    (2, ConstraintTerms.encode 1 ⟨[(2, 1)], [(2, 1)], [(1, 1)]⟩)]⟩)
  symbols := some (Text.Utf8.encode "1,1,0,main.c\n2,2,0,main.a\n")
  program := some []

/-- A generation of a witness for that circuit, with two as the square of three. -/
def squareGeneration : GeneratorAct where
  witness := some (Container.encode witnessMagic ⟨2, [
    (1, encodeWitnessHeader 8 7 3), (2, encodeElements 8 [1, 2, 3])]⟩)

/-- A toolbox with which every circuit is that one, and every witness is that one. -/
def squareTools : Toolbox where
  folder := ["bin"]
  circom := some (compiler fun _ => squareCompilation)
  node := some (interpreter fun _ => squareGeneration)

/-- A bench with that toolbox and a folder for temporary files. -/
def squareBench : Bench where
  disk :=
    ⟨[(["tmp"], .folder), (["bin"], .folder), (["bin", "circom"], .file []),
      (["bin", "node"], .file [])]⟩
  toolbox := squareTools

/-- A pipeline from a template to the square of ten. -/
def squareRequest : PipelineRequest where
  templateFile := .text "square.circom"
  template := .text "Square"
  inputs := .table [(.text "a", .int 10)]
  quiet := true

/-- The pipeline returns the witness for three, the residue of ten, and that is a sound one. -/
theorem runPipeline_square :
    ∃ (compiled : List ToolRun) (x : Execution) (b' : Bench),
      runPipeline squareRequest true squareBench = .ok [1, 2, 3] b' ∧
      b'.runs = compiled ++ [x.generated] ∧ x.generated.tool = .node ∧
      x.system.Satisfies [1, 2, 3] := by
  have hTree : squareBench.disk.IsTree := Disk.isTree_of_nodes (by decide)
  have hWitness :
      (outcome (runPipeline squareRequest true) squareBench).1.toOption = some [1, 2, 3] := by
    decide +kernel
  obtain ⟨b', hRun⟩ := ok_of_outcome hWitness
  obtain ⟨config, compiled, c, built, x, -, -, hSound, hRuns⟩ := runPipeline_sound hTree hRun
  exact ⟨compiled, x, b', hRun, hRuns, hSound.generated.tool, hSound.satisfies⟩

end Bench

end CircuitBench
