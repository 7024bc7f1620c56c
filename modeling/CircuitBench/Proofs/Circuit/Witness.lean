import CircuitBench.Circuit.Witness
import CircuitBench.Proofs.Bench.AfterRuns
import CircuitBench.Proofs.Circuit.Files

/-!
# Where a computed witness comes from

A witness is read from a file in a fresh work folder.  The folder was not there before, so nothing
lies in it; the input document brings no file of that name with it; and the file is there after the
run.  So it was written by the program that was run, and by the interpreter, since the compiler
writes nothing without being told where.

The path of the file is followed twice: by the program, from its own folder, and by the library,
from the current one.  Should the two lead to different places, no witness is found.

## Main results

* `openFolder_eq_ok` : nothing lies in a fresh folder.
* `computeWitness_eq_ok` : a witness that is computed was written by the interpreter in a run that
  ended well.
* `calculateWitness_eq_ok` : under the strict check, the inputs fit the circuit and so does the
  witness.
-/

namespace CircuitBench

open CircuitBench.Path

namespace Bench

variable {start : Bench} {done : List ToolRun}

/-- Nothing lies in a fresh folder. -/
theorem openFolder_eq_ok {lead : String} {asked : Option String} {path : String} {b b' : Bench}
    (hStart : AfterRuns start done Disk.IsTree b) (h : openFolder lead asked b = .ok path b')
    (name : String) :
    AfterRuns start done (Disk.NoFileAt (resolve start.current path ++ [name])) b' := by
  have hEnd := (AfterRuns.openFolder Disk.keptByFolders_isTree lead asked).of_ok h hStart
  obtain ⟨b₀, b₁, hGet, h⟩ := bind_eq_ok h
  cases hGet
  obtain ⟨created, b₂, hCreated, h⟩ := bind_eq_ok h
  obtain ⟨n, l, d, hPath, hMade, hDisk⟩ := create_eq_ok hCreated
  obtain ⟨_, b₃, hTrack, h⟩ := bind_eq_ok h
  cases hTrack
  obtain ⟨rfl, rfl⟩ := pure_eq_ok h
  refine ⟨hEnd.toolbox, hEnd.current, hEnd.runs, ?_⟩
  obtain ⟨hPlace, -, hFree, hPut⟩ := Disk.makeFolder_eq_ok hMade
  rw [hStart.current] at hPlace
  have hBelow := hStart.disk.get?_below hFree name
  have hOther : l ++ [name] ≠ l := by simp
  show Disk.NoFileAt (resolve start.current created ++ [name]) b₂.disk
  rw [← hPlace, hDisk, hPut]
  intro bytes hFile
  rw [Disk.get?_put_of_ne _ hOther, hBelow] at hFile
  cases hFile

end Bench

namespace Session

open Bench

variable {start : Bench} {done : List ToolRun}

/-! ## The work folder -/

/-- The last name of a path is the end of its text. -/
private theorem text_child_eq_append (p : FilePath) (name : String) :
    ∃ front, (p.child name).text = front ++ name := by
  have hText : (p.child name).text = p.root ++ "/".intercalate (p.parts ++ [name]) := by
    rw [FilePath.text, if_neg]
    · rfl
    · simp [FilePath.child]
  by_cases hParts : p.parts = []
  · exact ⟨p.root, by rw [hText, hParts, List.nil_append, String.intercalate_singleton]⟩
  · refine ⟨p.root ++ ("/".intercalate p.parts ++ "/"), ?_⟩
    rw [hText, String.intercalate_append_of_ne_nil hParts (by simp), String.intercalate_singleton,
      ← String.append_assoc]

private theorem text_child_ne_option (p : FilePath) {name : String}
    (hLong : 2 < name.toList.length) :
    (p.child name).text ≠ "-o" := by
  obtain ⟨front, hText⟩ := text_child_eq_append p name
  intro hSame
  have hLength := congrArg (fun s : String => s.toList.length) (hText.symm.trans hSame)
  have hOption : "-o".toList.length = 2 := rfl
  simp only [String.toList_append, List.length_append, hOption] at hLength
  omega

/-- A witness program is not told of any output folder. -/
theorem generatorArguments_no_output (c : Circuit) (work : String) :
    outputArgument? (generatorArguments c work) = none := by
  have hScript : c.scriptPath.text ≠ "-o" := text_child_ne_option _ (by decide)
  have hProgram : c.programPath.text ≠ "-o" := by
    refine text_child_ne_option _ ?_
    rw [String.toList_append, List.length_append]
    have hEnding : ".wasm".toList.length = 5 := rfl
    omega
  have hInput : (inputFile work).text ≠ "-o" := text_child_ne_option _ (by decide)
  simp only [generatorArguments, outputArgument?, argumentAfter?, if_neg hScript, if_neg hProgram,
    if_neg hInput]

theorem ofString_inputFile (work : String) :
    FilePath.ofString (inputFile work).text = inputFile work :=
  FilePath.ofString_child (FilePath.spelled_ofString work) ⟨by decide, by decide, by decide⟩
    (by decide)

/-- The input document leaves the place of the witness free. -/
theorem writeInput_preserves (work : String) (folder : Location) (document : Value) :
    Preserves (AfterRuns start done (Disk.NoFileAt (folder ++ ["witness.wtns"])))
      (writeDocument (inputFile work).text document documentIndent) := by
  have hSpelled := (FilePath.spelled_ofString work).child (n := "input.json")
    ⟨by decide, by decide, by decide⟩
    (by decide)
  exact AfterRuns.writeDocument hSpelled rfl ⟨by decide, by decide, by decide⟩ (by decide)
    document documentIndent

/-! ## Computing -/

/-- What a run of a program has given: which program was run, that it ended well, and the witness
that it wrote to the file that it was told of. -/
structure Wrote (t : Toolbox) (r : ToolRun) (file : WitnessFile) : Prop where
  tool : r.tool = .node
  endedWell : r.EndedWell t
  wrote : ∃ path bytes, .file path bytes ∈ r.conduct.deeds ∧ r.arguments[3]? = some path ∧
    r.disk.NoFileAt (resolve r.folder path) ∧
    r.after.get? (resolve r.folder path) = some (.file bytes) ∧
    WitnessFile.read path bytes = .ok file

theorem requireWitness_eq_ok {c : Circuit} {work : String} {o : Outcome} {b b' : Bench}
    (h : requireWitness c work o b = .ok () b') : o.exitCode = 0 ∧ b = b' := by
  rw [requireWitness] at h
  split at h
  · cases h
  · rename_i hZero
    obtain ⟨there, b₁, hThere, h⟩ := bind_eq_ok h
    obtain ⟨-, rfl⟩ := ask_eq_ok hThere
    split at h
    · obtain ⟨-, rfl⟩ := pure_eq_ok h
      exact ⟨Classical.not_not.mp hZero, rfl⟩
    · cases h

/-- A witness that is generated in a work folder where none was is one that the interpreter wrote in
a run that ended well. -/
theorem generate_eq_ok {c : Circuit} {node : Program} {work : String} {prime : Int} {inputs : Value}
    {values : List Nat} {b b' : Bench}
    (hStart :
      AfterRuns start done (Disk.NoFileAt (resolve start.current work ++ ["witness.wtns"])) b)
    (h : generate c node work prime inputs b = .ok values b') :
    ∃ r q, Wrote start.toolbox r ⟨q, values⟩ ∧
      AfterRuns start (done ++ [r]) (fun _ => True) b' := by
  rw [generate] at h
  obtain ⟨document, b₁, hDocument, h⟩ := bind_eq_ok h
  obtain ⟨-, rfl⟩ := attempt_eq_ok hDocument
  obtain ⟨_, b₂, hWrite, h⟩ := bind_eq_ok h
  have h₂ := (writeInput_preserves work _ document).of_ok hWrite hStart
  obtain ⟨o, b₃, hRun, h⟩ := bind_eq_ok h
  obtain ⟨r, -, hArguments, hDisk, hOf, rfl, h₃⟩ := h₂.run hRun
  obtain ⟨_, b₄, hRequire, h⟩ := bind_eq_ok h
  obtain ⟨hZero, rfl⟩ := requireWitness_eq_ok hRequire
  obtain ⟨file, b₅, hRead, h⟩ := bind_eq_ok h
  obtain ⟨⟨bytes, hBytes, hFile⟩, rfl⟩ := readWitness_eq_ok hRead
  obtain ⟨rfl, rfl⟩ := pure_eq_ok h
  -- the file is read where the work folder was made
  have hPlace := Disk.readFile_eq_ok hBytes
  rw [h₃.current, witnessFile, FilePath.resolve_child _ _ ⟨by decide, by decide, by decide⟩
    (by decide),
    h₃.disk] at hPlace
  have hNew := h₂.disk
  rw [← hDisk] at hNew
  have hNone : outputArgument? r.arguments = none := by
    rw [hArguments]
    exact generatorArguments_no_output c work
  obtain ⟨hTool, path, hMem, hPath, hHere⟩ := hOf.witness_of_after hNone hNew hPlace
  obtain rfl : (witnessFile work).text = path := by
    rw [hArguments] at hPath
    exact Option.some_inj.mp hPath
  rw [hHere] at hNew hPlace
  exact ⟨r, file.prime, ⟨hTool, ⟨hOf, hZero⟩, _, bytes, hMem, hPath, hNew, hPlace, hFile⟩,
    h₃.toolbox, h₃.current, h₃.runs, trivial⟩

/-- The work folder is removed behind the witness; that runs nothing. -/
theorem clearWork_runs (work : String) (runs : List ToolRun) :
    Preserves (HasRun runs) (clearWork work) :=
  preserves_modify fun _ h => h

/-- A witness that is computed was written by the interpreter in a run that ended well, and that is
the only run. -/
theorem computeWitness_eq_ok {c : Circuit} {prime : Int} {inputs : Value} {values : List Nat}
    {b b' : Bench} (hStart : AfterRuns start done Disk.IsTree b)
    (h : computeWitness c prime inputs b = .ok values b') :
    ∃ r q, Wrote start.toolbox r ⟨q, values⟩ ∧ b'.runs = start.runs ++ (done ++ [r]) := by
  rw [computeWitness] at h
  obtain ⟨options, b₁, hOptions, h⟩ := bind_eq_ok h
  obtain ⟨-, rfl⟩ := attempt_eq_ok hOptions
  obtain ⟨node, b₂, hNode, h⟩ := bind_eq_ok h
  have h₂ := (AfterRuns.requireProgram _ _ _).of_ok hNode hStart
  obtain ⟨work, b₃, hWork, h⟩ := bind_eq_ok h
  have h₃ := openFolder_eq_ok h₂ hWork "witness.wtns"
  obtain ⟨generated, b₄, hGenerate, h⟩ := bind_eq_ok h
  obtain ⟨r, q, hWrote, h₄⟩ := generate_eq_ok h₃ hGenerate
  obtain ⟨_, b₅, hClear, h⟩ := bind_eq_ok h
  have h₅ := (clearWork_runs work _).of_ok hClear h₄.runs
  obtain ⟨rfl, rfl⟩ := pure_eq_ok h
  exact ⟨r, q, hWrote, h₅⟩

/-- What has been read of a circuit, and the inputs fit the circuit, and so does the witness that is
computed of them: this is what the strict check leaves to be relied on. -/
theorem calculateWitness_eq_ok {inputs : Value} {values : List Nat} {s s' : Session}
    (hStart : AfterRuns start done Disk.IsTree s.bench)
    (hConstraints : s.circuit.constraints = none) (hSymbols : s.circuit.symbols = none)
    (h : calculateWitness inputs true s = .ok values s') :
    ∃ system symbols r q,
      readConstraints s.circuit.constraintsPath.text s.bench = .ok system s.bench ∧
      readSymbols s.circuit.symbolsPath.text s.bench = .ok symbols s.bench ∧
      checkInputs symbols system.toConstraintHeader inputs = .ok () ∧
      Wrote start.toolbox r ⟨q, values⟩ ∧ values.length = system.wires ∧
      s'.bench.runs = start.runs ++ (done ++ [r]) ∧ s'.circuit.constraints = some system := by
  rw [calculateWitness] at h
  obtain ⟨system, s₁, hLoad, h⟩ := bind_eq_ok h
  obtain ⟨hSystem, hKept⟩ := loadConstraints_of_none hConstraints hLoad
  have hUnread : s₁.circuit.symbols = none := by
    rw [hKept]
    exact hSymbols
  obtain ⟨_, s₂, hStrict, h⟩ := bind_eq_ok h
  obtain ⟨symbols, s₃, hLoad', hStrict⟩ := bind_eq_ok hStrict
  obtain ⟨hTable, rfl⟩ := loadSymbols_of_none hUnread hLoad'
  subst hKept
  obtain ⟨hCheck, rfl⟩ := attempt_eq_ok hStrict
  obtain ⟨c, s₄, hNow, h⟩ := bind_eq_ok h
  cases hNow
  obtain ⟨computed, s₅, hBench, h⟩ := bind_eq_ok h
  obtain ⟨b, hCompute, rfl⟩ := onBench_eq_ok hBench
  obtain ⟨r, q, hWrote, hRuns⟩ := computeWitness_eq_ok hStart hCompute
  split at h
  · cases h
  · rename_i hLength
    obtain ⟨rfl, rfl⟩ := pure_eq_ok h
    have hLength' : computed.length = system.wires := by simpa using hLength
    exact ⟨system, symbols, r, q, hSystem, hTable, hCheck, hWrote, hLength', hRuns, rfl⟩

end Session

end CircuitBench
