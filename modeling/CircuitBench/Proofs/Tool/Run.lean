import CircuitBench.Proofs.Disk.Operations
import CircuitBench.Tool.Run

/-!
# What a run of a program changes

A program may end in any way and write anything where it is told to write.  What can be said of a
run all the same: it is recorded with what the program found and how it conducted the run, and the
disk changes by files that are written and folders that are made, one after another.  A file that was
not there before a run is one that the program wrote.

## Main results

* `Occasion.after_preserves` : what writing a file and making a folder keep, a run keeps.
* `Occasion.file_after` : a file that is there after a run was there before, or was written.
* `Occasion.file_kept` : a file that was there before a run is there after it, or was written again.
* `ToolRun.IsOf.witness_of_after` : a file that appears in a run without an output folder is the
  witness of the interpreter.
* `Bench.start_eq_ok` : what a run that could be started leaves behind.
-/

namespace CircuitBench

open CircuitBench.Path

/-! ## Changes to the disk -/

/-- Whether a property of a disk is kept when a file is written. -/
def Disk.KeptByFiles (P : Disk → Prop) (current : Location) : Prop :=
  ∀ {d d' : Disk} {path : String} {bytes : List UInt8},
    P d → d.writeFile current path bytes = .ok d' → P d'

theorem Disk.keptByFiles_isTree (current : Location) : Disk.KeptByFiles Disk.IsTree current :=
  fun hTree h => hTree.writeFile h

section Preserved

variable {P : Disk → Prop} {here : Location} {d : Disk}

theorem Deed.perform_preserves (hFiles : Disk.KeptByFiles P here)
    (hFolders : Disk.KeptByFolders P here) (hd : P d) (deed : Deed) : P (deed.perform here d) := by
  rw [perform.eq_def]
  split
  · split
    · rename_i hMade
      exact hFolders hd hMade
    · exact hd
  · split
    · rename_i hWritten
      exact hFiles hd hWritten
    · exact hd

/-- What writing a file and making a folder keep, a run of any program keeps. -/
theorem Occasion.after_preserves {o : Occasion} (hFiles : Disk.KeptByFiles P o.folder)
    (hFolders : Disk.KeptByFolders P o.folder) (hd : P o.disk) (deeds : List Deed) :
    P (o.after deeds) :=
  List.foldlRecOn deeds (Deed.perform o.folder) hd fun _ hd deed _ =>
    deed.perform_preserves hFiles hFolders hd

end Preserved

/-! ## Files that appear -/

/-- A file that is there after a deed was there before, or was written. -/
theorem Deed.file_perform {deed : Deed} {d : Disk} {here l : Location} {bytes : List UInt8}
    (hFile : (deed.perform here d).get? l = some (.file bytes)) :
    d.get? l = some (.file bytes) ∨ ∃ path, deed = .file path bytes ∧ l = resolve here path := by
  -- in each case one node is put on the disk, or the disk is as it was
  have hPut : ∀ {m : Location} {node : Node}, d.get? m ≠ some .folder →
      (d.put m node).get? l = some (.file bytes) →
      d.get? l = some (.file bytes) ∨ l = m ∧ node = .file bytes := by
    intro m node hNotFolder hFile
    by_cases hSame : l = m
    · subst hSame
      have hInside : l ≠ [] := by
        rintro rfl
        exact hNotFolder rfl
      rw [Disk.get?_put_self d hInside, Option.some_inj] at hFile
      exact .inr ⟨rfl, hFile⟩
    · rw [Disk.get?_put_of_ne d hSame] at hFile
      exact .inl hFile
  cases deed with
  | folder path =>
      rw [perform] at hFile
      split at hFile
      · rename_i hMade
        obtain ⟨-, -, hFree, rfl⟩ := Disk.makeFolder_eq_ok hMade
        exact (hPut (by simp [hFree]) hFile).imp_right fun hNode => nomatch hNode.2
      · exact .inl hFile
  | file path written =>
      rw [perform] at hFile
      split at hFile
      · rename_i hWritten
        obtain ⟨-, hNotFolder, rfl⟩ := Disk.writeFile_eq_ok hWritten
        refine (hPut hNotFolder hFile).imp_right ?_
        rintro ⟨hPlace, hSame⟩
        cases hSame
        exact ⟨path, rfl, hPlace⟩
      · exact .inl hFile

/-- A file that is there after some deeds was there before, or was written. -/
theorem Occasion.file_after {o : Occasion} {deeds : List Deed} {l : Location} {bytes : List UInt8}
    (hFile : (o.after deeds).get? l = some (.file bytes)) :
    o.disk.get? l = some (.file bytes) ∨
      ∃ path, .file path bytes ∈ deeds ∧ l = resolve o.folder path := by
  refine List.foldlRecOn deeds (Deed.perform o.folder) (motive := fun d =>
    d.get? l = some (.file bytes) → o.disk.get? l = some (.file bytes) ∨
      ∃ path, .file path bytes ∈ deeds ∧ l = resolve o.folder path) .inl ?_ hFile
  intro d ih deed hMem hAfter
  rcases Deed.file_perform hAfter with hBefore | ⟨path, rfl, hPlace⟩
  · exact ih hBefore
  · exact .inr ⟨path, hMem, hPlace⟩

/-- A file that is there stays as it is, or is written again. -/
theorem Occasion.file_kept {o : Occasion} {l : Location} {bytes : List UInt8}
    (hFile : o.disk.get? l = some (.file bytes)) (deeds : List Deed) :
    (o.after deeds).get? l = some (.file bytes) ∨
      ∃ path bytes', .file path bytes' ∈ deeds ∧ l = resolve o.folder path := by
  refine List.foldlRecOn deeds (Deed.perform o.folder) (motive := fun d =>
    d.get? l = some (.file bytes) ∨ ∃ path bytes', .file path bytes' ∈ deeds ∧
      l = resolve o.folder path) (.inl hFile) fun d ih deed hMem => ?_
  rcases ih.symm with hWritten | hStill
  · exact .inr hWritten
  cases deed with
  | folder path =>
      rw [Deed.perform]
      split
      · rename_i hMade
        exact .inl (Disk.keptByFolders_file l bytes o.folder hStill hMade)
      · exact .inl hStill
  | file path bytes' =>
      by_cases hPlace : l = resolve o.folder path
      · exact .inr ⟨path, bytes', hMem, hPlace⟩
      rw [Deed.perform]
      split
      · rename_i hWritten
        obtain ⟨-, -, rfl⟩ := Disk.writeFile_eq_ok hWritten
        rw [Disk.get?_put_of_ne d hPlace]
        exact .inl hStill
      · exact .inl hStill

/-! ## What was told -/

/-- An output option tells the compiler where to write. -/
theorem outputArgument?_of_option {arguments : List String} {output : String}
    (h : argumentAfter? "-o" arguments = some output) : outputArgument? arguments = some output := by
  rw [outputArgument?.eq_def]
  split
  · cases h
  · exact h

/-- Where the compiler is not told to write, there is no output option. -/
theorem option_of_outputArgument? {arguments : List String}
    (h : outputArgument? arguments = none) : argumentAfter? "-o" arguments = none := by
  cases hOption : argumentAfter? "-o" arguments with
  | none => rfl
  | some output => cases h.symm.trans (outputArgument?_of_option hOption)

/-- The compiler is told to write below a folder that its arguments lead to. -/
theorem Occasion.outputFolder?_eq_some {o : Occasion} {l : Location}
    (h : o.outputFolder? = some l) :
    ∃ output, outputArgument? o.arguments = some output ∧
      o.disk.status o.folder output = .ok (l, .folder) := by
  rw [outputFolder?] at h
  split at h
  · rename_i hStatus
    cases h
    exact Option.map_eq_some_iff.mp hStatus
  · cases h

/-- The folder of a witness program lies in the output folder. -/
theorem Tool.folder_of_isTold {tool : Tool} {o : Occasion} {path : String}
    (h : tool.isTold o (.folder path) = true) :
    tool = .circom ∧ ∃ l lead, o.outputFolder? = some l ∧
      resolve o.folder path = l ++ [lead ++ "_js"] := by
  cases tool with
  | node => cases h
  | circom =>
      obtain ⟨l, hOutput, hPlace⟩ := (Option.any_eq_true _ _).mp h
      obtain ⟨hAround, hName⟩ := Bool.and_eq_true_iff.mp hPlace
      obtain ⟨name, hLast, hNames⟩ := (Option.any_eq_true _ _).mp hName
      obtain ⟨lead, hLead⟩ := List.isSuffixOf_iff_suffix.mp hNames
      refine ⟨rfl, l, String.ofList lead, hOutput, ?_⟩
      have hSpelled : String.ofList lead ++ "_js" = name := by
        rw [← String.toList_inj, String.toList_append, String.toList_ofList, hLead]
      obtain ⟨around, hSplit⟩ := List.getLast?_eq_some_iff.mp hLast
      rw [hSpelled, ← beq_iff_eq.mp hAround, hSplit, List.dropLast_concat]

/-- A file is written below the output folder, or where the fourth argument leads. -/
theorem Tool.file_of_isTold {tool : Tool} {o : Occasion} {path : String} {bytes : List UInt8}
    (h : tool.isTold o (.file path bytes) = true) :
    (tool = .circom ∧ ∃ l, o.outputFolder? = some l ∧
      Disk.isBelow l (resolve o.folder path) = true) ∨
    tool = .node ∧ o.arguments[3]? = some path := by
  cases tool with
  | circom => exact .inl ⟨rfl, (Option.any_eq_true _ _).mp h⟩
  | node => exact .inr ⟨rfl, beq_iff_eq.mp h⟩

/-- Without an output folder, nothing is done but by the interpreter. -/
theorem Tool.node_of_isTold {tool : Tool} {o : Occasion} {deed : Deed}
    (hNone : outputArgument? o.arguments = none) (h : tool.isTold o deed = true) :
    tool = .node ∧ ∃ path bytes, deed = .file path bytes ∧ o.arguments[3]? = some path := by
  have hNowhere : o.outputFolder? = none := by
    rw [Occasion.outputFolder?, hNone]
    rfl
  cases deed with
  | folder path =>
      obtain ⟨-, l, -, hOutput, -⟩ := Tool.folder_of_isTold h
      cases hNowhere.symm.trans hOutput
  | file path bytes =>
      rcases Tool.file_of_isTold h with ⟨-, l, hOutput, -⟩ | ⟨rfl, hPath⟩
      · cases hNowhere.symm.trans hOutput
      · exact ⟨rfl, path, bytes, rfl, hPath⟩

/-- A file that appears in a run without an output folder is the witness of the interpreter: the
compiler writes nothing unless it is told where. -/
theorem ToolRun.IsOf.witness_of_after {t : Toolbox} {r : ToolRun} {l : Location}
    {bytes : List UInt8} (h : r.IsOf t) (hNone : outputArgument? r.arguments = none)
    (hNew : r.disk.NoFileAt l) (hFile : r.after.get? l = some (.file bytes)) :
    r.tool = .node ∧ ∃ path, .file path bytes ∈ r.conduct.deeds ∧ r.arguments[3]? = some path ∧
      l = resolve r.folder path := by
  rcases Occasion.file_after hFile with hBefore | ⟨path, hMem, hPlace⟩
  · exact absurd hBefore (hNew bytes)
  obtain ⟨hTool, path', bytes', hSame, hPath⟩ := Tool.node_of_isTold hNone (h.isTold hMem)
  cases hSame
  exact ⟨hTool, path, hMem, hPath, hPlace⟩

/-! ## Runs -/

namespace Bench

/-- A run that could be started is the next one at the bench; it changes the disk as the program
does and is recorded, and it ends as the program does. -/
theorem start_eq_ok {path : String} {arguments : List String} {asked : Option String} {b b' : Bench}
    {o : Outcome} (h : start path arguments asked b = .ok o b') :
    ∃ tool folder, b.startFolder asked = .ok folder ∧ b.programAt? folder path = some tool ∧
      o = (b.nextRun tool folder arguments).conduct.outcome ∧
      b' = { b with
        disk := (b.nextRun tool folder arguments).after
        runs := b.runs ++ [b.nextRun tool folder arguments] } := by
  rw [start] at h
  split at h
  · cases h
  · split at h
    · cases h
    · rename_i folder hFolder
      split at h
      · cases h
      · rename_i tool hTool
        split at h
        · cases h
        · cases h
          exact ⟨tool, folder, hFolder, hTool, rfl, rfl⟩

theorem run_eq_ok {program : Program} {arguments : List String} {asked : Option String}
    {b b' : Bench} {o : Outcome} (h : run program arguments asked b = .ok o b') :
    ∃ path, program = .named path ∧ start path arguments asked b = .ok o b' := by
  cases program with
  | named path => exact ⟨path, rfl, h⟩
  | spelled => cases h

/-- A run that could not be started changes nothing. -/
theorem run_eq_error {program : Program} {arguments : List String} {asked : Option String}
    {e : Error} {b b' : Bench} (h : run program arguments asked b = .error e b') : b' = b := by
  cases program with
  | spelled =>
      cases h
      rfl
  | named path =>
      have hStart : Bench.start path arguments asked b = .error e b' := h
      rw [Bench.start] at hStart
      split at hStart
      · cases hStart
        rfl
      · split at hStart
        · cases hStart
          rfl
        · split at hStart
          · cases hStart
            rfl
          · split at hStart
            · cases hStart
              rfl
            · cases hStart

/-- A run in a folder that was asked for starts where the path of the folder leads. -/
theorem startFolder_eq_ok {b : Bench} {path : String} {folder : Location}
    (h : b.startFolder (some path) = .ok folder) : folder = resolve b.current path := by
  rw [startFolder] at h
  split at h
  · rename_i hStatus
    cases h
    exact (Disk.status_eq_ok hStatus).1
  · cases h
  · cases h

end Bench

end CircuitBench
