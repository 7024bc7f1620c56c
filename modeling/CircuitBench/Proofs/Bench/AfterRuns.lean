import CircuitBench.Json.Document
import CircuitBench.Proofs.Bench.Preserved
import CircuitBench.Proofs.Path.Climb
import CircuitBench.Proofs.Tool.Run

/-!
# The bench after some runs

Work at a bench writes files, makes folders, logs and prints, and now and then runs a program.
Between two runs the toolbox, the current folder and the record of runs stay as they are, so the
bench can be described by the runs that were made since some earlier moment, together with what is
known of the disk: that it is a tree, or that some file is not there yet.  Every step of work either
keeps that description, however it ends, or adds one run to it.

Removal of a whole folder is left out: it may take the current folder away.

## Main results

* `AfterRuns` : the bench as it is after some runs.
* `AfterRuns.openFile`, `AfterRuns.openFolder`, `AfterRuns.store` : steps that run nothing keep the
  description.
* `AfterRuns.writeDocument` : a document brings no file of another name with it.
* `AfterRuns.run`, `AfterRuns.run_tree` : a run adds itself.
-/

namespace CircuitBench.Bench

open CircuitBench.Path

/-- The bench as it is after some runs, and other work, since an earlier moment, with what is known
of the disk. -/
structure AfterRuns (start : Bench) (done : List ToolRun) (P : Disk → Prop) (b : Bench) : Prop where
  toolbox : b.toolbox = start.toolbox
  current : b.current = start.current
  runs : b.runs = start.runs ++ done
  disk : P b.disk

theorem afterRuns_self {P : Disk → Prop} {b : Bench} (h : P b.disk) : AfterRuns b [] P b :=
  ⟨rfl, rfl, (List.append_nil b.runs).symm, h⟩

/-- Whether these are the runs that were made at a bench, all in all. -/
def HasRun (runs : List ToolRun) (b : Bench) : Prop :=
  b.runs = runs

/-! ## Programs -/

/-- A program that was looked for is found, or not, on a bench that stays as it is. -/
theorem requireProgram_state (option : Value) (name advice : String) (b : Bench) :
    endState (requireProgram option name advice b) = b := by
  have hSame : Preserves (fun b' => b' = b) (requireProgram option name advice) := by
    have hNamed : ∀ name, Preserves (fun b' => b' = b) (requireNamed name advice) := by
      intro name
      refine preserves_get.bind fun b₁ => ?_
      split
      · exact preserves_pure _
      · exact preserves_throw _
    refine preserves_get.bind fun b₁ => (preserves_attempt _).bind fun v => ?_
    split
    · exact hNamed _
    · exact hNamed _
    · split
      · exact preserves_pure _
      · exact preserves_throw _
    · exact preserves_throw _
  exact hSame b rfl

/-- What holds of the bench, and at every end of what comes after a program was found, holds at the
end. -/
theorem endState_requireProgram_bind {β : Type} {P : Bench → Prop} {option : Value}
    {name advice : String} {f : Program → Action β} {b : Bench} (hBefore : P b)
    (hOk : ∀ program, requireProgram option name advice b = .ok program b →
      P (endState (f program b))) :
    P (endState ((requireProgram option name advice >>= f) b)) := by
  have hState := requireProgram_state option name advice b
  cases hFound : requireProgram option name advice b with
  | ok program b₁ =>
      rw [hFound] at hState
      obtain rfl : b₁ = b := hState
      rw [bind_ok hFound]
      exact hOk program hFound
  | error e b₁ =>
      rw [hFound] at hState
      obtain rfl : b₁ = b := hState
      rw [bind_error hFound]
      exact hBefore

/-! ## Fresh names -/

/-- A fresh name that is found is one of those that are tried, and its node was put on the disk as
it was. -/
theorem create_eq_ok {make : Disk → Location → String → Except DiskFault (Location × Disk)}
    {pathOf : String → String} {attempts : Nat} {path : String} {b b' : Bench}
    (h : create make pathOf attempts b = .ok path b') :
    ∃ n l d, path = pathOf (Registry.token n) ∧ make b.disk b.current path = .ok (l, d) ∧
      b'.disk = d := by
  induction attempts generalizing b with
  | zero => cases h
  | succ attempts ih =>
      rw [create] at h
      dsimp only at h
      split at h
      · rename_i hMade
        cases h
        exact ⟨b.namesDrawn, _, _, rfl, hMade, rfl⟩
      · obtain ⟨n, l, d, hPath, hMade, hDisk⟩ := ih h
        exact ⟨n, l, d, hPath, hMade, hDisk⟩
      · cases h

/-- No token holds a slash. -/
theorem slash_not_mem_token (n : Nat) : '/' ∉ (Registry.token n).toList := by
  have hDigits : '/' ∉ Nat.toDigits 10 n := by
    intro hMem
    have hDigit := Nat.isDigit_of_mem_toDigits (by decide) (by decide) hMem
    exact absurd hDigit (by decide)
  simp [Registry.token, hDigits]

namespace AfterRuns

variable {start : Bench} {done : List ToolRun} {P : Disk → Prop}

/-- Another disk may take the place of the disk. -/
theorem withDisk {b : Bench} (h : AfterRuns start done P b) {Q : Disk → Prop} {d : Disk}
    (hDisk : Q d) : AfterRuns start done Q { b with disk := d } :=
  ⟨h.toolbox, h.current, h.runs, hDisk⟩

/-! ## Steps that run nothing -/

theorem inform (logger text : String) :
    Preserves (AfterRuns start done P) (Bench.inform logger text) :=
  preserves_modify fun _ h => ⟨h.toolbox, h.current, h.runs, h.disk⟩

theorem print (text : String) : Preserves (AfterRuns start done P) (Bench.print text) :=
  preserves_modify fun _ h => ⟨h.toolbox, h.current, h.runs, h.disk⟩

theorem track (path : String) : Preserves (AfterRuns start done P) (Bench.track path) :=
  preserves_modify fun _ h => ⟨h.toolbox, h.current, h.runs, h.disk⟩

theorem changeDisk {change : Bench → Except DiskFault Disk}
    (hChange : ∀ {b : Bench} {d : Disk}, P b.disk → change b = .ok d → P d) :
    Preserves (AfterRuns start done P) (Bench.changeDisk change) := by
  intro b h
  rw [Bench.changeDisk]
  cases hEnd : change b with
  | ok d => exact h.withDisk (hChange h.disk hEnd)
  | error fault => exact h

theorem makeFolders (hFolders : ∀ current, Disk.KeptByFolders P current) (path : FilePath) :
    Preserves (AfterRuns start done P) (Bench.makeFolders path) := by
  intro b h
  have hDisk := Disk.makeFolders_preserves (hFolders b.current) h.disk path
  rw [Bench.makeFolders]
  split
  · rename_i hEnd
    rw [hEnd] at hDisk
    exact h.withDisk hDisk
  · rename_i hEnd
    rw [hEnd] at hDisk
    exact h.withDisk hDisk

/-- Names are drawn and tried until one is free; only the one that is free changes the disk. -/
theorem create {make : Disk → Location → String → Except DiskFault (Location × Disk)}
    {pathOf : String → String}
    (hMake : ∀ {d d' : Disk} {current l : Location} {n : Nat}, P d →
      make d current (pathOf (Registry.token n)) = .ok (l, d') → P d') (attempts : Nat) :
    Preserves (AfterRuns start done P) (Bench.create make pathOf attempts) := by
  induction attempts with
  | zero => exact fun b h => h
  | succ attempts ih =>
      intro b h
      have hDrawn : AfterRuns start done P { b with namesDrawn := b.namesDrawn + 1 } :=
        ⟨h.toolbox, h.current, h.runs, h.disk⟩
      rw [Bench.create]
      dsimp only
      split
      · rename_i hMade
        exact hDrawn.withDisk (hMake h.disk hMade)
      · exact ih _ hDrawn
      · exact hDrawn

theorem openFile (lead ending : String) (asked : Option String) :
    Preserves (AfterRuns start done Disk.IsTree) (Bench.openFile lead ending asked) := by
  refine preserves_get.bind fun b => ?_
  refine (preserves_attempt _).bind fun folder => ?_
  refine (create (fun hTree hMade => hTree.createFile hMade) _).bind fun path => ?_
  exact (track path).bind fun _ => preserves_pure path

theorem openFolder (hFolders : ∀ current, Disk.KeptByFolders P current) (lead : String)
    (asked : Option String) :
    Preserves (AfterRuns start done P) (Bench.openFolder lead asked) := by
  refine preserves_get.bind fun b => ?_
  refine (create (fun hDisk hMade => hFolders _ hDisk hMade) _).bind fun path => ?_
  exact (track path).bind fun _ => preserves_pure path

theorem store {path : String}
    (hWrite : ∀ {d d' : Disk} {current : Location} {bytes : List UInt8}, P d →
      d.writeFile current path bytes = .ok d' → P d') (text : Except Error String) :
    Preserves (AfterRuns start done P) (Bench.store path text) := by
  refine (preserves_attempt text).bind fun text => ?_
  refine (preserves_attempt (storedBytes text)).bind fun bytes => ?_
  exact changeDisk fun hDisk hWritten => hWrite hDisk hWritten

theorem requireNamed (name advice : String) :
    Preserves (AfterRuns start done P) (Bench.requireNamed name advice) := by
  refine preserves_get.bind fun b => ?_
  split
  · exact preserves_pure _
  · exact preserves_throw _

theorem requireProgram (option : Value) (name advice : String) :
    Preserves (AfterRuns start done P) (Bench.requireProgram option name advice) := by
  refine preserves_get.bind fun b => ?_
  refine (preserves_attempt _).bind fun v => ?_
  split
  · exact requireNamed _ advice
  · exact requireNamed _ advice
  · split
    · exact preserves_pure _
    · exact preserves_throw _
  · exact preserves_throw _

/-! ## Documents -/

section Documents

variable {folder current : Location} {name last : String}

/-- A path of which the last name is not that of a location leads elsewhere. -/
private theorem resolve_ne {path : String} (hNames : ∃ front, names path = front ++ [last])
    (hPlain : IsPlain last) (hOther : last ≠ name) : resolve current path ≠ folder ++ [name] := by
  obtain ⟨front, hNames⟩ := hNames
  intro hSame
  have hStep : ∀ here : Location, follow here [last] = here ++ [last] :=
    fun here => step_plain hPlain here
  rw [resolve, hNames, follow_append, hStep] at hSame
  have hLast := (List.append_inj' hSame rfl).2
  exact hOther (List.singleton_inj.mp hLast)

/-- A name behind which a token stands is no name of dots. -/
theorem isPlain_append_token (n : Nat) : IsPlain (last ++ Registry.token n) := by
  have hMem : 'k' ∈ (last ++ Registry.token n).toList := by simp [Registry.token]
  refine ⟨?_, ?_, ?_⟩ <;> intro hSame <;> rw [hSame] at hMem <;> exact absurd hMem (by decide)

/-- A fresh path leads to its name below the folder around it. -/
theorem resolve_join_token (here : Location) (around : String) (hSlash : '/' ∉ last.toList)
    (n : Nat) :
    resolve here (join around (last ++ Registry.token n)) =
      resolve here around ++ [last ++ Registry.token n] :=
  resolve_join here around (isPlain_append_token n)
    (slash_not_mem_append hSlash (slash_not_mem_token n))

/-- The temporary name of a document is not that of a file of which the name does not start with
that of the document. -/
private theorem resolve_temporary_ne {path around : String} {n : Nat} (hSlash : '/' ∉ last.toList)
    (hOther : ¬ last.toList <+: name.toList)
    (hPath : path = join around (last ++ Registry.token n)) :
    resolve current path ≠ folder ++ [name] := by
  have hToken := slash_not_mem_append hSlash (slash_not_mem_token n)
  rw [hPath]
  refine resolve_ne (names_join around hToken) (isPlain_append_token n) ?_
  rintro rfl
  exact hOther (by rw [String.toList_append]; exact List.prefix_append _ _)

/-- A document brings no file of another name with it, neither at its place nor at the temporary
one. -/
theorem writeDocument {target : FilePath} (hTarget : target.Spelled) {front : List String}
    (hParts : target.parts = front ++ [last]) (hPlain : IsPlain last)
    (hOther : ¬ last.toList <+: name.toList) (data indent : Value) :
    Preserves (AfterRuns start done (Disk.NoFileAt (folder ++ [name])))
      (Bench.writeDocument target.text data indent) := by
  have hNonempty : target.parts ≠ [] := by simp [hParts]
  have hSlash : '/' ∉ last.toList := (hTarget.parts last (by simp [hParts])).2.2
  have hName : target.name = last := by simp [FilePath.name, hParts]
  obtain ⟨-, count, hNames⟩ := FilePath.text_spec hTarget hNonempty
  have hPlace : ∃ before, names target.text = before ++ [last] :=
    ⟨List.replicate count "" ++ front, by rw [hNames, hParts, List.append_assoc]⟩
  have hDiffers : last ≠ name := by
    rintro rfl
    exact hOther (List.prefix_refl _)
  rw [Bench.writeDocument, FilePath.ofString_text hTarget hNonempty]
  refine Preserves.bind ?_ fun _ => ?_
  · exact (makeFolders (Disk.keptByFolders_noFileAt _) _).bind fun _ => preserves_pure _
  · refine Preserves.bind_of ?_ fun {temporary b b'} hOpened => ?_
    · refine preserves_get.bind fun b => create (fun {d d' current l n} hNone hMade => ?_) _
      obtain ⟨rfl, -, -, rfl⟩ := Disk.createFile_eq_ok hMade
      rw [hName]
      exact hNone.put (.inl (resolve_temporary_ne hSlash hOther rfl))
    · obtain ⟨b₀, b₁, -, hCreated⟩ := bind_eq_ok hOpened
      obtain ⟨n, -, -, hTemporary, -⟩ := create_eq_ok hCreated
      rw [hName] at hTemporary
      refine Preserves.ensuring (Preserves.bind ?_ fun _ => ?_) ?_
      · refine store (fun hNone hWritten => ?_) _
        obtain ⟨-, -, rfl⟩ := Disk.writeFile_eq_ok hWritten
        exact hNone.put (.inl (resolve_temporary_ne hSlash hOther hTemporary))
      · refine changeDisk fun hNone hMoved => ?_
        obtain ⟨node, -, rfl⟩ := Disk.replaceFile_eq_ok hMoved
        exact (hNone.remove _).put (.inl (resolve_ne hPlace hPlain hDiffers))
      · exact preserves_modify fun b h => h.withDisk (h.disk.discard _ _)

end Documents

/-! ## Runs -/

/-- A run adds itself to the runs that were made, whether it ends well or not, and leaves the disk
as the program does. -/
theorem run {b b' : Bench} (h : AfterRuns start done P b) {program : Program}
    {arguments : List String} {asked : Option String} {o : Outcome}
    (hRun : Bench.run program arguments asked b = .ok o b') :
    ∃ r : ToolRun, b.startFolder asked = .ok r.folder ∧ r.arguments = arguments ∧ r.disk = b.disk ∧
      r.IsOf start.toolbox ∧ o = r.conduct.outcome ∧
      AfterRuns start (done ++ [r]) (· = r.after) b' := by
  obtain ⟨path, -, hStart⟩ := run_eq_ok hRun
  obtain ⟨tool, folder, hFolder, -, hEnded, rfl⟩ := start_eq_ok hStart
  refine ⟨b.nextRun tool folder arguments, hFolder, rfl, rfl, ?_, hEnded, h.toolbox, h.current, ?_,
    rfl⟩
  · rw [ToolRun.IsOf, ← h.toolbox]
    rfl
  · dsimp only
    rw [h.runs, List.append_assoc]

/-- A run leaves the disk a tree. -/
theorem run_tree {b b' : Bench} (h : AfterRuns start done Disk.IsTree b) {program : Program}
    {arguments : List String} {asked : Option String} {o : Outcome}
    (hRun : Bench.run program arguments asked b = .ok o b') :
    ∃ r : ToolRun, AfterRuns start (done ++ [r]) Disk.IsTree b' ∧
      (o.exitCode = 0 → r.EndedWell start.toolbox) := by
  obtain ⟨r, -, -, hDisk, hOf, hEnded, hEnd⟩ := h.run hRun
  refine ⟨r, ⟨hEnd.toolbox, hEnd.current, hEnd.runs, ?_⟩, fun hZero => ⟨hOf, ?_⟩⟩
  · have hTree : r.disk.IsTree := by
      rw [hDisk]
      exact h.disk
    rw [hEnd.disk]
    exact Occasion.after_preserves (Disk.keptByFiles_isTree r.folder)
      (Disk.keptByFolders_isTree r.folder) hTree r.conduct.deeds
  · rw [hEnded] at hZero
    exact hZero

end AfterRuns

end CircuitBench.Bench
