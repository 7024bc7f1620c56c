import CircuitBench.Proofs.Temporary.Opened

/-!
# What work at a bench adds

Between two openings of temporary paths, work at a bench leaves the registry and the current folder
alone, and adds to the disk at known places: a document at its place, though it is stored under
another name first; a run of the compiler below the folder that it was told of; a run of the
interpreter at the place that its fourth argument leads to from the folder it was started in.

A run with an output option is a run of the compiler, if programs are put to their proper use: the
interpreter does not know the option, and would take another argument for the place of the witness.

## Main results

* `Adds` : the bench before and after some work.
* `writeDocument_adds` : a document is added at its place, and nothing else is.
* `compiler_adds`, `generator_adds` : what a run of a program adds.
-/

namespace CircuitBench

open CircuitBench.Path

variable {A F : Location → Prop}

/-! ## Programs -/

/-- Deeds add where files are written and folders are made, in folders that are there. -/
theorem Deed.perform_growsTo (deed : Deed) (here : Location) (d : Disk) :
    d.GrowsTo (fun l => l = resolve here deed.path ∧ d.get? l.dropLast = some .folder)
      (fun l => deed = .folder deed.path ∧ l = resolve here deed.path) (deed.perform here d) := by
  cases deed with
  | folder path =>
      rw [perform]
      split
      · rename_i hMade
        obtain ⟨rfl, hAround, -⟩ := Disk.makeFolder_eq_ok hMade
        refine (Disk.makeFolder_growsTo hMade).mono ?_ fun l hl => ⟨rfl, hl⟩
        rintro l rfl
        exact ⟨rfl, hAround⟩
      · exact Disk.GrowsTo.refl _ _ d
  | file path bytes =>
      rw [perform]
      split
      · rename_i hWritten
        exact (Disk.writeFile_growsTo hWritten).mono (fun _ hl => hl) fun _ h => h.elim
      · exact Disk.GrowsTo.refl _ _ d

/-- What each of some deeds adds, all of them add. -/
theorem Occasion.after_growsTo {o : Occasion} {deeds : List Deed}
    (hAdds : ∀ deed ∈ deeds, ∀ d : Disk, o.disk.GrowsTo A F d →
      d.GrowsTo A F (deed.perform o.folder d)) : o.disk.GrowsTo A F (o.after deeds) :=
  List.foldlRecOn deeds (Deed.perform o.folder) (Disk.GrowsTo.refl A F o.disk)
    fun d hBefore deed hMem => hBefore.trans (hAdds deed hMem d hBefore)

/-- Whether a run puts a program to its proper use: nothing but the compiler is told of an output
folder. -/
def ToolRun.IsProper (r : ToolRun) : Prop :=
  argumentAfter? "-o" r.arguments ≠ none → r.tool = .circom

/-- A run without an output folder adds where the fourth argument leads, if the folder around that
place is there: of the two programs, such a run is of use to the interpreter only. -/
theorem ToolRun.IsOf.generator_growsTo {t : Toolbox} {r : ToolRun} (h : r.IsOf t)
    (hNone : outputArgument? r.arguments = none) :
    r.disk.GrowsTo (fun l => r.disk.get? l.dropLast = some .folder ∧
      ∃ path, r.arguments[3]? = some path ∧ l = resolve r.folder path) (fun _ => False) r.after := by
  refine Occasion.after_growsTo fun deed hMem d hBefore => ?_
  obtain ⟨-, path, bytes, rfl, hPath⟩ := Tool.node_of_isTold hNone (h.isTold hMem)
  refine (Deed.perform_growsTo _ _ d).mono ?_ fun l hl => nomatch hl.1
  rintro l ⟨hPlace, hAround⟩
  exact ⟨(hBefore.made _ hAround).resolve_right id, path, hPath, hPlace⟩

/-- A run of the compiler that is told of an output folder writes below it, and makes no folder there
but for witness programs. -/
theorem ToolRun.IsOf.compiler_growsTo {t : Toolbox} {r : ToolRun} (h : r.IsOf t)
    (hTool : r.tool = .circom) {output : String}
    (hOption : outputArgument? r.arguments = some output) :
    r.disk.GrowsTo (fun l => Disk.isBelow (resolve r.folder output) l = true)
      (fun l => ∃ around lead, l = around ++ [lead ++ "_js"]) r.after := by
  have hOutput : ∀ {l}, r.outputFolder? = some l → l = resolve r.folder output := by
    intro l hFound
    obtain ⟨output', hSame, hStatus⟩ := Occasion.outputFolder?_eq_some hFound
    cases hOption.symm.trans hSame
    exact (Disk.status_eq_ok hStatus).1
  refine Occasion.after_growsTo fun deed hMem d _ => ?_
  cases deed with
  | folder path =>
      obtain ⟨-, l, lead, hFound, hPlace⟩ := Tool.folder_of_isTold (h.isTold hMem)
      refine (Deed.perform_growsTo _ _ d).mono ?_ ?_
      · rintro m ⟨rfl, -⟩
        show Disk.isBelow (resolve r.folder output) (resolve r.folder path) = true
        rw [hPlace, ← hOutput hFound]
        exact Disk.isBelow_append _ _
      · rintro m ⟨-, rfl⟩
        exact ⟨l, lead, hPlace⟩
  | file path bytes =>
      rcases Tool.file_of_isTold (h.isTold hMem) with ⟨-, l, hFound, hBelow⟩ | ⟨hNode, -⟩
      · refine (Deed.perform_growsTo _ _ d).mono ?_ fun m hm => nomatch hm.1
        rintro m ⟨rfl, -⟩
        rw [← hOutput hFound]
        exact hBelow
      · cases hTool.symm.trans hNode

namespace Bench

/-! ## Work -/

/-- Whether a bench comes from another one by work that adds something at some places only, and
folders at some places only, and leaves the toolbox, the current folder and the registry as they
are. -/
structure Adds (A F : Location → Prop) (b b' : Bench) : Prop where
  toolbox : b'.toolbox = b.toolbox
  current : b'.current = b.current
  registry : b'.registry = b.registry
  drawn : b.namesDrawn ≤ b'.namesDrawn
  disk : b.disk.GrowsTo A F b'.disk

namespace Adds

variable {b b₁ b₂ : Bench} {B G : Location → Prop}

theorem refl (A F : Location → Prop) (b : Bench) : Adds A F b b :=
  ⟨rfl, rfl, rfl, Nat.le_refl _, Disk.GrowsTo.refl A F b.disk⟩

theorem trans (h : Adds A F b b₁) (h' : Adds A F b₁ b₂) : Adds A F b b₂ :=
  ⟨h'.toolbox.trans h.toolbox, h'.current.trans h.current, h'.registry.trans h.registry,
    Nat.le_trans h.drawn h'.drawn,
    h.disk.trans h'.disk⟩

theorem mono (h : Adds A F b b₁) (hA : ∀ l, A l → B l) (hF : ∀ l, F l → G l) : Adds B G b b₁ :=
  ⟨h.toolbox, h.current, h.registry, h.drawn, h.disk.mono hA hF⟩

end Adds

theorem changeDisk_adds {change : Bench → Except DiskFault Disk} {b : Bench}
    (h : ∀ d, change b = .ok d → b.disk.GrowsTo A F d) :
    Adds A F b (endState (changeDisk change b)) := by
  rw [changeDisk]
  cases hChange : change b with
  | ok d => exact ⟨rfl, rfl, rfl, Nat.le_refl _, h d hChange⟩
  | error fault => exact Adds.refl A F b

/-- A text that is stored is added at its place. -/
theorem store_adds (path : String) (text : Except Error String) (b : Bench) :
    Adds (· = resolve b.current path) F b (endState (store path text b)) := by
  have hNone := Adds.refl (· = resolve b.current path) F b
  refine endState_attempt_bind hNone fun text _ => endState_attempt_bind hNone fun bytes _ => ?_
  refine changeDisk_adds fun d hWritten => ?_
  refine (Disk.writeFile_growsTo hWritten).mono ?_ fun _ h => h.elim
  rintro l ⟨rfl, -⟩
  rfl

/-- A folder that is made with those around it is added on the way of its path. -/
theorem makeFolders_adds {b : Bench} (hTree : b.disk.IsTree) (path : String) :
    Adds (Disk.OnTheWay b.current path)
      (fun l => Disk.OnTheWay b.current path l ∧ Disk.EndsIn (names path) l) b
      (endState (makeFolders (FilePath.ofString path) b)) := by
  have hMade := Disk.makeFolders_growsTo hTree b.current path
  rw [makeFolders]
  split
  · rename_i hEnd
    rw [hEnd] at hMade
    exact ⟨rfl, rfl, rfl, Nat.le_refl _, hMade⟩
  · rename_i hEnd
    rw [hEnd] at hMade
    exact ⟨rfl, rfl, rfl, Nat.le_refl _, hMade⟩

/-- What is added then is a folder. -/
theorem get?_makeFolders (b : Bench) (path : FilePath) (l : Location) :
    (endState (makeFolders path b)).disk.get? l = b.disk.get? l ∨
      (endState (makeFolders path b)).disk.get? l = some .folder := by
  have hDisk : (endState (makeFolders path b)).disk = (b.disk.makeFolders b.current path).2 := by
    rw [makeFolders]
    split <;> simp only [endState, *]
  rw [hDisk]
  exact Disk.get?_makeFolders b.disk b.current path l

/-! ## Documents -/

/-- A folder that can be walked to is not made. -/
theorem makeFolders_adds_nothing {b : Bench} (hTree : b.disk.IsTree) {path : String}
    (hThere : ∀ l, Disk.OnTheWay b.current path l → b.disk.get? l = some .folder) :
    Adds A F b (endState (makeFolders (FilePath.ofString path) b)) := by
  have hMade := makeFolders_adds hTree path
  exact ⟨hMade.toolbox, hMade.current, hMade.registry, hMade.drawn,
    hMade.disk.of_there hThere fun l hl => hl.1⟩

/-- Nor is the folder of a document. -/
theorem ensureFolder_adds {b : Bench} (hTree : b.disk.IsTree) {path : String}
    (hThere : ∀ l, Disk.OnTheWay b.current path l → b.disk.get? l = some .folder) :
    Adds A F b (endState (ensureFolder path b)) := by
  have hNone : Adds A F b (endState (makeFolders (FilePath.ofString path) b)) :=
    makeFolders_adds_nothing hTree hThere
  refine endState_bind (fun e b₁ hFails => ?_) fun _ b₁ hEnd => ?_
  · rwa [hFails] at hNone
  · rwa [hEnd] at hNone

/-- A file beside a document is put to a free place, or only names have been drawn. -/
theorem openBeside_cases (target : FilePath) (b : Bench) :
    (∃ path n l d, Opens b path n l (.file []) d ∧ isAbsolute path = true ∧
      openBeside target b = .ok path { b with disk := d, namesDrawn := n + 1 }) ∨
    ∃ e n, b.namesDrawn ≤ n ∧ openBeside target b = .error e { b with namesDrawn := n } := by
  rcases create_cases Disk.createFile (fun name =>
      join (absoluteText b.current target.parent.text) (target.name ++ name)) Registry.maxAttempts
      b with
    ⟨n, l, d, hLater, hMade, hEnd⟩ | ⟨e, n, hLater, hEnd⟩
  · obtain ⟨-, hAround, hFree, hDisk⟩ := Disk.createFile_eq_ok hMade
    refine .inl ⟨_, n, l, d, ⟨hLater, Disk.locate_of_createFile hMade, hAround, hFree, hDisk⟩, ?_,
      (bind_ok rfl).trans hEnd⟩
    exact isAbsolute_join (isAbsolute_absoluteText _ _)
  · exact .inr ⟨e, n, hLater, (bind_ok rfl).trans hEnd⟩

/-- What is moved from a fresh file into its place adds nothing elsewhere. -/
theorem moveInto_adds {b : Bench} {temporary target : String}
    (hAbsolute : isAbsolute temporary = true)
    (hNotFolder : b.disk.get? (resolve b.current temporary) ≠ some .folder) :
    Adds (· = resolve b.current target) (fun _ => False) b
      (endState (moveInto temporary target b)) := by
  refine changeDisk_adds fun d hMoved => ?_
  rw [resolve_absolute hAbsolute [] b.current] at hMoved
  exact Disk.replaceFile_growsTo hMoved hNotFolder

theorem endState_ensuring {σ α : Type} (first : EStateM Error σ α)
    (second : EStateM Error σ Unit) (s : σ) :
    endState (ensuring first second s) = endState (second (endState (first s))) := by
  rw [ensuring]
  cases first s with
  | ok a s₁ =>
      dsimp only [endState]
      cases second s₁ <;> rfl
  | error e s₁ =>
      dsimp only [endState]
      cases second s₁ <;> rfl

/-- A document is added at its place.  The file that it is stored in first is gone, whether it was
moved or not. -/
theorem writeDocument_adds {path : String} (data indent : Value) {b : Bench}
    (hTree : b.disk.IsTree)
    (hThere : ∀ l, Disk.OnTheWay b.current (FilePath.ofString path).parent.text l →
      b.disk.get? l = some .folder) :
    Adds (· = resolve b.current (FilePath.ofString path).text) (fun _ => False) b
      (endState (writeDocument path data indent b)) := by
  generalize hTarget : FilePath.ofString path = target at hThere ⊢
  have hEnsured := ensureFolder_adds (A := (· = resolve b.current target.text))
    (F := fun _ => False) hTree hThere
  rw [writeDocument, hTarget]
  refine endState_bind (fun e b₁ hFails => ?_) fun _ b₁ hFolder => ?_
  · rwa [hFails] at hEnsured
  rw [hFolder] at hEnsured
  refine hEnsured.trans ?_
  rw [← hEnsured.current]
  have hTree₁ := hEnsured.disk.tree hTree
  rcases openBeside_cases target b₁ with
    ⟨temporary, n, l, d, hOpens, hAbsolute, hEnd⟩ | ⟨e, n, hLater, hEnd⟩
  swap
  · rw [bind_error hEnd]
    exact ⟨rfl, rfl, rfl, hLater, Disk.GrowsTo.refl _ _ _⟩
  rw [bind_ok hEnd, endState_ensuring]
  have hPlace : resolve b₁.current temporary = l := (Disk.locate_eq_ok hOpens.place).symm
  -- whatever is done with the file, it is no folder, and can be found again
  have hOpened : Adds (fun m => m = resolve b₁.current target.text ∨ Disk.isBelow l m = true)
      (fun _ => False) b₁ { b₁ with disk := d, namesDrawn := n + 1 } := by
    refine ⟨rfl, rfl, rfl, Nat.le_succ_of_le hOpens.drawn, hOpens.growsTo.mono ?_ ?_⟩
    · rintro m rfl
      exact .inr (Disk.isBelow_self m)
    · rintro m ⟨-, ⟨⟩⟩
  have hWork : Adds (fun m => m = resolve b₁.current target.text ∨ Disk.isBelow l m = true)
      (fun _ => False) b₁ (endState ((do
        store temporary (Json.documentText indent data)
        moveInto temporary target.text : Action Unit)
          { b₁ with disk := d, namesDrawn := n + 1 })) := by
    have hStored := hOpened.trans ((store_adds temporary (Json.documentText indent data)
      { b₁ with disk := d, namesDrawn := n + 1 }).mono
      (B := fun m => m = resolve b₁.current target.text ∨ Disk.isBelow l m = true)
      (fun m hm => .inr (by rw [hm, hPlace]; exact Disk.isBelow_self l)) fun _ h => h)
    refine endState_bind (fun e b₂ hFails => ?_) fun _ b₂ hStore => ?_
    · rwa [hFails] at hStored
    rw [hStore] at hStored
    refine hStored.trans ((moveInto_adds hAbsolute ?_).mono (fun m hm => .inl ?_) fun _ h => h)
    · rw [hStored.current, hPlace]
      intro hFolder
      rcases hStored.disk.made l hFolder with hBefore | hNone
      · rw [hOpens.free] at hBefore
        cases hBefore
      · exact hNone
    · rw [hm, hStored.current]
  generalize endState ((do
    store temporary (Json.documentText indent data)
    moveInto temporary target.text : Action Unit)
      { b₁ with disk := d, namesDrawn := n + 1 }) = b₃ at hWork
  have hFound := Disk.locate_of_folders hWork.disk.kept hOpens.place
  rw [← hWork.current] at hFound
  have hCleared := Disk.clearedAt_discard (hWork.disk.tree hTree₁) hFound
    (Disk.not_endsWithDots_of_free hTree₁ hOpens.place hOpens.free) hOpens.inside
  exact ⟨hWork.toolbox, hWork.current, hWork.registry, hWork.drawn,
    hCleared.growsTo hTree₁ hOpens.free hWork.disk⟩

/-! ## Runs -/

/-- A run with an output option, in the current folder, adds below the output folder if it is one
of the compiler. -/
theorem compiler_adds {program : Program} {arguments : List String} {output : String} {b b' : Bench}
    {o : Outcome} (hOption : argumentAfter? "-o" arguments = some output)
    (h : run program arguments none b = .ok o b') :
    ∃ r : ToolRun, b'.runs = b.runs ++ [r] ∧ (r.IsProper →
      Adds (fun l => Disk.isBelow (resolve b.current output) l = true)
        (fun l => ∃ around lead, l = around ++ [lead ++ "_js"]) b b') := by
  obtain ⟨path, -, hStart⟩ := run_eq_ok h
  obtain ⟨tool, folder, hFolder, -, -, rfl⟩ := start_eq_ok hStart
  cases hFolder
  refine ⟨b.nextRun tool b.current arguments, rfl, fun hProper => ?_⟩
  have hTool : tool = .circom := hProper fun hNone => nomatch hOption.symm.trans hNone
  have hGrown := (nextRun_isOf b tool b.current arguments).compiler_growsTo hTool
    (outputArgument?_of_option hOption)
  exact ⟨rfl, rfl, rfl, Nat.le_refl _, hGrown⟩

/-- A run without an output folder adds where its fourth argument leads to from the folder that it
is started in. -/
theorem generator_adds {program : Program} {arguments : List String} {asked : Option String}
    {b b' : Bench} {o : Outcome} (hNone : outputArgument? arguments = none)
    (h : run program arguments asked b = .ok o b') :
    ∃ folder, Adds (fun l => b.disk.get? l.dropLast = some .folder ∧
        ∃ path, arguments[3]? = some path ∧ l = resolve folder path) (fun _ => False) b b' := by
  obtain ⟨path, -, hStart⟩ := run_eq_ok h
  obtain ⟨tool, folder, -, -, -, rfl⟩ := start_eq_ok hStart
  have hGrown := (nextRun_isOf b tool folder arguments).generator_growsTo hNone
  exact ⟨folder, rfl, rfl, rfl, Nat.le_refl _, hGrown⟩

end Bench

end CircuitBench
