import CircuitBench.Proofs.Disk.Growth
import CircuitBench.Proofs.Path.Spelled
import CircuitBench.Tool.Run

/-!
# What work on a disk spares

Work that makes files and folders at free places spares all that is there.  A file that is written
again is still a file, with other bytes; what is removed goes with all that lies below it, and the
rest is spared.  So of any amount of work can be told at which places something may have been lost,
and at which others a file may have changed.

Work is done from a home folder.  That folder may be removed on the way, and then no relative path
can be followed any more; an absolute path leads where it always led.  So a path that can be followed
at all leads where it leads from home.

## Main results

* `Spares` : a disk before and after some work.
* `Stands.located` : where a path leads that can be followed.
* `Stands.makeFolders`, `Stands.writeFile`, `Stands.clearFolder`, `Stands.discardAll` : what an
  operation spares.
* `Spares.of_free` : what was made at a free place may be removed again.
* `Stands.run` : what a run of a program spares.
-/

namespace CircuitBench

open CircuitBench.Path

namespace Disk

open Bench (nowhere)

variable {d d' d'' : Disk} {E E' : Location → Prop} {W W' : Location → List UInt8 → Prop}
variable {home current l : Location} {path : String}

/-! ## Sparing -/

/-- Whether a disk comes from another one by work that takes away what lies at some places only, and
writes some files only, at other places.  What was nowhere is nowhere still, and a tree has stayed a
tree. -/
structure Spares (E : Location → Prop) (W : Location → List UInt8 → Prop) (d d' : Disk) : Prop where
  nothing : d.get? nowhere = none → d'.get? nowhere = none
  tree : d.IsTree → d'.IsTree
  folders : ∀ l, ¬ E l → d.get? l = some .folder → d'.get? l = some .folder
  files : ∀ l bytes, ¬ E l → d.get? l = some (.file bytes) →
    d'.get? l = some (.file bytes) ∨ ∃ bytes', W l bytes' ∧ d'.get? l = some (.file bytes')

namespace Spares

theorem refl (E : Location → Prop) (W : Location → List UInt8 → Prop) (d : Disk) : Spares E W d d :=
  ⟨fun h => h, fun h => h, fun _ _ h => h, fun _ _ _ h => .inl h⟩

theorem trans (h : Spares E W d d') (h' : Spares E W d' d'') : Spares E W d d'' := by
  refine ⟨fun hNone => h'.nothing (h.nothing hNone), fun hTree => h'.tree (h.tree hTree),
    fun l hl hFolder => h'.folders l hl (h.folders l hl hFolder), fun l bytes hl hFile => ?_⟩
  rcases h.files l bytes hl hFile with hSame | ⟨bytes', hWritten, hChanged⟩
  · exact h'.files l bytes hl hSame
  · rcases h'.files l bytes' hl hChanged with hSame | hAgain
    · exact .inr ⟨bytes', hWritten, hSame⟩
    · exact .inr hAgain

/-- A file that may be written may also be taken away. -/
theorem mono (h : Spares E W d d') (hE : ∀ l, E l → E' l)
    (hW : ∀ l bytes, W l bytes → E' l ∨ W' l bytes) : Spares E' W' d d' := by
  refine ⟨h.nothing, h.tree, fun l hl => h.folders l (mt (hE l) hl), fun l bytes hl hFile => ?_⟩
  rcases h.files l bytes (mt (hE l) hl) hFile with hSame | ⟨bytes', hWritten, hChanged⟩
  · exact .inl hSame
  · exact .inr ⟨bytes', (hW l bytes' hWritten).resolve_left hl, hChanged⟩

end Spares

/-! ## Single places -/

/-- Something that is put to a free place spares all that is there. -/
theorem spares_put_free (hAround : d.get? l.dropLast = some .folder) (hFree : d.get? l = none)
    (hHere : l ≠ nowhere) (node : Node) : Spares E W d (d.put l node) := by
  have hOther : ∀ m node', d.get? m = some node' → (d.put l node).get? m = some node' := by
    intro m node' hm
    have hNotSame : m ≠ l := by
      rintro rfl
      cases hFree.symm.trans hm
    rw [get?_put_of_ne d hNotSame, hm]
  refine ⟨fun hNone => ?_, fun hTree => hTree.put hAround (.inr (by simp [hFree])),
    fun m _ hm => hOther m _ hm, fun m _ _ hm => .inl (hOther m _ hm)⟩
  rwa [get?_put_of_ne d (Ne.symm hHere)]

/-- A file that is written may change the one at its place. -/
theorem spares_put_file (hAround : d.get? l.dropLast = some .folder)
    (hNotFolder : d.get? l ≠ some .folder) (hHere : l ≠ nowhere) {bytes : List UInt8}
    (hWritten : E l ∨ W l bytes) : Spares E W d (d.put l (.file bytes)) := by
  refine ⟨fun hNone => ?_, fun hTree => hTree.put hAround (.inr hNotFolder), fun m _ hm => ?_,
    fun m bytes' hOut hm => ?_⟩
  · rwa [get?_put_of_ne d (Ne.symm hHere)]
  · have hNotSame : m ≠ l := by
      rintro rfl
      exact hNotFolder hm
    rw [get?_put_of_ne d hNotSame, hm]
  · by_cases hSame : m = l
    · subst hSame
      have hInside : m ≠ [] := by
        rintro rfl
        exact hNotFolder rfl
      exact .inr ⟨bytes, hWritten.resolve_left hOut, get?_put_self d hInside _⟩
    · rw [get?_put_of_ne d hSame]
      exact .inl hm

/-- What is taken away is no folder, or goes with all that lies below it. -/
theorem spares_remove (hNotFolder : d.get? l ≠ some .folder) (hTaken : E l) :
    Spares E W d (d.remove l) := by
  have hInside : l ≠ [] := by
    rintro rfl
    exact hNotFolder rfl
  have hOther : ∀ m, ¬ E m → (d.remove l).get? m = d.get? m := by
    intro m hm
    refine get?_remove_of_ne d ?_
    rintro rfl
    exact hm hTaken
  refine ⟨fun hNone => ?_, fun hTree => hTree.remove hNotFolder,
    fun m hm hFolder => (hOther m hm).trans hFolder,
    fun m _ hm hFile => .inl ((hOther m hm).trans hFile)⟩
  by_cases hSame : nowhere = l
  · rw [hSame]
    exact get?_remove_self d hInside
  · rwa [get?_remove_of_ne d hSame]

theorem get?_removeTree (d : Disk) (l : Location) (itself : Bool) (m : Location) :
    (d.removeTree l itself).get? m = d.get? m ∨
      (d.removeTree l itself).get? m = none ∧ isBelow l m = true ∧ (itself = false → m ≠ l) := by
  by_cases hRoot : m = []
  · subst hRoot
    exact .inl rfl
  cases hKeep : !(isBelow l m && (itself || m != l)) with
  | true =>
      refine .inl ?_
      rw [get?, get?, if_neg hRoot, if_neg hRoot]
      exact find?_filter (fun m => !(isBelow l m && (itself || m != l))) m hKeep d.nodes
  | false =>
      refine .inr ⟨?_, ?_⟩
      · rw [get?, if_neg hRoot]
        exact find?_filter_none (fun m => !(isBelow l m && (itself || m != l))) m hKeep d.nodes
      · simpa using hKeep

/-- A tree stays a tree when all is taken away that lies below a place. -/
theorem IsTree.removeTree (hTree : d.IsTree) (l : Location) (itself : Bool) :
    (d.removeTree l itself).IsTree := by
  intro m hSome
  have hThere : d.get? m ≠ none := by
    rcases get?_removeTree d l itself m with hSame | ⟨hGone, -⟩
    · rwa [← hSame]
    · exact absurd hGone hSome
  rcases get?_removeTree d l itself m.dropLast with hSame | ⟨hGone, hBelow, hOther⟩
  · rw [hSame, hTree m hThere]
  -- what is taken away around the place is taken away at the place as well
  · by_cases hRoot : m = []
    · subst hRoot
      rfl
    have hLast : isBelow l m = true :=
      isBelow_trans hBelow (List.isPrefixOf_iff_prefix.mpr (List.dropLast_prefix m))
    have hLonger : m ≠ l := by
      rintro rfl
      have hLength := (List.isPrefixOf_iff_prefix.mp hBelow).length_le
      have hPositive := List.length_pos_iff.mpr hRoot
      rw [List.length_dropLast] at hLength
      omega
    refine absurd ?_ hSome
    rw [get?, if_neg hRoot]
    refine find?_filter_none (fun m => !(isBelow l m && (itself || m != l))) m ?_ d.nodes
    simp [hLast, hLonger]

theorem spares_removeTree (itself : Bool) (hTaken : ∀ m, isBelow l m = true → E m) :
    Spares E W d (d.removeTree l itself) := by
  have hOther : ∀ m, ¬ E m → (d.removeTree l itself).get? m = d.get? m := fun m hm =>
    get?_removeTree_of_not_below d (Bool.eq_false_iff.mpr (mt (hTaken m) hm)) itself
  refine ⟨fun hNone => ?_, fun hTree => hTree.removeTree l itself,
    fun m hm hFolder => (hOther m hm).trans hFolder,
    fun m _ hm hFile => .inl ((hOther m hm).trans hFile)⟩
  rcases get?_removeTree d l itself nowhere with hSame | ⟨hGone, -⟩
  · rw [hSame, hNone]
  · exact hGone

/-- Nothing that was there is lost at a place that was free, nor below it. -/
theorem Spares.of_free (h : Spares (fun m => E m ∨ isBelow l m = true) W d d') (hTree : d.IsTree)
    (hFree : d.get? l = none) : Spares E W d d' := by
  have hOut : ∀ m, d.get? m ≠ none → ¬ E m → ¬ (E m ∨ isBelow l m = true) := by
    rintro m hm hNot (hTaken | hBelow)
    · exact hNot hTaken
    · by_cases hSame : m = l
      · exact hm (hSame ▸ hFree)
      · exact hm (hTree.get?_of_isBelow (by simp [hFree]) hBelow hSame)
  exact ⟨h.nothing, h.tree, fun m hm hFolder => h.folders m (hOut m (by simp [hFolder]) hm) hFolder,
    fun m bytes hm hFile => h.files m bytes (hOut m (by simp [hFile]) hm) hFile⟩

/-! ## Paths from home -/

/-- Whether work is done from a home folder that can be spelled: the current folder is home, or home
has been removed. -/
structure Stands (home current : Location) (d : Disk) : Prop where
  placed : home = nowhere ∨ IsSpelled home
  here : current = home ∨ current = nowhere
  nothing : d.get? nowhere = none

theorem not_isSpelled_nowhere : ¬ IsSpelled nowhere := by
  decide

namespace Stands

theorem mono (h : Stands home current d) (hSpared : Spares E W d d') : Stands home current d' :=
  ⟨h.placed, h.here, hSpared.nothing h.nothing⟩

/-- A path that can be followed leads where it leads from home, to a place that can be spelled. -/
theorem located (h : Stands home current d) {place : Place}
    (hPlace : d.locate current path = .ok place) :
    place.location = resolve home path ∧ IsSpelled place.location := by
  rw [locate_eq_ok hPlace]
  cases hAbsolute : isAbsolute path with
  | true =>
      exact ⟨resolve_absolute hAbsolute _ _, isSpelled_resolve (.inl hAbsolute)⟩
  | false =>
      have hHere : current ≠ nowhere := by
        rintro rfl
        cases h.nothing.symm.trans (folder_of_relative hPlace hAbsolute)
      obtain rfl := h.here.resolve_right hHere
      exact ⟨rfl, isSpelled_resolve (.inr (h.placed.resolve_left hHere))⟩

theorem ne_nowhere (h : Stands home current d) {place : Place}
    (hPlace : d.locate current path = .ok place) : place.location ≠ nowhere :=
  fun hSame => not_isSpelled_nowhere (hSame ▸ (h.located hPlace).2)

/-- So does a path that leads to something. -/
theorem status (h : Stands home current d) {node : Node}
    (hStatus : d.status current path = .ok (l, node)) :
    l = resolve home path ∧ IsSpelled l ∧ d.get? l = some node := by
  have hNode := (status_eq_ok hStatus).2
  rw [Disk.status] at hStatus
  split at hStatus
  · cases hStatus
  · rename_i place hPlace
    have hLocated := h.located hPlace
    split at hStatus
    · cases hStatus
    · split at hStatus
      · cases hStatus
      · cases hStatus
        exact ⟨hLocated.1, hLocated.2, hNode⟩
    · cases hStatus
      exact ⟨hLocated.1, hLocated.2, hNode⟩

/-! ## Files and folders -/

theorem makeFolder (h : Stands home current d)
    (hMade : d.makeFolder current path = .ok (l, d')) : Spares E W d d' := by
  obtain ⟨-, hAround, hFree, rfl⟩ := makeFolder_eq_ok hMade
  exact spares_put_free hAround hFree (h.ne_nowhere (locate_of_makeFolder hMade)) .folder

theorem makeFolders (h : Stands home current d) (p : FilePath) :
    Spares E W d (d.makeFolders current p).2 := by
  refine makeFolders_preserves (P := Spares E W d) (fun hSpared hMade => ?_) (.refl E W d) p
  exact hSpared.trans ((h.mono hSpared).makeFolder hMade)

/-- A file that is written is found where its path leads, in a folder, and was none itself. -/
theorem writeFile (h : Stands home current d) {bytes : List UInt8}
    (hWritten : d.writeFile current path bytes = .ok d')
    (hAllowed : E (resolve home path) ∨ W (resolve home path) bytes) : Spares E W d d' := by
  rw [Disk.writeFile] at hWritten
  split at hWritten
  · cases hWritten
  rename_i place hVacancy
  have hPlace := locate_of_vacancy hVacancy
  have hAround := (vacancy_eq_ok hVacancy).2
  split at hWritten
  · cases hWritten
  rename_i hNot
  cases hWritten
  have hNotFolder : d.get? place.location ≠ some .folder := by
    simpa [isFolderAt] using (not_or.mp hNot).1
  rw [← (h.located hPlace).1] at hAllowed
  exact spares_put_file hAround hNotFolder (h.ne_nowhere hPlace) hAllowed

/-- A file that is moved is taken away and takes the place of another one. -/
theorem replaceFile (h : Stands home current d) {source : Location}
    (hMoved : d.replaceFile current source path = .ok d')
    (hNotFolder : d.get? source ≠ some .folder) (hSource : E source)
    (hTarget : E (resolve home path)) : Spares E W d d' := by
  have hGrown := replaceFile_growsTo hMoved hNotFolder
  obtain ⟨place, node, hPlace, hNode, -, -, rfl⟩ := place_of_replaceFile hMoved
  rw [← (h.located hPlace).1] at hTarget
  have hOther : ∀ m, m ≠ source → m ≠ place.location →
      ((d.remove source).put place.location node).get? m = d.get? m := fun m hm hm' => by
    rw [get?_put_of_ne _ hm', get?_remove_of_ne _ hm]
  refine ⟨fun hNone => ?_, hGrown.tree, fun m _ hm => hGrown.kept m hm,
    fun m bytes hm hFile => .inl ?_⟩
  · have hThere : nowhere ≠ source := by
      rintro rfl
      cases hNone.symm.trans hNode
    rw [hOther _ hThere (Ne.symm (h.ne_nowhere hPlace)), hNone]
  · rw [hOther m (fun hSame => hm (hSame ▸ hSource)) (fun hSame => hm (hSame ▸ hTarget)), hFile]

/-- What a folder holds is taken away. -/
theorem clearFolder (h : Stands home current d) (path : String)
    (hTaken : ∀ m, isBelow (resolve home path) m = true → E m) :
    Spares E W d (d.clearFolder current path) := by
  rw [Disk.clearFolder]
  split
  · rename_i l hStatus
    obtain ⟨rfl, -⟩ := h.status hStatus
    exact spares_removeTree _ hTaken
  · exact .refl E W d

/-- What a path leads to is taken away. -/
theorem discard (h : Stands home current d) (path : String)
    (hTaken : ∀ m, isBelow (resolve home path) m = true → E m) :
    Spares E W d (d.discard current path).2 := by
  rw [Disk.discard]
  split
  · exact h.clearFolder path hTaken
  · rename_i l bytes hStatus
    obtain ⟨rfl, -, hFile⟩ := h.status hStatus
    exact spares_remove (by simp [hFile]) (hTaken _ (isBelow_self _))
  · exact .refl E W d

theorem discardAll (h : Stands home current d) (paths : List String)
    (hTaken : ∀ p ∈ paths, ∀ m, isBelow (resolve home p) m = true → E m) :
    Spares E W d (Registry.discardAll current paths d).2 := by
  induction paths generalizing d with
  | nil => exact .refl E W d
  | cons path rest ih =>
      obtain ⟨hFirst, hRest⟩ := List.forall_mem_cons.mp hTaken
      have hSpared := h.discard (W := W) path hFirst
      exact hSpared.trans (ih (h.mono hSpared) hRest)

end Stands

/-! ## Folders that were made -/

/-- A folder that is found can be walked to. -/
theorem isFolder_eq_true (h : d.isFolder current path = true) :
    ∃ place, d.locate current path = .ok place ∧ d.get? place.location = some .folder := by
  rw [isFolder] at h
  split at h
  · rename_i l hStatus
    rw [Disk.status] at hStatus
    split at hStatus
    · cases hStatus
    · rename_i place hPlace
      split at hStatus
      · cases hStatus
      · split at hStatus <;> cases hStatus
      · rename_i hFolder
        exact ⟨place, hPlace, hFolder⟩
  · cases h

/-- A folder that could be made with those around it is there. -/
theorem folder_of_makeFolders {p : FilePath} (h : d.makeFolders current p = (.ok (), d')) :
    ∃ place, d'.locate current p.text = .ok place ∧ d'.get? place.location = some .folder := by
  rw [Disk.makeFolders] at h
  split at h
  · cases h
  have hMade : ∀ {d d' : Disk} {path : String} {l : Location},
      d.makeFolder current path = .ok (l, d') →
        ∃ place, d'.locate current path = .ok place ∧ d'.get? place.location = some .folder := by
    intro d d' path l hMade
    have hPlace := locate_of_makeFolder hMade
    obtain ⟨-, hAround, hFree, rfl⟩ := makeFolder_eq_ok hMade
    have hInside : l ≠ [] := by
      rintro rfl
      cases hFree
    exact ⟨_, locate_of_folders (put_folder_growsTo hAround hFree).kept hPlace,
      get?_put_self d hInside .folder⟩
  generalize hNames : p.parts.reverse = ns at h
  have hText : p.text = FilePath.text ⟨p.root, ns.reverse⟩ := by
    rw [← hNames, List.reverse_reverse]
  rw [hText]
  cases ns with
  | nil =>
      rw [makeFoldersFrom] at h
      split at h
      · rename_i hThere
        cases h
        exact isFolder_eq_true hThere
      · cases h
  | cons n around =>
      rw [makeFoldersFrom] at h
      split at h
      · rename_i hFirst
        cases h
        exact hMade hFirst
      · split at h
        · cases h
        · split at h
          · rename_i hLast
            cases h
            exact hMade hLast
          · split at h
            · rename_i hThere
              cases h
              exact isFolder_eq_true hThere
            · cases h
      · split at h
        · rename_i hThere
          cases h
          exact isFolder_eq_true hThere
        · cases h

/-! ## Programs -/

namespace Stands

/-- A deed changes no file but the one that is written.  Its path leads to the same place from the
folder that the program was started in as from home, or it is refused. -/
theorem deed (h : Stands home current d) {deed : Deed}
    (hAllowed : ∀ path bytes l, deed = .file path bytes → l = resolve current path →
      l = resolve home path → E l ∨ W l bytes) : Spares E W d (deed.perform current d) := by
  cases deed with
  | folder path =>
      rw [Deed.perform]
      split
      · rename_i hMade
        exact h.makeFolder hMade
      · exact .refl E W d
  | file path bytes =>
      rw [Deed.perform]
      split
      · rename_i hWritten
        have hPlace : resolve home path = resolve current path := by
          rw [Disk.writeFile] at hWritten
          split at hWritten
          · cases hWritten
          · rename_i place hVacancy
            have hFound := locate_of_vacancy hVacancy
            rw [← (h.located hFound).1, locate_eq_ok hFound]
        exact h.writeFile hWritten (hAllowed path bytes _ rfl hPlace rfl)
      · exact .refl E W d

/-- A run of a program changes no file but those that are written. -/
theorem run {r : ToolRun} (h : Stands home r.folder r.disk)
    (hAllowed : ∀ path bytes l, .file path bytes ∈ r.conduct.deeds → l = resolve r.folder path →
      l = resolve home path → E l ∨ W l bytes) : Spares E W r.disk r.after := by
  refine List.foldlRecOn r.conduct.deeds (Deed.perform r.folder) (motive := Spares E W r.disk)
    (.refl E W r.disk) fun d hBefore deed hMem => hBefore.trans ?_
  refine (h.mono hBefore).deed fun path bytes l hSame => ?_
  exact hAllowed path bytes l (hSame ▸ hMem)

end Stands

end Disk

/-- Whether a run of the compiler makes an artifact: it is told to write into a folder that its
arguments name from a home folder, and writes the file at a place at or below that one. -/
structure ToolRun.MakesArtifact (r : ToolRun) (home l : Location) (bytes : List UInt8) : Prop where
  tool : r.tool = .circom
  told : ∃ output, outputArgument? r.arguments = some output ∧
    Disk.isBelow (resolve home output) l = true
  wrote : ∃ path, .file path bytes ∈ r.conduct.deeds ∧ l = resolve home path

end CircuitBench
