import CircuitBench.Disk.Basic

/-!
# What an operation on a disk changes

An operation that is not refused changes the disk at one location, the one that its path leads to
lexically: a path is followed on the disk name by name, but there are no links, so that it ends
where its names say.  The folder around that location is there, which is why a disk stays a tree.

What is said of all operations at once is said of any property that writing a file and making a
folder keep.

## Main results

* `walk_eq_follow`, `locate_eq_ok` : a path leads where its names lead.
* `writeFile_eq_ok`, `createFile_eq_ok`, `makeFolder_eq_ok`, `replaceFile_eq_ok` : the one change of
  an operation.
* `IsTree.put` : a node that is put into a folder leaves the disk a tree.
* `makeFolders_preserves` : what making one folder keeps, making several keeps.
-/

namespace CircuitBench.Disk

open CircuitBench.Path

variable {d d' : Disk} {current : Location} {path : String}

/-! ## Trees -/

/-- Whether every node of a disk lies in a folder, as in any file system. -/
def IsTree (d : Disk) : Prop :=
  ∀ l, d.get? l ≠ none → d.get? l.dropLast = some .folder

/-- Whether a location holds no file: nothing, or a folder. -/
def NoFileAt (l : Location) (d : Disk) : Prop :=
  ∀ bytes, d.get? l ≠ some (.file bytes)

/-- What is found at a location is listed there. -/
theorem exists_of_find? {l : Location} {nodes : List (Location × Node)}
    (h : find? l nodes ≠ none) : ∃ e ∈ nodes, e.1 = l := by
  induction nodes with
  | nil => exact absurd rfl h
  | cons e rest ih =>
      by_cases hSame : e.1 = l
      · exact ⟨e, by simp, hSame⟩
      · rw [find?, if_neg hSame] at h
        obtain ⟨e', hMem, hLocation⟩ := ih h
        exact ⟨e', by simp [hMem], hLocation⟩

/-- A disk is a tree if every node that is listed lies in a folder. -/
theorem isTree_of_nodes (h : ∀ e ∈ d.nodes, d.get? e.1.dropLast = some .folder) : d.IsTree := by
  intro l hSome
  by_cases hRoot : l = []
  · rw [hRoot]
    rfl
  · rw [get?, if_neg hRoot] at hSome
    obtain ⟨e, hMem, rfl⟩ := exists_of_find? hSome
    exact h e hMem

/-- A node that is put in place of no folder, or a folder in any place, leaves every folder. -/
private theorem folder_put {l m : Location} {node : Node} (hFolder : d.get? m = some .folder)
    (hNode : node = .folder ∨ d.get? l ≠ some .folder) : (d.put l node).get? m = some .folder := by
  by_cases hRoot : m = []
  · rw [hRoot]
    rfl
  · by_cases hSame : m = l
    · subst hSame
      rcases hNode with rfl | hNode
      · exact get?_put_self d hRoot .folder
      · exact absurd hFolder hNode
    · rw [get?_put_of_ne d hSame, hFolder]

/-- A node that is put into a folder leaves the disk a tree, unless it takes the place of a folder
that it is not. -/
theorem IsTree.put (hTree : d.IsTree) {l : Location} {node : Node}
    (hAround : d.get? l.dropLast = some .folder)
    (hNode : node = .folder ∨ d.get? l ≠ some .folder) :
    (d.put l node).IsTree := by
  intro m hSome
  by_cases hSame : m = l
  · exact folder_put (hSame ▸ hAround) hNode
  · rw [get?_put_of_ne d hSame] at hSome
    exact folder_put (hTree m hSome) hNode

/-- In a tree, nothing lies in a location that is free. -/
theorem IsTree.get?_below (hTree : d.IsTree) {l : Location} (hFree : d.get? l = none)
    (name : String) : d.get? (l ++ [name]) = none := by
  refine Classical.byContradiction fun hSome => ?_
  have hFolder := hTree (l ++ [name]) hSome
  rw [List.dropLast_concat, hFree] at hFolder
  cases hFolder

theorem NoFileAt.put {l m : Location} (h : d.NoFileAt l) {node : Node}
    (hNode : m ≠ l ∨ node = .folder) : (d.put m node).NoFileAt l := by
  intro bytes hFile
  by_cases hSame : l = m
  · subst hSame
    by_cases hRoot : l = []
    · subst hRoot
      cases hFile
    · rw [get?_put_self d hRoot] at hFile
      rcases hNode with hNode | rfl
      · exact hNode rfl
      · cases hFile
  · rw [get?_put_of_ne d hSame] at hFile
    exact h bytes hFile

theorem NoFileAt.remove {l : Location} (h : d.NoFileAt l) (m : Location) :
    (d.remove m).NoFileAt l := by
  intro bytes hFile
  by_cases hSame : l = m
  · subst hSame
    by_cases hRoot : l = []
    · subst hRoot
      cases hFile
    · rw [get?_remove_self d hRoot] at hFile
      cases hFile
  · rw [get?_remove_of_ne d hSame] at hFile
    exact h bytes hFile

theorem NoFileAt.removeTree {l : Location} (h : d.NoFileAt l) (m : Location) (itself : Bool) :
    (d.removeTree m itself).NoFileAt l := by
  intro bytes hFile
  refine h bytes ?_
  by_cases hRoot : l = []
  · subst hRoot
    cases hFile
  · cases hKeep : !(isBelow m l && (itself || l != m)) with
    | true =>
        rw [get?, if_neg hRoot] at hFile ⊢
        rwa [Disk.removeTree,
          find?_filter (fun l => !(isBelow m l && (itself || l != m))) l hKeep] at hFile
    | false =>
        rw [get?, if_neg hRoot, Disk.removeTree,
          find?_filter_none (fun l => !(isBelow m l && (itself || l != m))) l hKeep] at hFile
        cases hFile

/-- What is taken away leaves no file where there was none. -/
theorem NoFileAt.discard {l : Location} (h : d.NoFileAt l) (current : Location) (path : String) :
    (d.discard current path).2.NoFileAt l := by
  rw [Disk.discard]
  split
  · rw [clearFolder]
    split
    · exact h.removeTree _ _
    · exact h
  · exact h.remove _
  · exact h

/-! ## Paths -/

/-- Names that are followed on a disk lead where they lead lexically. -/
theorem walk_eq_follow {here l : Location} {ns : List String} (h : d.walk here ns = .ok l) :
    l = follow here ns := by
  induction ns generalizing here with
  | nil =>
      cases h
      rfl
  | cons n rest ih =>
      rw [walk] at h
      split at h
      · rename_i hEmpty
        have hStep : step here n = here := by rw [step, if_pos (.inl hEmpty)]
        rw [follow, List.foldl_cons, hStep]
        exact ih h
      · split at h
        · cases h
        · cases h
        · split at h
          · cases h
          · exact ih h

/-- A path that is not refused leads where it leads lexically. -/
theorem locate_eq_ok {place : Place} (h : d.locate current path = .ok place) :
    place.location = resolve current path := by
  rw [locate] at h
  split at h
  · cases h
  · split at h
    · cases h
    · rename_i hWalk
      cases h
      exact walk_eq_follow hWalk

theorem status_eq_ok {l : Location} {node : Node} (h : d.status current path = .ok (l, node)) :
    l = resolve current path ∧ d.get? l = some node := by
  rw [status] at h
  split at h
  · cases h
  · rename_i place hLocate
    have hPlace := locate_eq_ok hLocate
    split at h
    · cases h
    · rename_i bytes hNode
      split at h
      · cases h
      · cases h
        exact ⟨hPlace, hNode⟩
    · rename_i hNode
      cases h
      exact ⟨hPlace, hNode⟩

/-- The bytes that are read stand in the file that the path leads to. -/
theorem readFile_eq_ok {bytes : List UInt8} (h : d.readFile current path = .ok bytes) :
    d.get? (resolve current path) = some (.file bytes) := by
  rw [readFile] at h
  split at h
  · cases h
  · cases h
  · rename_i l bytes' hStatus
    cases h
    obtain ⟨rfl, hNode⟩ := status_eq_ok hStatus
    exact hNode

theorem vacancy_eq_ok {place : Place} (h : d.vacancy current path = .ok place) :
    place.location = resolve current path ∧ d.get? place.location.dropLast = some .folder := by
  rw [vacancy] at h
  split at h
  · cases h
  · rename_i hLocate
    have hPlace := locate_eq_ok hLocate
    split at h
    · cases h
    · cases h
    · rename_i hAround
      cases h
      exact ⟨hPlace, hAround⟩

/-! ## Single operations -/

/-- A fresh file is put into a folder, where nothing was. -/
theorem createFile_eq_ok {l : Location} (h : d.createFile current path = .ok (l, d')) :
    l = resolve current path ∧ d.get? l.dropLast = some .folder ∧ d.get? l = none ∧
      d' = d.put l (.file []) := by
  rw [createFile] at h
  split at h
  · cases h
  · rename_i place hVacancy
    obtain ⟨hPlace, hAround⟩ := vacancy_eq_ok hVacancy
    split at h
    · cases h
    · rename_i hFree
      split at h
      · cases h
      · cases h
        exact ⟨hPlace, hAround, by simpa using hFree, rfl⟩

/-- A file is written into a folder, where no folder was. -/
theorem writeFile_eq_ok {bytes : List UInt8} (h : d.writeFile current path bytes = .ok d') :
    d.get? (resolve current path).dropLast = some .folder ∧
    d.get? (resolve current path) ≠ some .folder ∧
      d' = d.put (resolve current path) (.file bytes) := by
  rw [writeFile] at h
  split at h
  · cases h
  · rename_i place hVacancy
    obtain ⟨hPlace, hAround⟩ := vacancy_eq_ok hVacancy
    split at h
    · cases h
    · rename_i hNotFolder
      obtain ⟨hNotFolder, -⟩ := not_or.mp hNotFolder
      cases h
      rw [← hPlace]
      exact ⟨hAround, by simpa [isFolderAt] using hNotFolder, rfl⟩

/-- A fresh folder is put into a folder, where nothing was. -/
theorem makeFolder_eq_ok {l : Location} (h : d.makeFolder current path = .ok (l, d')) :
    l = resolve current path ∧ d.get? l.dropLast = some .folder ∧ d.get? l = none ∧
      d' = d.put l .folder := by
  rw [makeFolder] at h
  split at h
  · cases h
  · rename_i place hVacancy
    obtain ⟨hPlace, hAround⟩ := vacancy_eq_ok hVacancy
    split at h
    · cases h
    · rename_i hFree
      cases h
      exact ⟨hPlace, hAround, by simpa using hFree, rfl⟩

/-- A node is taken from one location and put at another. -/
theorem replaceFile_eq_ok {source : Location} (h : d.replaceFile current source path = .ok d') :
    ∃ node, d.get? source = some node ∧ d' = (d.remove source).put (resolve current path) node := by
  rw [replaceFile] at h
  split at h
  · cases h
  · split at h
    · cases h
    · cases h
    · rename_i place node hVacancy hNode
      obtain ⟨hPlace, -⟩ := vacancy_eq_ok hVacancy
      split at h
      · cases h
      · split at h
        · cases h
        · cases h
          exact ⟨node, hNode, by rw [← hPlace]⟩

/-! ## Single operations on trees -/

theorem IsTree.createFile (hTree : d.IsTree) {l : Location}
    (h : d.createFile current path = .ok (l, d')) : d'.IsTree := by
  obtain ⟨-, hAround, hFree, rfl⟩ := createFile_eq_ok h
  exact hTree.put hAround (.inr (by simp [hFree]))

theorem IsTree.writeFile (hTree : d.IsTree) {bytes : List UInt8}
    (h : d.writeFile current path bytes = .ok d') : d'.IsTree := by
  obtain ⟨hAround, hNotFolder, rfl⟩ := writeFile_eq_ok h
  exact hTree.put hAround (.inr hNotFolder)

theorem IsTree.makeFolder (hTree : d.IsTree) {l : Location}
    (h : d.makeFolder current path = .ok (l, d')) : d'.IsTree := by
  obtain ⟨-, hAround, -, rfl⟩ := makeFolder_eq_ok h
  exact hTree.put hAround (.inl rfl)

theorem NoFileAt.makeFolder {l m : Location} (hNone : d.NoFileAt m)
    (h : d.makeFolder current path = .ok (l, d')) : d'.NoFileAt m := by
  obtain ⟨-, -, -, rfl⟩ := makeFolder_eq_ok h
  exact hNone.put (.inr rfl)

/-! ## Several folders -/

/-- Whether a property of a disk is kept when a folder is made. -/
def KeptByFolders (P : Disk → Prop) (current : Location) : Prop :=
  ∀ {d d' : Disk} {path : String} {l : Location},
    P d → d.makeFolder current path = .ok (l, d') → P d'

theorem keptByFolders_isTree (current : Location) : KeptByFolders IsTree current :=
  fun hTree h => hTree.makeFolder h

theorem keptByFolders_file (l : Location) (bytes : List UInt8) (current : Location) :
    KeptByFolders (fun d => d.get? l = some (.file bytes)) current := by
  intro d d' path m hFile hMade
  obtain ⟨-, -, hFree, rfl⟩ := makeFolder_eq_ok hMade
  have hOther : l ≠ m := by
    rintro rfl
    cases hFree.symm.trans hFile
  rwa [get?_put_of_ne d hOther]

theorem keptByFolders_noFileAt (l current : Location) : KeptByFolders (NoFileAt l) current :=
  fun hNone h => hNone.makeFolder h

private theorem makeFoldersFrom_preserves {P : Disk → Prop} (hKept : KeptByFolders P current)
    (root : String) (ns : List String) {d : Disk} (hd : P d) :
    P (d.makeFoldersFrom current root ns).2 := by
  induction ns with
  | nil => exact hd
  | cons n around ih =>
      rw [makeFoldersFrom]
      split
      · rename_i hMade
        exact hKept hd hMade
      · split
        · rename_i hAround
          rwa [hAround] at ih
        · rename_i d₁ hAround
          rw [hAround] at ih
          split
          · rename_i hMade
            exact hKept ih hMade
          · exact ih
      · exact hd

/-- What making one folder keeps, making a folder with those around it keeps, whether that succeeds
or not. -/
theorem makeFolders_preserves {P : Disk → Prop} (hKept : KeptByFolders P current) {d : Disk}
    (hd : P d) (path : FilePath) : P (d.makeFolders current path).2 := by
  rw [makeFolders]
  split
  · exact hd
  · exact makeFoldersFrom_preserves hKept path.root path.parts.reverse hd

end CircuitBench.Disk
