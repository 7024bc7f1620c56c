import CircuitBench.Proofs.Disk.Discarded

/-!
# Folders that are gained

A folder is made with those around it, and when one of them is refused, those made before it stay.
Either way the disk is the one before, but for folders at places on the way of the path that were
free.

What a path leads to may change with such folders.  A path without two dots goes down with every
name, so that the places on the way of the folder around it lie around its end.  If its end holds
something then they are folders already; and if it holds nothing then it still does.  So a path that
does not climb leads to what it led to before the folder around it was made.

Where a file may be put depends on the folders of a disk alone: neither on other files, nor on the
bytes of any.  A file can be moved to a path just if it could be written there, but for paths that
end with dots.

## Main results

* `makeFolders_gains` : folders that are made change nothing else.
* `status_makeFolders` : and nothing of what a path without two dots leads to, if they are the
  folders around it.
* `takesFile_iff_replaceFile` : where a file may be put.
-/

namespace CircuitBench

open CircuitBench.Path

/-! ## Paths in plain form -/

namespace FilePath

variable {p : FilePath} {current l : Location}

/-- A path that is written out is the same path, also when it has no names. -/
theorem ofString_text_of_spelled (hp : p.Spelled) : ofString p.text = p := by
  by_cases hNames : p.parts = []
  · obtain ⟨root, parts⟩ := p
    obtain rfl : parts = [] := hNames
    rcases hp.root with hRoot | hRoot | hRoot <;> obtain rfl : root = _ := hRoot <;> decide
  · exact ofString_text hp hNames

theorem Spelled.parent (hp : p.Spelled) : p.parent.Spelled :=
  ⟨hp.root, fun n hn => hp.parts n (List.dropLast_subset _ hn)⟩

/-- The places on the way of a path are where its first names lead. -/
theorem exists_front_of_onTheWay (hp : p.Spelled) (h : Disk.OnTheWay current p.text l) :
    ∃ front, front <+: p.parts ∧ l = follow (if p.root = "" then current else []) front := by
  obtain ⟨front, hFront, rfl⟩ := h
  have hSame := ofString_text_of_spelled hp
  have hParts : (names p.text).filter (fun n => n != "" && n != ".") = p.parts :=
    congrArg parts hSame
  have hStart := start_ofString current p.text
  rw [hSame] at hStart
  refine ⟨front.filter fun n => n != "" && n != ".", ?_, ?_⟩
  · rw [← hParts]
    exact hFront.filter _
  · rw [hStart, follow_filter]

/-- The places on the way of the folder around a path that does not climb lie around its end. -/
theorem isBelow_of_onTheWay_parent (hp : p.Spelled) (hUp : ".." ∉ p.parts) (hSome : p.parts ≠ [])
    (h : Disk.OnTheWay current p.parent.text l) :
    Disk.isBelow l (resolve current p.text) = true ∧ resolve current p.text ≠ l := by
  obtain ⟨front, ⟨back, hBack⟩, rfl⟩ := exists_front_of_onTheWay hp.parent h
  have hPlain : ∀ n ∈ p.parts, IsPlain n := by
    intro n hn
    obtain ⟨hEmpty, hDot, -⟩ := hp.parts n hn
    exact ⟨hEmpty, hDot, fun hDots => hUp (hDots ▸ hn)⟩
  have hParts : front ++ (back ++ [p.parts.getLast hSome]) = p.parts := by
    rw [← List.append_assoc, hBack]
    exact List.dropLast_concat_getLast hSome
  have hEnd : resolve current p.text = follow (if p.root = "" then current else []) front ++
      (back ++ [p.parts.getLast hSome]) := by
    have hFront : ∀ n ∈ front, IsPlain n := fun n hn =>
      hPlain n (hParts ▸ List.mem_append_left _ hn)
    rw [resolve_text current hp hSome, follow_plain _ _ hPlain, follow_plain _ _ hFront,
      List.append_assoc, hParts]
  rw [hEnd]
  refine ⟨Disk.isBelow_append _ _, fun hSame => ?_⟩
  exact absurd (List.append_right_eq_self.mp hSame) (List.append_ne_nil_of_right_ne_nil _ (by simp))

end FilePath

namespace Disk

variable {d d' : Disk} {current : Location} {path : String} {p : FilePath} {F : Location → Prop}

/-! ## Gained folders -/

/-- Whether a disk is another one but for folders at places that are free there. -/
def GainsFolders (F : Location → Prop) (d d' : Disk) : Prop :=
  ∀ l, d'.get? l = d.get? l ∨ d.get? l = none ∧ d'.get? l = some .folder ∧ F l

theorem GainsFolders.congr (h : d.GainsFolders F d') {d'' : Disk}
    (hSame : ∀ l, d''.get? l = d'.get? l) : d.GainsFolders F d'' := by
  intro l
  rw [hSame l]
  exact h l

/-- Folders that are made change nothing else, whether all of them could be or not. -/
theorem makeFolders_gains (hTree : d.IsTree) (current : Location) (path : String) :
    d.GainsFolders (OnTheWay current path)
      (d.makeFolders current (FilePath.ofString path)).2 := by
  intro l
  have hGained : (d.makeFolders current (FilePath.ofString path)).2.get? l = d.get? l ∨
      d.get? l = none ∧
        (d.makeFolders current (FilePath.ofString path)).2.get? l = some .folder := by
    refine makeFolders_preserves
      (P := fun d' => d'.get? l = d.get? l ∨ d.get? l = none ∧ d'.get? l = some .folder)
      (fun h hMade => ?_) (.inl rfl) _
    rename_i d₁ d₂ path₁ m
    obtain ⟨-, -, hFree, rfl⟩ := makeFolder_eq_ok hMade
    by_cases hHere : l = m
    · subst hHere
      have hInside : l ≠ [] := by
        rintro rfl
        cases hFree
      rcases h with hSame | ⟨-, hFolder⟩
      · exact .inr ⟨hSame.symm.trans hFree, get?_put_self _ hInside _⟩
      · cases hFolder.symm.trans hFree
    · rwa [get?_put_of_ne _ hHere]
  refine hGained.imp_right fun ⟨hFree, hFolder⟩ => ⟨hFree, hFolder, ?_⟩
  have hThere : (d.makeFolders current (FilePath.ofString path)).2.get? l ≠ none := by
    rw [hFolder]
    exact Option.some_ne_none _
  exact ((makeFolders_growsTo hTree current path).added l hThere).resolve_left fun hSome =>
    hSome hFree

/-- A path to a free place leads to nothing. -/
theorem status_of_free (hFree : d.get? (resolve current path) = none) :
    (d.status current path).toOption = none := by
  cases hStatus : d.status current path with
  | error fault => rfl
  | ok result =>
      obtain ⟨hPlace, hNode⟩ := status_eq_ok hStatus
      rw [hPlace, hFree] at hNode
      cases hNode

/-- A path that does not climb leads to what it led to before folders were gained around it. -/
theorem status_gained (hTree : d.IsTree) (hp : p.Spelled) (hUp : ".." ∉ p.parts)
    (hSome : p.parts ≠ []) (h : d.GainsFolders (OnTheWay current p.parent.text) d') :
    (d'.status current p.text).toOption = (d.status current p.text).toOption := by
  have hAround : ∀ l, OnTheWay current p.parent.text l →
      isBelow l (resolve current p.text) = true ∧ resolve current p.text ≠ l := fun l hl =>
    FilePath.isBelow_of_onTheWay_parent hp hUp hSome hl
  by_cases hFree : d.get? (resolve current p.text) = none
  · have hFree' : d'.get? (resolve current p.text) = none := by
      rcases h (resolve current p.text) with hSame | ⟨-, -, hWay⟩
      · rw [hSame, hFree]
      · exact absurd rfl (hAround _ hWay).2
    rw [status_of_free hFree, status_of_free hFree']
  · -- whatever lies around something is a folder, so that none is gained there
    have hSame : ∀ l, d'.get? l = d.get? l := by
      intro l
      rcases h l with hSame | ⟨hNone, -, hWay⟩
      · exact hSame
      · obtain ⟨hBelow, hOther⟩ := hAround l hWay
        have hNotFolder : d.get? l ≠ some .folder := by
          rw [hNone]
          exact fun hFolder => nomatch hFolder
        exact absurd (hTree.get?_of_isBelow hNotFolder hBelow hOther) hFree
    rw [status_congr fun l _ => hSame l]

/-- Without names there is no folder to make. -/
theorem makeFolders_of_no_names (hNone : p.parts = []) : (d.makeFolders current p).2 = d := by
  rw [makeFolders, hNone]
  rfl

/-- A path that does not climb leads to what it led to before the folder around it was made. -/
theorem status_makeFolders (hTree : d.IsTree) (hp : p.Spelled) (hUp : ".." ∉ p.parts) :
    ((d.makeFolders current p.parent).2.status current p.text).toOption =
      (d.status current p.text).toOption := by
  by_cases hSome : p.parts = []
  · have hNone : p.parent.parts = [] := by rw [FilePath.parent, hSome]; rfl
    rw [makeFolders_of_no_names hNone]
  · have hGains := makeFolders_gains hTree current p.parent.text
    rw [FilePath.ofString_text_of_spelled hp.parent] at hGains
    exact status_gained hTree hp hUp hSome hGains

/-! ## Where a file may be put -/

/-- A place where a node may be put stays one on a disk with all the folders of another one. -/
theorem vacancy_of_folders (hKept : ∀ m, d.get? m = some .folder → d'.get? m = some .folder)
    {place : Place} (h : d.vacancy current path = .ok place) :
    d'.vacancy current path = .ok place := by
  rw [vacancy] at h ⊢
  cases hLocate : d.locate current path with
  | error fault =>
      rw [hLocate] at h
      cases h
  | ok found =>
      rw [hLocate] at h
      rw [locate_of_folders hKept hLocate]
      dsimp only at h ⊢
      split at h
      · cases h
      · cases h
      · rename_i hAround
        cases h
        rw [hKept _ hAround]

/-- Whether a file may be put where a path leads: into a folder that exists, in place of no folder,
by a path that does not say that it is one. -/
def TakesFile (d : Disk) (current : Location) (path : String) : Prop :=
  ∃ place, d.vacancy current path = .ok place ∧ d.get? place.location ≠ some .folder ∧
    place.asFolder = false

/-- Where a file may be put depends on the folders of a disk alone. -/
theorem TakesFile.of_folders (h : d.TakesFile current path)
    (hSame : ∀ m, d'.get? m = some .folder ↔ d.get? m = some .folder) :
    d'.TakesFile current path := by
  obtain ⟨place, hVacancy, hNotFolder, hPlain⟩ := h
  exact ⟨place, vacancy_of_folders (fun m hm => (hSame m).mpr hm) hVacancy,
    fun hFolder => hNotFolder ((hSame _).mp hFolder), hPlain⟩

/-- A file is moved to a path just if one may be put there and the path ends with a plain name. -/
theorem takesFile_iff_replaceFile {source : Location} {node : Node}
    (hSource : d.get? source = some node) :
    endsWithDots path = false ∧ d.TakesFile current path ↔
      ∃ d', d.replaceFile current source path = .ok d' := by
  constructor
  · rintro ⟨hDots, place, hVacancy, hNotFolder, hPlain⟩
    have hNot : ¬d.isFolderAt place.location = true := by simp [isFolderAt, hNotFolder]
    refine ⟨(d.remove source).put place.location node, ?_⟩
    rw [replaceFile, hDots, if_neg Bool.false_ne_true, hVacancy, hSource]
    dsimp only
    rw [if_neg hNot, hPlain, if_neg Bool.false_ne_true]
  · rintro ⟨d', hMoved⟩
    refine ⟨not_endsWithDots_of_replaceFile hMoved, ?_⟩
    rw [replaceFile] at hMoved
    split at hMoved
    · cases hMoved
    · split at hMoved
      · cases hMoved
      · cases hMoved
      · rename_i place node' hVacancy _
        split at hMoved
        · cases hMoved
        · rename_i hNotFolder
          split at hMoved
          · cases hMoved
          · rename_i hPlain
            exact ⟨place, hVacancy, by simpa [isFolderAt] using hNotFolder, by simpa using hPlain⟩

end Disk

end CircuitBench
