import CircuitBench.Proofs.Bench.Documents
import CircuitBench.Proofs.Path.Climb
import Mathlib.Data.List.Induction

/-!
# What work on a disk adds

Work keeps the folders that are there, writes files, makes folders, and takes files away again.
What can be told of any amount of it is where something may have been added, and where a folder may
have been: everything else was there before, and a tree has stayed a tree.  Work in two parts adds
what the parts add.

A folder that is made with those around it adds to the way of its path only: to where the path leads
when it is broken off behind one of its names.

## Main results

* `GrowsTo` : a disk before and after some work.
* `writeFile_growsTo`, `makeFolder_growsTo`, `replaceFile_growsTo` : what a single operation adds.
* `not_endsWithDots_of_free` : a path that leads to a free place ends with a plain name.
* `makeFolders_growsTo` : a folder that is made with those around it.
* `clearedAt_discard` : what is left when a path is discarded.
-/

namespace CircuitBench

open CircuitBench.Path

namespace Disk

variable {d d' d'' : Disk} {A B F G : Location → Prop} {current : Location} {path : String}

/-! ## Growth -/

/-- Whether a disk comes from another one by work that adds something at some places only, and
folders at some places only, takes no folder away and leaves a tree a tree. -/
structure GrowsTo (A F : Location → Prop) (d d' : Disk) : Prop where
  kept : ∀ l, d.get? l = some .folder → d'.get? l = some .folder
  added : ∀ l, d'.get? l ≠ none → d.get? l ≠ none ∨ A l
  made : ∀ l, d'.get? l = some .folder → d.get? l = some .folder ∨ F l
  tree : d.IsTree → d'.IsTree

namespace GrowsTo

theorem refl (A F : Location → Prop) (d : Disk) : GrowsTo A F d d :=
  ⟨fun _ h => h, fun _ h => .inl h, fun _ h => .inl h, fun h => h⟩

theorem trans (h : GrowsTo A F d d') (h' : GrowsTo A F d' d'') : GrowsTo A F d d'' := by
  refine ⟨fun l hl => h'.kept l (h.kept l hl), fun l hl => ?_, fun l hl => ?_,
    fun hTree => h'.tree (h.tree hTree)⟩
  · exact (h'.added l hl).elim (h.added l) .inr
  · exact (h'.made l hl).elim (h.made l) .inr

theorem mono (h : GrowsTo A F d d') (hA : ∀ l, A l → B l) (hF : ∀ l, F l → G l) :
    GrowsTo B G d d' :=
  ⟨h.kept, fun l hl => (h.added l hl).imp_right (hA l), fun l hl => (h.made l hl).imp_right (hF l),
    h.tree⟩

/-- Folders that were there already are not added. -/
theorem of_there (h : GrowsTo A F d d') (hA : ∀ l, A l → d.get? l = some .folder)
    (hF : ∀ l, F l → A l) : GrowsTo B G d d' := by
  refine ⟨h.kept, fun l hl => .inl ?_, fun l hl => .inl ?_, h.tree⟩
  · rcases h.added l hl with hThere | hNew
    · exact hThere
    · rw [hA l hNew]
      exact Option.some_ne_none _
  · exact (h.made l hl).elim id fun hNew => hA l (hF l hNew)

end GrowsTo

/-! ## Single operations -/

theorem put_file_growsTo {l : Location} (hAround : d.get? l.dropLast = some .folder)
    (hNotFolder : d.get? l ≠ some .folder) (bytes : List UInt8) :
    GrowsTo (· = l) (fun _ => False) d (d.put l (.file bytes)) := by
  refine ⟨fun m hm => ?_, fun m hm => ?_, fun m hm => ?_,
    fun hTree => hTree.put hAround (.inr hNotFolder)⟩
  · have hOther : m ≠ l := by
      rintro rfl
      exact hNotFolder hm
    rw [get?_put_of_ne d hOther, hm]
  · by_cases hSame : m = l
    · exact .inr hSame
    · rw [get?_put_of_ne d hSame] at hm
      exact .inl hm
  · by_cases hSame : m = l
    · subst hSame
      have hInside : m ≠ [] := by
        rintro rfl
        exact hNotFolder rfl
      rw [get?_put_self d hInside] at hm
      cases hm
    · rw [get?_put_of_ne d hSame] at hm
      exact .inl hm

theorem put_folder_growsTo {l : Location} (hAround : d.get? l.dropLast = some .folder)
    (hFree : d.get? l = none) : GrowsTo (· = l) (· = l) d (d.put l .folder) := by
  have hOther : ∀ m, m ≠ l → (d.put l .folder).get? m = d.get? m :=
    fun m hm => get?_put_of_ne d hm .folder
  refine ⟨fun m hm => ?_, fun m hm => ?_, fun m hm => ?_,
    fun hTree => hTree.put hAround (.inl rfl)⟩
  · have hNotSame : m ≠ l := by
      rintro rfl
      rw [hFree] at hm
      cases hm
    rw [hOther m hNotSame, hm]
  · by_cases hSame : m = l
    · exact .inr hSame
    · rw [hOther m hSame] at hm
      exact .inl hm
  · by_cases hSame : m = l
    · exact .inr hSame
    · rw [hOther m hSame] at hm
      exact .inl hm

/-- A tree stays a tree when something is taken away that is no folder. -/
theorem IsTree.remove (hTree : d.IsTree) {l : Location} (hNotFolder : d.get? l ≠ some .folder) :
    (d.remove l).IsTree := by
  have hInside : l ≠ [] := by
    rintro rfl
    exact hNotFolder rfl
  intro m hSome
  have hOther : m ≠ l := by
    rintro rfl
    rw [get?_remove_self d hInside] at hSome
    exact hSome rfl
  rw [get?_remove_of_ne d hOther] at hSome
  have hAround := hTree m hSome
  have hNotAround : m.dropLast ≠ l := by
    rintro rfl
    exact hNotFolder hAround
  rw [get?_remove_of_ne d hNotAround, hAround]

theorem remove_growsTo {l : Location} (hNotFolder : d.get? l ≠ some .folder) :
    GrowsTo A F d (d.remove l) := by
  have hInside : l ≠ [] := by
    rintro rfl
    exact hNotFolder rfl
  have hGone : ∀ m node, (d.remove l).get? m = some node → d.get? m = some node := by
    intro m node hm
    have hOther : m ≠ l := by
      rintro rfl
      rw [get?_remove_self d hInside] at hm
      cases hm
    rwa [get?_remove_of_ne d hOther] at hm
  refine ⟨fun m hm => ?_, fun m hm => .inl ?_, fun m hm => .inl (hGone m _ hm),
    fun hTree => hTree.remove hNotFolder⟩
  · have hOther : m ≠ l := by
      rintro rfl
      exact hNotFolder hm
    rw [get?_remove_of_ne d hOther, hm]
  · obtain ⟨node, hNode⟩ := Option.ne_none_iff_exists'.mp hm
    rw [hGone m node hNode]
    exact Option.some_ne_none _

theorem makeFolder_growsTo {l : Location} (h : d.makeFolder current path = .ok (l, d')) :
    GrowsTo (· = l) (· = l) d d' := by
  obtain ⟨-, hAround, hFree, rfl⟩ := makeFolder_eq_ok h
  exact put_folder_growsTo hAround hFree

/-- A file that is written lies in a folder that was there. -/
theorem writeFile_growsTo {bytes : List UInt8} (h : d.writeFile current path bytes = .ok d') :
    GrowsTo (fun l => l = resolve current path ∧ d.get? l.dropLast = some .folder)
      (fun _ => False) d d' := by
  obtain ⟨hAround, hNotFolder, rfl⟩ := writeFile_eq_ok h
  refine (put_file_growsTo hAround hNotFolder bytes).mono ?_ fun _ h => h
  rintro l rfl
  exact ⟨rfl, hAround⟩

/-- A file that is moved is added where it goes. -/
theorem replaceFile_growsTo {source : Location} (h : d.replaceFile current source path = .ok d')
    (hNotFolder : d.get? source ≠ some .folder) :
    GrowsTo (· = resolve current path) (fun _ => False) d d' := by
  rw [replaceFile] at h
  split at h
  · cases h
  split at h
  · cases h
  · cases h
  rename_i place node hVacancy hNode
  obtain ⟨hPlace, hAround⟩ := vacancy_eq_ok hVacancy
  split at h
  · cases h
  rename_i hTarget
  split at h
  · cases h
  cases h
  have hFile : ∃ bytes, node = .file bytes := by
    cases node with
    | file bytes => exact ⟨bytes, rfl⟩
    | folder => exact absurd hNode hNotFolder
  obtain ⟨bytes, rfl⟩ := hFile
  have hRemoved : GrowsTo (· = resolve current path) (fun _ => False) d (d.remove source) :=
    remove_growsTo hNotFolder
  rw [← hPlace] at hRemoved ⊢
  refine hRemoved.trans (put_file_growsTo (hRemoved.kept _ hAround) (fun hFolder => ?_) bytes)
  rcases hRemoved.made _ hFolder with hThere | hNone
  · exact hTarget (by rw [isFolderAt, hThere]; rfl)
  · exact hNone

/-! ## Free places -/

/-- In a tree, nothing lies below a place that holds no folder. -/
theorem IsTree.get?_of_isBelow (hTree : d.IsTree) {l m : Location}
    (hNotFolder : d.get? l ≠ some .folder) (hBelow : isBelow l m = true) (hOther : m ≠ l) :
    d.get? m = none := by
  obtain ⟨more, rfl⟩ := List.isPrefixOf_iff_prefix.mp hBelow
  induction more using List.reverseRecOn with
  | nil => exact absurd (List.append_nil l) hOther
  | append_singleton more name ih =>
      refine Classical.byContradiction fun hSome => ?_
      have hAround := hTree _ hSome
      rw [← List.append_assoc, List.dropLast_concat] at hAround
      by_cases hLast : l ++ more = l
      · rw [hLast] at hAround
        exact hNotFolder hAround
      · have hBetween := ih (List.isPrefixOf_iff_prefix.mpr (List.prefix_append _ _)) hLast
        rw [hAround] at hBetween
        cases hBetween

/-- A folder that is there does not lie below a free place. -/
theorem IsTree.not_isBelow (hTree : d.IsTree) {l m : Location} (hFree : d.get? l = none)
    (hFolder : d.get? m = some .folder) : isBelow l m = false := by
  refine Bool.eq_false_iff.mpr fun hBelow => ?_
  by_cases hSame : m = l
  · rw [hSame, hFree] at hFolder
    cases hFolder
  · have hNone := hTree.get?_of_isBelow (by simp [hFree]) hBelow hSame
    rw [hNone] at hFolder
    cases hFolder

/-- Names that lead to a free place from a folder end with a plain one. -/
private theorem last_of_walk (hTree : d.IsTree) {here l : Location} {ns : List String}
    (h : d.walk here ns = .ok l) (hFree : d.get? l = none) :
    (l = here ∧ ns.filter (· != "") = []) ∨
      ∃ last, (ns.filter (· != "")).getLast? = some last ∧
        (last == "." || last == "..") = false := by
  induction ns generalizing here with
  | nil =>
      cases h
      exact .inl ⟨rfl, rfl⟩
  | cons n rest ih =>
      rw [walk] at h
      split at h
      · rename_i hEmpty
        rw [hEmpty]
        exact ih h
      rename_i hNonempty
      have hKept : (n :: rest).filter (· != "") = n :: rest.filter (· != "") := by
        rw [List.filter_cons, if_pos (bne_iff_ne.mpr hNonempty)]
      rw [hKept]
      split at h
      · cases h
      · cases h
      rename_i hFolder
      split at h
      · cases h
      right
      rcases ih h with ⟨hLast, hNone⟩ | ⟨last, hLast, hPlain⟩
      · -- a dot would lead to the folder itself, and two dots to the one around it
        refine ⟨n, by rw [hNone]; rfl, ?_⟩
        refine Bool.eq_false_iff.mpr fun hDots => ?_
        rcases Bool.or_eq_true_iff.mp hDots with hDot | hUp
        · rw [beq_iff_eq] at hDot
          rw [hLast, step, if_pos (.inr hDot), hFolder] at hFree
          cases hFree
        · rw [beq_iff_eq] at hUp
          have hAround := hTree here (by simp [hFolder])
          rw [hLast, hUp, step, if_neg (by decide), if_pos rfl, hAround] at hFree
          cases hFree
      · refine ⟨last, ?_, hPlain⟩
        rw [List.getLast?_cons, hLast]
        rfl

/-- A relative path starts with a name. -/
theorem names_of_relative (hRelative : isAbsolute path = false) (hNonempty : path ≠ "") :
    (names path).filter (· != "") ≠ [] := by
  cases hChars : path.toList with
  | nil => exact absurd (String.toList_eq_nil_iff.mp hChars) hNonempty
  | cons c rest =>
      have hFirst : c ≠ '/' := by
        rintro rfl
        simp [isAbsolute, hChars] at hRelative
      obtain ⟨part, parts, hParts⟩ := splitSlash_cons_exists rest
      have hNames : names path = String.ofList (c :: part) :: parts.map String.ofList := by
        rw [names, hChars, splitSlash, if_neg hFirst, hParts]
        rfl
      have hName : String.ofList (c :: part) ≠ "" := by
        intro hEmpty
        have hList := congrArg String.toList hEmpty
        rw [String.toList_ofList] at hList
        cases hList
      rw [hNames, List.filter_cons, if_pos (bne_iff_ne.mpr hName)]
      exact List.cons_ne_nil _ _

/-- A path that can be followed has names that can be. -/
theorem locate_names {place : Place} (h : d.locate current path = .ok place) :
    path ≠ "" ∧ d.walk (if isAbsolute path then [] else current) (names path) = .ok place.location ∧
      place.asFolder = endsWithSlash path := by
  rw [locate] at h
  split at h
  · cases h
  rename_i hAccepted
  split at h
  · cases h
  rename_i hWalk
  cases h
  refine ⟨?_, hWalk, rfl⟩
  rintro rfl
  exact absurd hAccepted (by decide +kernel)

theorem locate_of_vacancy {place : Place} (h : d.vacancy current path = .ok place) :
    d.locate current path = .ok place := by
  rw [vacancy] at h
  split at h
  · cases h
  rename_i hLocate
  split at h
  · cases h
  · cases h
  · cases h
    exact hLocate

/-- A fresh file was put where its path led before. -/
theorem locate_of_createFile {l : Location} (h : d.createFile current path = .ok (l, d')) :
    d.locate current path = .ok ⟨l, false⟩ := by
  rw [createFile] at h
  split at h
  · cases h
  rename_i place hVacancy
  split at h
  · cases h
  split at h
  · cases h
  rename_i hNotAsFolder
  cases h
  rw [locate_of_vacancy hVacancy, ← Bool.eq_false_iff.mpr hNotAsFolder]

/-- And so was a fresh folder, however its path ended. -/
theorem locate_of_makeFolder {l : Location} (h : d.makeFolder current path = .ok (l, d')) :
    d.locate current path = .ok ⟨l, endsWithSlash path⟩ := by
  rw [makeFolder] at h
  split at h
  · cases h
  rename_i place hVacancy
  split at h
  · cases h
  cases h
  have hLocate := locate_of_vacancy hVacancy
  rw [hLocate, ← (locate_names hLocate).2.2]

/-- A path that leads to a free place ends with a plain name. -/
theorem not_endsWithDots_of_free (hTree : d.IsTree) {place : Place}
    (h : d.locate current path = .ok place) (hFree : d.get? place.location = none) :
    endsWithDots path = false := by
  obtain ⟨hNonempty, hWalk, -⟩ := locate_names h
  rcases last_of_walk hTree hWalk hFree with ⟨hStart, hNone⟩ | ⟨last, hLast, hPlain⟩
  · cases hAbsolute : isAbsolute path with
    | true =>
        rw [hStart, hAbsolute] at hFree
        cases hFree
    | false => exact absurd hNone (names_of_relative hAbsolute hNonempty)
  · rw [endsWithDots, hLast]
    exact hPlain

/-! ## Folders on the way -/

/-- Whether names lead to a place when they are broken off behind one of them. -/
def Through (start : Location) (ns : List String) (l : Location) : Prop :=
  ∃ front, front <+: ns ∧ l = follow start front

/-- Whether a path leads to a place when it is broken off behind one of its names. -/
def OnTheWay (current : Location) (path : String) : Location → Prop :=
  Through (if isAbsolute path then [] else current) (names path)

/-- Whether the last name of a place is one of some names. -/
def EndsIn (ns : List String) (l : Location) : Prop :=
  ∃ around, ∃ name ∈ ns, l = around ++ [name]

/-- Names that can be followed lead through folders. -/
private theorem folder_of_walk {here l : Location} {ns : List String} (h : d.walk here ns = .ok l)
    {front : List String} (hFront : front <+: ns) :
    follow here front = l ∨ d.get? (follow here front) = some .folder := by
  induction ns generalizing here front with
  | nil =>
      cases h
      rw [List.prefix_nil.mp hFront]
      exact .inl rfl
  | cons n rest ih =>
      rw [walk] at h
      split at h
      · rename_i hEmpty
        rcases List.prefix_cons_iff.mp hFront with rfl | ⟨more, rfl, hMore⟩
        · exact ih h List.nil_prefix
        · have hStay : follow here (n :: more) = follow here more := by
            rw [follow, List.foldl_cons, step, if_pos (.inl hEmpty)]
            rfl
          rw [hStay]
          exact ih h hMore
      · split at h
        · cases h
        · cases h
        rename_i hFolder
        split at h
        · cases h
        rcases List.prefix_cons_iff.mp hFront with rfl | ⟨more, rfl, hMore⟩
        · exact .inr hFolder
        · exact ih h hMore

/-- The way of a path that can be followed goes through folders, up to where it leads. -/
theorem onTheWay_cases {place : Place} (h : d.locate current path = .ok place) {l : Location}
    (hl : OnTheWay current path l) : l = place.location ∨ d.get? l = some .folder := by
  obtain ⟨front, hFront, rfl⟩ := hl
  exact folder_of_walk (locate_names h).2.1 hFront

/-- The way of a path that leads to a folder goes through folders. -/
theorem folder_of_onTheWay {place : Place} (h : d.locate current path = .ok place)
    (hFolder : d.get? place.location = some .folder) {l : Location} (hl : OnTheWay current path l) :
    d.get? l = some .folder := by
  rcases onTheWay_cases h hl with rfl | hThrough
  · exact hFolder
  · exact hThrough

/-- A relative path is followed from a folder. -/
theorem folder_of_relative {place : Place} (h : d.locate current path = .ok place)
    (hRelative : isAbsolute path = false) : d.get? current = some .folder := by
  obtain ⟨hNonempty, hWalk, -⟩ := locate_names h
  rw [hRelative, if_neg Bool.false_ne_true] at hWalk
  obtain ⟨name, rest, hKept⟩ := List.exists_cons_of_ne_nil (names_of_relative hRelative hNonempty)
  have hStart : ∀ ns : List String, ns.filter (· != "") = name :: rest →
      d.walk current ns = .ok place.location → d.get? current = some .folder := by
    intro ns
    induction ns with
    | nil =>
        intro hNames
        cases hNames
    | cons n more ih =>
        intro hNames hFollowed
        rw [walk] at hFollowed
        split at hFollowed
        · rename_i hEmpty
          rw [hEmpty] at hNames
          exact ih hNames hFollowed
        · split at hFollowed
          · cases hFollowed
          · cases hFollowed
          · assumption
  exact hStart _ hKept hWalk

/-- The way of a path that is written out in plain form is that of the path. -/
theorem onTheWay_of_text {l : Location} (hNonempty : (FilePath.ofString path).parts ≠ [])
    (h : OnTheWay current (FilePath.ofString path).text l) : OnTheWay current path l := by
  have hSame := FilePath.ofString_text (FilePath.spelled_ofString path) hNonempty
  have hStart := FilePath.start_ofString current (FilePath.ofString path).text
  rw [hSame, FilePath.start_ofString] at hStart
  have hNames := congrArg FilePath.parts hSame
  obtain ⟨front, hFront, rfl⟩ := h
  have hKept : front.filter (fun n => n != "" && n != ".") <+: (FilePath.ofString path).parts := by
    rw [← hNames]
    exact hFront.filter _
  obtain ⟨whole, hWhole, hFilter⟩ := List.prefix_filter_iff.mp hKept
  refine ⟨whole, hWhole, ?_⟩
  rw [← hStart, ← follow_filter _ front, hFilter, follow_filter]

/-! ## Several folders -/

/-- A folder that is made at a path which is written out has the last of its names. -/
private theorem makeFolder_text_growsTo (hTree : d.IsTree) {p : FilePath} (hp : p.Spelled)
    {l : Location} (h : d.makeFolder current p.text = .ok (l, d')) :
    GrowsTo (Through (if p.root = "" then current else []) p.parts)
      (fun l => Through (if p.root = "" then current else []) p.parts l ∧ EndsIn p.parts l)
      d d' := by
  obtain ⟨hPlace, -, hFree, -⟩ := makeFolder_eq_ok h
  obtain ⟨front, last, hParts, hPlain, -⟩ := FilePath.last_of_not_endsWithDots hp
    (not_endsWithDots_of_free hTree (locate_of_makeFolder h) hFree)
  have hEnd : l = follow (if p.root = "" then current else []) p.parts := by
    rw [hPlace, FilePath.resolve_text current hp (by simp [hParts])]
  have hThrough : Through (if p.root = "" then current else []) p.parts l :=
    ⟨p.parts, List.prefix_rfl, hEnd⟩
  refine (makeFolder_growsTo h).mono ?_ ?_
  · rintro m rfl
    exact hThrough
  · rintro m rfl
    refine ⟨hThrough, follow (if p.root = "" then current else []) front, last, by simp [hParts],
      ?_⟩
    rw [hEnd, hParts, follow_append]
    exact step_plain hPlain _

/-- What is added when a folder is made with those around it, given by its names from the last to
the first. -/
private theorem makeFoldersFrom_growsTo (current : Location) (root : String) {ns : List String}
    (hSpelled : (⟨root, ns.reverse⟩ : FilePath).Spelled) (hTree : d.IsTree) :
    GrowsTo (Through (if root = "" then current else []) ns.reverse)
      (fun l => Through (if root = "" then current else []) ns.reverse l ∧ EndsIn ns.reverse l) d
      (d.makeFoldersFrom current root ns).2 := by
  induction ns with
  | nil => exact GrowsTo.refl _ _ d
  | cons n around ih =>
      have hReverse : (n :: around).reverse = around.reverse ++ [n] := List.reverse_cons
      have hAround : (⟨root, around.reverse⟩ : FilePath).Spelled := by
        refine ⟨hSpelled.root, fun m hm => hSpelled.parts m ?_⟩
        rw [hReverse]
        exact List.mem_append_left _ hm
      have hThrough : ∀ l, Through (if root = "" then current else []) around.reverse l →
          Through (if root = "" then current else []) (n :: around).reverse l := by
        rintro l ⟨front, hFront, rfl⟩
        rw [hReverse]
        exact ⟨front, hFront.trans (List.prefix_append _ _), rfl⟩
      have hEndsIn : ∀ l, EndsIn around.reverse l → EndsIn (n :: around).reverse l := by
        rintro l ⟨before, name, hName, rfl⟩
        rw [hReverse]
        exact ⟨before, name, List.mem_append_left _ hName, rfl⟩
      have hFirst : GrowsTo (Through (if root = "" then current else []) (n :: around).reverse)
          (fun l => Through (if root = "" then current else []) (n :: around).reverse l ∧
            EndsIn (n :: around).reverse l) d (d.makeFoldersFrom current root around).2 :=
        (ih hAround).mono hThrough fun l hl => ⟨hThrough l hl.1, hEndsIn l hl.2⟩
      rw [makeFoldersFrom]
      cases hMade : d.makeFolder current (FilePath.text ⟨root, (n :: around).reverse⟩) with
      | ok made => exact makeFolder_text_growsTo hTree hSpelled hMade
      | error fault =>
          cases fault with
          | missing =>
              dsimp only
              rcases hEnd : d.makeFoldersFrom current root around with ⟨_ | _, d₁⟩
              · rwa [hEnd] at hFirst
              · rw [hEnd] at hFirst
                dsimp only
                cases hLast : d₁.makeFolder current
                    (FilePath.text ⟨root, (n :: around).reverse⟩) with
                | ok made =>
                    exact hFirst.trans
                      (makeFolder_text_growsTo (hFirst.tree hTree) hSpelled hLast)
                | error fault => exact hFirst
          | _ => exact GrowsTo.refl _ _ d

/-- A folder that is made with those around it adds to the way of its path, and the folders that are
made have names of the path. -/
theorem makeFolders_growsTo (hTree : d.IsTree) (current : Location) (path : String) :
    GrowsTo (OnTheWay current path) (fun l => OnTheWay current path l ∧ EndsIn (names path) l) d
      (d.makeFolders current (FilePath.ofString path)).2 := by
  have hParts : (FilePath.ofString path).parts =
      (names path).filter fun n => n != "" && n != "." := rfl
  have hThrough : ∀ l, Through (if (FilePath.ofString path).root = "" then current else [])
      (FilePath.ofString path).parts l → OnTheWay current path l := by
    rw [FilePath.start_ofString, hParts]
    rintro l ⟨front, hFront, rfl⟩
    obtain ⟨whole, hWhole, rfl⟩ := List.prefix_filter_iff.mp hFront
    exact ⟨whole, hWhole, follow_filter _ whole⟩
  have hEndsIn : ∀ l, EndsIn (FilePath.ofString path).parts l → EndsIn (names path) l := by
    rw [hParts]
    rintro l ⟨around, name, hName, rfl⟩
    exact ⟨around, name, (List.mem_filter.mp hName).1, rfl⟩
  rw [makeFolders]
  split
  · exact GrowsTo.refl _ _ d
  · have hSpelled : (⟨(FilePath.ofString path).root,
        (FilePath.ofString path).parts.reverse.reverse⟩ : FilePath).Spelled := by
      rw [List.reverse_reverse]
      exact FilePath.spelled_ofString path
    have hMade := makeFoldersFrom_growsTo current (FilePath.ofString path).root hSpelled hTree
    rw [List.reverse_reverse] at hMade
    exact hMade.mono hThrough fun l hl => ⟨hThrough l hl.1, hEndsIn l hl.2⟩

/-- Nothing but folders is made. -/
theorem get?_makeFolders (d : Disk) (current : Location) (path : FilePath) (l : Location) :
    (d.makeFolders current path).2.get? l = d.get? l ∨
      (d.makeFolders current path).2.get? l = some .folder := by
  refine makeFolders_preserves (P := fun d' => d'.get? l = d.get? l ∨ d'.get? l = some .folder)
    (fun h hMade => ?_) (.inl rfl) path
  obtain ⟨-, -, -, rfl⟩ := makeFolder_eq_ok hMade
  rename_i m
  by_cases hSame : l = m
  · subst hSame
    by_cases hRoot : l = []
    · rw [hRoot]
      exact .inr rfl
    · exact .inr (get?_put_self _ hRoot .folder)
  · rwa [get?_put_of_ne _ hSame]

/-! ## What is taken away -/

/-- What lies below a place that lies below another one lies below that. -/
theorem isBelow_trans {l m n : Location} (h : isBelow l m = true) (h' : isBelow m n = true) :
    isBelow l n = true :=
  List.isPrefixOf_iff_prefix.mpr
    ((List.isPrefixOf_iff_prefix.mp h).trans (List.isPrefixOf_iff_prefix.mp h'))

theorem isBelow_self (l : Location) : isBelow l l = true :=
  List.isPrefixOf_iff_prefix.mpr List.prefix_rfl

theorem isBelow_append (l more : Location) : isBelow l (l ++ more) = true :=
  List.isPrefixOf_iff_prefix.mpr (List.prefix_append l more)

/-- Whether a disk is what is left of another one when a place is cleared with all that lies
below. -/
def ClearedAt (l : Location) (d d' : Disk) : Prop :=
  ∀ m, d'.get? m = if isBelow l m then none else d.get? m

namespace ClearedAt

variable {l : Location}

theorem get?_of_not_isBelow (h : ClearedAt l d d') {m : Location} (hm : isBelow l m = false) :
    d'.get? m = d.get? m := by
  rw [h m, hm]
  rfl

theorem left (h : ClearedAt l d d') {m : Location} (hm : d'.get? m ≠ none) :
    d.get? m ≠ none ∧ isBelow l m = false := by
  rw [h m] at hm
  cases hBelow : isBelow l m with
  | true => exact absurd (by rw [hBelow]; rfl) hm
  | false =>
      rw [hBelow] at hm
      exact ⟨hm, rfl⟩

theorem isTree (h : ClearedAt l d d') (hTree : d.IsTree) : d'.IsTree := by
  intro m hSome
  obtain ⟨hThere, hNotBelow⟩ := h.left hSome
  have hAround : isBelow l m.dropLast = false := by
    refine Bool.eq_false_iff.mpr fun hBelow => ?_
    have hLast : isBelow m.dropLast m = true :=
      List.isPrefixOf_iff_prefix.mpr (List.dropLast_prefix m)
    rw [isBelow_trans hBelow hLast] at hNotBelow
    cases hNotBelow
  rw [h.get?_of_not_isBelow hAround, hTree m hThere]

/-- Folders stay that do not lie below a place that was free once. -/
theorem kept (h : ClearedAt l d d') {before : Disk} (hTree : before.IsTree)
    (hFree : before.get? l = none)
    (hKept : ∀ m, before.get? m = some .folder → d.get? m = some .folder) (m : Location)
    (hm : before.get? m = some .folder) : d'.get? m = some .folder := by
  rw [h.get?_of_not_isBelow (hTree.not_isBelow hFree hm), hKept m hm]

/-- Of what was added since a place was free, nothing is left at that place when it is cleared. -/
theorem growsTo (h : ClearedAt l d d') {before : Disk} (hTree : before.IsTree)
    (hFree : before.get? l = none)
    (hGrown : GrowsTo (fun m => A m ∨ isBelow l m = true) F before d) : GrowsTo A F before d' := by
  refine ⟨h.kept hTree hFree hGrown.kept, fun m hm => ?_, fun m hm => ?_,
    fun _ => h.isTree (hGrown.tree hTree)⟩
  · obtain ⟨hThere, hNotBelow⟩ := h.left hm
    rcases hGrown.added m hThere with hBefore | hNew | hBelow
    · exact .inl hBefore
    · exact .inr hNew
    · rw [hNotBelow] at hBelow
      cases hBelow
  · obtain ⟨-, hNotBelow⟩ := h.left (by rw [hm]; exact Option.some_ne_none _)
    rw [h.get?_of_not_isBelow hNotBelow] at hm
    exact hGrown.made m hm

end ClearedAt

section Clearing

variable {l : Location}

/-- Nothing lies at a free place or below. -/
theorem clearedAt_free (hTree : d.IsTree) (hFree : d.get? l = none) : ClearedAt l d d := by
  intro m
  cases hBelow : isBelow l m with
  | true =>
      by_cases hSame : m = l
      · rw [hSame, hFree]
        rfl
      · rw [hTree.get?_of_isBelow (by simp [hFree]) hBelow hSame]
        rfl
  | false => rfl

theorem clearedAt_removeTree (d : Disk) (hInside : l ≠ []) :
    ClearedAt l d (d.removeTree l true) := by
  intro m
  cases hBelow : isBelow l m with
  | true =>
      have hNonempty : m ≠ [] := by
        rintro rfl
        exact hInside (List.prefix_nil.mp (List.isPrefixOf_iff_prefix.mp hBelow))
      exact get?_removeTree_of_below d hBelow hNonempty
  | false => exact get?_removeTree_of_not_below d hBelow true

/-- Nothing lies below a place that is no folder. -/
theorem clearedAt_remove (hTree : d.IsTree) (hInside : l ≠ [])
    (hNotFolder : d.get? l ≠ some .folder) : ClearedAt l d (d.remove l) := by
  intro m
  by_cases hSame : m = l
  · rw [hSame, get?_remove_self d hInside, isBelow_self]
    rfl
  · rw [get?_remove_of_ne d hSame]
    cases hBelow : isBelow l m with
    | true =>
        rw [hTree.get?_of_isBelow hNotFolder hBelow hSame]
        rfl
    | false => rfl

/-- A folder is cleared with all that lies in it. -/
theorem clearedAt_clearFolder (hPlace : d.locate current path = .ok ⟨l, false⟩)
    (hDots : endsWithDots path = false) (hInside : l ≠ []) (hFolder : d.get? l = some .folder) :
    ClearedAt l d (d.clearFolder current path) := by
  have hStatus : d.status current path = .ok (l, .folder) := by
    rw [status, hPlace]
    simp only [hFolder]
  rw [clearFolder, hStatus, hDots]
  exact clearedAt_removeTree d hInside

/-- What a path leads to is discarded with all that lies below. -/
theorem clearedAt_of_status (hTree : d.IsTree) {node : Node}
    (hStatus : d.status current path = .ok (l, node)) (hDots : endsWithDots path = false)
    (hInside : l ≠ []) : ClearedAt l d (d.discard current path).2 := by
  rw [discard, hStatus]
  cases node with
  | folder =>
      dsimp only
      rw [clearFolder, hStatus, hDots]
      exact clearedAt_removeTree d hInside
  | file bytes =>
      have hFile := (status_eq_ok hStatus).2
      exact clearedAt_remove hTree hInside (by simp [hFile])

/-- Whatever the place that a path leads to holds, it is discarded with all that lies below. -/
theorem clearedAt_discard (hTree : d.IsTree) (hPlace : d.locate current path = .ok ⟨l, false⟩)
    (hDots : endsWithDots path = false) (hInside : l ≠ []) :
    ClearedAt l d (d.discard current path).2 := by
  cases hNode : d.get? l with
  | none =>
      have hSame : (d.discard current path).2 = d := by
        rw [discard, status, hPlace]
        simp only [hNode]
      rw [hSame]
      exact clearedAt_free hTree hNode
  | some node =>
      have hStatus : d.status current path = .ok (l, node) := by
        rw [status, hPlace]
        cases node <;> simp [hNode]
      exact clearedAt_of_status hTree hStatus hDots hInside

end Clearing

end Disk

end CircuitBench
