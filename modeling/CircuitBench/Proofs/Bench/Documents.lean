import CircuitBench.Proofs.Bench.AfterRuns
import CircuitBench.Proofs.Text.Utf8

/-!
# Documents on a disk

A document is stored under a temporary name and then moved to its place.  The move takes a file away
and puts a file down, so every folder is still there, and the path of the document can be followed
as before; it now leads to the bytes that were stored.  Nothing is left under the temporary name,
so that removing it once more changes nothing.

## Main results

* `Disk.readFile_of_replaceFile` : a file that was moved to a path is read there.
* `writeDocument_eq_ok` : a document that was written is read at its path.
* `readDocument_of_readFile` : the value of a document whose bytes are at its path.
-/

namespace CircuitBench

open CircuitBench.Path Text

/-! ## Moved files -/

namespace Disk

variable {d d' : Disk} {current : Location} {path : String}

/-- Names can be followed on a disk that has all the folders of another one. -/
theorem walk_of_folders (hKept : ∀ m, d.get? m = some .folder → d'.get? m = some .folder)
    {here l : Location} {ns : List String} (h : d.walk here ns = .ok l) :
    d'.walk here ns = .ok l := by
  induction ns generalizing here with
  | nil => exact h
  | cons n rest ih =>
      rw [walk] at h ⊢
      split at h
      · rename_i hEmpty
        rw [if_pos hEmpty]
        exact ih h
      · rename_i hNonempty
        rw [if_neg hNonempty]
        split at h
        · cases h
        · cases h
        · rename_i hFolder
          rw [hKept here hFolder]
          split at h
          · cases h
          · rename_i hShort
            dsimp only
            rw [if_neg hShort]
            exact ih h

theorem locate_of_folders (hKept : ∀ m, d.get? m = some .folder → d'.get? m = some .folder)
    {place : Place} (h : d.locate current path = .ok place) :
    d'.locate current path = .ok place := by
  rw [locate] at h ⊢
  split at h
  · cases h
  · split at h
    · cases h
    · rename_i hWalk
      rw [walk_of_folders hKept hWalk]
      exact h

/-- A file is moved to a place that is found, is no folder and is not spelled as one. -/
theorem place_of_replaceFile {source : Location} (h : d.replaceFile current source path = .ok d') :
    ∃ place node, d.locate current path = .ok place ∧ d.get? source = some node ∧
      d.get? place.location ≠ some .folder ∧ place.asFolder = false ∧
      d' = (d.remove source).put place.location node := by
  rw [replaceFile] at h
  split at h
  · cases h
  split at h
  · cases h
  · cases h
  rename_i place node hVacancy hNode
  split at h
  · cases h
  rename_i hNotFolder
  split at h
  · cases h
  rename_i hNotAsFolder
  cases h
  refine ⟨place, node, ?_, hNode, by simpa [isFolderAt] using hNotFolder,
    Bool.eq_false_iff.mpr hNotAsFolder, rfl⟩
  rw [vacancy] at hVacancy
  split at hVacancy
  · cases hVacancy
  · rename_i hLocate
    split at hVacancy
    · cases hVacancy
    · cases hVacancy
    · cases hVacancy
      exact hLocate

/-- Neither the file that is taken away nor what it takes the place of is a folder. -/
theorem folders_of_move {source target : Location} {bytes : List UInt8}
    (hSource : d.get? source = some (.file bytes)) (hTarget : d.get? target ≠ some .folder) :
    ∀ m, d.get? m = some .folder →
      ((d.remove source).put target (.file bytes)).get? m = some .folder := by
  intro m hFolder
  have hOther : m ≠ target := by
    rintro rfl
    exact hTarget hFolder
  have hNotSource : m ≠ source := by
    rintro rfl
    rw [hSource] at hFolder
    cases hFolder
  rw [get?_put_of_ne _ hOther, get?_remove_of_ne _ hNotSource, hFolder]

/-- A file that was moved to a path is read there. -/
theorem readFile_of_replaceFile {source : Location} {bytes : List UInt8}
    (h : d.replaceFile current source path = .ok d')
    (hSource : d.get? source = some (.file bytes)) : d'.readFile current path = .ok bytes := by
  obtain ⟨place, node, hPlace, hNode, hTarget, hNotAsFolder, rfl⟩ := place_of_replaceFile h
  cases hSource.symm.trans hNode
  have hInside : place.location ≠ [] := by
    intro hRoot
    rw [hRoot] at hTarget
    exact hTarget rfl
  rw [readFile, status, locate_of_folders (folders_of_move hSource hTarget) hPlace]
  dsimp only
  rw [get?_put_self _ hInside, hNotAsFolder]
  rfl

theorem not_endsWithDots_of_replaceFile {source : Location}
    (h : d.replaceFile current source path = .ok d') : endsWithDots path = false := by
  rw [replaceFile] at h
  split at h
  · cases h
  · rename_i hDots
    exact Bool.eq_false_iff.mpr hDots

/-- Nothing is left where a file was taken away, unless it was moved to the same place; and what is
not there need not be discarded. -/
theorem discard_of_replaceFile {source : String}
    (h : d.replaceFile current (resolve current source) path = .ok d')
    (hInside : resolve current source ≠ [])
    (hOther : resolve current source ≠ resolve current path) :
    (d'.discard current source).2 = d' := by
  obtain ⟨node, -, rfl⟩ := replaceFile_eq_ok h
  rw [discard]
  cases hStatus : ((d.remove (resolve current source)).put (resolve current path) node).status
      current source with
  | error fault => rfl
  | ok found =>
      obtain ⟨l, there⟩ := found
      obtain ⟨rfl, hThere⟩ := status_eq_ok hStatus
      rw [get?_put_of_ne _ hOther, get?_remove_self _ hInside] at hThere
      cases hThere

end Disk

/-! ## Paths of documents -/

namespace Path

/-- A path with a plain name at its end leads to that name somewhere. -/
theorem resolve_last {path last : String} {front : List String}
    (hNames : names path = front ++ [last]) (hPlain : IsPlain last) (current : Location) :
    ∃ around, resolve current path = around ++ [last] := by
  refine ⟨follow (if isAbsolute path then [] else current) front, ?_⟩
  rw [resolve, hNames, follow_append]
  exact step_plain hPlain _

theorem isAbsolute_absoluteText (current : Location) (path : String) :
    isAbsolute (absoluteText current path) = true := by
  have hRoot : (rootText path).toList.head? = some '/' := by
    rw [rootText]
    split <;> decide
  rw [isAbsolute, absoluteText, locationText, String.toList_append, List.head?_append, hRoot]
  rfl

/-- What is joined to an absolute path is absolute. -/
theorem isAbsolute_join {folder name : String} (h : isAbsolute folder = true) :
    isAbsolute (join folder name) = true := by
  have hStart : folder.toList.head? = some '/' := by simpa [isAbsolute] using h
  rw [join]
  split
  · rename_i hAlone
    rcases hAlone with hName | hEmpty
    · exact hName
    · rw [String.isEmpty_iff] at hEmpty
      rw [hEmpty] at hStart
      cases hStart
  · split
    · rw [isAbsolute, String.toList_append, List.head?_append, hStart]
      rfl
    · rw [isAbsolute, String.toList_append, String.toList_append, List.head?_append,
        List.head?_append, hStart]
      rfl

end Path

namespace FilePath

/-- A path that does not end with a name of dots has a plain name at its end. -/
theorem last_of_not_endsWithDots {p : FilePath} (hp : p.Spelled)
    (h : Disk.endsWithDots p.text = false) :
    ∃ front last, p.parts = front ++ [last] ∧ IsPlain last ∧ '/' ∉ last.toList := by
  have hNonempty : p.parts ≠ [] := by
    intro hNone
    have hDots : ∀ root ∈ ["", "/", "//"], Disk.endsWithDots (text ⟨root, []⟩) = true := by
      decide +kernel
    have hRoot : p.root ∈ ["", "/", "//"] := by simpa using hp.root
    have hSame : p = ⟨p.root, []⟩ := by rw [← hNone]
    rw [hSame, hDots p.root hRoot] at h
    cases h
  obtain ⟨front, last, hParts⟩ : ∃ front last, p.parts = front ++ [last] :=
    ⟨_, _, (List.dropLast_concat_getLast hNonempty).symm⟩
  obtain ⟨hEmpty, hDot, hSlash⟩ := hp.parts last (by simp [hParts])
  refine ⟨front, last, hParts, ⟨hEmpty, hDot, ?_⟩, hSlash⟩
  rintro rfl
  obtain ⟨-, count, hNames⟩ := text_spec hp hNonempty
  have hKept : (names p.text).filter (· != "") = p.parts := by
    have hNone : (List.replicate count "").filter (· != "") = [] := by
      rw [List.filter_eq_nil_iff]
      intro n hn
      rw [List.eq_of_mem_replicate hn]
      decide
    have hAll : p.parts.filter (· != "") = p.parts := by
      rw [List.filter_eq_self]
      intro n hn
      simpa using (hp.parts n hn).1
    rw [hNames, List.filter_append, hNone, hAll, List.nil_append]
  rw [Disk.endsWithDots, hKept, hParts, List.getLast?_concat] at h
  cases h

end FilePath

/-! ## Writing and reading -/

namespace Bench

/-- A path that was made absolute is so. -/
theorem isAbsolute_of_absolutePath {current : Location} {path folder : String}
    (h : absolutePath current path = .ok folder) : isAbsolute folder = true := by
  rw [absolutePath] at h
  split at h
  · cases h
  · cases h
    exact isAbsolute_absoluteText current path

theorem changeDisk_of_ok {change : Bench → Except DiskFault Disk} {b : Bench} {d : Disk}
    (h : change b = .ok d) : changeDisk change b = .ok () { b with disk := d } := by
  rw [changeDisk, h]

theorem changeDisk_of_error {change : Bench → Except DiskFault Disk} {b : Bench}
    {fault : DiskFault} (h : change b = .error fault) :
    changeDisk change b = .error (.disk fault) b := by
  rw [changeDisk, h]

theorem changeDisk_eq_ok {change : Bench → Except DiskFault Disk} {b b' : Bench}
    (h : changeDisk change b = .ok () b') :
    ∃ d, change b = .ok d ∧ b' = { b with disk := d } := by
  rw [changeDisk] at h
  split at h
  · rename_i d hChange
    cases h
    exact ⟨d, hChange, rfl⟩
  · cases h

/-- A text that has no bytes is not stored. -/
theorem store_of_error {text : Except Error String} {e : Error}
    (h : text >>= storedBytes = .error e) (path : String) (b : Bench) :
    store path text b = .error e b := by
  cases text with
  | error fault =>
      cases h
      rfl
  | ok written =>
      rw [store, attempt_bind_ok rfl]
      exact attempt_bind_error h

/-- A text that has bytes is written to its file. -/
theorem store_of_bytes {text : Except Error String} {bytes : List UInt8}
    (h : text >>= storedBytes = .ok bytes) (path : String) (b : Bench) :
    store path text b = changeDisk (fun b => b.disk.writeFile b.current path bytes) b := by
  cases text with
  | error fault => cases h
  | ok written =>
      have hEncoded : storedBytes written = .ok bytes := h
      rw [store, attempt_bind_ok rfl, attempt_bind_ok hEncoded]

theorem store_eq_ok {path : String} {text : Except Error String} {b b' : Bench}
    (h : store path text b = .ok () b') :
    ∃ s bytes d, text = .ok s ∧ storedBytes s = .ok bytes ∧
      b.disk.writeFile b.current path bytes = .ok d ∧ b' = { b with disk := d } := by
  obtain ⟨s, b₁, hAsked, h⟩ := bind_eq_ok h
  obtain ⟨hText, rfl⟩ := attempt_eq_ok hAsked
  obtain ⟨bytes, b₂, hEncoded, h⟩ := bind_eq_ok h
  obtain ⟨hBytes, rfl⟩ := attempt_eq_ok hEncoded
  obtain ⟨d, hWrite, hEnd⟩ := changeDisk_eq_ok h
  exact ⟨s, bytes, d, hText, hBytes, hWrite, hEnd⟩

/-- The temporary name beside a document is an absolute path, to a longer name than the document's
own. -/
theorem openBeside_eq_ok {p : FilePath} {front : List String} {last temporary : String}
    {b b' : Bench} (hParts : p.parts = front ++ [last]) (hSlash : '/' ∉ last.toList)
    (h : openBeside p b = .ok temporary b') :
    isAbsolute temporary = true ∧ ∀ current, ∃ around n,
      resolve current temporary = around ++ [last ++ Registry.token n] := by
  obtain ⟨b₁, b₂, hGet, hCreated⟩ := bind_eq_ok h
  cases hGet
  obtain ⟨n, -, -, hPath, -⟩ := create_eq_ok hCreated
  have hName : p.name = last := by simp [FilePath.name, hParts]
  rw [hName] at hPath
  have hToken := slash_not_mem_append hSlash (slash_not_mem_token n)
  obtain ⟨front', hFront⟩ := names_join (absoluteText b.current p.parent.text) hToken
  rw [← hPath] at hFront
  refine ⟨?_, fun current => ?_⟩
  · rw [hPath]
    exact isAbsolute_join (isAbsolute_absoluteText _ _)
  · obtain ⟨around, hPlace⟩ := resolve_last hFront (AfterRuns.isPlain_append_token n) current
    exact ⟨around, n, hPlace⟩

/-- Places with names of which one goes on with a token are different. -/
theorem append_token_ne {around around' : Location} {last : String} {n : Nat} :
    around ++ [last ++ Registry.token n] ≠ around' ++ [last] := by
  intro hSame
  have hLast := List.singleton_inj.mp (List.append_inj' hSame rfl).2
  have hLength := congrArg (fun s : String => s.toList.length) hLast
  simp [Registry.token] at hLength

/-- A document goes to the last name of its path, and is stored under a longer one first. -/
theorem openBeside_apart {path temporary : String} {b b' : Bench}
    (hDots : Disk.endsWithDots (FilePath.ofString path).text = false)
    (h : openBeside (FilePath.ofString path) b = .ok temporary b') :
    isAbsolute temporary = true ∧ ∀ current, resolve current temporary ≠ [] ∧
      resolve current temporary ≠ resolve current (FilePath.ofString path).text := by
  obtain ⟨front, last, hParts, hPlain, hSlash⟩ :=
    FilePath.last_of_not_endsWithDots (FilePath.spelled_ofString path) hDots
  have hNonempty : (FilePath.ofString path).parts ≠ [] := by simp [hParts]
  obtain ⟨-, count, hNames⟩ := FilePath.text_spec (FilePath.spelled_ofString path) hNonempty
  rw [hParts, ← List.append_assoc] at hNames
  obtain ⟨hAbsolute, hBeside⟩ := openBeside_eq_ok hParts hSlash h
  refine ⟨hAbsolute, fun current => ?_⟩
  obtain ⟨around, hPlace⟩ := resolve_last hNames hPlain current
  obtain ⟨around', n, hPlace'⟩ := hBeside current
  rw [hPlace, hPlace']
  exact ⟨by simp, append_token_ne⟩

/-- A document that was written is read at its path. -/
theorem writeDocument_eq_ok {path : String} {data indent : Value} {b b' : Bench}
    (h : writeDocument path data indent b = .ok () b') :
    ∃ text bytes, Json.documentText indent data = .ok text ∧ storedBytes text = .ok bytes ∧
      b'.disk.readFile b'.current (FilePath.ofString path).text = .ok bytes := by
  rw [writeDocument] at h
  obtain ⟨folder, b₁, -, h⟩ := bind_eq_ok h
  obtain ⟨temporary, b₂, hOpened, h⟩ := bind_eq_ok h
  obtain ⟨b₃, hMoved, hDiscard⟩ := ensuring_eq_ok h
  obtain ⟨_, b₄, hStore, hMove⟩ := bind_eq_ok hMoved
  obtain ⟨text, bytes, d, hText, hBytes, hWrite, rfl⟩ := store_eq_ok hStore
  obtain ⟨d', hReplace, rfl⟩ := changeDisk_eq_ok hMove
  cases hDiscard
  obtain ⟨hAbsolute, hApart⟩ :=
    openBeside_apart (Disk.not_endsWithDots_of_replaceFile hReplace) hOpened
  obtain ⟨hInside, hOther⟩ := hApart b₂.current
  obtain ⟨-, -, rfl⟩ := Disk.writeFile_eq_ok hWrite
  rw [resolve_absolute hAbsolute [] b₂.current] at hReplace
  refine ⟨text, bytes, hText, hBytes, ?_⟩
  show ((d'.discard b₂.current temporary).2).readFile b₂.current _ = _
  rw [Disk.discard_of_replaceFile hReplace hInside hOther]
  exact Disk.readFile_of_replaceFile hReplace (Disk.get?_put_self _ hInside _)

section Reading

variable {path : String} {b : Bench} {bytes : List UInt8} {text : String} {v : Value}

/-- The value of a document whose bytes are at its path. -/
theorem readDocument?_of_readFile
    (hBytes : b.disk.readFile b.current (FilePath.ofString path).text = .ok bytes)
    (hText : Utf8.decode? bytes = some text) (hValue : parseJson text = .ok v) :
    readDocument? path b = .ok (some v) b := by
  have hThere : pathExists (FilePath.ofString path).text b = .ok true b := by
    refine ask_ok ?_
    rw [Disk.readFile] at hBytes
    rw [Disk.probe]
    split at hBytes
    · cases hBytes
    · cases hBytes
    · rename_i hStatus
      rw [hStatus]
  have hRead : readText (FilePath.ofString path).text b = .ok text b := by
    rw [readText, bind_ok (ask_ok hBytes)]
    simp only [hText]
    rfl
  rw [readDocument?, bind_ok hThere, if_pos rfl, bind_ok hRead, hValue]
  rfl

theorem readDocument_of_readFile
    (hBytes : b.disk.readFile b.current (FilePath.ofString path).text = .ok bytes)
    (hText : Utf8.decode? bytes = some text) (hValue : parseJson text = .ok v) :
    readDocument path b = .ok v b := by
  rw [readDocument, bind_ok (readDocument?_of_readFile hBytes hText hValue)]
  rfl

end Reading

end Bench

end CircuitBench
