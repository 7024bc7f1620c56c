import CircuitBench.Proofs.Bench.Added
import CircuitBench.Proofs.Circuit.Failures
import CircuitBench.Proofs.Disk.Gained
import CircuitBench.Proofs.Template.Written

/-!
# Documents are written in full or not at all

A document goes through three stages.  The folder around its place is made; a file beside its place
is opened, which was free; and that file is written and moved.  Once it is open, the file can always
be written, so that there are two things left that may go wrong: the value has no text, or the move
is refused.  Whichever it is, the file is discarded, and then the disk holds what it held before the
file was opened.  A file that was moved is not there to be discarded.

Whether the file system takes a document has nothing to do with the document, neither with its value
nor with the indent: whether a file can be moved to a place depends on the folders around it, not on
the bytes of the file.

Folders that were made stay.  They lie on the way of the folder around the document, which may lead
through the place of the document itself if it climbs, as that of `a/../a` does.

## Main results

* `IsWritable` : when the file system takes documents at a path.
* `writeDocument_cases` : then all documents that have bytes are written, and otherwise none is.
* `writeDocument_all_or_nothing` : what is on the disk after a document was written, and after it was
  not.
-/

namespace CircuitBench

open CircuitBench.Path Text

namespace Bench

open Disk

variable {b : Bench} {path temporary : String} {n : Nat} {l : Location} {d : Disk}

/-! ## A file that is opened -/

namespace Opens

variable {node : Node}

/-- The path of a file that was opened can be followed as long as nothing else is changed. -/
theorem located (h : Opens b temporary n l node d) {d' : Disk}
    (hElse : ∀ m, m ≠ l → d'.get? m = b.disk.get? m) :
    d'.locate b.current temporary = .ok ⟨l, false⟩ := by
  refine locate_of_folders (fun m hm => ?_) h.place
  rw [hElse m, hm]
  rintro rfl
  rw [h.free] at hm
  cases hm

/-- When a file that was opened is discarded, everything is as it was before. -/
theorem discarded (h : Opens b temporary n l node d) {d' : Disk} {bytes : List UInt8}
    (hElse : ∀ m, m ≠ l → d'.get? m = b.disk.get? m) (hFile : d'.get? l = some (.file bytes))
    (m : Location) : (d'.discard b.current temporary).2.get? m = b.disk.get? m := by
  have hStatus : d'.status b.current temporary = .ok (l, .file bytes) := by
    rw [status, h.located hElse]
    simp [hFile]
  rw [Disk.discard, hStatus]
  show (d'.remove l).get? m = b.disk.get? m
  by_cases hHere : m = l
  · rw [hHere, get?_remove_self _ h.inside, h.free]
  · rw [get?_remove_of_ne _ hHere, hElse m hHere]

end Opens

/-- A file that is put to a free place changes nothing of where others may be put. -/
theorem takesFile_put (hFree : b.disk.get? l = none) (bytes : List UInt8) :
    (b.disk.put l (.file bytes)).TakesFile b.current path ↔ b.disk.TakesFile b.current path := by
  have hInside : l ≠ [] := by
    rintro rfl
    cases hFree
  have hSame : ∀ m, (b.disk.put l (.file bytes)).get? m = some .folder ↔
      b.disk.get? m = some .folder := by
    intro m
    by_cases hHere : m = l
    · rw [hHere, get?_put_self _ hInside, hFree]
      exact iff_of_false (by rintro ⟨⟩) (by rintro ⟨⟩)
    · rw [get?_put_of_ne _ hHere]
  exact ⟨fun h => h.of_folders fun m => (hSame m).symm, fun h => h.of_folders hSame⟩

/-! ## The file beside a document -/

/-- What is done with the file beside a document once it is open. -/
def writeBeside (temporary target : String) (data indent : Value) : Action Unit :=
  ensuring
    (do
      store temporary (Json.documentText indent data)
      moveInto temporary target)
    (discard temporary)

section Beside

variable {target : String} {data indent : Value}

/-- The bench with a file that was opened, and a number drawn for its name. -/
def withBeside (b : Bench) (n : Nat) (d : Disk) : Bench :=
  { b with disk := d, namesDrawn := n + 1 }

/-- The bytes of a document are stored in the file that was opened. -/
theorem store_beside (hOpens : Opens b temporary n l (.file []) d) {bytes : List UInt8}
    (hBytes : documentBytes data indent = .ok bytes) :
    store temporary (Json.documentText indent data) (b.withBeside n d) =
      .ok () (b.withBeside n (b.disk.put l (.file bytes))) :=
  (store_of_bytes hBytes _ _).trans (changeDisk_of_ok (hOpens.writeFile bytes))

/-- A value that has no bytes leaves everything as it was. -/
theorem writeBeside_of_error (target : String) (hOpens : Opens b temporary n l (.file []) d)
    {e : Error} (hNone : documentBytes data indent = .error e) :
    ∃ d', (∀ m, d'.get? m = b.disk.get? m) ∧
      writeBeside temporary target data indent (b.withBeside n d) = .error e (b.withBeside n d') := by
  have hFile : d.get? l = some (.file []) := by rw [hOpens.disk, get?_put_self _ hOpens.inside]
  have hElse : ∀ m, m ≠ l → d.get? m = b.disk.get? m := by
    intro m hm
    rw [hOpens.disk, get?_put_of_ne _ hm]
  exact ⟨_, hOpens.discarded hElse hFile,
    ensuring_of_error (bind_error (store_of_error hNone _ _)) rfl⟩

/-- So does a move that is refused. -/
theorem writeBeside_of_refused (hOpens : Opens b temporary n l (.file []) d)
    (hSource : resolve [] temporary = l) {bytes : List UInt8} {fault : DiskFault}
    (hBytes : documentBytes data indent = .ok bytes)
    (hRefused : (b.disk.put l (.file bytes)).replaceFile b.current l target = .error fault) :
    ∃ d', (∀ m, d'.get? m = b.disk.get? m) ∧
      writeBeside temporary target data indent (b.withBeside n d) =
        .error (.disk fault) (b.withBeside n d') := by
  have hMove : moveInto temporary target (b.withBeside n (b.disk.put l (.file bytes))) =
      .error (.disk fault) (b.withBeside n (b.disk.put l (.file bytes))) := by
    rw [moveInto, hSource]
    exact changeDisk_of_error hRefused
  exact ⟨_, hOpens.discarded (fun _ hm => get?_put_of_ne _ hm _) (get?_put_self _ hOpens.inside _),
    ensuring_of_error ((bind_ok (store_beside hOpens hBytes)).trans hMove) rfl⟩

/-- A document that is moved to its place is read there, and nothing else is changed. -/
theorem writeBeside_of_moved (hOpens : Opens b temporary n l (.file []) d)
    (hSource : resolve [] temporary = l) (hPlace : resolve b.current temporary = l)
    (hOther : l ≠ resolve b.current target) {bytes : List UInt8} {moved : Disk}
    (hBytes : documentBytes data indent = .ok bytes)
    (hMoved : (b.disk.put l (.file bytes)).replaceFile b.current l target = .ok moved) :
    moved.readFile b.current target = .ok bytes ∧
      (∀ m, m ≠ resolve b.current target → moved.get? m = b.disk.get? m) ∧
      writeBeside temporary target data indent (b.withBeside n d) =
        .ok () (b.withBeside n moved) := by
  have hFile : (b.disk.put l (.file bytes)).get? l = some (.file bytes) :=
    get?_put_self _ hOpens.inside _
  have hMove : moveInto temporary target (b.withBeside n (b.disk.put l (.file bytes))) =
      .ok () (b.withBeside n moved) := by
    rw [moveInto, hSource]
    exact changeDisk_of_ok hMoved
  have hGone : (moved.discard b.current temporary).2 = moved := by
    rw [← hPlace] at hMoved hOther
    exact discard_of_replaceFile hMoved (hPlace ▸ hOpens.inside) hOther
  refine ⟨readFile_of_replaceFile hMoved hFile, fun m hm => ?_,
    ensuring_of_ok ((bind_ok (store_beside hOpens hBytes)).trans hMove) ?_⟩
  · obtain ⟨node, -, rfl⟩ := replaceFile_eq_ok hMoved
    rw [get?_put_of_ne _ hm]
    by_cases hHere : m = l
    · rw [hHere, get?_remove_self _ hOpens.inside, hOpens.free]
    · rw [get?_remove_of_ne _ hHere, get?_put_of_ne _ hHere]
  · show EStateM.Result.ok () (b.withBeside n (moved.discard b.current temporary).2) = _
    rw [hGone]

end Beside

/-! ## Documents -/

/-- The bench with the folder around a path made, as far as that is not refused. -/
def withFolder (b : Bench) (target : FilePath) : Bench :=
  { b with disk := (b.disk.makeFolders b.current target.parent).2 }

theorem ensureFolder_cases {folder : FilePath} (hFolder : folder.Spelled) (b : Bench) :
    (∃ fault, (b.disk.makeFolders b.current folder).1 = .error fault ∧
      ensureFolder folder.text b =
        .error (.disk fault) { b with disk := (b.disk.makeFolders b.current folder).2 }) ∨
    (b.disk.makeFolders b.current folder).1 = .ok () ∧ ensureFolder folder.text b =
      .ok folder.text { b with disk := (b.disk.makeFolders b.current folder).2 } := by
  rw [ensureFolder, FilePath.ofString_text_of_spelled hFolder]
  rcases hMade : b.disk.makeFolders b.current folder with ⟨_ | _, d⟩
  · rename_i fault
    have hEnd : makeFolders folder b = .error (.disk fault) { b with disk := d } := by
      rw [makeFolders, hMade]
    exact .inl ⟨fault, rfl, bind_error hEnd⟩
  · have hEnd : makeFolders folder b = .ok () { b with disk := d } := by
      rw [makeFolders, hMade]
    exact .inr ⟨rfl, bind_ok hEnd⟩

/-- Whether the file system takes documents at a path: the folder around the place can be made, a
file can be opened beside it, and the path ends with a plain name, where a file may be put. -/
structure IsWritable (path : String) (b : Bench) : Prop where
  folder : (b.disk.makeFolders b.current (FilePath.ofString path).parent).1 = .ok ()
  beside : ∃ temporary b',
    openBeside (FilePath.ofString path) (b.withFolder (FilePath.ofString path)) = .ok temporary b'
  dots : endsWithDots (FilePath.ofString path).text = false
  place : (b.withFolder (FilePath.ofString path)).disk.TakesFile b.current
    (FilePath.ofString path).text

/-- A file beside the place of a document is opened, or the file system refuses to, whatever the
document. -/
theorem writeDocument_opened (path : String) (b : Bench) :
    let target := FilePath.ofString path
    (¬IsWritable path b ∧ ∃ e n, e.IsRefusal ∧ ∀ data indent, writeDocument path data indent b =
      .error e { b.withFolder target with namesDrawn := n }) ∨
    (b.disk.makeFolders b.current target.parent).1 = .ok () ∧
    ∃ temporary n l d, Opens (b.withFolder target) temporary n l (.file []) d ∧
      isAbsolute temporary = true ∧
      openBeside target (b.withFolder target) =
        .ok temporary ((b.withFolder target).withBeside n d) ∧
      ∀ data indent, writeDocument path data indent b =
        writeBeside temporary target.text data indent ((b.withFolder target).withBeside n d) := by
  intro target
  have hSpelled : target.parent.Spelled := (FilePath.spelled_ofString path).parent
  rcases ensureFolder_cases hSpelled b with ⟨fault, hFault, hEnd⟩ | ⟨hMade, hEnd⟩
  · refine .inl ⟨fun h => ?_, .disk fault, b.namesDrawn, ⟨fault, rfl⟩, fun _ _ => bind_error hEnd⟩
    cases hFault.symm.trans h.folder
  · rcases openBeside_cases target (b.withFolder target) with
      ⟨temporary, n, l, d, hOpens, hAbsolute, hOpened⟩ | ⟨e, n, -, hFails⟩
    · exact .inr ⟨hMade, temporary, n, l, d, hOpens, hAbsolute, hOpened,
        fun _ _ => (bind_ok hEnd).trans (bind_ok hOpened)⟩
    · refine .inl ⟨fun h => ?_, e, n, openBeside_eq_error hFails,
        fun _ _ => (bind_ok hEnd).trans (bind_error hFails)⟩
      obtain ⟨temporary, b', hOpened⟩ := h.beside
      cases hFails.symm.trans hOpened

section Ends

variable (path : String) (data indent : Value) (b : Bench) (d : Disk)

/-- Whether a document is not written, and everything on the disk is as on another one. -/
def FailsAs (e : Error) : Prop :=
  ∃ d' n, (∀ l, d'.get? l = d.get? l) ∧
    writeDocument path data indent b = .error e { b with disk := d', namesDrawn := n }

/-- Whether a document is written with some bytes, and everything on the disk but for its place is as
on another one. -/
def SucceedsAs (bytes : List UInt8) : Prop :=
  ∃ d' n, (∀ l, l ≠ resolve b.current (FilePath.ofString path).text → d'.get? l = d.get? l) ∧
    d'.readFile b.current (FilePath.ofString path).text = .ok bytes ∧
    writeDocument path data indent b = .ok () { b with disk := d', namesDrawn := n }

end Ends

/-- How the writing of a document ends depends on the file system and on whether the document has
bytes. -/
theorem writeDocument_cases (path : String) (data indent : Value) (b : Bench) :
    let d := (b.withFolder (FilePath.ofString path)).disk
    (∃ bytes, IsWritable path b ∧ documentBytes data indent = .ok bytes ∧
      SucceedsAs path data indent b d bytes) ∨
    ∃ e, (¬IsWritable path b ∧ e.IsRefusal ∨ documentBytes data indent = .error e) ∧
      FailsAs path data indent b d e := by
  intro d
  rcases writeDocument_opened path b with ⟨hNot, e, n, hRefusal, hEnds⟩ |
    ⟨hFolder, temporary, n, l, opened, hOpens, hAbsolute, hOpened, hEnds⟩
  · exact .inr ⟨e, .inl ⟨hNot, hRefusal⟩, d, n, fun _ => rfl, hEnds data indent⟩
  have hPlace : resolve b.current temporary = l := (locate_eq_ok hOpens.place).symm
  have hSource : resolve [] temporary = l := by rw [resolve_absolute hAbsolute [] b.current, hPlace]
  cases hBytes : documentBytes data indent with
  | error e =>
      obtain ⟨d', hSame, hEnd⟩ :=
        writeBeside_of_error (FilePath.ofString path).text hOpens hBytes
      exact .inr ⟨e, .inr rfl, d', n + 1, hSame, (hEnds data indent).trans hEnd⟩
  | ok bytes =>
      have hMoves : endsWithDots (FilePath.ofString path).text = false ∧
          d.TakesFile b.current (FilePath.ofString path).text ↔ ∃ moved,
            (d.put l (.file bytes)).replaceFile b.current l (FilePath.ofString path).text =
              .ok moved :=
        (and_congr_right' (takesFile_put hOpens.free bytes).symm).trans
          (takesFile_iff_replaceFile (get?_put_self d hOpens.inside _))
      cases hMove : (d.put l (.file bytes)).replaceFile b.current l
          (FilePath.ofString path).text with
      | error fault =>
          obtain ⟨d', hSame, hEnd⟩ := writeBeside_of_refused hOpens hSource hBytes hMove
          refine .inr ⟨.disk fault, .inl ⟨fun h => ?_, fault, rfl⟩, d', n + 1, hSame,
            (hEnds data indent).trans hEnd⟩
          obtain ⟨moved, hMoved⟩ := hMoves.mp ⟨h.dots, h.place⟩
          cases hMove.symm.trans hMoved
      | ok moved =>
          obtain ⟨hDots, hTakes⟩ := hMoves.mpr ⟨moved, hMove⟩
          obtain ⟨-, hApart⟩ := openBeside_apart hDots hOpened
          have hOther : l ≠ resolve b.current (FilePath.ofString path).text := by
            rw [← hPlace]
            exact (hApart b.current).2
          obtain ⟨hRead, hElse, hEnd⟩ :=
            writeBeside_of_moved hOpens hSource hPlace hOther hBytes hMove
          exact .inl ⟨bytes, ⟨hFolder, ⟨_, _, hOpened⟩, hDots, hTakes⟩, rfl, moved, n + 1, hElse,
            hRead, (hEnds data indent).trans hEnd⟩

/-- A value has the bytes of its document exactly if it has a text that can be encoded. -/
theorem documentBytes_eq_ok {data indent : Value} {bytes : List UInt8}
    (h : documentBytes data indent = .ok bytes) :
    ∃ text, Json.documentText indent data = .ok text ∧ Utf8.encode? text = some bytes := by
  obtain ⟨text, hText, hBytes⟩ := except_bind_eq_ok h
  refine ⟨text, hText, ?_⟩
  rw [storedBytes] at hBytes
  split at hBytes
  · rename_i hEncoded
    cases hBytes
    exact hEncoded
  · cases hBytes

/-- A document is written in full or not at all.  Written, it is read at its path with all the bytes
of its text, and nothing else has changed on the disk but for folders on the way of the one around
it that are new.  Not written, nothing has changed but for these; what its path led to, it leads to
still, unless the path climbs.  Nothing but the disk and the names drawn is changed in any case. -/
theorem writeDocument_all_or_nothing {b : Bench} (hTree : b.disk.IsTree) (path : String)
    (data indent : Value) :
    let target := FilePath.ofString path
    (∃ e d n, writeDocument path data indent b = .error e { b with disk := d, namesDrawn := n } ∧
      b.disk.GainsFolders (OnTheWay b.current target.parent.text) d ∧
      (".." ∉ target.parts → (d.status b.current target.text).toOption =
        (b.disk.status b.current target.text).toOption)) ∨
    ∃ text bytes d n,
      writeDocument path data indent b = .ok () { b with disk := d, namesDrawn := n } ∧
      Json.documentText indent data = .ok text ∧ Utf8.encode? text = some bytes ∧
      d.readFile b.current target.text = .ok bytes ∧
      ∀ l, l ≠ resolve b.current target.text → d.get? l = b.disk.get? l ∨
        b.disk.get? l = none ∧ d.get? l = some .folder ∧
          OnTheWay b.current target.parent.text l := by
  intro target
  have hSpelled : target.Spelled := FilePath.spelled_ofString path
  have hGains : b.disk.GainsFolders (OnTheWay b.current target.parent.text)
      (b.withFolder target).disk := by
    have hMade := makeFolders_gains hTree b.current target.parent.text
    rwa [FilePath.ofString_text_of_spelled hSpelled.parent] at hMade
  have hFails : ∀ {e}, FailsAs path data indent b (b.withFolder target).disk e →
      ∃ e d n, writeDocument path data indent b = .error e { b with disk := d, namesDrawn := n } ∧
        b.disk.GainsFolders (OnTheWay b.current target.parent.text) d ∧
        (".." ∉ target.parts → (d.status b.current target.text).toOption =
          (b.disk.status b.current target.text).toOption) := by
    rintro e ⟨d, n, hSame, hEnd⟩
    refine ⟨e, d, n, hEnd, hGains.congr hSame, fun hUp => ?_⟩
    rw [status_congr fun l _ => hSame l]
    exact status_makeFolders hTree hSpelled hUp
  rcases writeDocument_cases path data indent b with
    ⟨bytes, -, hBytes, d, n, hElse, hRead, hEnd⟩ | ⟨e, -, hEnd⟩
  · obtain ⟨text, hText, hEncoded⟩ := documentBytes_eq_ok hBytes
    refine .inr ⟨text, bytes, d, n, hEnd, hText, hEncoded, hRead, fun l hl => ?_⟩
    rw [hElse l hl]
    exact hGains l
  · exact .inl (hFails hEnd)

/-- A list with a set deep inside is not written over a document, which stays as it was; a number is
written over it. -/
theorem writeDocument_all_or_nothing_replaced :
    let b : Bench := { disk := ⟨[(["a"], .folder), (["a", "out.json"], .file [49])]⟩ }
    (∃ e d n, writeDocument "/a/out.json" (.list [.int 1, .list [.set []]]) documentIndent b =
        .error e { b with disk := d, namesDrawn := n } ∧
      d.status [] "/a/out.json" = .ok (["a", "out.json"], .file [49])) ∧
    ∃ d n, writeDocument "/a/out.json" (.int 23) documentIndent b =
        .ok () { b with disk := d, namesDrawn := n } ∧
      d.readFile [] "/a/out.json" = .ok [50, 51] := by
  intro b
  have hTree : b.disk.IsTree := isTree_of_nodes (by decide)
  constructor
  · have hNone : (outcome (writeDocument "/a/out.json" (.list [.int 1, .list [.set []]])
        documentIndent) b).1.toBool = false := by
      decide +kernel
    rcases writeDocument_all_or_nothing hTree "/a/out.json" (.list [.int 1, .list [.set []]])
        documentIndent with ⟨e, d, n, hEnd, -, hKept⟩ | ⟨text, bytes, d, n, hEnd, -⟩
    · have hStatus : (d.status [] "/a/out.json").toOption =
          some (["a", "out.json"], .file [49]) := hKept (by decide)
      exact ⟨e, d, n, hEnd, Except.eq_ok_of_toOption hStatus⟩
    · rw [outcome, hEnd] at hNone
      cases hNone
  · have hDone : (outcome (writeDocument "/a/out.json" (.int 23) documentIndent) b).1.toBool =
        true := by
      decide +kernel
    rcases writeDocument_all_or_nothing hTree "/a/out.json" (.int 23) documentIndent with
      ⟨e, d, n, hEnd, -⟩ | ⟨text, bytes, d, n, hEnd, hText, hBytes, hRead, -⟩
    · rw [outcome, hEnd] at hDone
      cases hDone
    · obtain rfl : "23" = text := Except.ok.inj hText
      obtain rfl : [50, 51] = bytes := Option.some.inj hBytes
      exact ⟨d, n, hEnd, hRead⟩

/-- The path of a document may lead down into a folder that is not there, up again, and to that
folder.  Then the folder is made on the way to the one around the document, in the place of the
document itself, and stays when the document is refused. -/
theorem folder_left_at_document :
    let b : Bench := { disk := ⟨[(["w"], .folder)]⟩, current := ["w"] }
    let (result, b') := outcome (writeDocument "a/../a" (.int 1) documentIndent) b
    result.toBool = false ∧ b.disk.get? (resolve b.current "a/../a") = none ∧
      b.disk.exists? b.current "a/../a" = false ∧
      b'.disk.get? (resolve b.current "a/../a") = some .folder ∧
      b'.disk.exists? b.current "a/../a" = true := by
  decide +kernel

end Bench

end CircuitBench
