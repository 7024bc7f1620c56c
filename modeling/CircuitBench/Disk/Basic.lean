import CircuitBench.Path.Basic
import CircuitBench.Path.Encoded
import CircuitBench.Error

/-!
# Files and folders

The part of a file system that the library touches: plain files and folders, found by path from a
current folder.  There are no links, so that a location names at most one node, and the root is
always a folder.

An operation gives the new disk, or the reason why it is refused; a refused operation changes
nothing, but for folders that were made on the way to one that could not be made.  A path is
followed name by name, and every name but the last must lead to a folder that exists.

Folders that are missing around another one are made to a limited depth, at which the recursion
that makes them ends.  A folder is taken away without such a limit: how deep folders may be nested
that are still taken away depends on how deep the caller has got, and is set aside.

## Main results

* `get?_put_self`, `get?_put_of_ne` : a disk answers with what was put last.
* `get?_removeTree_of_below`, `get?_removeTree_of_not_below` : removing a tree removes what lies in
  it and nothing else.
-/

namespace CircuitBench

open CircuitBench.Path Text

/-- What a location holds: a file with its bytes, or a folder. -/
inductive Node
  | file (bytes : List UInt8)
  | folder
deriving DecidableEq, Repr

/-- The nodes of a file system by location, the root left out. -/
structure Disk where
  nodes : List (Location × Node) := []

namespace Disk

/-! ## Nodes by location -/

/-- Looks a location up in a list of nodes. -/
def find? (l : Location) : List (Location × Node) → Option Node
  | [] => none
  | (m, node) :: rest => if m = l then some node else find? l rest

/-- What a location holds. -/
def get? (d : Disk) (l : Location) : Option Node :=
  if l = [] then some .folder else find? l d.nodes

/-- The nodes of a list at other locations than one. -/
def without (l : Location) (nodes : List (Location × Node)) : List (Location × Node) :=
  nodes.filter fun e => e.1 != l

/-- Puts a node at a location. -/
def put (d : Disk) (l : Location) (node : Node) : Disk :=
  ⟨without l d.nodes ++ [(l, node)]⟩

/-- Takes the node at a location away. -/
def remove (d : Disk) (l : Location) : Disk :=
  ⟨without l d.nodes⟩

/-- Whether a location is another one or lies below it. -/
def isBelow (folder l : Location) : Bool :=
  folder.isPrefixOf l

/-- Takes away all that lies below a location, and the node itself as well if so asked. -/
def removeTree (d : Disk) (l : Location) (itself : Bool) : Disk :=
  ⟨d.nodes.filter fun e => !(isBelow l e.1 && (itself || e.1 != l))⟩

/-- Whether a location holds a folder. -/
def isFolderAt (d : Disk) (l : Location) : Bool :=
  d.get? l == some .folder

/-- What lies below a location, named by the way from there. -/
def below (d : Disk) (l : Location) : List (Location × Node) :=
  (d.nodes.filter fun e => isBelow l e.1 && e.1 != l).map fun e => (e.1.drop l.length, e.2)

/-- What lies below a location as paths from there; the path of a folder ends in a slash. -/
def tree (d : Disk) (l : Location) : List String :=
  (d.below l).map fun e => "/".intercalate e.1 ++ if e.2 == .folder then "/" else ""

/-! ## Paths -/

/-- A place that a path leads to: its location, and whether the path says that it is a folder, by a
slash at its end. -/
structure Place where
  location : Location
  asFolder : Bool

/-- Follows names from a location.  Each name is looked up in a folder that must exist. -/
def walk (d : Disk) (here : Location) : List String → Except DiskFault Location
  | [] => .ok here
  | name :: rest =>
    if name = "" then walk d here rest
    else
      match d.get? here with
      | none => .error .missing
      | some (.file _) => .error .notDirectory
      | some .folder =>
        if nameLimit < byteCount name then .error .nameTooLong else walk d (step here name) rest

/-- Whether a path ends with a slash. -/
def endsWithSlash (path : String) : Bool :=
  path.toList.getLast? == some '/'

/-- Why a path is refused, whatever is on the disk. -/
def refusal? (path : String) : Option DiskFault :=
  if !canBeEncoded path then some .unencodable
  else if path.toList.contains (Char.ofNat 0) then some .nullInPath
  else if path = "" then some .missing
  else if pathLimit < byteCount path then some .nameTooLong
  else none

/-- The place that a path leads to from a current folder. -/
def locate (d : Disk) (current : Location) (path : String) : Except DiskFault Place :=
  match refusal? path with
  | some fault => .error fault
  | none =>
    match d.walk (if isAbsolute path then [] else current) (names path) with
    | .error fault => .error fault
    | .ok location => .ok ⟨location, endsWithSlash path⟩

/-- The node that a path leads to. -/
def status (d : Disk) (current : Location) (path : String) : Except DiskFault (Location × Node) :=
  match d.locate current path with
  | .error fault => .error fault
  | .ok place =>
    match d.get? place.location with
    | none => .error .missing
    | some (.file bytes) =>
      if place.asFolder then .error .notDirectory else .ok (place.location, .file bytes)
    | some .folder => .ok (place.location, .folder)

/-- Whether a path leads to anything. -/
def exists? (d : Disk) (current : Location) (path : String) : Bool :=
  (d.status current path).toOption.isSome

/-- Whether a path leads to anything; a name that is too long is refused. -/
def probe (d : Disk) (current : Location) (path : String) : Except DiskFault Bool :=
  match d.status current path with
  | .ok _ => .ok true
  | .error .nameTooLong => .error .nameTooLong
  | .error _ => .ok false

/-- Whether a path leads to a folder. -/
def isFolder (d : Disk) (current : Location) (path : String) : Bool :=
  match d.status current path with
  | .ok (_, .folder) => true
  | _ => false

/-! ## Files -/

/-- The bytes of a file. -/
def readFile (d : Disk) (current : Location) (path : String) : Except DiskFault (List UInt8) :=
  match d.status current path with
  | .error fault => .error fault
  | .ok (_, .folder) => .error .isDirectory
  | .ok (_, .file bytes) => .ok bytes

/-- The bytes of the file that a path leads to, if it leads to one. -/
def content? (d : Disk) (current : Location) (path : String) : Option (List UInt8) :=
  (d.readFile current path).toOption

/-- The place where a new node may be put: its folder must exist. -/
def vacancy (d : Disk) (current : Location) (path : String) : Except DiskFault Place :=
  match d.locate current path with
  | .error fault => .error fault
  | .ok place =>
    match d.get? place.location.dropLast with
    | none => .error .missing
    | some (.file _) => .error .notDirectory
    | some .folder => .ok place

/-- Makes an empty file that must not be there yet. -/
def createFile (d : Disk) (current : Location) (path : String) :
    Except DiskFault (Location × Disk) :=
  match d.vacancy current path with
  | .error fault => .error fault
  | .ok place =>
    if (d.get? place.location).isSome then .error .exists
    else if place.asFolder then .error .isDirectory
    else .ok (place.location, d.put place.location (.file []))

/-- Writes a file, which may be there already. -/
def writeFile (d : Disk) (current : Location) (path : String) (bytes : List UInt8) :
    Except DiskFault Disk :=
  match d.vacancy current path with
  | .error fault => .error fault
  | .ok place =>
    if d.isFolderAt place.location ∨ place.asFolder then .error .isDirectory
    else .ok (d.put place.location (.file bytes))

/-- Whether the last name of a path is one of dots, which names a folder by another one. -/
def endsWithDots (path : String) : Bool :=
  match ((names path).filter (· != "")).getLast? with
  | some name => name == "." || name == ".."
  | none => true

/-- Moves the file at a location to a path, where a file may be there already. -/
def replaceFile (d : Disk) (current : Location) (source : Location) (path : String) :
    Except DiskFault Disk :=
  if endsWithDots path then .error .busy
  else
    match d.vacancy current path, d.get? source with
    | .error fault, _ => .error fault
    | .ok _, none => .error .missing
    | .ok place, some node =>
      if d.isFolderAt place.location then .error .isDirectory
      else if place.asFolder then .error .notDirectory
      else .ok ((d.remove source).put place.location node)

/-! ## Folders -/

/-- Makes a folder in one that exists. -/
def makeFolder (d : Disk) (current : Location) (path : String) :
    Except DiskFault (Location × Disk) :=
  match d.vacancy current path with
  | .error fault => .error fault
  | .ok place =>
    if (d.get? place.location).isSome then .error .exists
    else .ok (place.location, d.put place.location .folder)

/-- Makes a folder and those around it that are missing, given the names of its path from the last
to the first.  A folder that is there already is left alone, and folders made before one is refused
stay. -/
def makeFoldersFrom (d : Disk) (current : Location) (root : String) :
    List String → Except DiskFault Unit × Disk
  | [] => (if d.isFolder current (FilePath.text ⟨root, []⟩) then .ok () else .error .missing, d)
  | name :: around =>
    let path := FilePath.text ⟨root, (name :: around).reverse⟩
    match d.makeFolder current path with
    | .ok (_, d') => (.ok (), d')
    | .error .missing =>
      match makeFoldersFrom d current root around with
      | (.error fault, d') => (.error fault, d')
      | (.ok (), d') =>
        match d'.makeFolder current path with
        | .ok (_, d'') => (.ok (), d'')
        | .error fault => (if d'.isFolder current path then .ok () else .error fault, d')
    | .error fault => (if d.isFolder current path then .ok () else .error fault, d)

/-- The most folders around a folder that are made with it. -/
def levelLimit : Nat := 985

/-- How many folders of a path, given by its names from the last to the first, cannot be made
because the one around them is missing. -/
def missingLevels (d : Disk) (current : Location) (root : String) : List String → Nat
  | [] => 0
  | name :: around =>
    match d.makeFolder current (FilePath.text ⟨root, (name :: around).reverse⟩) with
    | .error .missing => missingLevels d current root around + 1
    | _ => 0

/-- Makes a folder and those around it that are missing.  A folder that is there already is left
alone, and folders made before one is refused stay. -/
def makeFolders (d : Disk) (current : Location) (path : FilePath) : Except DiskFault Unit × Disk :=
  if levelLimit < path.parts.length ∧
      levelLimit < d.missingLevels current path.root path.parts.reverse then
    (.error .tooDeep, d)
  else d.makeFoldersFrom current path.root path.parts.reverse

/-- Puts a file at a path, or a folder where no bytes are given, with the folders around it that are
missing, and says whether it could.  Folders made before a file is refused stay. -/
def place (d : Disk) (current : Location) (path : String) (content : Option (List UInt8)) :
    Bool × Disk :=
  match content with
  | none =>
    let (made, d') := d.makeFolders current (FilePath.ofString path)
    (made.toBool, d')
  | some bytes =>
    match d.makeFolders current (FilePath.ofString path).parent with
    | (.error _, d') => (false, d')
    | (.ok (), d') =>
      match d'.writeFile current path bytes with
      | .ok d'' => (true, d'')
      | .error _ => (false, d')

/-! ## Removal -/

/-- Takes a file away. -/
def removeFile (d : Disk) (current : Location) (path : String) : Except DiskFault Disk :=
  match d.status current path with
  | .error fault => .error fault
  | .ok (_, .folder) => .error .isDirectory
  | .ok (l, .file _) => .ok (d.remove l)

/-- Takes a folder away with all that lies in it, however deep.  A folder that is named by dots is
emptied, but stays. -/
def clearFolder (d : Disk) (current : Location) (path : String) : Disk :=
  match d.status current path with
  | .ok (l, .folder) => d.removeTree l (!endsWithDots path)
  | _ => d

/-- Takes away what a path leads to, a folder with all that lies in it, and says whether there was
anything. -/
def discard (d : Disk) (current : Location) (path : String) : Bool × Disk :=
  match d.status current path with
  | .ok (_, .folder) => (true, d.clearFolder current path)
  | .ok (l, .file _) => (true, d.remove l)
  | .error _ => (false, d)

/-! ## Laws -/

theorem find?_append (l : Location) (a b : List (Location × Node)) :
    find? l (a ++ b) = (find? l a).or (find? l b) := by
  induction a with
  | nil => simp [find?]
  | cons e rest ih => by_cases h : e.1 = l <;> simp [find?, h, ih]

theorem find?_filter (keep : Location → Bool) (l : Location) (h : keep l = true)
    (nodes : List (Location × Node)) :
    find? l (nodes.filter fun e => keep e.1) = find? l nodes := by
  induction nodes with
  | nil => rfl
  | cons e rest ih =>
    by_cases he : e.1 = l
    · simp [find?, he, h]
    · by_cases hk : keep e.1 <;> simp [find?, he, hk, ih]

theorem find?_filter_none (keep : Location → Bool) (l : Location) (h : keep l = false)
    (nodes : List (Location × Node)) : find? l (nodes.filter fun e => keep e.1) = none := by
  induction nodes with
  | nil => rfl
  | cons e rest ih =>
    by_cases hk : keep e.1
    · have he : e.1 ≠ l := fun heq => by rw [heq, h] at hk; exact absurd hk (by simp)
      simp [find?, hk, he, ih]
    · simp [hk, ih]

theorem get?_put_self (d : Disk) {l : Location} (h : l ≠ []) (node : Node) :
    (d.put l node).get? l = some node := by
  have hnone : find? l (without l d.nodes) = none :=
    find?_filter_none (fun m => m != l) l (by simp) d.nodes
  simp [get?, put, h, find?_append, hnone, find?]

theorem get?_put_of_ne (d : Disk) {l m : Location} (h : m ≠ l) (node : Node) :
    (d.put l node).get? m = d.get? m := by
  have hsome : find? m (without l d.nodes) = find? m d.nodes :=
    find?_filter (fun m => m != l) m (by simpa using h) d.nodes
  by_cases hm : m = []
  · simp [get?, hm]
  · simp [get?, put, hm, find?_append, hsome, find?, Ne.symm h]

theorem get?_remove_self (d : Disk) {l : Location} (h : l ≠ []) : (d.remove l).get? l = none := by
  have hnone : find? l (without l d.nodes) = none :=
    find?_filter_none (fun m => m != l) l (by simp) d.nodes
  simp [get?, remove, h, hnone]

theorem get?_remove_of_ne (d : Disk) {l m : Location} (h : m ≠ l) :
    (d.remove l).get? m = d.get? m := by
  have hsome : find? m (without l d.nodes) = find? m d.nodes :=
    find?_filter (fun m => m != l) m (by simpa using h) d.nodes
  by_cases hm : m = []
  · simp [get?, hm]
  · simp [get?, remove, hm, hsome]

theorem get?_removeTree_of_below (d : Disk) {l m : Location} (h : isBelow l m = true)
    (hm : m ≠ []) :
    (d.removeTree l true).get? m = none := by
  have hnone : find? m (d.nodes.filter fun e => !(isBelow l e.1 && (true || e.1 != l))) = none :=
    find?_filter_none (fun m => !(isBelow l m && (true || m != l))) m (by simp [h]) d.nodes
  simp [get?, removeTree, hm] at hnone ⊢
  exact hnone

theorem get?_removeTree_of_not_below (d : Disk) {l m : Location} (h : isBelow l m = false)
    (itself : Bool) : (d.removeTree l itself).get? m = d.get? m := by
  have hsome : find? m (d.nodes.filter fun e => !(isBelow l e.1 && (itself || e.1 != l))) =
      find? m d.nodes :=
    find?_filter (fun m => !(isBelow l m && (itself || m != l))) m (by simp [h]) d.nodes
  by_cases hm : m = []
  · simp [get?, hm]
  · simp only [get?, removeTree, hm, if_false]
    exact hsome

end Disk

end CircuitBench
