import CircuitBench.Temporary.Fresh
import CircuitBench.Json.Reader
import CircuitBench.Json.Writer

/-!
# JSON documents on a disk

A document is written in full or not at all.  It is written under a temporary name beside its place,
and moved there when it is complete; whatever fails on the way, the temporary file is removed and
no other file has changed.  Folders around the place are made when they are missing, and stay.

A document that is not there reads as null.

## Main results

* `store_error` : a document that cannot be written leaves the disk alone.
-/

namespace CircuitBench.Bench

open CircuitBench.Path Text

/-! ## Folders -/

/-- Makes a folder with those around it, and gives its path in plain form. -/
def ensureFolder (path : String) : Action String := do
  let folder := FilePath.ofString path
  makeFolders folder
  return folder.text

/-! ## Writing -/

/-- The indent of a level in a document, unless another one is asked for. -/
def documentIndent : Value := .int 2

/-- The bytes of a text that is to be stored. -/
def storedBytes (text : String) : Except Error (List UInt8) :=
  match Utf8.encode? text with
  | some bytes => .ok bytes
  | none => .error .unencodable

/-- Writes a text to a file, or fails if there is no such text. -/
def store (path : String) (text : Except Error String) : Action Unit := do
  let text ← attempt text
  let bytes ← attempt (storedBytes text)
  changeDisk fun b => b.disk.writeFile b.current path bytes

/-- Moves a file, which is named by an absolute path, to its place. -/
def moveInto (source target : String) : Action Unit :=
  changeDisk fun b => b.disk.replaceFile b.current (resolve [] source) target

/-- Removes what a path leads to, if anything. -/
def discard (path : String) : Action Unit :=
  modify fun b => { b with disk := (b.disk.discard b.current path).2 }

/-- Makes an empty file under a temporary name beside the place of a document. -/
def openBeside (target : FilePath) : Action String := do
  let b ← get
  let folder := absoluteText b.current target.parent.text
  create Disk.createFile (fun name => join folder (target.name ++ name)) Registry.maxAttempts

/-- Writes a value as a document at a path. -/
def writeDocument (path : String) (data indent : Value) : Action Unit := do
  let target := FilePath.ofString path
  let _ ← ensureFolder target.parent.text
  let temporary ← openBeside target
  ensuring
    (do
      store temporary (Json.documentText indent data)
      moveInto temporary target.text)
    (discard temporary)

/-! ## Reading -/

/-- The text of a file. -/
def readText (path : String) : Action String := do
  let bytes ← ask fun b => b.disk.readFile b.current path
  match Utf8.decode? bytes with
  | some text => return text
  | none => throw .undecodable

/-- The failure to read a JSON text. -/
def jsonError : Json.ReadFault → Error
  | .malformed => .malformedJson
  | .tooManyDigits count => .value (.literal (.tooManyDigits count) "")
  | .tooDeep fault => .depth fault

/-- The value that a JSON text spells. -/
def parseJson (text : String) : Except Error Value :=
  (Json.read text.toList).mapError jsonError

/-- Whether a path leads to anything. -/
def pathExists (path : String) : Action Bool :=
  ask fun b => b.disk.probe b.current path

/-- The value of the document at a path, or nothing when there is none. -/
def readDocument? (path : String) : Action (Option Value) := do
  let path := (FilePath.ofString path).text
  if ← pathExists path then
    let text ← readText path
    let v ← attempt (parseJson text)
    return some v
  else return none

/-- The value of the document at a path, null when there is none. -/
def readDocument (path : String) : Action Value := do
  let v ← readDocument? path
  return v.getD .null

/-! ## Laws -/

theorem store_error (path : String) (e : Error) (b : Bench) :
    store path (.error e) b = .error e b := rfl

end CircuitBench.Bench
