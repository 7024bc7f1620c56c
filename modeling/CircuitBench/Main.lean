import CircuitBench.CommandLine.Run
import CircuitBench.Logging.Logger
import Std.Time.DateTime.Timestamp

/-!
# The program

The only module that touches the world.  It lays out a bench with the files and folders that the
command line names, does there what the command line asks for, and hands on what came of it: the
printed text, the records that are shown, the complaints, the output folder and the exit code.  All
decisions are those of `CommandLine.run`.

The bench has no compiler and no interpreter, so that a build ends with the report of the missing
tool; showing the source of a main component needs neither.
-/

namespace CircuitBench.Program

/-- The convention by which the program reads its words. -/
def convention : CommandLine.Convention := .present

/-- Lays a file or a folder of the world at its path on a bench, if there is one. -/
def layOut (b : Bench) (path : String) : IO Bench := do
  let place := fun content => { b with disk := (b.disk.place b.current path content).2 }
  match ← (IO.FS.readBinFile path).toBaseIO with
  | .ok bytes => return place (some bytes.toList)
  | .error _ => if ← ((← IO.currentDir) / path).isDir then return place none else return b

/-- The paths of a folder and of all folders around it, from the outermost one. -/
def pathsTo (path : String) : List String :=
  let p := FilePath.ofString path
  (List.range p.parts.length).map fun n => FilePath.text ⟨p.root, p.parts.take (n + 1)⟩

/-- The paths that a command line names: its configuration, its inputs, and its output folder with
the folders around it. -/
def namedPaths (words : List String) : List String :=
  match CommandLine.parse convention words with
  | .ok given =>
    let a := CommandLine.Arguments.ofGiven given
    a.config.toList ++ a.input.toList ++ a.outputFolder.toList.flatMap pathsTo
  | .error _ => []

/-- A bench in the current folder, with what a command line names. -/
def benchFor (words : List String) : IO Bench := do
  let current := (← IO.currentDir).toString
  let b : Bench := { current := Path.resolve [] current }
  let disk := (b.disk.place [] current none).2
  let disk := (disk.place [] b.temporary none).2
  (namedPaths words).foldlM layOut { b with disk }

/-- Makes the output folder of a command line, if it was made on the bench. -/
def keepFolder (b : Bench) (words : List String) : IO Unit := do
  for path in namedPaths words do
    if b.disk.isFolder b.current path then IO.FS.createDirAll path

/-- Writes the records that a bench shows, as they stand at the present time. -/
def writeLog (b : Bench) : IO Unit := do
  let now ← Std.Time.Timestamp.now
  for record in b.shownLog do
    IO.eprintln (Logger.line record now.toSecondsSinceUnixEpoch.val)

/-- Hands on what came of a command line. -/
def report (b : Bench) (words : List String) : IO Unit := do
  IO.print b.printed
  writeLog b
  IO.eprint b.complaints
  keepFolder b words

end CircuitBench.Program

open CircuitBench in
/-- Does what the words of the command line ask for. -/
def main (words : List String) : IO UInt32 := do
  let action := CommandLine.run Program.convention words
  let (result, b) := Bench.outcome action (← Program.benchFor words)
  Program.report b words
  match result with
  | .ok code => return UInt32.ofNat code
  | .error e =>
    IO.eprintln (e.message?.getD "the file system refused, or a text could not be read")
    return 1
