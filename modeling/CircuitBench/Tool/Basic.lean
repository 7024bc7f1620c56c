import CircuitBench.Disk.Basic
import CircuitBench.Text.Utf8

/-!
# The programs that build and run circuits

Two programs stand outside the library.  The compiler `circom` reads a source and writes the
constraints, the symbols and the witness program of a circuit, with whatever else it makes of them;
the interpreter `node` runs a witness program on an input file and writes a witness.  What a program
does is any function of what it finds when it is run: how many runs there were before, the disk, the
folder that it is started in, and its arguments.  So two runs of one program may end differently,
say different things and write different files.

All that is relied on is that a program does to the disk what it is told to do, and nothing else:
the compiler writes files below its output folder and makes a folder for the witness program there,
and the interpreter writes the file that its fourth argument names.

A program is a file in the folder of the toolbox.  One that the toolbox does not hold cannot be run.

## Main results

* `Behaviour` : a program as a function of what it finds, that does what it is told.
* `ToolRun.IsOf.isTold` : what is done in a run of a toolbox has been told.
-/

namespace CircuitBench

open CircuitBench.Path Text

/-- The programs outside the library. -/
inductive Tool
  | circom
  | node
deriving DecidableEq, Repr

/-- The name under which a program is called. -/
def Tool.name : Tool → String
  | circom => "circom"
  | node => "node"

/-! ## What programs find and do -/

/-- What a program finds when it is run: how many runs there were before, the disk, the folder that
it is started in, and its arguments. -/
structure Occasion where
  number : Nat
  disk : Disk
  folder : Location
  arguments : List String

/-- What a program does to a disk: it makes a folder, or it writes a file that may be there
already. -/
inductive Deed
  | folder (path : String)
  | file (path : String) (bytes : List UInt8)
deriving DecidableEq, Repr

/-- Where a deed is done. -/
def Deed.path : Deed → String
  | .folder path => path
  | .file path _ => path

/-- The disk after a deed.  One that the file system refuses changes nothing. -/
def Deed.perform (here : Location) (d : Disk) : Deed → Disk
  | .folder path =>
    match d.makeFolder here path with
    | .ok (_, d') => d'
    | .error _ => d
  | .file path bytes =>
    match d.writeFile here path bytes with
    | .ok d' => d'
    | .error _ => d

/-- The disk after some deeds, in order. -/
def Occasion.after (o : Occasion) (deeds : List Deed) : Disk :=
  deeds.foldl (Deed.perform o.folder) o.disk

/-- How a run ended and what the program said. -/
structure Outcome where
  exitCode : Int
  output : String
  diagnostics : String

/-- What a program said about a failure: its diagnostics, or else its output. -/
def Outcome.report (o : Outcome) : String :=
  if o.diagnostics.isEmpty then o.output else o.diagnostics

/-- How a program conducts a run: how it ends, what it says, and what it does to the disk, whatever
its end. -/
structure Conduct where
  exitCode : Int := 0
  output : List UInt8 := []
  diagnostics : List UInt8 := []
  deeds : List Deed := []

/-- How a run is seen to end. -/
def Conduct.outcome (c : Conduct) : Outcome :=
  ⟨c.exitCode, Utf8.decodeLossy c.output, Utf8.decodeLossy c.diagnostics⟩

/-! ## What programs are told -/

/-- The argument that follows an option. -/
def argumentAfter? (option : String) : List String → Option String
  | flag :: value :: rest =>
    if flag = option then some value else argumentAfter? option (value :: rest)
  | _ => none

/-- The path of the folder that the compiler is to write into: that of its output option, or the
folder that it is started in if it is given a source and nothing else. -/
def outputArgument? : List String → Option String
  | [_] => some "."
  | arguments => argumentAfter? "-o" arguments

/-- Whether a name may be that of the folder of a witness program. -/
def namesProgramFolder (name : String) : Bool :=
  "_js".toList.isSuffixOf name.toList

/-- The folder that the compiler is to write into, if it is there. -/
def Occasion.outputFolder? (o : Occasion) : Option Location :=
  match (outputArgument? o.arguments).map (o.disk.status o.folder) with
  | some (.ok (l, .folder)) => some l
  | _ => none

/-- Whether a program is told to do something.  The compiler is told to write files below its output
folder, and to make folders for witness programs in it.  The interpreter is told to write the file
that its fourth argument names. -/
def Tool.isTold (tool : Tool) (o : Occasion) (deed : Deed) : Bool :=
  match tool, deed with
  | .circom, .file path _ => o.outputFolder?.any fun l => Disk.isBelow l (resolve o.folder path)
  | .circom, .folder path => o.outputFolder?.any fun l =>
    (resolve o.folder path).dropLast == l &&
      (resolve o.folder path).getLast?.any namesProgramFolder
  | .node, .file path _ => o.arguments[3]? == some path
  | .node, .folder _ => false

/-- A program as a function of what it finds when it is run, whatever that function is.  It does
what it is told to do, and nothing else. -/
structure Behaviour (tool : Tool) where
  conduct : Occasion → Conduct
  asTold : ∀ o, ∀ deed ∈ (conduct o).deeds, tool.isTold o deed = true

/-- Any function, with what has not been told left out. -/
def Behaviour.keepingTo {tool : Tool} (conduct : Occasion → Conduct) : Behaviour tool where
  conduct o := { conduct o with deeds := (conduct o).deeds.filter (tool.isTold o) }
  asTold _ _ h := (List.mem_filter.mp h).2

/-! ## Toolboxes -/

/-- The programs at hand, in a folder of their own. -/
structure Toolbox where
  folder : Location := []
  circom : Option (Behaviour .circom) := none
  node : Option (Behaviour .node) := none

/-- The program that a toolbox holds. -/
def Toolbox.behaviour? (t : Toolbox) : (tool : Tool) → Option (Behaviour tool)
  | .circom => t.circom
  | .node => t.node

/-- Whether a toolbox holds a program. -/
def Toolbox.has (t : Toolbox) (tool : Tool) : Bool :=
  (t.behaviour? tool).isSome

/-- Where a toolbox keeps a program. -/
def Toolbox.location (t : Toolbox) (tool : Tool) : Location :=
  t.folder ++ [tool.name]

/-- The program at a location. -/
def Toolbox.toolAt? (t : Toolbox) (l : Location) : Option Tool :=
  [Tool.circom, Tool.node].find? fun tool => t.has tool && l == t.location tool

/-- How a program of a toolbox conducts a run.  One that is not at hand does nothing and fails. -/
def Toolbox.conduct (t : Toolbox) (tool : Tool) (o : Occasion) : Conduct :=
  match t.behaviour? tool with
  | some behaviour => behaviour.conduct o
  | none => { exitCode := 127 }

/-! ## Runs -/

/-- The file that a program is given to read. -/
def Tool.source? (tool : Tool) (arguments : List String) : Option String :=
  match tool with
  | .circom => arguments[0]?
  | .node => arguments[2]?

/-- A run of a program: what it found, and how it conducted the run. -/
structure ToolRun extends Occasion where
  tool : Tool
  conduct : Conduct

/-- The bytes of the file that a program was given to read, if there was such a file. -/
def ToolRun.given (r : ToolRun) : Option (List UInt8) :=
  (r.tool.source? r.arguments).bind fun path => (r.disk.readFile r.folder path).toOption

/-- The disk that a run left. -/
def ToolRun.after (r : ToolRun) : Disk :=
  r.toOccasion.after r.conduct.deeds

/-- Whether a run is one of a program of a toolbox. -/
def ToolRun.IsOf (r : ToolRun) (t : Toolbox) : Prop :=
  r.conduct = t.conduct r.tool r.toOccasion

/-- Whether a run is one of a program of a toolbox that ended well. -/
structure ToolRun.EndedWell (r : ToolRun) (t : Toolbox) : Prop where
  isOf : r.IsOf t
  exitCode : r.conduct.exitCode = 0

/-! ## Laws -/

/-- What is done in a run of a toolbox has been told. -/
theorem ToolRun.IsOf.isTold {t : Toolbox} {r : ToolRun} (h : r.IsOf t) {deed : Deed}
    (hMem : deed ∈ r.conduct.deeds) : r.tool.isTold r.toOccasion deed = true := by
  rw [h, Toolbox.conduct] at hMem
  split at hMem
  · rename_i behaviour _
    exact behaviour.asTold r.toOccasion deed hMem
  · exact absurd hMem List.not_mem_nil

end CircuitBench
