import CircuitBench.Tool.Basic

/-!
# Programs that act as they are told beforehand

A program can be stood in for by what it is to write, under the names that `circom` and `node` give
to their files.  An act is how one run is to go; a stand-in may act differently in every run.

## Main results

* `CompilerAct.deeds`, `GeneratorAct.deeds` : what is written in a run, and where.
* `compiler`, `interpreter` : programs that act in each run as they are told.
-/

namespace CircuitBench

open CircuitBench.Path

/-- How the compiler is to act in a run: how it ends, what it says, and the contents of the files
that it writes, whatever its end.  Those that come with the witness program lie in its folder, under
names of their own. -/
structure CompilerAct where
  exitCode : Int := 0
  output : List UInt8 := []
  diagnostics : List UInt8 := []
  constraints : Option (List UInt8) := none
  symbols : Option (List UInt8) := none
  program : Option (List UInt8) := none
  scripts : List (String × List UInt8) := []

/-- How the interpreter is to act when it is run on a witness program. -/
structure GeneratorAct where
  exitCode : Int := 0
  output : List UInt8 := []
  diagnostics : List UInt8 := []
  witness : Option (List UInt8) := none

/-- What the compiler writes into a folder, under names that begin with that of the source. -/
def CompilerAct.deedsIn (act : CompilerAct) (folder stem : String) : List Deed :=
  let programFolder := join folder (stem ++ "_js")
  let constraints := act.constraints.map (.file (join folder (stem ++ ".r1cs")))
  let symbols := act.symbols.map (.file (join folder (stem ++ ".sym")))
  let program := act.program.map fun bytes =>
    .folder programFolder :: .file (join programFolder (stem ++ ".wasm")) bytes ::
      act.scripts.map fun script => .file (join programFolder script.1) script.2
  constraints.toList ++ symbols.toList ++ program.getD []

/-- What the compiler writes in a run.  It reads the file that its first argument names. -/
def CompilerAct.deeds (act : CompilerAct) (arguments : List String) : List Deed :=
  match outputArgument? arguments with
  | none => []
  | some folder => act.deedsIn folder (FilePath.ofString (arguments.head?.getD "")).stem

/-- What the interpreter writes in a run. -/
def GeneratorAct.deeds (act : GeneratorAct) (arguments : List String) : List Deed :=
  match arguments[3]?, act.witness with
  | some path, some bytes => [.file path bytes]
  | _, _ => []

/-- A compiler that acts in each run as it is told. -/
def compiler (acts : Occasion → CompilerAct) : Behaviour .circom :=
  .keepingTo fun o =>
    let act := acts o
    ⟨act.exitCode, act.output, act.diagnostics, act.deeds o.arguments⟩

/-- An interpreter that acts in each run as it is told. -/
def interpreter (acts : Occasion → GeneratorAct) : Behaviour .node :=
  .keepingTo fun o =>
    let act := acts o
    ⟨act.exitCode, act.output, act.diagnostics, act.deeds o.arguments⟩

end CircuitBench
