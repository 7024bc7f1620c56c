import CircuitBench.Bench.Basic
import CircuitBench.Value.Access

/-!
# Finding and running programs

An option names a program: by a path, which is looked at from the current folder, or by a bare name,
which is looked for in the folder of the toolbox.  A run starts in the current folder or in another
one; a path among its arguments is followed from there.  A run that cannot be started fails; how a
run ends is for the caller to judge.

## Main results

* `run_recorded` : every program that is run is recorded.
-/

namespace CircuitBench.Bench

open CircuitBench.Path Text

/-! ## Equipping -/

/-- Puts the file of a program into its place if a toolbox holds it, and takes it away otherwise. -/
def placeTool (t : Toolbox) (d : Disk) (tool : Tool) : Disk :=
  if t.has tool then d.put (t.location tool) (.file []) else d.remove (t.location tool)

/-- The bench with a toolbox in place of the one it had. -/
def equip (b : Bench) (t : Toolbox) : Bench :=
  let d := if t.has .circom ∨ t.has .node then b.disk.put t.folder .folder else b.disk
  { b with toolbox := t, disk := placeTool t (placeTool t d .circom) .node }

/-! ## Finding -/

/-- The program that a path leads to from a folder. -/
def programAt? (b : Bench) (folder : Location) (path : String) : Option Tool :=
  match b.disk.status folder path with
  | .ok (l, .file _) => b.toolbox.toolAt? l
  | _ => none

/-- The path of the program that a name stands for. -/
def findProgram? (b : Bench) (name : String) : Option String :=
  let path := if hasFolder name then name else join (locationText "/" b.toolbox.folder) name
  if (b.programAt? b.current path).isSome then some path else none

/-- How the compiler can be had. -/
def compilerAdvice : String := "install circom 2 and put it on PATH"

/-- How the interpreter can be had. -/
def interpreterAdvice : String := "install Node.js and put \x60node\x60 on PATH"

/-- The failure to find a program. -/
def notFound (name advice : String) : Error :=
  .circuit (.toolNotFound name advice)

/-- A program that has been found: by a text, which is its path, or by bytes, with which it cannot
be run. -/
inductive Program
  | named (path : String)
  | spelled

/-- The program that a text stands for. -/
def requireNamed (name advice : String) : Action Program := do
  let b ← get
  match b.findProgram? name with
  | some path => return .named path
  | none => throw (notFound name advice)

/-- The program that an option names, or the one that is looked for without the option. -/
def requireProgram (option : Value) (default advice : String) : Action Program := do
  let b ← get
  match ← attempt (option.orElse (.text default)) with
  | .text name => requireNamed name advice
  | .textCell name => requireNamed name advice
  | .bytes bs =>
    match b.findProgram? (Utf8.decodeLossy bs) with
    | some _ => return .spelled
    | none => throw (notFound (quotedBytes bs) advice)
  | v => throw (.type (.notPath v.kindName))

/-! ## Running -/

/-- The number of bytes from which on an argument is too long. -/
def argumentLimit : Nat := 131072

/-- Why a text cannot be part of a command line. -/
def argumentRefusal? (text : String) : Option DiskFault :=
  if !canBeEncoded text then some .unencodable
  else if text.toList.contains (Char.ofNat 0) then some .nullInPath
  else none

/-- The folder in which a run starts. -/
def startFolder (b : Bench) : Option String → Except DiskFault Location
  | none => .ok b.current
  | some path =>
    match b.disk.status b.current path with
    | .ok (l, .folder) => .ok l
    | .ok (_, .file _) => .error .notDirectory
    | .error fault => .error fault

/-- The run of a program in a folder, at a bench. -/
def nextRun (b : Bench) (tool : Tool) (folder : Location) (arguments : List String) : ToolRun :=
  let o : Occasion := ⟨b.runs.length, b.disk, folder, arguments⟩
  { o with tool, conduct := b.toolbox.conduct tool o }

/-- The bench after a run of a program in a folder, and how the run ended. -/
def perform (b : Bench) (tool : Tool) (folder : Location) (arguments : List String) :
    Outcome × Bench :=
  let r := b.nextRun tool folder arguments
  (r.conduct.outcome, { b with disk := r.after, runs := b.runs ++ [r] })

/-- Starts the program at a path with arguments, in the current folder or in the one asked for. -/
def start (path : String) (arguments : List String) (asked : Option String) :
    Action Outcome := fun b =>
  match (path :: arguments ++ asked.toList).findSome? argumentRefusal? with
  | some fault => .error (.disk fault) b
  | none =>
    match b.startFolder asked with
    | .error fault => .error (.disk fault) b
    | .ok folder =>
      match b.programAt? folder path with
      | none => .error (.disk .missing) b
      | some tool =>
        if (path :: arguments).any fun text => argumentLimit ≤ byteCount text then
          .error (.disk .argumentTooLong) b
        else
          let (outcome, b') := b.perform tool folder arguments
          .ok outcome b'

/-- Runs a program with arguments, in the current folder or in the one asked for. -/
def run (program : Program) (arguments : List String) (asked : Option String) : Action Outcome :=
  match program with
  | .named path => start path arguments asked
  | .spelled => throw (.type (.joinItem 0 "bytes"))

/-! ## Laws -/

theorem nextRun_isOf (b : Bench) (tool : Tool) (folder : Location) (arguments : List String) :
    (b.nextRun tool folder arguments).IsOf b.toolbox := rfl

theorem start_recorded {path : String} {arguments : List String} {asked : Option String}
    {b b' : Bench} {outcome : Outcome} (h : start path arguments asked b = .ok outcome b') :
    ∃ r : ToolRun, r.arguments = arguments ∧ b'.runs = b.runs ++ [r] := by
  unfold start at h
  split at h
  · exact nomatch h
  · cases hs : b.startFolder asked with
    | error fault => simp [hs] at h
    | ok folder =>
      cases hp : b.programAt? folder path with
      | none => simp [hs, hp] at h
      | some tool =>
        simp only [hs, hp] at h
        split at h
        · exact nomatch h
        · simp only [EStateM.Result.ok.injEq] at h
          obtain ⟨_, rfl⟩ := h
          exact ⟨_, rfl, rfl⟩

theorem run_recorded {program : Program} {arguments : List String} {asked : Option String}
    {b b' : Bench} {outcome : Outcome} (h : run program arguments asked b = .ok outcome b') :
    ∃ r : ToolRun, r.arguments = arguments ∧ b'.runs = b.runs ++ [r] := by
  cases program with
  | named path => exact start_recorded h
  | spelled => exact nomatch h

end CircuitBench.Bench
