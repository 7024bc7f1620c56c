import CircuitBench.Tool.Basic
import CircuitBench.Temporary.Registry
import CircuitBench.Error

/-!
# The bench

Circuits are built and run on a bench: a disk with a current folder and a folder for temporary
files, the programs at hand, and the registry of temporary paths.  The bench also keeps what can be
told of the work afterwards: which programs were run, what was logged and from which level on it is
shown, and what was printed, as results and as complaints.

An action changes the bench and gives a result, or fails; what it did before it failed stays done.

## Main results

* `attempt_ok`, `attempt_error` : how a question to the bench ends.
* `inform_log` : what is logged comes after what was logged before.
-/

namespace CircuitBench

open CircuitBench.Path

/-- How much a log record matters. -/
abbrev Level := Int

/-- The level of records that tell what is being done. -/
def Level.info : Level := 20

/-- The level of records that warn. -/
def Level.warning : Level := 30

/-- The level of records that help to find faults. -/
def Level.debug : Level := 10

/-- A record of what happened: how much it matters, which part of the library tells it, and the
text. -/
structure LogRecord where
  level : Level
  logger : String
  text : String
deriving DecidableEq, Repr

/-- A bench. -/
structure Bench where
  disk : Disk := {}
  current : Location := []
  temporary : String := "/tmp"
  toolbox : Toolbox := {}
  registry : Registry := {}
  namesDrawn : Nat := 0
  runs : List ToolRun := []
  log : List LogRecord := []
  threshold : Level := .warning
  printed : String := ""
  complaints : String := ""

/-- An action on a bench. -/
abbrev Action := EStateM Error Bench

namespace Bench

/-! ## Asking and telling -/

/-- Takes the result of a computation that may fail. -/
def attempt {σ α : Type} (result : Except Error α) : EStateM Error σ α :=
  fun b =>
    match result with
    | .ok a => .ok a b
    | .error e => .error e b

/-- How a step of work ends, and the state that it leaves. -/
def outcome {σ α : Type} (step : EStateM Error σ α) (s : σ) : Except Error α × σ :=
  match step s with
  | .ok a s' => (.ok a, s')
  | .error e s' => (.error e, s')

/-- Asks the bench a question that may be refused by the file system. -/
def ask {α : Type} (question : Bench → Except DiskFault α) : Action α :=
  fun b =>
    match question b with
    | .ok a => .ok a b
    | .error fault => .error (.disk fault) b

/-- Changes the disk, if the file system does not refuse. -/
def changeDisk (change : Bench → Except DiskFault Disk) : Action Unit :=
  fun b =>
    match change b with
    | .ok disk => .ok () { b with disk }
    | .error fault => .error (.disk fault) b

/-- Makes a folder with those around it that are missing.  Those made before one is refused stay. -/
def makeFolders (path : FilePath) : Action Unit :=
  fun b =>
    match b.disk.makeFolders b.current path with
    | (.ok (), disk) => .ok () { b with disk }
    | (.error fault, disk) => .error (.disk fault) { b with disk }

/-- A location that no path leads to, as no name holds a slash. -/
def nowhere : Location := ["/"]

/-- A path as an absolute one, which a relative path does not have once the current folder has been
removed. -/
def absolutePath (current : Location) (path : String) : Except Error String :=
  if current = nowhere ∧ isAbsolute path = false then .error (.disk .missing)
  else .ok (absoluteText current path)

/-- The bench after something has been removed.  A current folder that was removed is not found any
more, even when another one is made in its place. -/
def afterRemoval (b : Bench) (disk : Disk) : Bench :=
  { b with disk, current := if disk.isFolderAt b.current then b.current else nowhere }

/-- Removes something that need not be there. -/
def removing (change : Bench → Disk) : Action Unit :=
  modify fun b => b.afterRemoval (change b)

/-- Logs what is being done. -/
def inform (logger text : String) : Action Unit :=
  modify fun b => { b with log := b.log ++ [⟨.info, logger, text⟩] }

/-- Prints a text. -/
def print (text : String) : Action Unit :=
  modify fun b => { b with printed := b.printed ++ text }

/-- Prints a text on a line of its own. -/
def printLine (text : String) : Action Unit :=
  print (text ++ "\n")

/-- Prints a complaint on a line of its own. -/
def complain (text : String) : Action Unit :=
  modify fun b => { b with complaints := b.complaints ++ text ++ "\n" }

/-- Shows log records from a level on. -/
def showFrom (level : Level) : Action Unit :=
  modify fun b => { b with threshold := level }

/-- The log records that are shown. -/
def shownLog (b : Bench) : List LogRecord :=
  b.log.filter fun r => b.threshold ≤ r.level

/-- Does a second action after a first one, whether that fails or not.  The end is that of the first
action, unless the second one fails. -/
def ensuring {σ α : Type} (first : EStateM Error σ α) (second : EStateM Error σ Unit) :
    EStateM Error σ α :=
  fun b =>
    match first b with
    | .ok a b' =>
      match second b' with
      | .ok _ b'' => .ok a b''
      | .error e b'' => .error e b''
    | .error e b' =>
      match second b' with
      | .ok _ b'' => .error e b''
      | .error e' b'' => .error e' b''

/-! ## Laws -/

theorem attempt_ok {σ α : Type} (a : α) (b : σ) : attempt (Except.ok a) b = .ok a b := rfl

theorem attempt_error {σ α : Type} (e : Error) (b : σ) :
    attempt (Except.error e : Except Error α) b = .error e b := rfl

theorem ask_ok {α : Type} {question : Bench → Except DiskFault α} {b : Bench} {a : α}
    (h : question b = .ok a) : ask question b = .ok a b := by
  simp [ask, h]

theorem inform_log (logger text : String) (b : Bench) :
    inform logger text b = .ok () { b with log := b.log ++ [⟨.info, logger, text⟩] } := rfl

end Bench

end CircuitBench
