import CircuitBench.Bench.Basic
import CircuitBench.Logging.Clock
import CircuitBench.Value.Access

/-!
# Loggers

A logger is set up once: it gets a handler and the level from which on its records are shown, given
by its number or its name.  Setting it up again changes nothing.  The logger without a name is the
root of all others.  A handler writes a record as a line with the time, the level, the logger and
the text.

## Main results

* `setUp_again` : a logger that has been set up is left as it is.
-/

namespace CircuitBench

/-- A logger that has been set up: its name, its level, and the number of its handlers. -/
structure Logger where
  name : String
  level : Level
  handlers : Nat
deriving DecidableEq, Repr

namespace Logger

/-- The name of the logger that is the root of all others. -/
def rootName : String := "root"

/-- The name under which the logger is known that a value names. -/
def knownName (name : Value) : Except Error String := do
  if ← name.truth then
    match name.text? with
    | some text => return text
    | none => .error (.type .loggerName)
  else return rootName

/-- The names of levels.  A level with two names is shown by the first. -/
def levelNames : List (String × Level) := [
  ("CRITICAL", 50),
  ("FATAL", 50),
  ("ERROR", 40),
  ("WARNING", 30),
  ("WARN", 30),
  ("INFO", 20),
  ("DEBUG", 10),
  ("NOTSET", 0)]

/-- The level that has a name. -/
def levelNamed? (name : String) : Option Level :=
  (levelNames.find? fun e => e.1 == name).map Prod.snd

/-- The text of a value inside a message. -/
def quotedText (v : Value) : Except Error String :=
  match v.quotedText? with
  | some text => .ok text
  | none => .error (.value .digitsToPrint)

/-- The level that a value gives, by number or by name. -/
def levelOf (v : Value) : Except Error Level :=
  match v, v.text? with
  | .int n, _ => .ok n
  | .bool b, _ => .ok b.toNat
  | v, some name =>
    match levelNamed? name with
    | some level => .ok level
    | none => do
      let text ← quotedText v
      .error (.value (.unknownLevel text))
  | v, none => do
    let text ← quotedText v
    .error (.type (.levelKind text))

/-- The logger of a name, if it has been set up. -/
def find? (name : String) (loggers : List Logger) : Option Logger :=
  loggers.find? fun l => l.name == name

/-- Sets a logger up, and gives it together with all loggers that have been set up. -/
def setUp (name level : Value) (loggers : List Logger) : Except Error (Logger × List Logger) := do
  let known ← knownName name
  match find? known loggers with
  | some l => return (l, loggers)
  | none =>
    let least ← levelOf level
    let l : Logger := ⟨known, least, 1⟩
    return (l, loggers ++ [l])

/-! ## Lines -/

/-- The name of a level, or its number where it has none. -/
def levelName (level : Level) : String :=
  match levelNames.find? fun e => e.2 == level with
  | some e => e.1
  | none => "Level " ++ toString level

/-- The line that a handler writes for a record made at a time, in seconds of universal time. -/
def line (record : LogRecord) (seconds : Int) : String :=
  Clock.text seconds ++ " " ++ levelName record.level ++ " " ++ record.logger ++ ": " ++ record.text

/-! ## Laws -/

theorem setUp_again {name level : Value} {known : String} {loggers : List Logger} {l : Logger}
    (hname : knownName name = .ok known) (h : find? known loggers = some l) :
    setUp name level loggers = .ok (l, loggers) := by
  simp only [setUp, hname, bind, Except.bind, h]
  rfl

end Logger

end CircuitBench
