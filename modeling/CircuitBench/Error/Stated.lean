import CircuitBench.Value.Access

/-!
# Failures stated by hand

A collaborator that stands in for a circuit or a builder may fail with a failure of its own making.
Such a failure is stated by the name of its class and the values that it is made of.  A family of
failures wants its values in order, some of which may be left out; its text is put together from
them, and they are kept as they were given.  Any other class takes whatever it is given.

## Main results

* `checkCount_of_within` : a fitting number of values is accepted.
-/

namespace CircuitBench

open Text

namespace CircuitFamily

/-- The name of a family. -/
def name : CircuitFamily → String
  | general => "CircuitError"
  | toolNotFound => "ToolNotFound"
  | compilation => "CompilationError"
  | witness => "WitnessError"
  | constraint => "ConstraintError"

/-- All families. -/
def all : List CircuitFamily :=
  [general, toolNotFound, compilation, witness, constraint]

/-- The family of a name. -/
def ofName? (name : String) : Option CircuitFamily :=
  all.find? fun family => family.name == name

/-- The values that a failure of a family must be made of, and those that it may be made of besides,
by name.  A general failure is made of any values. -/
def parameters? : CircuitFamily → Option (List String × List String)
  | general => none
  | toolNotFound => some (["what", "how"], [])
  | compilation => some (["path", "returncode"], ["stderr"])
  | witness => some (["message"], ["stderr"])
  | constraint => some (["message"], ["index"])

/-- Checks that as many values are given as a family takes.  The failure itself counts as one of
them. -/
def checkCount (family : CircuitFamily) (given : Nat) : Except Error Unit :=
  match family.parameters? with
  | none => .ok ()
  | some (required, optional) =>
    let most := required.length + optional.length
    if given < required.length then .error (.type (.argumentsMissing family.name (required.drop given)))
    else if most < given then
      .error (.type (.argumentsOver family.name (required.length + 1) (most + 1) (given + 1)))
    else .ok ()

end CircuitFamily

namespace CircuitFault

/-! ## Texts -/

/-- The text of the values that a failure was made of, if it has no text of its own. -/
def argumentsText : List Value → Except Error String
  | [] => .ok ""
  | [v] => v.plainText
  | vs => (Value.tuple vs).plainText

/-- White space of ASCII. -/
def isAsciiBlank (b : UInt8) : Bool :=
  b == 0x20 || (0x09 ≤ b && b ≤ 0x0D)

/-- Bytes without the white space around them. -/
def trimBytes (bs : List UInt8) : List UInt8 :=
  ((bs.dropWhile isAsciiBlank).reverse.dropWhile isAsciiBlank).reverse

/-- A value without the white space around it, as text. -/
def strippedText : Value → Except Error String
  | .text s => .ok (trimString s)
  | .textCell s => .ok (trimString s)
  | .bytes bs => .ok (quotedBytes (trimBytes bs))
  | v => .error (.noAttribute v.fullKindName "strip")

/-- A report followed by what a tool said, if that counts as true, on a line of its own. -/
def reportWith (report : Except Error String) (diagnostics : Value) : Except Error String := do
  if ← diagnostics.truth then
    let text ← report
    let said ← strippedText diagnostics
    return text ++ ":\n" ++ said
  else report

/-! ## Statements -/

/-- A failure of a family, made of values. -/
def ofValues (family : CircuitFamily) (given : List Value) : Except Error CircuitFault := do
  family.checkCount given.length
  match family, given with
  | .toolNotFound, what :: how :: _ =>
    let whatText ← what.inlineText
    let howText ← how.inlineText
    return .stated family ("tool not found: " ++ whatText ++ " (" ++ howText ++ ")") [("what", what), ("how", how)]
  | .compilation, path :: returnCode :: rest =>
    let diagnostics := rest.headD (.text "")
    let pathText ← path.inlineText
    let codeText ← returnCode.inlineText
    let text ← reportWith (.ok ("circom failed on " ++ pathText ++ " (exit " ++ codeText ++ ")")) diagnostics
    return .stated family text [("path", path), ("returncode", returnCode), ("stderr", diagnostics)]
  | .witness, message :: rest =>
    let diagnostics := rest.headD .null
    let report := do if ← diagnostics.truth then message.inlineText else message.plainText
    let text ← reportWith report diagnostics
    return .stated family text [("stderr", diagnostics)]
  | .constraint, message :: rest =>
    let text ← message.plainText
    return .stated family text [("index", rest.headD .null)]
  | _, _ =>
    let text ← argumentsText given
    return .stated .general text []

end CircuitFault

namespace Error

/-- The name of the failure that a file is malformed. -/
def formatName : String := "FormatError"

/-- The class of refusals of the system that are not of a more special class. -/
def systemName : String := "OSError"

/-- The classes of refusals of the system that have a number, each with its numbers. -/
def systemClasses : List (String × List Int) := [
  (systemName, []),
  ("PermissionError", [1, 13]),
  ("FileNotFoundError", [2]),
  ("ProcessLookupError", [3]),
  ("InterruptedError", [4]),
  ("ChildProcessError", [10]),
  ("BlockingIOError", [11, 114, 115]),
  ("FileExistsError", [17]),
  ("NotADirectoryError", [20]),
  ("IsADirectoryError", [21]),
  ("BrokenPipeError", [32, 108]),
  ("ConnectionAbortedError", [103]),
  ("ConnectionResetError", [104]),
  ("TimeoutError", [110]),
  ("ConnectionRefusedError", [111])]

/-- Whether a class is one of refusals of the system. -/
def isSystem (name : String) : Bool :=
  systemClasses.any fun c => c.1 == name

/-- The class of a refusal of the system with a number: a special one, if it is stated in
general. -/
def systemClass (name : String) (number : Value) : String :=
  match name == systemName, number with
  | true, .int n => ((systemClasses.find? fun c => c.2.contains n).map Prod.fst).getD name
  | _, _ => name

/-- The failure of a class, made of values.  A refusal of the system that has a number has no
text. -/
def ofClass (name : String) (given : List Value) : Except Error Error :=
  match CircuitFamily.ofName? name with
  | some family => (CircuitFault.ofValues family given).map .circuit
  | none =>
    match isSystem name, given with
    | true, number :: _ :: _ => .ok (.collaborator (systemClass name number) none)
    | _, _ => do
      let text ← CircuitFault.argumentsText given
      return if name = formatName then .format (.reported text) else .collaborator name (some text)

end Error

/-! ## Laws -/

theorem CircuitFamily.checkCount_general (given : Nat) : general.checkCount given = .ok () := rfl

theorem CircuitFamily.checkCount_of_within (family : CircuitFamily)
    {required optional : List String} (h : family.parameters? = some (required, optional))
    (given : Nat) (hleast : required.length ≤ given)
    (hmost : given ≤ required.length + optional.length) : family.checkCount given = .ok () := by
  have h₁ : ¬ (given < required.length) := by omega
  have h₂ : ¬ (required.length + optional.length < given) := by omega
  simp only [checkCount, h, h₁, h₂, if_false]

end CircuitBench
