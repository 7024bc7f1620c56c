import CircuitBench.Json.Document
import CircuitBench.Settings.Options
import CircuitBench.Template.Source

/-!
# Writing a main component

To build a template, the source of a main component is written to a fresh temporary file, which
includes the template's file by the way from there, and is handed to a builder.  The file is
registered before it is written, so that one that could not be written is cleaned up as well.

## Main results

* `endingText_text` : an ending that is a text is used as it is.
-/

namespace CircuitBench

/-- What a main component is made of: the file of a template, the template, its public inputs and
its arguments. -/
structure MainRequest where
  templateFile : Value
  template : Value
  publicSignals : Value := .list []
  parameters : Value := .list []

namespace Bench

open CircuitBench.Path

/-- The part of the library that tells what is written. -/
def synthesisLogger : String := "synthesizer"

/-- The ending of a file, as a configuration gives it. -/
def endingText (v : Value) : Except Error String :=
  match v.text?, v with
  | some s, _ => .ok s
  | none, .null => .ok ""
  | none, v => .error (.type (.notConcatenable "str" v.fullKindName))

/-- The lead of the name of a file, made of a template. -/
def leadText (v : Value) : Except Error String :=
  match v.text?, v with
  | some s, _ => .ok s
  | none, .null => .ok "tmp"
  | none, .list _ => .error (.type (.notConcatenable "list" "str"))
  | none, .tuple _ => .error (.type (.notConcatenable "tuple" "str"))
  | none, v => .error (.type (.notOperands "+" v.fullKindName "str"))

/-- The lead and the ending of the name of a fresh file, made of a template and of what a
configuration gives.  Bytes are refused before anything else. -/
def nameAround (template suffix : Value) : Except Error (String × String) :=
  match template, suffix with
  | .bytes _, _ => .error (.type .mixedBytes)
  | _, .bytes _ => .error (.type .mixedBytes)
  | template, suffix => do
    let lead ← leadText template
    let ending ← endingText suffix
    return (lead, ending)

/-- The path of a template's file, which must be a text. -/
def templatePath (v : Value) : Except Error String :=
  match v.text? with
  | some path => .ok path
  | none => .error (.type (.notPath v.kindName))

/-- The path of a template as a file names it, which is found by the absolute paths of both. -/
def includeLine (current : Location) (path template : String) : Except Error String := do
  let _ ← absolutePath current template
  let _ ← absolutePath current path
  return includePath current path template

/-- The main component that a request asks for in a file. -/
def mainComponent (config : Table) (current : Location) (path : String) (r : MainRequest) :
    Except Error MainComponent := do
  let file ← templatePath r.templateFile
  let line ← includeLine current path file
  return ⟨line, r.template, r.publicSignals, r.parameters, Settings.version config⟩

/-- The source of the main component that a request asks for in a file. -/
def mainSource (config : Table) (current : Location) (path : String) (r : MainRequest) :
    Except Error String := do
  let m ← mainComponent config current path r
  m.source

/-- Writes the source of a main component to a fresh file, and gives its path. -/
def writeMain (config : Value) (r : MainRequest) : Action String := do
  let fields ← attempt config.record
  let (lead, ending) ← attempt (nameAround r.template (Settings.suffix fields))
  let path ← openFile lead ending none
  let b ← get
  store path (mainSource fields b.current path r)
  return path

/-- Writes a main component and hands it to a builder, together with the options of the caller. -/
def synthesize {α : Type} (config : Value) (r : MainRequest) (buildOptions : Value)
    (builder : String → Value → Action α) : Action α := do
  let template ← attempt r.template.plainText
  inform synthesisLogger ("synthesizing main for " ++ template)
  let path ← writeMain config r
  match buildOptions with
  | .null => builder path (.table [])
  | options => builder path options

/-! ## Synthesizers -/

/-- What a builder gives: a result that is there at once, or work that has to be waited for. -/
inductive Pending (α : Type)
  | ready (result : α)
  | awaited (work : Action α)

/-- The result that is there or has been waited for. -/
def Pending.settle {α : Type} : Pending α → Action α
  | ready result => return result
  | awaited work => work

/-- A builder takes the path of a main component and the options of the caller.  It may fail at
once, or when it is waited for. -/
abbrev Builder (α : Type) := String → Value → Action (Pending α)

/-- Invokes a builder and waits for what it gives. -/
def Builder.invoke {α : Type} (builder : Builder α) (path : String) (options : Value) :
    Action α := do
  let pending ← builder path options
  pending.settle

/-- What a call asks a synthesizer for: a main component, with options for the builder, and a builder
for this call only, if any. -/
structure SynthesisCall (α : Type) extends MainRequest where
  buildOptions : Value := .null
  builder : Option (Builder α) := none

/-- A synthesizer writes main components for a builder, as a configuration says. -/
structure Synthesizer (α : Type) where
  config : Value
  builder : Builder α

namespace Synthesizer

variable {α : Type}

/-- The builder that a call is for. -/
def builderFor (s : Synthesizer α) (c : SynthesisCall α) : Builder α :=
  c.builder.getD s.builder

/-- Calls a synthesizer. -/
def call (s : Synthesizer α) (c : SynthesisCall α) : Action α :=
  synthesize s.config c.toMainRequest c.buildOptions (s.builderFor c).invoke

end Synthesizer

theorem endingText_text (s : String) : endingText (.text s) = .ok s := rfl

end Bench

end CircuitBench
