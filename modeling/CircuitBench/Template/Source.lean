import CircuitBench.Json.Writer
import CircuitBench.Path.Lexical

/-!
# The source of a main component

A template is built by a short circuit of its own, which includes the file of the template and makes
it the main component with given arguments.  The source has three lines: the version of the
language, the include, and the component, with a clause that lists the public inputs if there are
any.  Arguments are written as JSON on one line; the brackets around them are left to the template's
parentheses.

Neither the name of the template nor its file is looked at here.

## Main results

* `bracketed_parameterChars` : between brackets, the written arguments are the written list.
* `publicClause_nil` : without public inputs there is no clause.
-/

namespace CircuitBench

open Json

/-- A main component: the path of the template's file as the source names it, the template with its
arguments, the inputs that are public, and the version of the language. -/
structure MainComponent where
  includePath : String
  template : Value
  publicSignals : Value
  parameters : Value
  version : Value

namespace MainComponent

/-! ## Parameters -/

/-- The written list of arguments, without the brackets around it. -/
def parameterChars (items : List Value) : Except Error (List Char) :=
  (write .parameters 0 (.list items)).map fun s => s.tail.dropLast

/-- Arguments as a source lists them between parentheses. -/
def parametersText (parameters : Value) : Except Error String := do
  let items ← parameters.members
  let chars ← parameterChars items
  return String.ofList chars

/-! ## Public inputs -/

/-- The names that a clause lists, numbered from `index`.  Each must be a text. -/
def signalNames (index : Nat) : List Value → Except Error (List String)
  | [] => .ok []
  | .text s :: rest => do
    let more ← signalNames (index + 1) rest
    return s :: more
  | .textCell s :: rest => do
    let more ← signalNames (index + 1) rest
    return s :: more
  | v :: _ => .error (.type (.joinItem index v.fullKindName))

/-- The clause that makes inputs public, with a blank in front.  A value that counts as false asks
for none. -/
def publicClause (signals : Value) : Except Error String := do
  if ← signals.truth then
    match signals.members with
    | .error _ => .error (.type .notJoinable)
    | .ok items =>
      let names ← signalNames 0 items
      return " \x7b public [" ++ ",".intercalate names ++ "] \x7d"
  else return ""

/-! ## Source -/

/-- The three lines of a source, from their parts. -/
def sourceText (version includePath clause template parameters : String) : String :=
  "pragma circom " ++ version ++ ";\n" ++
    "include \"" ++ includePath ++ "\";\n" ++
    "component main" ++ clause ++ " = " ++ template ++ " (" ++ parameters ++ ");\n"

/-- The source of a main component. -/
def source (m : MainComponent) : Except Error String := do
  let version ← m.version.inlineText
  let clause ← publicClause m.publicSignals
  let template ← m.template.inlineText
  let parameters ← parametersText m.parameters
  return sourceText version m.includePath clause template parameters

/-! ## Laws -/

theorem publicClause_nil : publicClause (.list []) = .ok "" := rfl

/-- A written list stands between brackets. -/
theorem bracketed_eq (style : Style) (level : Nat) (opening closing : Char)
    (parts : List (List Char)) :
    ∃ body, bracketed style level opening closing parts = opening :: (body ++ [closing]) := by
  cases parts with
  | nil => exact ⟨[], rfl⟩
  | cons part parts => exact ⟨_, rfl⟩

theorem bracketed_parameterChars {items : List Value} {body : List Char}
    (h : parameterChars items = .ok body) :
    write .parameters 0 (.list items) = .ok ('[' :: (body ++ [']'])) := by
  rw [parameterChars, write, checkIndent_parameters] at h
  rw [write, checkIndent_parameters]
  cases hw : writeItems .parameters (0 + 1) items with
  | error e => rw [hw] at h; cases h
  | ok parts =>
    obtain ⟨inner, hinner⟩ := bracketed_eq .parameters 0 '[' ']' parts
    simp only [hw, bind, Except.bind, pure, Except.pure, Except.map, hinner, List.tail_cons,
      List.dropLast_concat, Except.ok.injEq] at h ⊢
    rw [h]

end MainComponent

end CircuitBench
