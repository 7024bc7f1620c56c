import CircuitBench.Value.Grid
import CircuitBench.Number.Literal
import CircuitBench.Number.Shortest
import CircuitBench.Text.Quoted

/-!
# Values as text

A value has three texts.  The plain one is used where a value becomes a word of its own: a text
stands for itself.  The quoted one shows a value inside a container: a text stands between quotes,
so that its extent can be seen.  Containers show their members quoted, between brackets that tell
the kind.  The inlined one is used where a value is set into a sentence or into source: as the plain
one, but numbers of arrays are written like plain numbers.

An integer with more digits than the limit has no text, and neither has a container that holds one;
all three functions then give `none`.

## Main results

* `inlineText_text`, `plainText_text` : a text stands for itself.
-/

namespace CircuitBench

open Number Text

namespace Value

/-- The name of a truth value. -/
def truthText (b : Bool) : String :=
  if b then "True" else "False"

/-- Joins texts with a separator. -/
def joined (separator : String) (items : List String) : String :=
  separator.intercalate items

/-- The members of a tuple between parentheses.  A single member is followed by a comma. -/
def tupleText (items : List String) : String :=
  match items with
  | [item] => "(" ++ item ++ ",)"
  | _ => "(" ++ joined ", " items ++ ")"

/-- The members of a set between braces.  The empty set has a name, since empty braces are a
table. -/
def setText (items : List String) : String :=
  if items.isEmpty then "set()" else "\x7b" ++ joined ", " items ++ "\x7d"

mutual

/-- The quoted text of a value. -/
def quotedText? : Value → Option String
  | null => some "None"
  | bool b => some (truthText b)
  | int n => printInteger? n
  | float x => some (x.text .double)
  | text s => some (quoted s)
  | textCell s => some ("np.str_(" ++ quoted s ++ ")")
  | bytes bs => some (quotedBytes bs)
  | list items => (quotedTexts? items).map fun ts => "[" ++ joined ", " ts ++ "]"
  | tuple items => (quotedTexts? items).map tupleText
  | set items => (quotedTexts? items).map setText
  | table entries => (entryTexts? entries).map fun ts => "\x7b" ++ joined ", " ts ++ "\x7d"
  | object => some "<object object>"
  | boolCell b => some ("np." ++ truthText b ++ "_")
  | integerCell k n => (printInteger? n).map fun t => "np." ++ k.name ++ "(" ++ t ++ ")"
  | floatCell k x => some ("np." ++ k.name ++ "(" ++ x.cellText k.format ++ ")")
  | array kind content => some (Grid.named kind content)

/-- The quoted texts of the members of a container. -/
def quotedTexts? : List Value → Option (List String)
  | [] => some []
  | v :: vs =>
    match quotedText? v, quotedTexts? vs with
    | some t, some ts => some (t :: ts)
    | _, _ => none

/-- The entries of a table, each as its key, a colon and its value. -/
def entryTexts? : List (Value × Value) → Option (List String)
  | [] => some []
  | (k, v) :: rest =>
    match quotedText? k, quotedText? v, entryTexts? rest with
    | some kt, some vt, some ts => some ((kt ++ ": " ++ vt) :: ts)
    | _, _, _ => none

end

/-- The plain text of a value that is no array: as the quoted one, except that a text stands for
itself and a cell for its number. -/
def scalarText? : Value → Option String
  | text s => some s
  | textCell s => some s
  | boolCell b => some (truthText b)
  | integerCell _ n => printInteger? n
  | floatCell k x => some (x.cellText k.format)
  | v => v.quotedText?

/-- The plain text of a value.  An array without dimensions stands for its only cell. -/
def plainText? : Value → Option String
  | array kind (list items) => some (Grid.plain kind (list items))
  | array kind content => (cell kind content).scalarText?
  | v => v.scalarText?

/-- The text of a value that is set into other text. -/
def inlineText? : Value → Option String
  | floatCell _ x => some ((x.round .double).text .double)
  | array (.floating _) (float x) => some ((x.round .double).text .double)
  | v => v.plainText?

theorem plainText_text (s : String) : (text s).plainText? = some s := rfl

theorem inlineText_text (s : String) : (text s).inlineText? = some s := rfl

end Value

end CircuitBench
