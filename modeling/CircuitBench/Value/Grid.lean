import CircuitBench.Number.Column
import CircuitBench.Value.Basic

/-!
# Arrays as text

An array is shown as its rows between brackets.  All cells are written alike and to one width, so
that they stand in columns; rows of the last dimension are broken into lines that fit a width, and
the rows of the dimensions around it stand on lines of their own.  Of an array with more than a
thousand cells, only three at either end of each dimension are shown.

The plain text puts blanks between cells.  The text inside a container names the array, puts commas
between cells, and says the kind of the cells where the cells do not tell it.

## Main results

* `shownOf_of_short` : a row of up to six items is shown in full.
-/

namespace CircuitBench

open Number

namespace Grid

/-! ## Content -/

/-- The items along the first dimension of an array's content. -/
def items : Value → List Value
  | .list vs => vs
  | _ => []

/-- The lengths of the dimensions of an array's content, from the first on. -/
def shape : Value → List Nat
  | .list [] => [0]
  | .list (v :: vs) => (vs.length + 1) :: shape v
  | _ => []

/-- The number of cells of an array with the given dimensions. -/
def size (dimensions : List Nat) : Nat :=
  dimensions.foldl (· * ·) 1

/-- The most cells of an array that is shown in full. -/
def fullLimit : Nat := 1000

/-- The number of items that are shown at either end of a dimension that is not shown in full. -/
def edge : Nat := 3

/-- The items of a row that are shown, where nothing stands for those left out. -/
def shownOf {α : Type} (abridged : Bool) (row : List α) : List (Option α) :=
  if abridged && 2 * edge < row.length then
    (row.take edge).map some ++ none :: (row.drop (row.length - edge)).map some
  else row.map some

/-- The cells that are shown of an array with a number of dimensions. -/
def shownCells (abridged : Bool) : Nat → Value → List Value
  | 0, v => [v]
  | axes + 1, v => ((shownOf abridged (items v)).filterMap id).flatMap (shownCells abridged axes)

/-! ## Cells -/

/-- The numbers among cells. -/
def numbers (format : Format) (cells : List Value) : List Binary :=
  cells.filterMap fun v =>
    match v with
    | .float x => some (x.round format)
    | _ => none

/-- How the cells of an array are written, given those that are shown. -/
def cellText (kind : CellKind) (isScalar : Bool) (cells : List Value) : Value → List Char :=
  match kind with
  | .truth => fun v =>
    match v with
    | .bool false => "False".toList
    | _ => if isScalar then "True".toList else " True".toList
  | .integer _ =>
    let textOf (v : Value) : List Char :=
      match v with
      | .int n => (toString n).toList
      | _ => []
    let width := longest (cells.map fun v => (textOf v).length)
    fun v => padLeft width (textOf v)
  | .floating k =>
    let column := Column.of k.format (numbers k.format cells)
    fun v =>
      match v with
      | .float x => column.text (x.round k.format)
      | _ => []

/-! ## Layout -/

/-- How rows are laid out: what stands between cells, whether rows are abridged, and how a cell is
written. -/
structure Sheet where
  separator : List Char
  abridged : Bool
  cell : Value → List Char

/-- What stands for items that are left out. -/
def gap : List Char := "...".toList

/-- A text without the blanks at its end. -/
def dropBlanks (s : List Char) : List Char :=
  (s.reverse.dropWhile (· == ' ')).reverse

/-- The separator at the end of a line. -/
def Sheet.lineSeparator (s : Sheet) : List Char :=
  dropBlanks s.separator

/-- Puts words on lines of a width, each line indented.  The words that come before have filled
`done`, and `line` is the line that is being filled. -/
def fill (separator : List Char) (indent width : Nat) (done line : List Char) :
    List (List Char) → List Char
  | [] => done ++ line
  | word :: rest =>
    let wraps := width < line.length + word.length && indent < line.length
    let done := if wraps then done ++ dropBlanks line ++ ['\n'] else done
    let line := (if wraps then List.replicate indent ' ' else line) ++ word
    fill separator indent width done (if rest.isEmpty then line else line ++ separator) rest

/-- The content of an array with a number of dimensions, its lines indented and of a width. -/
def lay (s : Sheet) : Nat → Nat → Nat → Value → List Char
  | 0, _, _, v => s.cell v
  | axes + 1, indent, width, v =>
    let parts := (shownOf s.abridged (items v)).map fun part =>
      match part with
      | some w => lay s axes (indent + 1) (width - 1) w
      | none => gap
    let margin := List.replicate indent ' '
    let body :=
      if axes = 0 then (fill s.separator indent (width - 1) [] margin parts).drop indent
      else (s.lineSeparator ++ List.replicate axes '\n' ++ margin).intercalate parts
    '[' :: body ++ [']']

/-- The most characters of a line. -/
def lineWidth : Nat := 75

/-- The sheet for an array. -/
def sheetFor (kind : CellKind) (content : Value) (separator : List Char) : Sheet :=
  let dimensions := shape content
  let abridged := decide (fullLimit < size dimensions)
  ⟨separator, abridged,
    cellText kind dimensions.isEmpty (shownCells abridged dimensions.length content)⟩

/-- The content of an array between brackets.  An array without cells is a pair of brackets. -/
def content (kind : CellKind) (v : Value) (separator : List Char) (indent width : Nat) :
    List Char :=
  if size (shape v) = 0 then ['[', ']']
  else lay (sheetFor kind v separator) (shape v).length indent width v

/-! ## Texts -/

/-- The plain text of an array that has dimensions. -/
def plain (kind : CellKind) (v : Value) : String :=
  String.ofList (content kind v [' '] 1 lineWidth)

/-- What stands in front of the content of an array that is named. -/
def opening : List Char := "array(".toList

/-- The dimensions of an array as text. -/
def shapeText (dimensions : List Nat) : String :=
  match dimensions with
  | [n] => "(" ++ toString n ++ ",)"
  | ns => "(" ++ ", ".intercalate (ns.map fun n : Nat => toString n) ++ ")"

/-- Whether the cells of an array tell their kind. -/
def isTold : CellKind → Bool
  | .truth => true
  | .integer .int64 => true
  | .floating .double => true
  | _ => false

/-- What is said of an array next to its cells: the dimensions where cells are left out or there are
none, and the kind of the cells where they do not tell it. -/
def remarks (kind : CellKind) (dimensions : List Nat) : List String :=
  let count := size dimensions
  (if (count = 0 ∧ dimensions ≠ [0]) ∨ fullLimit < count then ["shape=" ++ shapeText dimensions] else []) ++
    if isTold kind ∧ count ≠ 0 then [] else ["dtype=" ++ kind.name]

/-- The length of the last line of a text. -/
def lastLineLength (s : List Char) : Nat :=
  (s.reverse.takeWhile (· != '\n')).length

/-- The text of an array inside a container. -/
def named (kind : CellKind) (v : Value) : String :=
  let body := opening ++ content kind v [',', ' '] (opening.length + 1) (lineWidth - 1)
  let said := remarks kind (shape v)
  if said.isEmpty then String.ofList (body ++ [')'])
  else
    let front := body ++ [',']
    let back := (", ".intercalate said).toList ++ [')']
    let fits := lastLineLength front + back.length + 1 ≤ lineWidth
    let between := if fits then [' '] else '\n' :: List.replicate opening.length ' '
    String.ofList (front ++ between ++ back)

/-! ## Laws -/

theorem shownOf_of_short {α : Type} (abridged : Bool) {row : List α} (h : row.length ≤ 6) :
    shownOf abridged row = row.map some := by
  have : ¬ (2 * edge < row.length) := by simp only [edge]; omega
  simp [shownOf, this]

theorem shape_nil : shape (.list []) = [0] := rfl

end Grid

end CircuitBench
