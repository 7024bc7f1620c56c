import CircuitBench.Bytes.Cursor
import CircuitBench.Json.Order
import CircuitBench.Value.Access

/-!
# Writing JSON

Two kinds of JSON are written.  Template parameters go into generated source on one line, without
blanks, in ASCII, and the numbers of array code are written as plain ones.  Documents are written to
files with sorted keys, every character that needs no escape as it is, and array code has no place
in them.  A `Style` records these decisions; the writer is one.

A key that is a number, a truth value or null is written as the text of it.  The writer goes through
a value from left to right and fails at the first part that has no written form.  Half of a
surrogate pair can be spelled in ASCII, but not written as it is.

## Main results

* `bracketed_nil` : without parts, brackets stand together in every style.
* `stringOf_of_whole` : a text without halves is written in every style.
-/

namespace CircuitBench.Json

open Number Text

/-! ## Styles -/

/-- How a value is written: the indent of a level, if levels stand on lines of their own; what
separates items and stands after a key; whether text is kept to ASCII; whether keys are sorted; and
whether the numbers and arrays of array code are written, as plain numbers and lists. -/
structure Style where
  indent : Option String
  itemSeparator : String
  keySeparator : String
  asciiOnly : Bool
  sortKeys : Bool
  arrays : Bool

/-- Template parameters. -/
def Style.parameters : Style :=
  ⟨none, ",", ":", true, false, true⟩

/-- A document, with the given indent.  Without one it stands on a single line, with a blank after
each separator. -/
def Style.document (indent : Option String) : Style :=
  ⟨indent, if indent.isSome then "," else ", ", ": ", false, true, false⟩

/-- A number of blanks, none for a negative one.  A text can be repeated as often as an index of
64 bits can say. -/
def blanks (kind : String) (n : Int) : Except Error String :=
  if isSize n then .ok (String.ofList (List.replicate n.toNat ' '))
  else .error (.overflow (.integerToIndex kind))

/-- The indent that a value asks for: none, a number of blanks, or a text. -/
def indentOf : Value → Except Error (Option String)
  | .null => .ok none
  | .text s => .ok (some s)
  | .textCell s => .ok (some s)
  | .bool b => (blanks "bool" b.toInt).map some
  | .int n => (blanks "int" n).map some
  | .integerCell k n => (blanks (Value.integerCell k n).fullKindName n).map some
  | v => .error (.type (.notFactor v.fullKindName))

/-! ## Strings -/

/-- The escape of a code unit by four hexadecimal digits. -/
def unitEscape (n : Nat) : List Char :=
  backslash :: 'u' :: hexDigits 4 n

/-- The letter that follows the backslash for a character with a short escape of its own. -/
def escapeLetter? (n : Nat) : Option Char :=
  if n = 0x22 then some doubleQuote
  else if n = 0x5C then some backslash
  else if n = 0x08 then some 'b'
  else if n = 0x0C then some 'f'
  else if n = 0x0A then some 'n'
  else if n = 0x0D then some 'r'
  else if n = 0x09 then some 't'
  else none

/-- A code point inside a string that is kept to ASCII. One beyond sixteen bits is spelled as a
surrogate pair. -/
def asciiCode (n : Nat) : List Char :=
  match escapeLetter? n with
  | some letter => [backslash, letter]
  | none =>
    if 0x20 ≤ n ∧ n < 0x7F then [Char.ofNat n]
    else if n < 0x10000 then unitEscape n
    else unitEscape (0xD800 + (n - 0x10000) / 0x400) ++ unitEscape (0xDC00 + (n - 0x10000) % 0x400)

/-- A character inside a string that may hold any character. -/
def plainCode (n : Nat) : List Char :=
  match escapeLetter? n with
  | some letter => [backslash, letter]
  | none => if n < 0x20 then unitEscape n else [Char.ofNat n]

/-- A string with the given code points between quotes. -/
def stringText (style : Style) (codes : List Nat) : List Char :=
  doubleQuote :: codes.flatMap (if style.asciiOnly then asciiCode else plainCode) ++ [doubleQuote]

/-- A text as a string. -/
def stringOf (style : Style) (s : String) : Except Error (List Char) :=
  if !style.asciiOnly && hasHalf s then .error .unencodable else .ok (stringText style (codes s))

/-! ## Numbers -/

/-- A floating-point number. -/
def floatText : Binary → String
  | .nan => "NaN"
  | .infinite negative => if negative then "-Infinity" else "Infinity"
  | x => x.text .double

/-- The word for a truth value. -/
def truthWord (b : Bool) : String :=
  if b then "true" else "false"

/-! ## Keys -/

/-- The string that a key is written as. -/
def keyText (style : Style) : Value → Except Error (List Char)
  | .text s => stringOf style s
  | .textCell s => stringOf style s
  | .float x => stringOf style (floatText x)
  | .floatCell .double x => stringOf style (floatText x)
  | .bool b => stringOf style (truthWord b)
  | .null => stringOf style "null"
  | .int n => do
    let digits ← Value.integerText n
    stringOf style digits
  | v => .error (.type (.keyKind (if style.arrays then v.fullKindName else v.kindName)))

/-! ## Values -/

/-- What stands in front of an item at a level of nesting: a new line and the indent, if levels
stand on lines of their own. -/
def lead (style : Style) (level : Nat) : List Char :=
  match style.indent with
  | none => []
  | some indent => '\n' :: (List.replicate level indent.toList).flatten

/-- Refuses an indent that cannot be written, in a container that is not empty. -/
def checkIndent (style : Style) (isEmpty : Bool) : Except Error Unit :=
  if !isEmpty && !style.asciiOnly && style.indent.any hasHalf then .error .unencodable else .ok ()

/-- The failure to write a value that has no written form. -/
def unwritable (style : Style) (v : Value) : Error :=
  .type (if style.arrays then .notParameter v.kindName else .notSerializable v.kindName)

/-- Written parts between brackets: each part on a line of its own if levels stand on lines, with
separators between them. -/
def bracketed (style : Style) (level : Nat) (opening closing : Char) : List (List Char) → List Char
  | [] => [opening, closing]
  | part :: parts =>
    let separated := parts.flatMap fun p => style.itemSeparator.toList ++ lead style (level + 1) ++ p
    opening :: lead style (level + 1) ++ part ++ separated ++ lead style level ++ [closing]

/-- The entries of a table of which the values have been written, or have failed to be: each as its
key and its value, in order. -/
def entryTexts (style : Style) :
    List (Keyed (Except Error (List Char))) → Except Error (List (List Char))
  | [] => .ok []
  | ((key, _), written) :: rest => do
    let k ← keyText style key
    let v ← written
    let more ← entryTexts style rest
    return (k ++ style.keySeparator.toList ++ v) :: more

/-- The entries of a table in the order in which a style writes them. -/
def ordered {α : Type} (style : Style) (entries : List (Keyed α)) : Except Error (List (Keyed α)) :=
  if style.sortKeys then Keyed.sortByKey entries else .ok entries

mutual

/-- A value at a level of nesting. -/
def write (style : Style) (level : Nat) : Value → Except Error (List Char)
  | .null => .ok "null".toList
  | .bool b => .ok (truthWord b).toList
  | .int n => (Value.integerText n).map String.toList
  | .float x => .ok (floatText x).toList
  | .floatCell .double x => .ok (floatText x).toList
  | .text s => stringOf style s
  | .textCell s => stringOf style s
  | .list items => do
    checkIndent style items.isEmpty
    let texts ← writeItems style (level + 1) items
    return bracketed style level '[' ']' texts
  | .tuple items => do
    checkIndent style items.isEmpty
    let texts ← writeItems style (level + 1) items
    return bracketed style level '[' ']' texts
  | .table entries => do
    checkIndent style entries.isEmpty
    let sorted ← ordered style (writeValues style (level + 1) entries)
    let texts ← entryTexts style sorted
    return bracketed style level '\x7b' '\x7d' texts
  | .integerCell k n =>
    if style.arrays then (Value.integerText n).map String.toList
    else .error (unwritable style (.integerCell k n))
  | .array k content =>
    if style.arrays then write style level content else .error (unwritable style (.array k content))
  | v => .error (unwritable style v)

/-- The items of a list in order. -/
def writeItems (style : Style) (level : Nat) : List Value → Except Error (List (List Char))
  | [] => .ok []
  | v :: vs => do
    let t ← write style level v
    let ts ← writeItems style level vs
    return t :: ts

/-- The values of a table, each under its key.  A value that cannot be written is a failure only
when its turn comes. -/
def writeValues (style : Style) (level : Nat) :
    List (Value × Value) → List (Keyed (Except Error (List Char)))
  | [] => []
  | (k, v) :: rest => ((k, v), write style level v) :: writeValues style level rest

end

/-- A value as a text. -/
def text (style : Style) (v : Value) : Except Error String :=
  (write style 0 v).map String.ofList

/-- A value as the text of a document, with the indent that another value asks for.  An indent that
cannot be had is refused before anything is written. -/
def documentText (indent v : Value) : Except Error String := do
  let indent ← indentOf indent
  text (.document indent) v

/-! ## Laws -/

theorem stringOf_of_whole (style : Style) {s : String} (h : hasHalf s = false) :
    stringOf style s = .ok (stringText style (codes s)) := by
  simp [stringOf, h]

theorem checkIndent_parameters (isEmpty : Bool) : checkIndent .parameters isEmpty = .ok () := by
  simp [checkIndent, Style.parameters]

theorem bracketed_nil (style : Style) (level : Nat) (opening closing : Char) :
    bracketed style level opening closing [] = [opening, closing] := rfl

end CircuitBench.Json
