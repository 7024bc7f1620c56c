import CircuitBench.Symbol.Table
import CircuitBench.Number.Literal
import CircuitBench.Text.Lines
import CircuitBench.Text.Utf8

/-!
# Symbol files

A symbol file lists one signal on a line: its label, wire and component, and its name, with commas
between them.  The name is all that follows the third comma, so that it may hold commas itself.
White space around a line does not count, and a line of white space alone lists nothing.

Reading stops at the first line that is not of this form and names it by its number, counting every
line.  The bytes are decoded block by block, and lines are read as soon as they are complete, so
that a bad line comes before malformed bytes in a later block.

## Main results

* `splitFields_line` : a line splits into the three numbers and the name it was made of.
-/

namespace CircuitBench.SymbolTable

open Number Text

/-! ## Lines -/

/-- Splits a line at its first commas, at most `count` of them. -/
def splitFields : Nat → List Char → List (List Char)
  | 0, s => [s]
  | _ + 1, [] => [[]]
  | count + 1, c :: rest =>
    if c = ',' then [] :: splitFields count rest else consFirst c (splitFields (count + 1) rest)

/-- Reads one numeric field of a line. -/
def readField (file : String) (line : Nat) (field : List Char) : Except Error Int :=
  match readInteger 10 field with
  | .ok n => .ok n
  | .error fault => .error (.format (.symbolNumber file line fault (quoted (String.ofList field))))

/-- Reads a line that is not blank. -/
def readFields (file : String) (line : Nat) (s : List Char) : Except Error (String × Symbol) :=
  match splitFields 3 s with
  | [label, wire, component, name] => do
    let label ← readField file line label
    let wire ← readField file line wire
    let component ← readField file line component
    return (String.ofList name, ⟨label, wire, component⟩)
  | fields => .error (.format (.symbolFields file line fields.length))

/-- Reads lines, numbered from `line`, into a table. -/
def readLines (file : String) (line : Nat) (t : SymbolTable) :
    List (List Char) → Except Error SymbolTable
  | [] => .ok t
  | l :: ls =>
    match trim l with
    | [] => readLines file (line + 1) t ls
    | s => do
      let (name, symbol) ← readFields file line s
      readLines file (line + 1) (t.put name symbol) ls

/-- Reads the text of a symbol file. -/
def readText (file : String) (text : List Char) : Except Error SymbolTable :=
  readLines file 1 [] (lines text)

/-- The number of bytes of a symbol file that are decoded at a time. -/
def blockSize : Nat := 8192

/-- Reads the bytes of a symbol file.  A file that is not text throughout is read as far as its
lines are complete when a block of it turns out to be malformed, and a bad line among those is
reported first. -/
def read (file : String) (bytes : List UInt8) : Except Error SymbolTable :=
  match Utf8.decode? bytes with
  | some text => readText file text.toList
  | none => do
    let _ ← readLines file 1 [] (completeLines (Utf8.knownInBlocks blockSize bytes))
    .error .undecodable

/-! ## Writing -/

/-- The line that lists a signal. -/
def line (name : String) (s : Symbol) : List Char :=
  (toString s.label).toList ++ ',' :: (toString s.wire).toList ++ ',' ::
    (toString s.component).toList ++ ',' :: name.toList

/-! ## Laws -/

theorem splitFields_append (count : Nat) (field rest : List Char) (h : ',' ∉ field) :
    splitFields (count + 1) (field ++ ',' :: rest) = field :: splitFields count rest := by
  induction field with
  | nil => simp [splitFields]
  | cons c field ih =>
    have hc : c ≠ ',' := fun heq => h (by simp [heq])
    have hf : ',' ∉ field := fun hm => h (by simp [hm])
    rw [List.cons_append, splitFields, if_neg hc, ih hf]
    rfl

theorem splitFields_line (a b c name : List Char) (ha : ',' ∉ a) (hb : ',' ∉ b) (hc : ',' ∉ c) :
    splitFields 3 (a ++ ',' :: (b ++ ',' :: (c ++ ',' :: name))) = [a, b, c, name] := by
  rw [splitFields_append 2 a _ ha, splitFields_append 1 b _ hb, splitFields_append 0 c _ hc,
    splitFields]

end CircuitBench.SymbolTable
