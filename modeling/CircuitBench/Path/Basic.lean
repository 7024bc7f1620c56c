import CircuitBench.Path.Lexical

/-!
# Paths as names

A path can also be kept as its root and its names, without the empty names and the single dots,
which mean nothing.  Two dots are kept, as what they mean depends on the files.  The last name of a
path splits into a stem and an extension at its last dot, unless that dot is the first or the last
character.

## Main results

* `parent_child` : the folder around a name below a path is that path.
* `name_child` : and the last name is that name.
-/

namespace CircuitBench

open CircuitBench.Path

/-- A path: what it starts with, which is empty for a relative one, and its names. -/
structure FilePath where
  root : String
  parts : List String
deriving DecidableEq, Repr

namespace FilePath

/-- The path that a text spells. -/
def ofString (path : String) : FilePath :=
  ⟨if isAbsolute path then rootText path else "",
    (names path).filter fun n => n != "" && n != "."⟩

/-- A path as a text.  The path without root and names is a single dot. -/
def text (p : FilePath) : String :=
  if p.root.isEmpty && p.parts.isEmpty then "." else p.root ++ "/".intercalate p.parts

/-- The last name of a path. -/
def name (p : FilePath) : String :=
  p.parts.getLast?.getD ""

/-- The path of the folder around a path.  A path without names is its own. -/
def parent (p : FilePath) : FilePath :=
  { p with parts := p.parts.dropLast }

/-- A name below a path. -/
def child (p : FilePath) (name : String) : FilePath :=
  { p with parts := p.parts ++ [name] }

theorem parent_child (p : FilePath) (n : String) : (p.child n).parent = p := by
  simp [child, parent]

theorem name_child (p : FilePath) (n : String) : (p.child n).name = n := by
  simp [child, name]

/-- A name without its extension: up to the last dot, unless that is the first or the last
character. -/
def stemChars (name : List Char) : List Char :=
  let extension := name.reverse.takeWhile (· != '.')
  let front := (name.reverse.drop (extension.length + 1)).reverse
  if extension.isEmpty || front.isEmpty then name else front

/-- The last name of a path without its extension. -/
def stem (p : FilePath) : String :=
  String.ofList (stemChars p.name.toList)

end FilePath

end CircuitBench
