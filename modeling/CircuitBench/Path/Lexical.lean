/-!
# Paths as text

A path is a text; its names stand between slashes.  Read lexically, without a look at any file, an
empty name and a single dot mean the place itself and two dots the folder around it, the root being
around itself.  A location is what a path comes down to: the names from the root to it.

An include line names a file by the way from the folder of the including file: up by two dots as
often as needed, and down by names.

## Main results

* `resolve_absolute` : where a path with a slash in front leads does not depend on the start.
* `follow_relative` : the way from one location to another, followed from the first, leads to the
  second.
-/

namespace CircuitBench.Path

/-- The names from the root to a file or folder. -/
abbrev Location := List String

/-- The parts of a text between slashes. -/
def splitSlash : List Char → List (List Char)
  | [] => [[]]
  | c :: rest =>
    if c = '/' then [] :: splitSlash rest
    else
      match splitSlash rest with
      | [] => [[c]]
      | part :: parts => (c :: part) :: parts

/-- The names of a path, with the empty ones between two slashes. -/
def names (path : String) : List String :=
  (splitSlash path.toList).map String.ofList

/-- Whether a path starts at the root. -/
def isAbsolute (path : String) : Bool :=
  path.toList.head? == some '/'

/-- Goes from a location to what one name means there. -/
def step (here : Location) (name : String) : Location :=
  if name = "" ∨ name = "." then here
  else if name = ".." then here.dropLast
  else here ++ [name]

/-- Goes from a location along names. -/
def follow (here : Location) (ns : List String) : Location :=
  ns.foldl step here

/-- Where a path leads from a current folder. -/
def resolve (current : Location) (path : String) : Location :=
  follow (if isAbsolute path then [] else current) (names path)

/-- The number of names that two locations have in common from the root on. -/
def commonLength : Location → Location → Nat
  | a :: as, b :: bs => if a = b then commonLength as bs + 1 else 0
  | _, _ => 0

/-- The way from one location to another. -/
def relative (start target : Location) : List String :=
  let common := commonLength start target
  List.replicate (start.length - common) ".." ++ target.drop common

/-- Names as a relative path; no names at all are a single dot. -/
def relativeText (ns : List String) : String :=
  if ns.isEmpty then "." else "/".intercalate ns

/-- The path of a template as the including circuit names it. -/
def includePath (current : Location) (circuit template : String) : String :=
  relativeText (relative (resolve current circuit).dropLast (resolve current template))

/-! ## Absolute text -/

/-- What an absolute path starts with: two slashes are kept, any other number of them is one. -/
def rootText (path : String) : String :=
  match path.toList with
  | '/' :: '/' :: '/' :: _ => "/"
  | '/' :: '/' :: _ => "//"
  | _ => "/"

/-- A location as an absolute path. -/
def locationText (root : String) (location : Location) : String :=
  root ++ "/".intercalate location

/-- A path as an absolute one. -/
def absoluteText (current : Location) (path : String) : String :=
  locationText (rootText path) (resolve current path)

/-- A name below a folder.  A name that is an absolute path stands for itself. -/
def join (folder name : String) : String :=
  if isAbsolute name ∨ folder.isEmpty then name
  else if folder.toList.getLast? = some '/' then folder ++ name
  else folder ++ "/" ++ name

/-- Whether a path names a folder in front of its last name. -/
def hasFolder (path : String) : Bool :=
  path.toList.contains '/'

/-! ## Laws -/

theorem resolve_absolute {path : String} (h : isAbsolute path = true) (a b : Location) :
    resolve a path = resolve b path := by
  simp [resolve, h]

/-- A name that means neither the place itself nor the folder around it. -/
def IsPlain (name : String) : Prop :=
  name ≠ "" ∧ name ≠ "." ∧ name ≠ ".."

theorem step_plain {name : String} (h : IsPlain name) (here : Location) :
    step here name = here ++ [name] := by
  simp [step, h.1, h.2.1, h.2.2]

theorem follow_plain (here : Location) (ns : List String) (h : ∀ n ∈ ns, IsPlain n) :
    follow here ns = here ++ ns := by
  induction ns generalizing here with
  | nil => simp [follow]
  | cons n rest ih =>
    have hrest := ih (here ++ [n]) fun m hm => h m (by simp [hm])
    simp only [follow, List.foldl_cons] at hrest ⊢
    rw [step_plain (h n (by simp)), hrest]
    simp

theorem follow_up (here : Location) (count : Nat) (h : count ≤ here.length) :
    follow here (List.replicate count "..") = here.take (here.length - count) := by
  induction count generalizing here with
  | zero => simp [follow]
  | succ count ih =>
    have hstep : step here ".." = here.dropLast := by simp [step]
    have := ih here.dropLast (by simp; omega)
    simp only [follow, List.replicate_succ, List.foldl_cons] at this ⊢
    rw [hstep, this, List.dropLast_eq_take, List.take_take, List.length_take]
    congr 1
    omega

theorem take_commonLength (a b : Location) :
    a.take (commonLength a b) = b.take (commonLength a b) := by
  fun_induction commonLength a b with
  | case1 a as bs ih => simp [ih]
  | case2 => simp
  | case3 => simp

theorem commonLength_le (a b : Location) : commonLength a b ≤ a.length := by
  fun_induction commonLength a b with
  | case1 a as bs ih => simp [ih]
  | case2 => simp
  | case3 => simp

theorem follow_append (here : Location) (a b : List String) :
    follow here (a ++ b) = follow (follow here a) b := by
  simp [follow]

theorem follow_relative (start target : Location) (h : ∀ n ∈ target, IsPlain n) :
    follow start (relative start target) = target := by
  have hle := commonLength_le start target
  rw [relative, follow_append, follow_up start _ (by omega), follow_plain _ _ fun n hn =>
    h n (List.mem_of_mem_drop hn)]
  rw [
    show start.length - (start.length - commonLength start target) = commonLength start target by
      omega,
    take_commonLength, List.take_append_drop]

end CircuitBench.Path
