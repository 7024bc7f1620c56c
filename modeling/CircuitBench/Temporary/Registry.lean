import CircuitBench.Disk.Basic
import Std.Data.TreeSet

/-!
# The registry of temporary paths

Temporary files and folders are made under fresh names, and the registry remembers each path that
was handed out until it is cleaned up.  Paths can also be registered by hand.  A path is remembered
once, in the order of first registration, and cleaning up goes through them in the reverse order, so
that what lies in a folder goes before the folder if it came after.

The paths are kept twice: as a list, for the order, and as a set, in which a path is looked up when
it is to be registered.  That the two agree is part of what a registry is.

## Main results

* `nodup_track` : registering keeps the paths distinct.
* `mem_track` : a path is registered when it was before or is the one registered now.
-/

namespace CircuitBench

open CircuitBench.Path

/-- No path is in an empty set, nor in an empty list. -/
theorem mem_empty_iff (path : String) : path ∈ (∅ : Std.TreeSet String) ↔ path ∈ ([] : List String) :=
  iff_of_false Std.TreeSet.not_mem_emptyc List.not_mem_nil

/-- The paths that are to be removed, in order of registration and as a set; the folder in which new
ones are made when no other is asked for; and whether cleaning up at the end of the program has been
asked for. -/
structure Registry where
  base : Option String := none
  paths : List String := []
  seen : Std.TreeSet String := ∅
  atExit : Bool := false
  mem_seen : ∀ path, path ∈ seen ↔ path ∈ paths := by
    exact CircuitBench.mem_empty_iff

namespace Registry

theorem mem_seen_insert (r : Registry) (path p : String) :
    p ∈ r.seen.insert path ↔ p ∈ r.paths ++ [path] := by
  rw [Std.TreeSet.mem_insert, Std.LawfulEqCmp.compare_eq_iff_eq, r.mem_seen, List.mem_append,
    List.mem_singleton, eq_comm, or_comm]

/-- Registers a path, unless it is registered already. -/
def track (r : Registry) (path : String) : Registry :=
  if path ∈ r.seen then r
  else
    { r with
      paths := r.paths ++ [path]
      seen := r.seen.insert path
      mem_seen := r.mem_seen_insert path }

/-- The registry without paths. -/
def emptied (r : Registry) : Registry :=
  { r with paths := [], seen := ∅, mem_seen := mem_empty_iff }

/-- The folder for a new path: the one asked for, or else the base, where an empty text asks for
nothing.  Without either, none. -/
def folder (r : Registry) (asked : Option String) : Option String :=
  match asked with
  | none => r.base
  | some path => if path.isEmpty then r.base else some path

/-- Removes what paths lead to, in order, and counts those that led to something. -/
def discardAll (current : Location) : List String → Disk → Nat × Disk
  | [], d => (0, d)
  | path :: rest, d =>
    let (found, d') := d.discard current path
    let (count, d'') := discardAll current rest d'
    (if found then count + 1 else count, d'')

/-- Asks for cleaning up at the end of the program. -/
def registerAtExit (r : Registry) : Registry :=
  { r with atExit := true }

/-! ## Fresh names -/

/-- The part of a temporary name that tells it from all others: eight characters. -/
def token (n : Nat) : String :=
  let digits := Nat.toDigits 10 n
  "k" ++ String.ofList (List.replicate (7 - digits.length) '0' ++ digits)

/-- The most names that are tried before giving up. -/
def maxAttempts : Nat := 10000

/-! ## Laws -/

theorem mem_track (r : Registry) (path p : String) :
    p ∈ (r.track path).paths ↔ p ∈ r.paths ∨ p = path := by
  unfold track
  split
  · rename_i h
    rw [r.mem_seen] at h
    constructor
    · exact .inl
    · rintro (h' | rfl)
      · exact h'
      · exact h
  · simp

theorem nodup_track (r : Registry) (path : String) (h : r.paths.Nodup) :
    (r.track path).paths.Nodup := by
  unfold track
  split
  · exact h
  · rename_i hmem
    rw [r.mem_seen] at hmem
    rw [List.nodup_append]
    refine ⟨h, by simp, ?_⟩
    intro a ha b hb
    simp only [List.mem_singleton] at hb
    rintro rfl
    exact hmem (hb ▸ ha)

theorem discardAll_nil (current : Location) (d : Disk) : discardAll current [] d = (0, d) := rfl

end Registry

end CircuitBench
