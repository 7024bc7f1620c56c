import CircuitBench.Proofs.Bench.Added
import Mathlib.Data.List.DropRight

/-!
# What a registry holds

A registry is put to use again and again: paths are registered, files and folders are opened, and
now and then it is cleaned up, by hand or at the end of a block that does so however it is left.
Blocks may be nested, openings may fail, and between two uses anything may happen to the bench, but
not to the registry.

What the registry holds at the end can be told from what was handed out on the way: of all paths
that were handed out since the last time it was cleaned up, each one once, at the place where it was
handed out first.  One use is one step, and the invariant of a step is said of the marks that the
uses before it have left.

## Main results

* `Holds.perform` : what a registry holds after one more use.
* `registered_exactly` : what it holds after any uses.
-/

namespace CircuitBench.Registry

open Bench

/-! ## Uses -/

/-- A use of the registry of a bench: a path is registered, a file or a folder is opened, all is
cleaned up, or a block that cleans up at its end is entered, or left, by its end or by an error.
Or else something happens that leaves another bench with the same registry. -/
inductive Use
  | track (path : String)
  | openFile (lead ending : String) (asked : Option String)
  | openFolder (lead : String) (asked : Option String)
  | cleanUp
  | enter
  | leave (ending : Except Error Unit)
  | elsewhere (left : Bench)

/-- The mark that a use leaves: a path was handed out, the registry was cleaned up, or neither. -/
inductive Mark
  | handed (path : String)
  | cleared
  | nothing
deriving DecidableEq

/-- The path that was handed out. -/
def Mark.path? : Mark → Option String
  | handed path => some path
  | _ => none

/-- An opening hands out a path if it ends well. -/
def opening : EStateM.Result Error Bench String → Mark × Bench
  | .ok path b => (.handed path, b)
  | .error _ b => (.nothing, b)

/-- Puts the registry of a bench to use. -/
def Use.perform (b : Bench) : Use → Mark × Bench
  | track path => (.handed path, endState (Bench.track path b))
  | openFile lead ending asked => opening (Bench.openFile lead ending asked b)
  | openFolder lead asked => opening (Bench.openFolder lead asked b)
  | cleanUp => (.cleared, endState (Bench.cleanUp b))
  | enter => (.nothing, b)
  | leave ending => (.cleared, endState (withCleanUp (attempt ending) b))
  | elsewhere left => (.nothing, { left with registry := b.registry })

/-- Puts the registry of a bench to one use after another. -/
def Use.performAll (b : Bench) : List Use → List Mark × Bench
  | [] => ([], b)
  | use :: rest =>
    let (mark, b') := use.perform b
    let (marks, b'') := performAll b' rest
    (mark :: marks, b'')

/-- The paths that were handed out since the registry was last cleaned up, each as often as it
was. -/
def sinceCleared (marks : List Mark) : List String :=
  (marks.rtakeWhile (· != .cleared)).filterMap Mark.path?

theorem sinceCleared_handed (marks : List Mark) (path : String) :
    sinceCleared (marks ++ [.handed path]) = sinceCleared marks ++ [path] := by
  rw [sinceCleared, List.rtakeWhile_concat_pos _ _ _ (by simp), List.filterMap_append]
  rfl

theorem sinceCleared_nothing (marks : List Mark) :
    sinceCleared (marks ++ [.nothing]) = sinceCleared marks := by
  rw [sinceCleared, List.rtakeWhile_concat_pos _ _ _ (by simp), List.filterMap_append]
  exact List.append_nil _

theorem sinceCleared_cleared (marks : List Mark) : sinceCleared (marks ++ [.cleared]) = [] := by
  rw [sinceCleared, List.rtakeWhile_concat_neg _ _ _ (by simp)]
  rfl

/-- A member that is appended once more is listed no more often. -/
theorem eraseDups_concat (paths : List String) (path : String) :
    (paths ++ [path]).eraseDups =
      if path ∈ paths then paths.eraseDups else paths.eraseDups ++ [path] := by
  rw [List.eraseDups_append]
  split
  · rename_i hMem
    simp [List.removeAll, hMem]
  · rename_i hNew
    simp [List.removeAll, hNew, List.eraseDups_cons]

/-! ## What is held -/

/-- Whether a registry holds what was handed out according to the marks that were left: each path
once, in the order in which they were first handed out. -/
structure Holds (marks : List Mark) (r : Registry) : Prop where
  nodup : r.paths.Nodup
  paths : r.paths = (sinceCleared marks).eraseDups

namespace Holds

variable {marks : List Mark} {r : Registry} {b : Bench}

theorem fresh (base : Option String) : Holds [] { base } :=
  ⟨List.nodup_nil, rfl⟩

theorem nothing (h : Holds marks r) : Holds (marks ++ [.nothing]) r :=
  ⟨h.nodup, by rw [sinceCleared_nothing, h.paths]⟩

theorem cleared : Holds (marks ++ [.cleared]) r.emptied :=
  ⟨List.nodup_nil, by rw [sinceCleared_cleared]; rfl⟩

/-- A path that is handed out once more is not held twice. -/
theorem handed (h : Holds marks r) (path : String) :
    Holds (marks ++ [.handed path]) (r.track path) := by
  refine ⟨nodup_track r path h.nodup, ?_⟩
  have hSeen : path ∈ r.seen ↔ path ∈ sinceCleared marks := by
    rw [r.mem_seen, h.paths, List.mem_eraseDups]
  rw [sinceCleared_handed, eraseDups_concat, ← h.paths, track]
  by_cases hMem : path ∈ sinceCleared marks
  · rw [if_pos (hSeen.mpr hMem), if_pos hMem]
  · rw [if_neg (mt hSeen.mp hMem), if_neg hMem]

/-- An opening leaves the registry with the path that it handed out, or as it was. -/
theorem opening (h : Holds marks b.registry) {ending : EStateM.Result Error Bench String}
    (hEnd : (∃ path left, ending = .ok path left ∧ left.registry = b.registry.track path) ∨
      ∃ e left, ending = .error e left ∧ left.registry = b.registry) :
    Holds (marks ++ [(Registry.opening ending).1]) (Registry.opening ending).2.registry := by
  rcases hEnd with ⟨path, left, rfl, hLeft⟩ | ⟨e, left, rfl, hLeft⟩
  · rw [Registry.opening, hLeft]
    exact h.handed path
  · rw [Registry.opening, hLeft]
    exact h.nothing

end Holds

/-! ## Openings -/

theorem openFile_registry (lead ending : String) (asked : Option String) (b : Bench) :
    (∃ path left, openFile lead ending asked b = .ok path left ∧
        left.registry = b.registry.track path) ∨
      ∃ e left, openFile lead ending asked b = .error e left ∧ left.registry = b.registry := by
  rcases openFile_cases lead ending asked b with
    ⟨path, n, l, d, -, -, -, hEnd⟩ | ⟨e, n, -, hEnd⟩
  · exact .inl ⟨path, _, hEnd, rfl⟩
  · exact .inr ⟨e, _, hEnd, rfl⟩

theorem openFolder_registry (lead : String) (asked : Option String) (b : Bench) :
    (∃ path left, openFolder lead asked b = .ok path left ∧
        left.registry = b.registry.track path) ∨
      ∃ e left, openFolder lead asked b = .error e left ∧ left.registry = b.registry := by
  rcases openFolder_cases lead asked b with
    ⟨path, n, l, d, -, -, hEnd⟩ | ⟨e, n, -, hEnd⟩
  · exact .inl ⟨path, _, hEnd, rfl⟩
  · exact .inr ⟨e, _, hEnd, rfl⟩

/-- An opening that fails leaves the registry as it was. -/
theorem registry_of_error {opens : Action String} {b left : Bench} {e : Error}
    (h : (∃ path b', opens b = .ok path b' ∧ b'.registry = b.registry.track path) ∨
      ∃ e b', opens b = .error e b' ∧ b'.registry = b.registry)
    (hFails : opens b = .error e left) : left.registry = b.registry := by
  rcases h with ⟨path, b', hEnd, -⟩ | ⟨e', b', hEnd, hSame⟩
  · cases hFails.symm.trans hEnd
  · cases hFails.symm.trans hEnd
    exact hSame

/-! ## Steps and runs -/

section Runs

variable {marks : List Mark} {b : Bench}

/-- One more use leaves one more mark, and the registry holds what the marks say. -/
theorem Holds.perform (h : Holds marks b.registry) (use : Use) :
    Holds (marks ++ [(use.perform b).1]) (use.perform b).2.registry := by
  cases use with
  | track path => exact h.handed path
  | openFile lead ending asked => exact h.opening (openFile_registry lead ending asked b)
  | openFolder lead asked => exact h.opening (openFolder_registry lead asked b)
  | cleanUp => exact Holds.cleared
  | enter => exact h.nothing
  | leave ending =>
      -- a block cleans up the bench that it leaves, whether it ended well or not
      rw [Use.perform, withCleanUp, endState_ensuring]
      have hAfter : (endState (attempt ending b)).registry = b.registry := by
        cases ending <;> rfl
      have hClean : ∀ left : Bench, (endState ((do let _ ← Bench.cleanUp; return () : Action Unit)
          left)).registry = left.registry.emptied := fun left => rfl
      rw [hClean]
      exact Holds.cleared
  | elsewhere left => exact h.nothing

/-- So it is after any number of uses. -/
theorem Holds.performAll (h : Holds marks b.registry) (uses : List Use) :
    Holds (marks ++ (Use.performAll b uses).1) (Use.performAll b uses).2.registry := by
  induction uses generalizing marks b with
  | nil =>
      rw [Use.performAll, List.append_nil]
      exact h
  | cons use rest ih =>
      have hRest := ih (h.perform use)
      rw [List.append_assoc] at hRest
      exact hRest

end Runs

/-- After any uses of a fresh registry its list of paths and its set of paths agree, no path is
listed twice, and what is listed are the paths that were handed out since it was last cleaned up, in
the order in which they were first.  An opening that fails then leaves it as it is. -/
theorem registered_exactly (base : Option String) (b : Bench) (uses : List Use) :
    ∃ marks left, Use.performAll { b with registry := { base } } uses = (marks, left) ∧
      left.registry.paths.Nodup ∧
      (∀ path, path ∈ left.registry.seen ↔ path ∈ left.registry.paths) ∧
      left.registry.paths = (sinceCleared marks).eraseDups ∧
      (∀ lead ending asked e left', openFile lead ending asked left = .error e left' →
        left'.registry = left.registry) ∧
      ∀ lead asked e left', openFolder lead asked left = .error e left' →
        left'.registry = left.registry := by
  have hHeld : Holds [] ({ b with registry := { base } } : Bench).registry := Holds.fresh base
  obtain ⟨hNodup, hPaths⟩ := hHeld.performAll uses
  rw [List.nil_append] at hPaths
  refine ⟨_, _, rfl, hNodup, Registry.mem_seen _, hPaths, ?_, ?_⟩
  · intro lead ending asked e left' hFails
    exact registry_of_error (openFile_registry lead ending asked _) hFails
  · intro lead asked e left' hFails
    exact registry_of_error (openFolder_registry lead asked _) hFails

end CircuitBench.Registry
