import CircuitBench.Proofs.Path.Names

/-!
# Where a relative path leads from two folders

The names of a relative path come down to a number of folders to climb, and names to go down by from
there: two dots behind a name take it back, and two dots behind no name climb.  Climbing ends at the
root, however far the path wants to go.

So a relative path forgets as many names at the end of its start as it climbs, and what is left shows
in the place that it leads to.  It leads to one place from two folders exactly when they have the
rest in common; from a folder and one below it this takes as many steps up as the one lies below the
other, or a start so near to the root that both are left behind.

## Main results

* `resolve_relative` : a relative path climbs and goes down.
* `resolve_eq_resolve_iff` : from which folders a path leads to the same place.
* `resolve_from_below_iff` : when a path can be followed from a folder below its own place.
* `resolve_join_path`, `resolve_join` : a path or a name that is joined to a folder.
-/

namespace CircuitBench.Path

/-! ## Climbing -/

/-- A way from a folder: how many folders to climb, and the names to go down by. -/
structure Way where
  climbs : Nat
  names : Location
deriving DecidableEq, Repr

namespace Way

/-- The way that goes on by one name more. -/
def step (w : Way) (name : String) : Way :=
  if name = "" ∨ name = "." then w
  else if name = ".." then
    if w.names = [] then ⟨w.climbs + 1, []⟩ else ⟨w.climbs, w.names.dropLast⟩
  else ⟨w.climbs, w.names ++ [name]⟩

/-- Where a way leads from a folder. -/
def leads (w : Way) (here : Location) : Location :=
  here.take (here.length - w.climbs) ++ w.names

theorem leads_step (w : Way) (here : Location) (name : String) :
    (w.step name).leads here = Path.step (w.leads here) name := by
  rw [step, Path.step]
  by_cases hStay : name = "" ∨ name = "."
  · rw [if_pos hStay, if_pos hStay]
  rw [if_neg hStay, if_neg hStay]
  by_cases hUp : name = ".."
  · rw [if_pos hUp, if_pos hUp]
    by_cases hNames : w.names = []
    · rw [if_pos hNames, leads, leads, hNames, List.append_nil, List.append_nil,
        List.dropLast_eq_take, List.take_take, List.length_take]
      congr 1
      dsimp only
      omega
    · rw [if_neg hNames, leads, leads, List.dropLast_append_of_ne_nil hNames]
  · rw [if_neg hUp, if_neg hUp, leads, leads, List.append_assoc]

end Way

/-- The way that a relative path goes. -/
def way (path : String) : Way :=
  (names path).foldl Way.step ⟨0, []⟩

/-- A relative path climbs and goes down. -/
theorem resolve_relative {path : String} (h : isAbsolute path = false) (here : Location) :
    resolve here path = (way path).leads here := by
  have hFollow : ∀ (ns : List String) (w : Way),
      follow (w.leads here) ns = (ns.foldl Way.step w).leads here := by
    intro ns
    induction ns with
    | nil => exact fun w => rfl
    | cons n rest ih =>
        intro w
        rw [List.foldl_cons, ← ih, Way.leads_step]
        rfl
  have hStart : Way.leads ⟨0, []⟩ here = here := by
    rw [Way.leads, Nat.sub_zero, List.take_length, List.append_nil]
  rw [resolve, h, if_neg Bool.false_ne_true, way, ← hFollow, hStart]

/-- A path leads to one place from two folders exactly when it is absolute, or the folders have in
common what is left of them behind the climb. -/
theorem resolve_eq_resolve_iff (a b : Location) (path : String) :
    resolve a path = resolve b path ↔ isAbsolute path = true ∨
      a.take (a.length - (way path).climbs) = b.take (b.length - (way path).climbs) := by
  cases hAbsolute : isAbsolute path with
  | true =>
      rw [resolve_absolute hAbsolute a b]
      exact iff_of_true rfl (.inl rfl)
  | false =>
      rw [resolve_relative hAbsolute, resolve_relative hAbsolute, Way.leads, Way.leads,
        List.append_left_inj]
      exact (or_iff_right Bool.false_ne_true).symm

/-- A relative path leads to its own place from a folder right below that place exactly when it
climbs by one folder more than it goes down, or at least as far and beyond the root. -/
theorem resolve_from_below_iff {path : String} (h : isAbsolute path = false) (here : Location)
    (name : String) :
    resolve (resolve here path ++ [name]) path = resolve here path ↔
      (way path).climbs = (way path).names.length + 1 ∨
        here.length ≤ (way path).climbs ∧ (way path).names.length + 1 ≤ (way path).climbs := by
  rw [resolve_eq_resolve_iff, h, or_iff_right Bool.false_ne_true, resolve_relative h, Way.leads,
    List.append_assoc]
  generalize (way path).climbs = climbs
  generalize hDown : (way path).names ++ [name] = down
  have hLength : down.length = (way path).names.length + 1 := by
    rw [← hDown, List.length_append, List.length_singleton]
  have hKept : (here.take (here.length - climbs)).length = here.length - climbs := by
    rw [List.length_take]
    omega
  have hAll : (here.take (here.length - climbs) ++ down).length =
      here.length - climbs + down.length := by
    rw [List.length_append, hKept]
  rw [hAll, ← hLength]
  constructor
  · intro hSame
    have hLengths := congrArg List.length hSame
    rw [List.length_take, hAll, hKept] at hLengths
    omega
  · intro hClimbs
    have hCount : here.length - climbs + down.length - climbs = here.length - climbs := by omega
    rw [hCount, List.take_left' hKept]

/-! ## Joined names -/

theorem not_isAbsolute_of_not_mem {name : String} (h : '/' ∉ name.toList) :
    isAbsolute name = false := by
  cases hChars : name.toList with
  | nil => simp [isAbsolute, hChars]
  | cons c rest =>
      have hFirst : c ≠ '/' := by
        rintro rfl
        exact h (by simp [hChars])
      simp [isAbsolute, hChars, hFirst]

/-- What stands behind a path does not make it absolute. -/
theorem isAbsolute_append {folder : String} (hNonempty : folder ≠ "") (more : String) :
    isAbsolute (folder ++ more) = isAbsolute folder := by
  cases hChars : folder.toList with
  | nil => exact absurd (String.toList_eq_nil_iff.mp hChars) hNonempty
  | cons c rest => simp [isAbsolute, hChars]

/-- A path whose names go on behind those of a folder leads on from the place of the folder. -/
private theorem resolve_of_names {joined folder path : String} {front : List String}
    (hNames : names joined = front ++ names path) (hRoot : isAbsolute joined = isAbsolute folder)
    (hFront : ∀ here, follow here front = follow here (names folder))
    (hRelative : isAbsolute path = false) (here : Location) :
    resolve here joined = resolve (resolve here folder) path := by
  rw [resolve, hRoot, hNames, follow_append, hFront, resolve, hRelative,
    if_neg Bool.false_ne_true, resolve]

/-- A path that is joined to a folder leads where it leads from the place of the folder. -/
theorem resolve_join_path (here : Location) (folder path : String) :
    resolve here (join folder path) = resolve (resolve here folder) path := by
  rw [join]
  by_cases hAbsolute : isAbsolute path = true
  · rw [if_pos (.inl hAbsolute)]
    exact resolve_absolute hAbsolute _ _
  have hRelative : isAbsolute path = false := Bool.eq_false_iff.mpr hAbsolute
  by_cases hEmpty : folder.isEmpty = true
  · rw [if_pos (.inr hEmpty)]
    have hFolder : folder = "" := String.isEmpty_iff.mp hEmpty
    subst hFolder
    rfl
  rw [if_neg (not_or.mpr ⟨hAbsolute, hEmpty⟩)]
  have hNonempty : folder ≠ "" := fun h => hEmpty (String.isEmpty_iff.mpr h)
  split
  · rename_i hEnd
    -- the slash at the end of the folder leaves an empty name behind, which means nothing
    obtain ⟨front, hFront⟩ := List.getLast?_eq_some_iff.mp hEnd
    have hChars : (folder ++ path).toList = front ++ '/' :: path.toList := by
      rw [String.toList_append, hFront, List.append_assoc, List.singleton_append]
    have hNames : names (folder ++ path) = (splitSlash front).map String.ofList ++ names path := by
      rw [names, hChars, splitSlash_append, List.map_append, ← names]
    have hFolder : names folder = (splitSlash front).map String.ofList ++ [""] := by
      rw [names, hFront, splitSlash_append, List.map_append]
      rfl
    refine resolve_of_names hNames (isAbsolute_append hNonempty path) (fun here => ?_) hRelative here
    rw [hFolder, follow_append]
    rfl
  · have hRoot : isAbsolute (folder ++ "/" ++ path) = isAbsolute folder := by
      rw [String.append_assoc, isAbsolute_append hNonempty]
    exact resolve_of_names (names_append_slash folder path) hRoot (fun _ => rfl) hRelative here

/-- A name that is joined to a folder leads to that name in the place of the folder. -/
theorem resolve_join (here : Location) (folder : String) {name : String} (hPlain : IsPlain name)
    (hSlash : '/' ∉ name.toList) :
    resolve here (join folder name) = resolve here folder ++ [name] := by
  rw [resolve_join_path, resolve, not_isAbsolute_of_not_mem hSlash, if_neg Bool.false_ne_true,
    names_of_not_mem hSlash]
  exact step_plain hPlain _

end CircuitBench.Path
