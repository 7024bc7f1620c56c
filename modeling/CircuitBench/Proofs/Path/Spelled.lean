import CircuitBench.Proofs.Path.Climb

/-!
# Places that can be spelled

A path leads to a place through names without slashes, none of which is empty or consists of dots
alone; so every place that a path leads to from such a place is such a place itself.  The way from a
place to another one that can be spelled is read back from its text, and an include line, which is
the text of such a way, leads to the template from the folder of the file that it stands in, whatever
folders and dots the paths were given with.

## Main results

* `isSpelled_resolve` : a path leads to a place that can be spelled.
* `resolve_includePath` : an include line leads to the template.
-/

namespace CircuitBench.Path

/-- Whether the names of a location can be spelled: each is a plain name without slashes. -/
def IsSpelled (l : Location) : Prop :=
  ∀ n ∈ l, IsPlain n ∧ '/' ∉ n.toList

instance (name : String) : Decidable (IsPlain name) :=
  inferInstanceAs (Decidable (_ ∧ _ ∧ _))

instance (l : Location) : Decidable (IsSpelled l) :=
  inferInstanceAs (Decidable (∀ n ∈ l, _))

theorem isSpelled_nil : IsSpelled [] :=
  fun _ hn => absurd hn List.not_mem_nil

theorem isSpelled_step {here : Location} (h : IsSpelled here) {name : String}
    (hSlash : '/' ∉ name.toList) : IsSpelled (step here name) := by
  rw [step]
  split
  · exact h
  rename_i hStays
  obtain ⟨hEmpty, hDot⟩ := not_or.mp hStays
  split
  · exact fun n hn => h n (List.dropLast_subset _ hn)
  · rename_i hDots
    intro n hn
    rcases List.mem_append.mp hn with hHere | hName
    · exact h n hHere
    · rw [List.mem_singleton.mp hName]
      exact ⟨⟨hEmpty, hDot, hDots⟩, hSlash⟩

theorem isSpelled_follow {here : Location} (h : IsSpelled here) {ns : List String}
    (hNames : ∀ n ∈ ns, '/' ∉ n.toList) : IsSpelled (follow here ns) := by
  induction ns generalizing here with
  | nil => exact h
  | cons n rest ih =>
      obtain ⟨hFirst, hRest⟩ := List.forall_mem_cons.mp hNames
      exact ih (isSpelled_step h hFirst) hRest

/-- A path leads to a place that can be spelled if it starts at one. -/
theorem isSpelled_resolve {current : Location} {path : String}
    (h : isAbsolute path = true ∨ IsSpelled current) : IsSpelled (resolve current path) := by
  refine isSpelled_follow ?_ fun n hn => not_mem_of_mem_names hn
  split
  · exact isSpelled_nil
  · rename_i hRelative
    exact h.resolve_left hRelative

section Ways

variable (start : Location) {target : Location}

/-- The names on the way to a place that can be spelled have characters, and no slashes. -/
theorem mem_relative (h : IsSpelled target) {n : String} (hn : n ∈ relative start target) :
    n ≠ "" ∧ '/' ∉ n.toList := by
  rcases List.mem_append.mp hn with hUp | hDown
  · rw [List.eq_of_mem_replicate hUp]
    decide
  · obtain ⟨hPlain, hSlash⟩ := h n (List.mem_of_mem_drop hDown)
    exact ⟨hPlain.1, hSlash⟩

/-- The way to a place is spelled as a relative path. -/
theorem isAbsolute_relativeText (h : IsSpelled target) :
    isAbsolute (relativeText (relative start target)) = false := by
  cases hWay : relative start target with
  | nil => rfl
  | cons n rest =>
      have hFirst : n ∈ relative start target := by
        rw [hWay]
        exact List.mem_cons_self
      obtain ⟨hPlain, hSlash⟩ := mem_relative start h hFirst
      have hHere := not_isAbsolute_of_not_mem hSlash
      rw [relativeText, if_neg (by simp)]
      cases rest with
      | nil => rwa [String.intercalate_singleton]
      | cons m more =>
          rw [String.intercalate_cons_cons, String.append_assoc, isAbsolute_append hPlain, hHere]

/-- The way to a place is read back from its text, unless there is nowhere to go. -/
theorem names_relativeText (h : IsSpelled target) :
    names (relativeText (relative start target)) =
      if relative start target = [] then ["."] else relative start target := by
  by_cases hNone : relative start target = []
  · rw [hNone, if_pos rfl]
    rfl
  · rw [if_neg hNone, relativeText, if_neg (by simpa using hNone)]
    exact names_intercalate (fun n hn => (mem_relative start h hn).2) hNone

/-- The way to a place that can be spelled leads there when it is spelled. -/
theorem resolve_relativeText (h : IsSpelled target) :
    resolve start (relativeText (relative start target)) = target := by
  have hWay := follow_relative start target fun n hn => (h n hn).1
  rw [resolve, isAbsolute_relativeText start h, if_neg Bool.false_ne_true,
    names_relativeText start h]
  split
  · rename_i hNone
    rw [hNone] at hWay
    exact hWay
  · exact hWay

end Ways

/-- From the folder of a file, the way to a template that an include line names leads to the
template. -/
theorem resolve_includePath {current : Location} (circuit : String) {template : String}
    (h : isAbsolute template = true ∨ IsSpelled current) :
    resolve (resolve current circuit).dropLast (includePath current circuit template) =
      resolve current template :=
  resolve_relativeText _ (isSpelled_resolve h)

end CircuitBench.Path
