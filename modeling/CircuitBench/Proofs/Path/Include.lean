import CircuitBench.Proofs.Path.Spelled
import Mathlib.Data.List.Basic

/-!
# Include lines that lead back to the template

A circuit is written to a place that may lie anywhere, and its include line has to lead from there
to the template.  The line is a text: it is joined to the text of the folder that the circuit is in,
and what comes out is taken apart again and normalised.  Both the circuit and the template may be
named from the current folder or from the root, with dots, empty names and slashes at the end.

The text of the folder is what stands before the last slash of an absolute path.  That is the text of
the place that the path without its last name leads to, and the root has no folder but itself.

## Main results

* `components_locationText`, `resolve_locationText` : a place is read back from its text.
* `folderText_locationText` : the text of the folder around a place.
* `includePath_leadsBack` : an include line leads back to the template.
-/

namespace CircuitBench.Path

/-- The folder around a path, as a text: what stands before its last slash, without slashes at the
end unless there is nothing else. -/
def folderText (path : String) : String :=
  let back := path.toList.reverse.dropWhile (· != '/')
  if back.all (· == '/') then String.ofList back.reverse
  else String.ofList (back.dropWhile (· == '/')).reverse

/-- The components of a path: its names without the empty ones. -/
def components (path : String) : List String :=
  (names path).filter (· != "")

/-! ## Places as texts -/

theorem rootText_eq (path : String) : rootText path = "/" ∨ rootText path = "//" := by
  rw [rootText]
  split
  · exact .inl rfl
  · exact .inr rfl
  · exact .inl rfl

/-- Names that are empty can be left out. -/
theorem follow_components (here : Location) (path : String) :
    follow here (components path) = follow here (names path) := by
  rw [← follow_filter here (components path), components, List.filter_filter,
    ← follow_filter here (names path)]
  congr 2
  funext n
  rw [Bool.and_right_comm, Bool.and_self]

section Roots

variable {root : String} (hRoot : root = "/" ∨ root = "//") {l : Location} (h : IsSpelled l)

include hRoot

/-- A root is all slashes, and is the folder around itself. -/
theorem root_spec : (root.toList.all (· == '/')) = true ∧ root.toList.getLast? = some '/' ∧
    components root = [] ∧ folderText root = root := by
  rcases hRoot with rfl | rfl
  · decide
  · decide

include h

/-- A place is read back from its text. -/
theorem components_locationText : components (locationText root l) = l := by
  by_cases hNone : l = []
  · rw [hNone, locationText, String.intercalate_nil, String.append_empty]
    exact (root_spec hRoot).2.2.1
  have hSpelled : FilePath.Spelled ⟨root, l⟩ :=
    ⟨.inr hRoot, fun n hn => ⟨(h n hn).1.1, (h n hn).1.2.1, (h n hn).2⟩⟩
  have hText : FilePath.text ⟨root, l⟩ = locationText root l := by
    rw [FilePath.text, if_neg]
    · rfl
    · simp [hNone]
  obtain ⟨-, count, hNames⟩ := FilePath.text_spec hSpelled hNone
  have hSlashes : (List.replicate count "").filter (· != "") = [] := by
    rw [List.filter_eq_nil_iff]
    intro n hn
    rw [List.eq_of_mem_replicate hn]
    decide
  have hParts : l.filter (· != "") = l := by
    rw [List.filter_eq_self]
    intro n hn
    simpa using (h n hn).1.1
  rw [components, ← hText, hNames, List.filter_append, hSlashes, hParts, List.nil_append]

/-- The text of a place leads to the place. -/
theorem resolve_locationText : resolve [] (locationText root l) = l := by
  rw [resolve, ite_self, ← follow_components, components_locationText hRoot h]
  exact follow_plain [] l fun n hn => (h n hn).1

end Roots

/-! ## Folders as texts -/

/-- What stands behind the last slash does not show in the folder. -/
theorem folderText_append (lead : String) {name : String} (hSlash : '/' ∉ name.toList) :
    folderText (lead ++ name) = folderText lead := by
  have hBack : (lead ++ name).toList.reverse.dropWhile (· != '/') =
      lead.toList.reverse.dropWhile (· != '/') := by
    rw [String.toList_append, List.reverse_append, List.dropWhile_append_of_pos]
    intro c hc
    rw [bne_iff_ne]
    rintro rfl
    exact hSlash (List.mem_reverse.mp hc)
  rw [folderText, hBack, folderText]

/-- Before the slash behind a path stands the path. -/
theorem folderText_slash {path : String} {c : Char} (hEnd : path.toList.getLast? = some c)
    (hLast : c ≠ '/') : folderText (path ++ "/") = path := by
  obtain ⟨front, hChars⟩ := List.getLast?_eq_some_iff.mp hEnd
  have hBack : (path ++ "/").toList.reverse = '/' :: c :: front.reverse := by
    rw [String.toList_append, hChars]
    simp
  have hKept : ('/' :: c :: front.reverse).dropWhile (· != '/') = '/' :: c :: front.reverse :=
    List.dropWhile_cons_of_neg (by decide)
  have hOther : ('/' :: c :: front.reverse).all (· == '/') = false := by
    simp [hLast]
  have hTaken : ('/' :: c :: front.reverse).dropWhile (· == '/') = c :: front.reverse := by
    rw [List.dropWhile_cons_of_pos (by decide), List.dropWhile_cons_of_neg (by simpa using hLast)]
  rw [folderText, hBack, hKept, hOther, if_neg Bool.false_ne_true, hTaken, List.reverse_cons, List.reverse_reverse, ← hChars,
    String.ofList_toList]

/-- The last name stands behind a slash, which is one of the root if it is the only one. -/
theorem locationText_concat (root : String) (front : Location) (n : String) :
    locationText root (front ++ [n]) =
      (if front = [] then root else locationText root front ++ "/") ++ n := by
  by_cases hNone : front = []
  · rw [if_pos hNone, hNone, List.nil_append, locationText, String.intercalate_singleton]
  · rw [if_neg hNone, locationText, String.intercalate_append_of_ne_nil hNone (List.cons_ne_nil _ _),
      String.intercalate_singleton, locationText, String.append_assoc, String.append_assoc,
      String.append_assoc]

/-- A place other than the root does not end with a slash. -/
theorem getLast_locationText (root : String) {l : Location} (h : IsSpelled l) (hSome : l ≠ []) :
    ∃ c, (locationText root l).toList.getLast? = some c ∧ c ≠ '/' := by
  obtain ⟨front, n, rfl⟩ := (List.eq_nil_or_concat' l).resolve_left hSome
  obtain ⟨hPlain, hSlash⟩ := h n (List.mem_append_right _ List.mem_cons_self)
  have hChars : n.toList ≠ [] := fun hNone => hPlain.1 (String.toList_eq_nil_iff.mp hNone)
  refine ⟨n.toList.getLast hChars, ?_, ?_⟩
  · rw [locationText_concat, String.toList_append, List.getLast?_append_of_ne_nil _ hChars,
      List.getLast?_eq_getLast_of_ne_nil hChars]
  · rintro hEnd
    exact hSlash (hEnd ▸ List.getLast_mem hChars)

/-- The text of the folder around a place. -/
theorem folderText_locationText {root : String} (hRoot : root = "/" ∨ root = "//") {l : Location}
    (h : IsSpelled l) : folderText (locationText root l) = locationText root l.dropLast := by
  rcases List.eq_nil_or_concat' l with rfl | ⟨front, n, rfl⟩
  · rw [List.dropLast_nil, locationText, String.intercalate_nil, String.append_empty]
    exact (root_spec hRoot).2.2.2
  have hFront : IsSpelled front := fun m hm => h m (List.mem_append_left _ hm)
  have hSlash := (h n (List.mem_append_right _ List.mem_cons_self)).2
  rw [List.dropLast_concat, locationText_concat, folderText_append _ hSlash]
  by_cases hNone : front = []
  · rw [if_pos hNone, hNone, locationText, String.intercalate_nil, String.append_empty]
    exact (root_spec hRoot).2.2.2
  · rw [if_neg hNone]
    obtain ⟨c, hEnd, hLast⟩ := getLast_locationText root hFront hNone
    exact folderText_slash hEnd hLast

/-! ## Include lines -/

/-- A path from a folder that is named from the root, as an absolute and normalised one. -/
def normalized (folder path : String) : String :=
  absoluteText [] (join folder path)

section Normalized

variable (folder path : String)

/-- The normalised path is the text of the place that the path leads to. -/
theorem normalized_eq : normalized folder path =
    locationText (rootText (join folder path)) (resolve (resolve [] folder) path) := by
  rw [normalized, absoluteText, resolve_join_path]

/-- A folder that is named from the root can be spelled. -/
theorem isSpelled_root : IsSpelled (resolve [] folder) :=
  isSpelled_resolve (.inr isSpelled_nil)

theorem components_normalized :
    components (normalized folder path) = resolve (resolve [] folder) path := by
  rw [normalized_eq]
  exact components_locationText (rootText_eq _) (isSpelled_resolve (.inr (isSpelled_root folder)))

/-- The folder around a normalised path leads to the folder around its place. -/
theorem resolve_folderText_normalized :
    resolve [] (folderText (normalized folder path)) =
      (resolve (resolve [] folder) path).dropLast := by
  have hSpelled : IsSpelled (resolve (resolve [] folder) path) :=
    isSpelled_resolve (.inr (isSpelled_root folder))
  rw [normalized_eq, folderText_locationText (rootText_eq _) hSpelled]
  exact resolve_locationText (rootText_eq _) fun n hn => hSpelled n (List.dropLast_subset _ hn)

end Normalized

/-- An include line leads back to the template.  It is a relative path that climbs before it goes
down, and joined to the folder of the circuit and normalised it has the components of the template's
own path, wherever the circuit and the template are and however they are spelled. -/
theorem includePath_leadsBack (cwd circuit template : String) :
    isAbsolute (includePath (resolve [] cwd) circuit template) = false ∧
    (∃ climbs down, names (includePath (resolve [] cwd) circuit template) =
      List.replicate climbs ".." ++ down ∧ ".." ∉ down) ∧
    components (normalized (folderText (normalized cwd circuit))
        (includePath (resolve [] cwd) circuit template)) =
      components (normalized cwd template) := by
  have hTemplate : IsSpelled (resolve (resolve [] cwd) template) :=
    isSpelled_resolve (.inr (isSpelled_root cwd))
  refine ⟨isAbsolute_relativeText _ hTemplate, ?_, ?_⟩
  · rw [includePath, names_relativeText _ hTemplate]
    split
    · exact ⟨0, ["."], rfl, by decide⟩
    · refine ⟨_, _, rfl, fun hUp => ?_⟩
      exact (hTemplate ".." (List.mem_of_mem_drop hUp)).1.2.2 rfl
  · rw [components_normalized, components_normalized, resolve_folderText_normalized]
    exact resolve_includePath circuit (.inr (isSpelled_root cwd))

example : includePath (resolve [] "/w/d") "../tmp//x.circom/." "/w/lib/../m.circom" =
    "../m.circom" := by
  decide

end CircuitBench.Path
