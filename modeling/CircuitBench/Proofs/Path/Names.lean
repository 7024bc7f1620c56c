import CircuitBench.Path.Basic

/-!
# Names below a path

A path is kept as its root and its names, and written out again with slashes between the names.
Written out and taken apart again it is the same path, so a name below a path leads to that name
below the place that the path leads to, however the path was spelled: with empty names, with dots,
from the root or from the current folder.

## Main results

* `names_join` : a name that is joined to a folder is the last name of the path.
* `FilePath.ofString_text` : a path that is written out is the same path.
* `FilePath.resolve_child` : a name below a path leads to that name below the place of the path.
-/

namespace CircuitBench

namespace Path

/-! ## Slashes -/

/-- A text has at least one part. -/
theorem splitSlash_cons_exists (s : List Char) : ∃ part parts, splitSlash s = part :: parts := by
  cases s with
  | nil => exact ⟨[], [], rfl⟩
  | cons c rest =>
      rw [splitSlash]
      split
      · exact ⟨[], _, rfl⟩
      · split
        · exact ⟨[c], [], rfl⟩
        · rename_i part parts _
          exact ⟨c :: part, parts, rfl⟩

/-- A slash splits a text in two, and the parts are those of the two sides. -/
theorem splitSlash_append (a b : List Char) :
    splitSlash (a ++ '/' :: b) = splitSlash a ++ splitSlash b := by
  induction a with
  | nil => simp [splitSlash]
  | cons c rest ih =>
      by_cases hSlash : c = '/'
      · simp [splitSlash, hSlash, ih]
      · obtain ⟨part, parts, hParts⟩ := splitSlash_cons_exists rest
        rw [hParts] at ih
        simp only [List.cons_append, splitSlash, if_neg hSlash, ih, hParts]

/-- A text without slashes is its only part. -/
theorem splitSlash_of_not_mem {s : List Char} (h : '/' ∉ s) : splitSlash s = [s] := by
  induction s with
  | nil => rfl
  | cons c rest ih =>
      obtain ⟨hFirst, hRest⟩ := not_or.mp (mt List.mem_cons.mpr h)
      rw [splitSlash, if_neg (Ne.symm hFirst), ih hRest]

/-- No part holds a slash. -/
theorem not_mem_of_mem_splitSlash {s part : List Char} (h : part ∈ splitSlash s) : '/' ∉ part := by
  induction s generalizing part with
  | nil =>
      have hEmpty : part = [] := by simpa [splitSlash] using h
      simp [hEmpty]
  | cons c rest ih =>
      by_cases hSlash : c = '/'
      · rw [splitSlash, if_pos hSlash, List.mem_cons] at h
        rcases h with rfl | h
        · simp
        · exact ih h
      · obtain ⟨first, more, hParts⟩ := splitSlash_cons_exists rest
        simp only [splitSlash, if_neg hSlash, hParts, List.mem_cons] at h
        rw [hParts] at ih
        rcases h with rfl | h
        · have hFirst := ih (List.mem_cons_self (a := first))
          simp [hFirst, Ne.symm hSlash]
        · exact ih (List.mem_cons_of_mem first h)

/-! ## Names -/

/-- No name of a path holds a slash. -/
theorem not_mem_of_mem_names {path name : String} (h : name ∈ names path) : '/' ∉ name.toList := by
  obtain ⟨part, hPart, rfl⟩ := List.mem_map.mp h
  rw [String.toList_ofList]
  exact not_mem_of_mem_splitSlash hPart

theorem names_append_slash (s t : String) : names (s ++ "/" ++ t) = names s ++ names t := by
  have hChars : (s ++ "/" ++ t).toList = s.toList ++ '/' :: t.toList := by simp
  rw [names, hChars, splitSlash_append, List.map_append, names, names]

theorem names_of_not_mem {name : String} (h : '/' ∉ name.toList) : names name = [name] := by
  rw [names, splitSlash_of_not_mem h, List.map_cons, List.map_nil, String.ofList_toList]

/-- Names that are written out with slashes between them are read back. -/
theorem names_intercalate {ns : List String} (h : ∀ n ∈ ns, '/' ∉ n.toList) (hNonempty : ns ≠ []) :
    names ("/".intercalate ns) = ns := by
  induction ns with
  | nil => exact absurd rfl hNonempty
  | cons n rest ih =>
      have hFirst := names_of_not_mem (h n (by simp))
      cases rest with
      | nil => rw [String.intercalate_singleton, hFirst]
      | cons m more =>
          rw [String.intercalate_cons_cons, names_append_slash, hFirst,
            ih (fun k hk => h k (by simp [hk])) (by simp), List.singleton_append]

/-- A name that is joined to a folder is the last name of the path. -/
theorem names_join (folder : String) {name : String} (h : '/' ∉ name.toList) :
    ∃ front, names (join folder name) = front ++ [name] := by
  have hName := names_of_not_mem h
  have hRelative : isAbsolute name = false := by
    cases hChars : name.toList with
    | nil => simp [isAbsolute, hChars]
    | cons c rest =>
        have hFirst : c ≠ '/' := by
          rintro rfl
          exact h (by simp [hChars])
        simp [isAbsolute, hChars, hFirst]
  rw [join, hRelative]
  by_cases hEmpty : folder.isEmpty = true
  · rw [if_pos (.inr hEmpty)]
    exact ⟨[], by rw [hName, List.nil_append]⟩
  · rw [if_neg (by simp [hEmpty])]
    split
    · rename_i hSlash
      -- the slash at the end of the folder is the one between its names and the last
      obtain ⟨front, hFront⟩ := List.getLast?_eq_some_iff.mp hSlash
      have hChars : (folder ++ name).toList = front ++ '/' :: name.toList := by
        rw [String.toList_append, hFront, List.append_assoc, List.singleton_append]
      refine ⟨(splitSlash front).map String.ofList, ?_⟩
      rw [names, hChars, splitSlash_append, List.map_append, splitSlash_of_not_mem h,
        List.map_singleton,
        String.ofList_toList]
    · exact ⟨names folder, by rw [names_append_slash, hName]⟩

theorem slash_not_mem_append {a b : String} (ha : '/' ∉ a.toList) (hb : '/' ∉ b.toList) :
    '/' ∉ (a ++ b).toList := by
  rw [String.toList_append, List.mem_append]
  exact not_or.mpr ⟨ha, hb⟩

/-- A name with something behind it that is not a dot is plain. -/
theorem isPlain_append {lead ending : String} (hEnding : ∃ c ∈ ending.toList, c ≠ '.') :
    IsPlain (lead ++ ending) := by
  obtain ⟨c, hMem, hDot⟩ := hEnding
  have hIn : c ∈ (lead ++ ending).toList := by
    rw [String.toList_append]
    exact List.mem_append_right _ hMem
  refine ⟨?_, ?_, ?_⟩ <;> intro hSame <;> rw [hSame] at hIn
  · exact absurd hIn List.not_mem_nil
  · exact hDot (List.mem_singleton.mp hIn)
  · rcases List.mem_cons.mp hIn with hFirst | hRest
    · exact hDot hFirst
    · exact hDot (List.mem_singleton.mp hRest)

/-- Names that mean the place itself can be left out. -/
theorem follow_filter (here : Location) (ns : List String) :
    follow here (ns.filter fun n => n != "" && n != ".") = follow here ns := by
  induction ns generalizing here with
  | nil => rfl
  | cons n rest ih =>
      by_cases hStay : n = "" ∨ n = "."
      · have hStep : step here n = here := by rw [step, if_pos hStay]
        have hDropped : (n != "" && n != ".") = false := by
          rcases hStay with rfl | rfl <;> decide
        rw [List.filter_cons, hDropped, if_neg (by decide), ih, follow, follow, List.foldl_cons,
          hStep]
      · obtain ⟨hEmpty, hDot⟩ := not_or.mp hStay
        have hKept : (n != "" && n != ".") = true := by simp [hEmpty, hDot]
        have hRest := ih (step here n)
        rw [follow, follow] at hRest
        rw [List.filter_cons, hKept, if_pos rfl, follow, follow, List.foldl_cons, List.foldl_cons,
          hRest]

end Path

/-! ## Paths that are written out -/

namespace FilePath

open CircuitBench.Path

/-- Whether a path is one that a text spells: its root is none, one slash or two, and its names are
names, none of them empty or a single dot. -/
structure Spelled (p : FilePath) : Prop where
  root : p.root = "" ∨ p.root = "/" ∨ p.root = "//"
  parts : ∀ n ∈ p.parts, n ≠ "" ∧ n ≠ "." ∧ '/' ∉ n.toList

theorem spelled_ofString (path : String) : (ofString path).Spelled := by
  constructor
  · rw [ofString]
    dsimp only
    split
    · rw [rootText]
      split
      · exact .inr (.inl rfl)
      · exact .inr (.inr rfl)
      · exact .inr (.inl rfl)
    · exact .inl rfl
  · intro n hn
    rw [ofString, List.mem_filter] at hn
    obtain ⟨hMem, hKept⟩ := hn
    simp only [Bool.and_eq_true, bne_iff_ne, ne_eq] at hKept
    exact ⟨hKept.1, hKept.2, not_mem_of_mem_names hMem⟩

/-- The stem of a file has no slash in it. -/
theorem slash_not_mem_stem (source : String) :
    '/' ∉ (ofString source).stem.toList := by
  have hName : '/' ∉ (ofString source).name.toList := by
    rw [name]
    cases hLast : (ofString source).parts.getLast? with
    | none => simp
    | some n => exact ((spelled_ofString source).parts n (List.mem_of_getLast? hLast)).2.2
  rw [stem, String.toList_ofList, stemChars]
  split
  · exact hName
  · intro hMem
    exact hName (List.mem_reverse.mp (List.mem_of_mem_drop (List.mem_reverse.mp hMem)))

theorem Spelled.child {p : FilePath} (hp : p.Spelled) {n : String} (hn : IsPlain n)
    (hSlash : '/' ∉ n.toList) : (p.child n).Spelled := by
  refine ⟨hp.root, ?_⟩
  intro m hm
  rcases List.mem_append.mp hm with hm | hm
  · exact hp.parts m hm
  · rw [List.mem_singleton] at hm
    subst hm
    exact ⟨hn.1, hn.2.1, hSlash⟩

/-- The names of a path do not start with a slash when they are written out. -/
private theorem head_intercalate {ns : List String}
    (h : ∀ n ∈ ns, n ≠ "" ∧ n ≠ "." ∧ '/' ∉ n.toList) (hNonempty : ns ≠ []) :
    ∃ c rest, ("/".intercalate ns).toList = c :: rest ∧ c ≠ '/' := by
  cases ns with
  | nil => exact absurd rfl hNonempty
  | cons n more =>
      obtain ⟨hEmpty, -, hSlash⟩ := h n (by simp)
      cases hChars : n.toList with
      | nil => exact absurd (String.toList_eq_nil_iff.mp hChars) hEmpty
      | cons c rest =>
          have hFirst : c ≠ '/' := by
            rintro rfl
            exact hSlash (by simp [hChars])
          cases more with
          | nil => exact ⟨c, rest, by rw [String.intercalate_singleton, hChars], hFirst⟩
          | cons m more =>
              refine ⟨c, rest ++ ("/" ++ "/".intercalate (m :: more)).toList, ?_, hFirst⟩
              rw [String.intercalate_cons_cons, String.append_assoc, String.toList_append, hChars,
                List.cons_append]

private theorem rootText_of_one {path : String} {c : Char} {rest : List Char}
    (h : path.toList = '/' :: c :: rest) (hc : c ≠ '/') : rootText path = "/" := by
  rw [rootText, h]
  split
  · rfl
  · rename_i hEq
    cases hEq
    exact absurd rfl hc
  · rfl

private theorem rootText_of_two {path : String} {c : Char} {rest : List Char}
    (h : path.toList = '/' :: '/' :: c :: rest) (hc : c ≠ '/') : rootText path = "//" := by
  rw [rootText, h]
  split
  · rename_i hEq
    cases hEq
    exact absurd rfl hc
  · rfl
  · rename_i hNot
    exact absurd rfl (hNot (c :: rest))

/-- A path that is written out is absolute exactly when it has a root, its root is read back, and so
are its names, behind an empty one for each slash of the root. -/
theorem text_spec {p : FilePath} (hp : p.Spelled) (hNonempty : p.parts ≠ []) :
    (if isAbsolute p.text then rootText p.text else "") = p.root ∧
      ∃ count, names p.text = List.replicate count "" ++ p.parts := by
  obtain ⟨c, rest, hChars, hFirst⟩ := head_intercalate hp.parts hNonempty
  have hNames := names_intercalate (fun n hn => (hp.parts n hn).2.2) hNonempty
  have hText : p.text = p.root ++ "/".intercalate p.parts := by
    rw [text, if_neg]
    simp [hNonempty]
  rw [hText]
  rcases hp.root with hRoot | hRoot | hRoot
  · rw [hRoot, String.empty_append]
    refine ⟨?_, 0, by rw [hNames]; rfl⟩
    simp [isAbsolute, hChars, hFirst]
  · rw [hRoot]
    have hAll : ("/" ++ "/".intercalate p.parts).toList = '/' :: c :: rest := by
      rw [String.toList_append, hChars]
      rfl
    have hAbsolute : isAbsolute ("/" ++ "/".intercalate p.parts) = true := by
      rw [isAbsolute, hAll]
      rfl
    refine ⟨by rw [if_pos hAbsolute, rootText_of_one hAll hFirst], 1, ?_⟩
    have hSlash := names_append_slash "" ("/".intercalate p.parts)
    rw [String.empty_append, hNames] at hSlash
    rw [hSlash]
    rfl
  · rw [hRoot]
    have hAll : ("//" ++ "/".intercalate p.parts).toList = '/' :: '/' :: c :: rest := by
      rw [String.toList_append, hChars]
      rfl
    have hAbsolute : isAbsolute ("//" ++ "/".intercalate p.parts) = true := by
      rw [isAbsolute, hAll]
      rfl
    refine ⟨by rw [if_pos hAbsolute, rootText_of_two hAll hFirst], 2, ?_⟩
    have hSlash := names_append_slash "/" ("/".intercalate p.parts)
    rw [hNames] at hSlash
    rw [show "//" ++ "/".intercalate p.parts = "/" ++ "/" ++ "/".intercalate p.parts from rfl,
      hSlash]
    rfl

/-- A path that is written out is the same path. -/
theorem ofString_text {p : FilePath} (hp : p.Spelled) (hNonempty : p.parts ≠ []) :
    ofString p.text = p := by
  obtain ⟨hRoot, count, hNames⟩ := text_spec hp hNonempty
  have hDots : (List.replicate count "").filter (fun n => n != "" && n != ".") = [] := by
    rw [List.filter_eq_nil_iff]
    intro n hn
    rw [List.eq_of_mem_replicate hn]
    decide
  have hParts : p.parts.filter (fun n => n != "" && n != ".") = p.parts := by
    rw [List.filter_eq_self]
    intro n hn
    obtain ⟨hEmpty, hDot, -⟩ := hp.parts n hn
    simp [hEmpty, hDot]
  rw [ofString, hRoot, hNames, List.filter_append, hDots, hParts, List.nil_append]

/-- So is one that ends with a name that was added to it. -/
theorem ofString_child {p : FilePath} (hp : p.Spelled) {n : String} (hn : IsPlain n)
    (hSlash : '/' ∉ n.toList) : ofString (p.child n).text = p.child n :=
  ofString_text (hp.child hn hSlash) (by simp [child])

/-- A path to which a plain name was joined has names. -/
theorem parts_ofString_join (folder : String) {name : String} (hn : IsPlain name)
    (hSlash : '/' ∉ name.toList) : (ofString (join folder name)).parts ≠ [] := by
  obtain ⟨front, hNames⟩ := names_join folder hSlash
  have hMem : name ∈ (ofString (join folder name)).parts := by
    rw [ofString, hNames, List.mem_filter]
    exact ⟨List.mem_append_right _ (List.mem_singleton.mpr rfl), by simp [hn.1, hn.2.1]⟩
  exact List.ne_nil_of_mem hMem

/-- A name that is added to an absolute path makes an absolute one. -/
theorem isAbsolute_child {path n : String} (hAbsolute : isAbsolute path = true) (hn : IsPlain n)
    (hSlash : '/' ∉ n.toList) : isAbsolute ((ofString path).child n).text = true := by
  obtain ⟨hRoot, -⟩ := text_spec ((spelled_ofString path).child hn hSlash) (by simp [child])
  refine Classical.byContradiction fun hNot => ?_
  have hNone : "" = rootText path := by rwa [if_neg hNot, child, ofString, if_pos hAbsolute] at hRoot
  rw [rootText] at hNone
  split at hNone <;> exact absurd hNone (by decide)

/-- A path leads where its names lead, from the root if it has one. -/
theorem resolve_text (current : Location) {p : FilePath} (hp : p.Spelled)
    (hNonempty : p.parts ≠ []) :
    resolve current p.text = follow (if p.root = "" then current else []) p.parts := by
  have hSame := ofString_text hp hNonempty
  have hRoot := congrArg root hSame
  have hParts := congrArg parts hSame
  simp only [ofString] at hRoot hParts
  rw [resolve, ← follow_filter, hParts]
  by_cases hAbsolute : isAbsolute p.text = true
  · rw [if_pos hAbsolute] at hRoot ⊢
    have hSlash : p.root ≠ "" := by
      rw [← hRoot, rootText]
      split <;> decide
    rw [if_neg hSlash]
  · rw [if_neg hAbsolute] at hRoot ⊢
    rw [if_pos hRoot.symm]

/-- A path is followed from the root exactly when it has one. -/
theorem start_ofString (current : Location) (path : String) :
    (if (ofString path).root = "" then current else []) =
      if isAbsolute path then [] else current := by
  rw [ofString]
  dsimp only
  split
  · have hSlash : rootText path ≠ "" := by
      rw [rootText]
      split <;> decide
    rw [if_neg hSlash]
  · rw [if_pos rfl]

/-- A path leads where its names lead, however it was spelled. -/
theorem resolve_ofString (current : Location) (path : String) :
    resolve current path =
      follow (if (ofString path).root = "" then current else []) (ofString path).parts := by
  rw [start_ofString, resolve, ofString]
  dsimp only
  rw [follow_filter]

/-- A name below a path leads to that name below the place of the path. -/
theorem resolve_child (current : Location) (path : String) {n : String} (hn : IsPlain n)
    (hSlash : '/' ∉ n.toList) :
    resolve current ((ofString path).child n).text = resolve current path ++ [n] := by
  have hSpelled := (spelled_ofString path).child hn hSlash
  rw [resolve_text current hSpelled (by simp [child]), resolve_ofString current path]
  simp only [child]
  have hLast : ∀ here : Location, follow here [n] = here ++ [n] := fun here => step_plain hn here
  rw [follow_append, hLast]
  rfl

end FilePath

end CircuitBench
