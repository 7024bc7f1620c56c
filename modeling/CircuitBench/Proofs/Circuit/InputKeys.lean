import CircuitBench.Proofs.Circuit.StrictCheck
import CircuitBench.Proofs.Signal.Elements

/-!
# What the strict check sees of the keys

The strict check compares sets of names.  Two things are lost when the entries of an assignment are
made into such a set.

An element may be named by more than one entry: the same signal is spelled with and without the main
component in front, or an array is given next to one of its elements.  The set holds the name once,
so an accepted assignment gives an input at least one value, and as many as there are entries that
name it.  One value is what it gives if no key, qualified, spells the signal of another key or an
element of it.

An entry without a leaf names nothing: an empty list under any key, and any row without elements
inside a value, is not seen at all.  Every other entry of an accepted assignment names inputs only,
and so does every row of it.

## Main results

* `providedNames_of_texts` : the provided names, entry by entry.
* `count_flatMap_namesOf` : a name is provided as often as there are entries that name it.
* `keysMeet_of_common_name` : entries with a common name, by their keys.
* `Session.strictCheck_counts` : how many values an accepted assignment gives an input.
* `Session.strictCheck_rows` : rows with a leaf are seen, entries without one are not.
-/

namespace CircuitBench

open Signal

/-! ## The names of an entry -/

/-- The names that an entry of an assignment gives values to, none if its key is no text. -/
def namesOf (e : Value × Value) : List String :=
  match e.1.text? with
  | some key => (flatten (qualify key) e.2).map Prod.fst
  | none => []

theorem namesOf_of_text {e : Value × Value} {key : String} (h : e.1.text? = some key) :
    namesOf e = (flatten (qualify key) e.2).map Prod.fst := by
  rw [namesOf, h]

theorem givesName_iff (entries : List (Value × Value)) (name : String) :
    GivesName entries name ↔ ∃ e ∈ entries, name ∈ namesOf e := by
  constructor
  · rintro ⟨e, he, key, hKey, hName⟩
    exact ⟨e, he, by rwa [namesOf_of_text hKey]⟩
  · rintro ⟨e, he, hName⟩
    cases hKey : e.1.text? with
    | none =>
        rw [namesOf, hKey] at hName
        cases hName
    | some key =>
        rw [namesOf_of_text hKey] at hName
        exact ⟨e, he, key, hKey, hName⟩

/-- With texts as keys, the provided names are those of the entries, in order. -/
theorem providedNames_of_texts {entries : List (Value × Value)}
    (hKeys : ∀ e ∈ entries, e.1.text? ≠ none) :
    providedNames entries = .ok (entries.flatMap namesOf) := by
  induction entries with
  | nil => rfl
  | cons e rest ih =>
      obtain ⟨key, hKey⟩ := Option.ne_none_iff_exists'.mp (hKeys e (by simp))
      have hQualified := (qualifyValue_eq_ok_iff e.1 (qualify key)).mpr ⟨key, hKey, rfl⟩
      have hRest := ih fun e' he' => hKeys e' (by simp [he'])
      simp only [providedNames, bind, Except.bind, hQualified, hRest, List.flatMap_cons,
        namesOf_of_text hKey]
      rfl

/-- An entry names nothing twice. -/
theorem nodup_namesOf (e : Value × Value) : (namesOf e).Nodup := by
  unfold namesOf
  split
  · exact nodup_names_flatten _ _
  · exact List.nodup_nil

/-- A name is provided as often as there are entries that name it. -/
theorem count_flatMap_namesOf (entries : List (Value × Value)) (name : String) :
    (entries.flatMap namesOf).count name =
      entries.countP fun e => (namesOf e).contains name := by
  induction entries with
  | nil => rfl
  | cons e rest ih =>
      rw [List.flatMap_cons, List.count_append, List.countP_cons, ih, (nodup_namesOf e).count,
        Nat.add_comm]
      simp only [List.contains_iff_mem]

/-! ## Keys that meet -/

/-- Whether two keys can name an element in common: one of them, qualified, spells the signal of the
other or an element of it. -/
def KeysMeet (a b : Value) : Prop :=
  ∃ s t, a.text? = some s ∧ b.text? = some t ∧
    ∃ way, qualify s = elementAt (qualify t) way ∨ qualify t = elementAt (qualify s) way

/-- Entries that name an element in common have keys that meet. -/
theorem keysMeet_of_common_name {e e' : Value × Value} {name : String} (h : name ∈ namesOf e)
    (h' : name ∈ namesOf e') : KeysMeet e.1 e'.1 := by
  unfold namesOf at h h'
  split at h
  · rename_i s hs
    split at h'
    · rename_i t ht
      rw [names_flatten, List.mem_map] at h h'
      obtain ⟨is, -, rfl⟩ := h
      obtain ⟨js, -, hSame⟩ := h'
      refine ⟨s, t, hs, ht, ?_⟩
      rcases elementAt_eq_elementAt hSame.symm with ⟨way, -, hName⟩ | ⟨way, -, hName⟩
      · exact ⟨way, .inl hName⟩
      · exact ⟨way, .inr hName⟩
    · cases h'
  · cases h

/-! ## Rows -/

/-- Whether an entry has a leaf, at any depth of its value. -/
def hasLeaf (e : Value × Value) : Bool :=
  !(leaves e.2).isEmpty

/-- An entry without a leaf names nothing. -/
theorem namesOf_of_no_leaf {e : Value × Value} (h : hasLeaf e = false) : namesOf e = [] := by
  have hLeaves : leaves e.2 = [] := by simpa [hasLeaf] using h
  unfold namesOf
  split
  · rename_i key _
    have hLength := length_flatten (qualify key) e.2
    rw [hLeaves, List.length_nil] at hLength
    rw [List.length_eq_zero_iff.mp hLength, List.map_nil]
  · rfl

/-- Entries without a leaf add nothing to the provided names. -/
theorem flatMap_namesOf_filter (entries : List (Value × Value)) :
    (entries.filter hasLeaf).flatMap namesOf = entries.flatMap namesOf := by
  induction entries with
  | nil => rfl
  | cons e rest ih =>
      cases hLeaf : hasLeaf e with
      | true => rw [List.filter_cons_of_pos hLeaf, List.flatMap_cons, List.flatMap_cons, ih]
      | false =>
          rw [List.filter_cons_of_neg (by simp [hLeaf]), List.flatMap_cons,
            namesOf_of_no_leaf hLeaf, List.nil_append, ih]

/-- A row of an entry names what the entry names, and something if it has a leaf. -/
theorem names_of_row {e : Value × Value} {key : String} (hKey : e.1.text? = some key)
    {r : List Nat × Value} (hRow : r ∈ rows e.2) (hLeaf : leaves r.2 ≠ []) :
    let names := (flatten (elementAt (qualify key) r.1) r.2).map Prod.fst
    names ≠ [] ∧ ∀ name ∈ names, name ∈ namesOf e := by
  constructor
  · intro hNone
    have hLength := length_flatten (elementAt (qualify key) r.1) r.2
    rw [List.map_eq_nil_iff.mp hNone, List.length_nil] at hLength
    exact hLeaf (List.length_eq_zero_iff.mp hLength.symm)
  · intro name hName
    rw [namesOf_of_text hKey]
    exact ((sublist_flatten_of_mem_rows hRow).map Prod.fst).subset hName

/-! ## A circuit with two inputs -/

/-- The signals of a circuit that multiplies: its output and two inputs. -/
def productSymbols : SymbolTable :=
  [("main.c", ⟨1, 1, 0⟩), ("main.a", ⟨2, 2, 0⟩), ("main.b", ⟨3, 3, 0⟩)]

/-- The header of a circuit that multiplies, over a small field. -/
def productHeader : ConstraintHeader :=
  { prime := 7, elementSize := 8, wires := 4, outputs := 1, publicInputs := 0, privateInputs := 2,
    labels := 4, constraintCount := 1 }

theorem isMainInput_product (name : String) :
    IsMainInput productSymbols productHeader name ↔ name ∈ ["main.a", "main.b"] := by
  have hOwn : productSymbols.ownSignals 2 4 = [(2, "main.a"), (3, "main.b")] := by
    decide +kernel
  rw [← mem_expectedNames, show expectedNames productSymbols productHeader =
    ((productSymbols.ownSignals 2 4).mergeSort SymbolTable.wireOrder).map Prod.snd from rfl, hOwn]
  exact ((List.mergeSort_perm _ _).map Prod.snd).mem_iff

/-- The circuit that multiplies accepts an assignment of which the names are those of its two
inputs. -/
theorem checkInputs_product {entries : List (Value × Value)} {provided : List String}
    (hProvided : providedNames entries = .ok provided)
    (hSame : ∀ name, name ∈ provided ↔ name ∈ ["main.a", "main.b"]) :
    checkInputs productSymbols productHeader (.table entries) = .ok () := by
  rw [checkInputs_eq_ok_iff]
  obtain ⟨hTexts, hGives⟩ := providedNames_eq_ok hProvided
  refine ⟨entries, rfl, hTexts, fun name => ?_⟩
  rw [← hGives, isMainInput_product]
  exact hSame name

/-! ## Circuits -/

namespace Session

variable {s s' : Session} {symbols : SymbolTable} {system : ConstraintSystem}
  {entries : List (Value × Value)}

/-- An accepted assignment has texts as keys, and its names are those of the inputs. -/
theorem names_of_accepted (hLoad : loadSymbols s = .ok symbols s')
    (hAccepted : strictCheck true system (.table entries) s = .ok () s') :
    (∀ e ∈ entries, e.1.text? ≠ none) ∧
      ∀ name, name ∈ entries.flatMap namesOf ↔
        IsMainInput symbols system.toConstraintHeader name := by
  rw [strictCheck_eq_ok_iff hLoad, checkInputs_eq_ok_iff] at hAccepted
  obtain ⟨entries', hItems, hKeys, hSame⟩ := hAccepted
  cases hItems
  refine ⟨hKeys, fun name => ?_⟩
  rw [← hSame, givesName_iff, List.mem_flatMap]

/-- An assignment that the strict check accepts gives every input at least one value, and as many as
there are entries that name it.  It gives every input just one value exactly when no two entries
have a name in common, and this is so when no two keys meet. -/
theorem strictCheck_counts (hLoad : loadSymbols s = .ok symbols s')
    (hAccepted : strictCheck true system (.table entries) s = .ok () s') :
    ∃ provided, providedNames entries = .ok provided ∧
      (∀ name, 1 ≤ provided.count name ↔
        IsMainInput symbols system.toConstraintHeader name) ∧
      (∀ name, provided.count name = entries.countP fun e => (namesOf e).contains name) ∧
      ((∀ name, IsMainInput symbols system.toConstraintHeader name → provided.count name = 1) ↔
        entries.Pairwise fun e e' => (namesOf e).Disjoint (namesOf e')) ∧
      (entries.Pairwise (fun e e' => ¬ KeysMeet e.1 e'.1) →
        ∀ name, IsMainInput symbols system.toConstraintHeader name → provided.count name = 1) := by
  obtain ⟨hKeys, hNames⟩ := names_of_accepted hLoad hAccepted
  have hOnce : (∀ name, IsMainInput symbols system.toConstraintHeader name →
      (entries.flatMap namesOf).count name = 1) ↔
        entries.Pairwise fun e e' => (namesOf e).Disjoint (namesOf e') := by
    have hNodup : (entries.flatMap namesOf).Nodup ↔
        entries.Pairwise fun e e' => (namesOf e).Disjoint (namesOf e') := by
      rw [List.nodup_flatMap]
      exact and_iff_right fun e _ => nodup_namesOf e
    rw [← hNodup]
    constructor
    · intro h
      rw [List.nodup_iff_count_le_one]
      intro name
      by_cases hName : name ∈ entries.flatMap namesOf
      · exact Nat.le_of_eq (h name ((hNames name).mp hName))
      · rw [List.count_eq_zero_of_not_mem hName]
        exact Nat.zero_le 1
    · intro h name hName
      exact List.count_eq_one_of_mem h ((hNames name).mpr hName)
  refine ⟨entries.flatMap namesOf, providedNames_of_texts hKeys, ?_,
    count_flatMap_namesOf entries, hOnce, ?_⟩
  · intro name
    rw [← hNames, ← List.count_pos_iff]
    exact Iff.rfl
  · intro hApart
    refine hOnce.mpr (hApart.imp ?_)
    intro e e' hNot name hName hName'
    exact hNot (keysMeet_of_common_name hName hName')

/-- An input that is named with and without the main component in front is given two values. -/
theorem strictCheck_counts_twice :
    let s : Session :=
      ⟨{}, { Circuit.ofPaths "m.circom" "out" .null false with symbols := some productSymbols }⟩
    let entries : List (Value × Value) :=
      [(.text "a", .int 3), (.text "b", .int 4), (.text "main.a", .int 5)]
    strictCheck true ⟨productHeader, []⟩ (.table entries) s = .ok () s ∧
      ∃ provided, providedNames entries = .ok provided ∧ provided.count "main.a" = 2 ∧
        provided.count "main.b" = 1 := by
  intro s entries
  have hLoad : loadSymbols s = .ok productSymbols s := loadSymbols_of_some rfl
  have hProvided : providedNames entries = .ok ["main.a", "main.b", "main.a"] := by
    apply Except.eq_ok_of_toOption
    decide +kernel
  have hAccepted : strictCheck true ⟨productHeader, []⟩ (.table entries) s = .ok () s := by
    rw [strictCheck_eq_ok_iff hLoad]
    refine checkInputs_product hProvided fun name => ?_
    simp only [List.mem_cons, List.not_mem_nil, or_false]
    tauto
  obtain ⟨provided, hNames, -, hCount, -⟩ := strictCheck_counts hLoad hAccepted
  refine ⟨hAccepted, provided, hNames, ?_, ?_⟩
  · rw [hCount]
    decide +kernel
  · rw [hCount]
    decide +kernel

/-- An accepted assignment need not give an input one value only, even if no two of its keys are the
same. -/
theorem input_given_twice :
    ¬ ∀ (symbols : SymbolTable) (header : ConstraintHeader) (entries : List (Value × Value)),
      symbols.names.Nodup → (entries.map fun e => e.1.text?).Nodup →
      checkInputs symbols header (.table entries) = .ok () →
      ∀ provided, providedNames entries = .ok provided →
        ∀ name, IsMainInput symbols header name → provided.count name = 1 := by
  intro h
  have hProvided : providedNames
      [(.text "a", .int 3), (.text "b", .int 4), (.text "main.a", .int 5)] =
        .ok ["main.a", "main.b", "main.a"] := by
    apply Except.eq_ok_of_toOption
    decide +kernel
  have hAccepted := checkInputs_product hProvided fun name => by
    simp only [List.mem_cons, List.not_mem_nil, or_false]
    tauto
  have hInput := (isMainInput_product "main.a").mpr (by simp)
  have hOnce := h _ _ _ (by decide) (by decide) hAccepted _ hProvided _ hInput
  revert hOnce
  decide

/-- In an accepted assignment, every row with a leaf names inputs of the main component and nothing
else.  A row with a leaf that names no input has the assignment refused, with all the names of the
row in the report.  An entry without a leaf makes no difference. -/
theorem strictCheck_rows (hLoad : loadSymbols s = .ok symbols s')
    (hKeys : ∀ e ∈ entries, e.1.text? ≠ none) (system : ConstraintSystem) :
    (strictCheck true system (.table entries) s = .ok () s' →
      ∀ e ∈ entries, ∀ key, e.1.text? = some key → ∀ r ∈ rows e.2, leaves r.2 ≠ [] →
        let names := (flatten (elementAt (qualify key) r.1) r.2).map Prod.fst
        names ≠ [] ∧ ∀ name ∈ names, IsMainInput symbols system.toConstraintHeader name) ∧
    (∀ e ∈ entries, ∀ key, e.1.text? = some key → ∀ r ∈ rows e.2, leaves r.2 ≠ [] →
      let names := (flatten (elementAt (qualify key) r.1) r.2).map Prod.fst
      (∀ name ∈ names, ¬ IsMainInput symbols system.toConstraintHeader name) →
      ∃ unknown, strictCheck true system (.table entries) s =
          .error (.circuit (.witness (.unknownInputs unknown) none)) s' ∧
        ∀ name ∈ names, name ∈ unknown) ∧
    strictCheck true system (.table (entries.filter hasLeaf)) s =
      strictCheck true system (.table entries) s := by
  have hProvided := providedNames_of_texts hKeys
  refine ⟨?_, ?_, ?_⟩
  · intro hAccepted e he key hKey r hRow hLeaf
    obtain ⟨hSome, hNames⟩ := names_of_row hKey hRow hLeaf
    refine ⟨hSome, fun name hName => ?_⟩
    rw [← (names_of_accepted hLoad hAccepted).2, List.mem_flatMap]
    exact ⟨e, he, hNames name hName⟩
  · intro e he key hKey r hRow hLeaf names hNone
    obtain ⟨hSome, hNames⟩ := names_of_row hKey hRow hLeaf
    have hUnknown : ∀ name ∈ names, name ∈ unknownNames
        (expectedNames symbols system.toConstraintHeader) (entries.flatMap namesOf) := by
      intro name hName
      rw [mem_unknownNames, mem_expectedNames, List.mem_flatMap]
      exact ⟨⟨e, he, hNames name hName⟩, hNone name hName⟩
    obtain ⟨name, hName⟩ := List.exists_mem_of_ne_nil names hSome
    refine ⟨_, ?_, hUnknown⟩
    rw [strictCheck_of_load hLoad, checkInputs_table hProvided, checkNames,
      if_pos (List.ne_nil_of_mem (hUnknown name hName))]
    rfl
  · have hFiltered : providedNames (entries.filter hasLeaf) =
        .ok ((entries.filter hasLeaf).flatMap namesOf) :=
      providedNames_of_texts fun e he => hKeys e (List.mem_filter.mp he).1
    rw [strictCheck_of_load hLoad, strictCheck_of_load hLoad, checkInputs_table hFiltered,
      checkInputs_table hProvided, flatMap_namesOf_filter]

/-- An empty list under a key that names no input is accepted, a row with a leaf under it is not. -/
theorem strictCheck_rows_product :
    let s : Session :=
      ⟨{}, { Circuit.ofPaths "m.circom" "out" .null false with symbols := some productSymbols }⟩
    let known : List (Value × Value) := [(.text "a", .int 3), (.text "b", .int 4)]
    strictCheck true ⟨productHeader, []⟩ (.table (known ++ [(.text "zzz", .list [])])) s =
        .ok () s ∧
      ∃ unknown, strictCheck true ⟨productHeader, []⟩
          (.table (known ++ [(.text "zzz", .list [.list [], .list [.int 1]])])) s =
            .error (.circuit (.witness (.unknownInputs unknown) none)) s ∧
        "main.zzz[1][0]" ∈ unknown := by
  intro s known
  have hLoad : loadSymbols s = .ok productSymbols s := loadSymbols_of_some rfl
  constructor
  · have hProvided : providedNames known = .ok ["main.a", "main.b"] := by
      apply Except.eq_ok_of_toOption
      decide +kernel
    have hAccepted : strictCheck true ⟨productHeader, []⟩ (.table known) s = .ok () s := by
      rw [strictCheck_eq_ok_iff hLoad]
      exact checkInputs_product hProvided fun name => Iff.rfl
    have hKeys : ∀ e ∈ known ++ [(.text "zzz", .list [])], e.1.text? ≠ none := by
      decide
    have hRows := strictCheck_rows hLoad hKeys ⟨productHeader, []⟩
    rw [← hRows.2.2]
    exact hAccepted
  · have hKeys : ∀ e ∈ known ++ [(.text "zzz", .list [.list [], .list [.int 1]])],
        e.1.text? ≠ none := by
      decide
    have hRows := strictCheck_rows hLoad hKeys ⟨productHeader, []⟩
    have hNames : (flatten (elementAt (qualify "zzz") [1]) (.list [.int 1])).map Prod.fst =
        ["main.zzz[1][0]"] := by
      decide +kernel
    obtain ⟨unknown, hRefused, hReported⟩ := hRows.2.1
      (.text "zzz", .list [.list [], .list [.int 1]]) (by simp) "zzz" rfl
      ([1], .list [.int 1]) (by simp [rows, Signal.rowsFrom]) (by decide) (by
        intro name hName hInput
        rw [hNames, List.mem_singleton] at hName
        rw [hName, isMainInput_product] at hInput
        revert hInput
        decide)
    exact ⟨unknown, hRefused, hReported "main.zzz[1][0]" (by rw [hNames]; simp)⟩

/-- A key of an accepted assignment need not name an input. -/
theorem unknown_key_accepted :
    ¬ ∀ (symbols : SymbolTable) (header : ConstraintHeader) (entries : List (Value × Value)),
      symbols.names.Nodup → (entries.map fun e => e.1.text?).Nodup →
      checkInputs symbols header (.table entries) = .ok () →
      ∀ e ∈ entries, ∀ key, e.1.text? = some key →
        ∃ name ∈ (flatten (qualify key) e.2).map Prod.fst, IsMainInput symbols header name := by
  intro h
  have hProvided : providedNames
      [(.text "a", .int 3), (.text "b", .int 4), (.text "zzz", .list [])] =
        .ok ["main.a", "main.b"] := by
    apply Except.eq_ok_of_toOption
    decide +kernel
  have hAccepted := checkInputs_product hProvided fun name => Iff.rfl
  obtain ⟨name, hName, -⟩ := h _ _ _ (by decide) (by decide) hAccepted
    (.text "zzz", .list []) (by simp) "zzz" rfl
  cases hName

end Session

end CircuitBench
