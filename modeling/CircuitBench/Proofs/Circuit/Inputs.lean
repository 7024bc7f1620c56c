import CircuitBench.Circuit.Inputs

/-!
# What the strict check accepts

The strict check compares two lists of names, one spread out of an assignment and one sorted out of
the symbols.  Neither the spreading nor the sorting matters for what is accepted: an assignment
passes exactly when the names that its entries give values to are, as a set, the names of the main
component's own signals on the input wires.

## Main results

* `mem_expectedNames` : the expected names are those of the main component's inputs.
* `checkInputs_eq_ok_iff` : an assignment is accepted exactly when it names the inputs.
-/

namespace CircuitBench

open Signal

/-- Whether the entries of an assignment give a value to a name: one of them does, under its key as
it is qualified and with the indices of an element of its value. -/
def GivesName (entries : List (Value × Value)) (name : String) : Prop :=
  ∃ e ∈ entries, ∃ key, e.1.text? = some key ∧ name ∈ (flatten (qualify key) e.2).map Prod.fst

/-- Whether a name is that of an input of the main component: of a signal of its own on an input
wire. -/
def IsMainInput (symbols : SymbolTable) (header : ConstraintHeader) (name : String) : Prop :=
  ∃ symbol, (name, symbol) ∈ symbols ∧ isOwn name = true ∧
    header.firstInput ≤ symbol.wire ∧ symbol.wire < header.endInput

/-! ## Expected names -/

/-- The names of own signals on a range of wires, whatever order they are in. -/
theorem SymbolTable.mem_inputSignals (t : SymbolTable) (first last : Int) (name : String) :
    name ∈ t.inputSignals first last ↔
      ∃ symbol, (name, symbol) ∈ t ∧ isOwn name = true ∧ first ≤ symbol.wire ∧
        symbol.wire < last := by
  rw [inputSignals, List.mem_map]
  constructor
  · rintro ⟨⟨wire, n⟩, hSorted, rfl⟩
    rw [List.mem_mergeSort, ownSignals, List.mem_map] at hSorted
    obtain ⟨⟨n', symbol⟩, hKept, hPair⟩ := hSorted
    cases hPair
    rw [List.mem_filter] at hKept
    obtain ⟨hMem, hRange⟩ := hKept
    simp only [inRange, Bool.and_eq_true, decide_eq_true_eq] at hRange
    obtain ⟨⟨hFirst, hLast⟩, hOwn⟩ := hRange
    exact ⟨symbol, hMem, hOwn, hFirst, hLast⟩
  · rintro ⟨symbol, hMem, hOwn, hFirst, hLast⟩
    refine ⟨(symbol.wire, name), ?_, rfl⟩
    rw [List.mem_mergeSort, ownSignals, List.mem_map]
    refine ⟨(name, symbol), ?_, rfl⟩
    rw [List.mem_filter]
    exact ⟨hMem, by simp [inRange, hOwn, hFirst, hLast]⟩

theorem mem_expectedNames (symbols : SymbolTable) (header : ConstraintHeader) (name : String) :
    name ∈ expectedNames symbols header ↔ IsMainInput symbols header name :=
  symbols.mem_inputSignals header.firstInput header.endInput name

/-! ## Provided names -/

/-- A key can be qualified exactly when it is a text. -/
theorem qualifyValue_eq_ok_iff (key : Value) (name : String) :
    qualifyValue key = .ok name ↔ ∃ text, key.text? = some text ∧ name = qualify text := by
  unfold qualifyValue Value.text?
  split <;> simp [eq_comm]

/-- The names that are provided are those that the entries give values to; there are any only if
every key is a text. -/
theorem providedNames_eq_ok {entries : List (Value × Value)} {provided : List String}
    (h : providedNames entries = .ok provided) :
    (∀ e ∈ entries, e.1.text? ≠ none) ∧ ∀ name, name ∈ provided ↔ GivesName entries name := by
  induction entries generalizing provided with
  | nil =>
      cases h
      simp [GivesName]
  | cons e rest ih =>
      simp only [providedNames, bind, Except.bind] at h
      split at h
      · cases h
      · rename_i qualified hKey
        split at h
        · cases h
        · rename_i more hMore
          cases h
          obtain ⟨text, hText, rfl⟩ := (qualifyValue_eq_ok_iff _ _).mp hKey
          obtain ⟨hTexts, hNames⟩ := ih hMore
          constructor
          · intro e' he'
            rcases List.mem_cons.mp he' with rfl | he'
            · rw [hText]
              simp
            · exact hTexts e' he'
          · intro name
            rw [List.mem_append, hNames]
            constructor
            · rintro (hFirst | ⟨e', he', hGives⟩)
              · exact ⟨e, by simp, text, hText, hFirst⟩
              · exact ⟨e', by simp [he'], hGives⟩
            · rintro ⟨e', he', key, hKey', hGives⟩
              rcases List.mem_cons.mp he' with rfl | he'
              · rw [hText] at hKey'
                cases hKey'
                exact .inl hGives
              · exact .inr ⟨e', he', key, hKey', hGives⟩

/-- Names are provided whenever every key is a text. -/
theorem providedNames_exists {entries : List (Value × Value)}
    (h : ∀ e ∈ entries, e.1.text? ≠ none) :
    ∃ provided, providedNames entries = .ok provided := by
  induction entries with
  | nil => exact ⟨[], rfl⟩
  | cons e rest ih =>
      obtain ⟨more, hMore⟩ := ih fun e' he' => h e' (by simp [he'])
      obtain ⟨text, hText⟩ := Option.ne_none_iff_exists'.mp (h e (by simp))
      have hKey := (qualifyValue_eq_ok_iff e.1 (qualify text)).mpr ⟨text, hText, rfl⟩
      refine ⟨(flatten (qualify text) e.2).map Prod.fst ++ more, ?_⟩
      simp only [providedNames, bind, Except.bind, hKey, hMore]
      rfl

/-! ## The check -/

/-- An assignment is accepted exactly when its keys are texts and the names that it gives values to
are those of the main component's inputs. -/
theorem checkInputs_eq_ok_iff (symbols : SymbolTable) (header : ConstraintHeader) (inputs : Value) :
    checkInputs symbols header inputs = .ok () ↔
      ∃ entries, inputs.items = .ok entries ∧ (∀ e ∈ entries, e.1.text? ≠ none) ∧
        ∀ name, GivesName entries name ↔ IsMainInput symbols header name := by
  simp only [checkInputs, bind, Except.bind]
  constructor
  · intro h
    split at h
    · cases h
    · rename_i entries hItems
      split at h
      · cases h
      · rename_i provided hProvided
        obtain ⟨hTexts, hNames⟩ := providedNames_eq_ok hProvided
        split at h
        · rename_i hChecked
          refine ⟨entries, hItems, hTexts, ?_⟩
          intro name
          rw [← hNames, ← mem_expectedNames]
          exact (checkNames_ok_iff _ _).mp hChecked name
        · cases h
  · rintro ⟨entries, hItems, hTexts, hSame⟩
    obtain ⟨provided, hProvided⟩ := providedNames_exists hTexts
    obtain ⟨-, hNames⟩ := providedNames_eq_ok hProvided
    have hChecked : checkNames (expectedNames symbols header) provided = .ok () := by
      rw [checkNames_ok_iff]
      intro name
      rw [hNames, mem_expectedNames, hSame]
    simp only [hItems, hProvided, hChecked]

end CircuitBench
