import CircuitBench.Circuit.Witness
import CircuitBench.Proofs.Bench.Preserved
import CircuitBench.Proofs.Circuit.Inputs
import CircuitBench.Proofs.Text.Order

/-!
# The strict check is exact

The strict check accepts an assignment exactly when the names that it gives values to are, as a set,
the names of the main component's inputs.  Any other one is refused with a list of names.  Names
that are no inputs go first: if there are any, they are listed in the order of texts, each once.
Otherwise some inputs are not named, and these are listed in the order of their wires, and on one
wire in the order of texts.

Both lists are determined by what is in them, since the two orders are strict.  So the outcome does
not depend on the order in which the entries of the assignment stand, or the signals of the symbol
table.

## Main results

* `Reports` : what the strict check has to say of an assignment that it refuses.
* `checkNames_congr` : only the set of provided names matters.
* `expectedNames_perm` : the order of a symbol table does not matter.
* `Session.strictCheck_exact` : the strict check of a circuit accepts the right assignments, reports
  what there is to report of the others, and does not depend on any order.
-/

namespace CircuitBench

open Signal Text

/-! ## Sorted names -/

/-- Removing repetitions leaves each member once. -/
private theorem nodup_eraseDups (names : List String) : names.eraseDups.Nodup := by
  -- what follows a member is cleared of it first, so the recursion is on the length
  induction hLength : names.length using Nat.strongRecOn generalizing names with
  | ind n ih =>
      cases names with
      | nil => simp
      | cons name rest =>
          rw [List.eraseDups_cons, List.nodup_cons]
          constructor
          · rw [List.mem_eraseDups]
            simp
          · have hShorter := List.length_filter_le (fun other => !other == name) rest
            rw [List.length_cons] at hLength
            exact ih _ (by omega) _ rfl

theorem mem_unknownNames (expected provided : List String) (name : String) :
    name ∈ unknownNames expected provided ↔ name ∈ provided ∧ name ∉ expected := by
  simp [unknownNames, List.mem_eraseDups]

/-- Unknown names are in the order of texts, and each is there once. -/
theorem pairwise_unknownNames (expected provided : List String) :
    (unknownNames expected provided).Pairwise fun a b => comesBefore a b = true := by
  let kept := (provided.filter fun name => !expected.contains name).eraseDups
  have hSorted : (kept.mergeSort nameOrder).Pairwise fun a b => nameOrder a b = true :=
    List.pairwise_mergeSort comesNoLater_trans comesNoLater_total kept
  have hNodup : (kept.mergeSort nameOrder).Pairwise (· ≠ ·) :=
    (List.mergeSort_perm kept nameOrder).nodup_iff.mpr (nodup_eraseDups _)
  show (kept.mergeSort nameOrder).Pairwise _
  exact (hSorted.and hNodup).imp fun ⟨hNoLater, hne⟩ => comesBefore_of_comesNoLater hNoLater hne

/-- Unknown names depend on the sets of names alone. -/
theorem unknownNames_congr {expected provided provided' : List String}
    (h : ∀ name, name ∈ provided ↔ name ∈ provided') :
    unknownNames expected provided = unknownNames expected provided' := by
  have hPerm : (provided.filter fun name => !expected.contains name).eraseDups.Perm
      (provided'.filter fun name => !expected.contains name).eraseDups := by
    rw [List.perm_ext_iff_of_nodup (nodup_eraseDups _) (nodup_eraseDups _)]
    intro name
    simp [List.mem_eraseDups, h]
  exact mergeSort_eq_of_perm comesNoLater_trans comesNoLater_total
    (fun _ _ _ _ => comesNoLater_antisymm) hPerm

/-- Missing names depend on the set of provided names alone. -/
theorem missingNames_congr {expected provided provided' : List String}
    (h : ∀ name, name ∈ provided ↔ name ∈ provided') :
    missingNames expected provided = missingNames expected provided' := by
  unfold missingNames
  refine List.filter_congr fun name _ => ?_
  have hContains : provided.contains name = provided'.contains name := by
    rw [Bool.eq_iff_iff, List.contains_iff_mem, List.contains_iff_mem, h]
  rw [hContains]

/-- Only the set of provided names matters. -/
theorem checkNames_congr {expected provided provided' : List String}
    (h : ∀ name, name ∈ provided ↔ name ∈ provided') :
    checkNames expected provided = checkNames expected provided' := by
  rw [checkNames, checkNames, unknownNames_congr h, missingNames_congr h]

/-! ## Expected names in order -/

namespace SymbolTable

/-- Whether the signal of one name is listed before that of another one: on a lower wire, or on the
same wire under a name that comes before. -/
def ListedBefore (t : SymbolTable) (a b : String) : Prop :=
  ∃ x y, (a, x) ∈ t ∧ (b, y) ∈ t ∧
    (x.wire < y.wire ∨ x.wire = y.wire ∧ comesBefore a b = true)

private theorem wireOrder_iff (a b : Int × String) :
    wireOrder a b = true ↔ a.1 < b.1 ∨ a.1 = b.1 ∧ comesNoLater a.2 b.2 = true := by
  simp [wireOrder]

private theorem wireOrder_trans (a b c : Int × String) (hab : wireOrder a b = true)
    (hbc : wireOrder b c = true) : wireOrder a c = true := by
  rw [wireOrder_iff] at hab hbc ⊢
  rcases hab with hab | ⟨hab, hNames⟩
  · rcases hbc with hbc | ⟨hbc, -⟩
    · exact .inl (Int.lt_trans hab hbc)
    · exact .inl (hbc ▸ hab)
  · rcases hbc with hbc | ⟨hbc, hNames'⟩
    · exact .inl (hab ▸ hbc)
    · exact .inr ⟨hab.trans hbc, comesNoLater_trans _ _ _ hNames hNames'⟩

private theorem wireOrder_total (a b : Int × String) : (wireOrder a b || wireOrder b a) = true := by
  rw [Bool.or_eq_true, wireOrder_iff, wireOrder_iff]
  rcases Int.lt_trichotomy a.1 b.1 with hLt | hEq | hGt
  · exact .inl (.inl hLt)
  · rcases Bool.or_eq_true _ _ ▸ comesNoLater_total a.2 b.2 with hNames | hNames
    · exact .inl (.inr ⟨hEq, hNames⟩)
    · exact .inr (.inr ⟨hEq.symm, hNames⟩)
  · exact .inr (.inl hGt)

private theorem wireOrder_antisymm {a b : Int × String} (hab : wireOrder a b = true)
    (hba : wireOrder b a = true) : a = b := by
  rw [wireOrder_iff] at hab hba
  rcases hab with hab | ⟨hWires, hab⟩
  · rcases hba with hba | ⟨hba, -⟩ <;> omega
  · rcases hba with hba | ⟨-, hba⟩
    · omega
    · exact Prod.ext hWires (comesNoLater_antisymm hab hba)

/-- The order of a table does not matter to its input signals. -/
theorem inputSignals_perm {t t' : SymbolTable} (h : t.Perm t') (first last : Int) :
    t.inputSignals first last = t'.inputSignals first last := by
  have hOwn : (t.ownSignals first last).Perm (t'.ownSignals first last) :=
    (h.filter _).map _
  rw [inputSignals, inputSignals, mergeSort_eq_of_perm wireOrder_trans wireOrder_total
    (fun _ _ _ _ => wireOrder_antisymm) hOwn]

/-- The input signals of a table are listed in the order of their wires, on one wire in that of
their names. -/
theorem pairwise_inputSignals {t : SymbolTable} (hNames : t.names.Nodup) (first last : Int) :
    (t.inputSignals first last).Pairwise t.ListedBefore := by
  let own := t.ownSignals first last
  have hSorted : (own.mergeSort wireOrder).Pairwise fun a b => wireOrder a b = true :=
    List.pairwise_mergeSort wireOrder_trans wireOrder_total own
  have hOwn : (own.map Prod.snd).Nodup := by
    have hFirsts : own.map Prod.snd =
        (t.filter fun s => inRange first last s.2.wire && isOwn s.1).map Prod.fst := by
      simp only [own, ownSignals, List.map_map]
      rfl
    rw [hFirsts]
    exact hNames.sublist (List.filter_sublist.map Prod.fst)
  have hNodup : ((own.mergeSort wireOrder).map Prod.snd).Nodup :=
    ((List.mergeSort_perm own wireOrder).map Prod.snd).nodup_iff.mpr hOwn
  have hListed : ∀ p ∈ own.mergeSort wireOrder, ∃ x, (p.2, x) ∈ t ∧ x.wire = p.1 := by
    intro p hp
    rw [List.mem_mergeSort] at hp
    obtain ⟨s, hs, rfl⟩ := List.mem_map.mp hp
    exact ⟨s.2, (List.mem_filter.mp hs).1, rfl⟩
  rw [inputSignals, List.pairwise_map]
  refine (hSorted.and (List.pairwise_map.mp hNodup)).imp_of_mem ?_
  rintro p q hp hq ⟨hOrder, hne⟩
  obtain ⟨x, hx, hxWire⟩ := hListed p hp
  obtain ⟨y, hy, hyWire⟩ := hListed q hq
  refine ⟨x, y, hx, hy, ?_⟩
  rw [hxWire, hyWire]
  rcases (wireOrder_iff p q).mp hOrder with hLt | ⟨hEq, hNoLater⟩
  · exact .inl hLt
  · exact .inr ⟨hEq, comesBefore_of_comesNoLater hNoLater hne⟩

end SymbolTable

/-- The order of a symbol table does not matter. -/
theorem expectedNames_perm {symbols symbols' : SymbolTable} (h : symbols.Perm symbols')
    (header : ConstraintHeader) : expectedNames symbols header = expectedNames symbols' header :=
  SymbolTable.inputSignals_perm h header.firstInput header.endInput

/-! ## Reports -/

/-- What the strict check has to say of an assignment: the names that are no inputs, if there are
any, and otherwise the inputs that are not named. -/
inductive Reports (symbols : SymbolTable) (header : ConstraintHeader)
    (entries : List (Value × Value)) : WitnessFault → Prop
  | unknown {names : List String} (nonempty : names ≠ [])
      (listed : ∀ name, name ∈ names ↔
        GivesName entries name ∧ ¬ IsMainInput symbols header name)
      (sorted : names.Pairwise fun a b => comesBefore a b = true) :
      Reports symbols header entries (.unknownInputs names)
  | missing {names : List String} (known : ∀ name, GivesName entries name →
        IsMainInput symbols header name)
      (nonempty : names ≠ [])
      (listed : ∀ name, name ∈ names ↔
        IsMainInput symbols header name ∧ ¬ GivesName entries name)
      (sorted : names.Pairwise symbols.ListedBefore) :
      Reports symbols header entries (.inputsNotSet names)

section Check

variable {symbols : SymbolTable} {header : ConstraintHeader} {entries : List (Value × Value)}

/-- The strict check of a table with texts as keys compares the names. -/
theorem checkInputs_table {provided : List String} (h : providedNames entries = .ok provided) :
    checkInputs symbols header (.table entries) =
      match checkNames (expectedNames symbols header) provided with
      | .ok () => .ok ()
      | .error fault => .error (.circuit (.witness fault none)) := by
  rw [checkInputs, Value.items]
  show (providedNames entries >>= fun names => match checkNames _ names with
    | .ok () => .ok ()
    | .error fault => .error (.circuit (.witness fault none))) = _
  rw [h]
  rfl

/-- An assignment with texts as keys is accepted, or reported. -/
theorem checkInputs_cases (header : ConstraintHeader) (hNames : symbols.names.Nodup)
    (hKeys : ∀ e ∈ entries, e.1.text? ≠ none) :
    (checkInputs symbols header (.table entries) = .ok () ∧
        ∀ name, GivesName entries name ↔ IsMainInput symbols header name) ∨
      ∃ fault,
        checkInputs symbols header (.table entries) = .error (.circuit (.witness fault none)) ∧
          Reports symbols header entries fault := by
  obtain ⟨provided, hProvided⟩ := providedNames_exists hKeys
  obtain ⟨-, hGives⟩ := providedNames_eq_ok hProvided
  rw [checkInputs_table hProvided]
  by_cases hUnknown : unknownNames (expectedNames symbols header) provided = []
  · have hKnown : ∀ name, GivesName entries name → IsMainInput symbols header name := by
      intro name hName
      rw [← mem_expectedNames]
      exact (unknownNames_nil_iff _ _).mp hUnknown name ((hGives name).mpr hName)
    by_cases hMissing : missingNames (expectedNames symbols header) provided = []
    · left
      refine ⟨?_, fun name => ⟨hKnown name, fun hInput => ?_⟩⟩
      · rw [checkNames, if_neg (not_not_intro hUnknown), if_neg (not_not_intro hMissing)]
      · rw [← mem_expectedNames] at hInput
        exact (hGives name).mp ((missingNames_nil_iff _ _).mp hMissing name hInput)
    · right
      refine ⟨.inputsNotSet (missingNames (expectedNames symbols header) provided), ?_, ?_⟩
      · rw [checkNames, if_neg (not_not_intro hUnknown), if_pos hMissing]
      · refine .missing hKnown hMissing (fun name => ?_) ?_
        · rw [missingNames, List.mem_filter, mem_expectedNames, ← hGives]
          simp
        · exact (SymbolTable.pairwise_inputSignals hNames _ _).filter _
  · right
    refine ⟨.unknownInputs (unknownNames (expectedNames symbols header) provided), ?_, ?_⟩
    · rw [checkNames, if_pos hUnknown]
    · refine .unknown hUnknown (fun name => ?_) (pairwise_unknownNames _ _)
      rw [mem_unknownNames, mem_expectedNames, hGives]

/-- Neither the order of an assignment nor that of a symbol table matters. -/
theorem checkInputs_perm (header : ConstraintHeader) (hKeys : ∀ e ∈ entries, e.1.text? ≠ none)
    {symbols' : SymbolTable} {entries' : List (Value × Value)}
    (hSymbols : symbols.Perm symbols') (hEntries : entries.Perm entries') :
    checkInputs symbols header (.table entries) =
      checkInputs symbols' header (.table entries') := by
  have hKeys' : ∀ e ∈ entries', e.1.text? ≠ none :=
    fun e he => hKeys e (hEntries.mem_iff.mpr he)
  obtain ⟨provided, hProvided⟩ := providedNames_exists hKeys
  obtain ⟨provided', hProvided'⟩ := providedNames_exists hKeys'
  obtain ⟨-, hGives⟩ := providedNames_eq_ok hProvided
  obtain ⟨-, hGives'⟩ := providedNames_eq_ok hProvided'
  have hSame : ∀ name, name ∈ provided ↔ name ∈ provided' := by
    intro name
    rw [hGives, hGives', GivesName, GivesName]
    simp only [hEntries.mem_iff]
  rw [checkInputs_table hProvided, checkInputs_table hProvided', expectedNames_perm hSymbols,
    checkNames_congr hSame]

end Check

/-! ## Circuits -/

namespace Session

/-- The strict check of a circuit is that of its symbols, which are read first if they have not
been. -/
theorem strictCheck_of_load {s s' : Session} {symbols : SymbolTable}
    (hLoad : loadSymbols s = .ok symbols s') (system : ConstraintSystem) (inputs : Value) :
    strictCheck true system inputs s =
      Bench.attempt (checkInputs symbols system.toConstraintHeader inputs) s' := by
  rw [strictCheck, if_pos rfl]
  exact bind_ok hLoad

theorem strictCheck_eq_ok_iff {s s' : Session} {symbols : SymbolTable}
    (hLoad : loadSymbols s = .ok symbols s') (system : ConstraintSystem) (inputs : Value) :
    strictCheck true system inputs s = .ok () s' ↔
      checkInputs symbols system.toConstraintHeader inputs = .ok () := by
  rw [strictCheck_of_load hLoad]
  constructor
  · intro h
    exact (attempt_eq_ok h).1
  · intro h
    rw [h]
    rfl

/-- The strict check of a circuit is exact: it accepts exactly the assignments that give values to
the main component's inputs and to nothing else; any other one is refused with a report of the names
that are no inputs, or else of the inputs that are not named; and neither the order of the
assignment nor that of the symbol table makes a difference. -/
theorem strictCheck_exact {s s' : Session} {symbols : SymbolTable}
    (hLoad : loadSymbols s = .ok symbols s') (hNames : symbols.names.Nodup)
    (system : ConstraintSystem) {entries : List (Value × Value)}
    (hKeys : ∀ e ∈ entries, e.1.text? ≠ none) :
    (strictCheck true system (.table entries) s = .ok () s' ↔
      ∀ name, GivesName entries name ↔ IsMainInput symbols system.toConstraintHeader name) ∧
    (¬ (∀ name, GivesName entries name ↔ IsMainInput symbols system.toConstraintHeader name) →
      ∃ fault,
        strictCheck true system (.table entries) s = .error (.circuit (.witness fault none)) s' ∧
          Reports symbols system.toConstraintHeader entries fault) ∧
    ∀ {t t' : Session} {symbols' : SymbolTable} {entries' : List (Value × Value)},
      loadSymbols t = .ok symbols' t' → symbols'.Perm symbols → entries'.Perm entries →
      (Bench.outcome (strictCheck true system (.table entries')) t).1 =
        (Bench.outcome (strictCheck true system (.table entries)) s).1 := by
  refine ⟨?_, ?_, ?_⟩
  · rw [strictCheck_eq_ok_iff hLoad, checkInputs_eq_ok_iff]
    constructor
    · rintro ⟨entries', hItems, -, hSame⟩
      cases hItems
      exact hSame
    · intro hSame
      exact ⟨entries, rfl, hKeys, hSame⟩
  · intro hNot
    rcases checkInputs_cases system.toConstraintHeader hNames hKeys with
      ⟨-, hSame⟩ | ⟨fault, hError, hReports⟩
    · exact absurd hSame hNot
    · exact ⟨fault, by rw [strictCheck_of_load hLoad, hError]; rfl, hReports⟩
  · intro t t' symbols' entries' hLoad' hSymbols hEntries
    have hKeys' : ∀ e ∈ entries', e.1.text? ≠ none :=
      fun e he => hKeys e (hEntries.mem_iff.mp he)
    have hSame := checkInputs_perm system.toConstraintHeader hKeys' hSymbols hEntries
    rw [Bench.outcome, Bench.outcome, strictCheck_of_load hLoad', strictCheck_of_load hLoad, hSame]
    cases checkInputs symbols system.toConstraintHeader (.table entries) <;> rfl

/-- A circuit with an output, an array of two inputs that are listed the wrong way round, one more
input, and a component of which a signal lies on an input wire.  An array and a single value under a
key with the main component in front are accepted; of an array that is too long by one, in an
assignment that also leaves an input out, the superfluous element is reported. -/
theorem strictCheck_arrays :
    let symbols : SymbolTable := [("main.out", ⟨1, 1, 0⟩), ("main.in[1]", ⟨3, 3, 0⟩),
      ("main.in[0]", ⟨2, 2, 0⟩), ("main.k", ⟨4, 4, 0⟩), ("main.sub.in", ⟨5, 3, 1⟩)]
    let system : ConstraintSystem := ⟨⟨7, 8, 5, 1, 1, 2, 5, 0⟩, []⟩
    let s : Session :=
      ⟨{}, { Circuit.ofPaths "m.circom" "out" .null false with symbols := some symbols }⟩
    let fitting : List (Value × Value) :=
      [(.text "main.k", .int 9), (.text "in", .array (.integer .int64) (.list [.int 5, .int 6]))]
    let long : List (Value × Value) := [(.text "in", .list [.int 5, .int 6, .int 7])]
    strictCheck true system (.table fitting) s = .ok () s ∧
      ∃ fault, strictCheck true system (.table long) s = .error (.circuit (.witness fault none)) s ∧
        Reports symbols system.toConstraintHeader long fault := by
  intro symbols system s fitting long
  have hLoad : loadSymbols s = .ok symbols s := loadSymbols_of_some rfl
  have hNames : symbols.names.Nodup := by decide
  have hInputs : ∀ name, IsMainInput symbols system.toConstraintHeader name ↔
      name ∈ ["main.in[1]", "main.in[0]", "main.k"] := by
    intro name
    have hOwn : symbols.ownSignals 2 5 = [(3, "main.in[1]"), (2, "main.in[0]"), (4, "main.k")] := by
      decide +kernel
    rw [← mem_expectedNames, show expectedNames symbols system.toConstraintHeader =
      ((symbols.ownSignals 2 5).mergeSort SymbolTable.wireOrder).map Prod.snd from rfl, hOwn]
    exact ((List.mergeSort_perm _ _).map Prod.snd).mem_iff
  have hSame : ∀ name,
      GivesName fitting name ↔ IsMainInput symbols system.toConstraintHeader name := by
    intro name
    have hProvided : providedNames fitting = .ok ["main.k", "main.in[0]", "main.in[1]"] := by
      apply Except.eq_ok_of_toOption
      decide +kernel
    rw [← (providedNames_eq_ok hProvided).2, hInputs]
    simp only [List.mem_cons, List.not_mem_nil, or_false]
    constructor
    · rintro (h | h | h) <;> simp [h]
    · rintro (h | h | h) <;> simp [h]
  have hLong : ¬ ∀ name,
      GivesName long name ↔ IsMainInput symbols system.toConstraintHeader name := by
    intro h
    have hGives : GivesName long "main.in[2]" :=
      ⟨_, List.mem_cons_self, "in", rfl, by decide +kernel⟩
    have hInput := (hInputs "main.in[2]").mp ((h "main.in[2]").mp hGives)
    revert hInput
    decide
  exact ⟨(strictCheck_exact hLoad hNames system (by simp [fitting, Value.text?])).1.mpr hSame,
    (strictCheck_exact hLoad hNames system (by simp [long, Value.text?])).2.1 hLong⟩

end Session

end CircuitBench
