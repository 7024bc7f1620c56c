import CircuitBench.Proofs.Circuit.Inputs
import CircuitBench.Proofs.Circuit.Kept
import CircuitBench.Proofs.Circuit.Listing
import CircuitBench.Proofs.Circuit.Rejections
import CircuitBench.Proofs.Field.Encoding
import Mathlib.Data.Int.ModEq

/-!
# Expecting values of a witness

What is expected of a witness is a table from names to nested values, which comes to a list of
signals with a leaf each.  A signal meets its leaf if it was not removed and its value is congruent
to what the leaf stands for.  The leaves are gone through in order, and the first one that is not
met decides how the expectation fails.

The failure tells both residues, and so it can fail itself: a residue with too many digits is not
printed, and the failure is then that of the printing.  This needs a prime with more digits than are
printed.

Values that were looked up by name can be expected again: both ways of reading a witness find the
same signals.

## Main results

* `Meets`, `Complains` : what a signal is expected to be, and what is said if it is not.
* `Session.assertLoosely_exact` : expectations are met exactly or fail at the first leaf that is
  not, and what was looked up is met.
-/

namespace CircuitBench

open Signal Number

/-! ## What is expected -/

/-- The signals that the entries of a table set, each with its leaf, entry by entry. -/
def expectedLeaves (entries : List (Value × Value)) : List (String × Value) :=
  entries.flatMap fun e => flatten (qualify (e.1.text?.getD "")) e.2

theorem expectedLeaves_cons (e : Value × Value) (rest : List (Value × Value)) :
    expectedLeaves (e :: rest) =
      flatten (qualify (e.1.text?.getD "")) e.2 ++ expectedLeaves rest :=
  List.flatMap_cons

section Leaves

variable (symbols : SymbolTable) (prime : Nat) (witness : List Int)

/-- Whether a value is that of a signal, by its full name, which was not removed. -/
def IsValueOf (name : String) (value : Int) : Prop :=
  ∃ s, symbols.get? name = some s ∧ 0 ≤ s.wire ∧ witness[s.wire.toNat]? = some value

/-- Whether a witness has the value that is expected of a signal. -/
def Meets (leaf : String × Value) : Prop :=
  ∃ value want, IsValueOf symbols witness leaf.1 value ∧ Field.ofValue leaf.2 prime = .ok want ∧
    value ≡ want [ZMOD prime]

/-- Whether an integer is not too long to print. -/
def IsShort (n : Int) : Prop :=
  (numeral n.natAbs).length ≤ digitLimit

/-- What is said of a leaf that is not met: that there is no such signal, or that its value differs,
unless one of the numbers is too long to say so. -/
inductive Complains (leaf : String × Value) : Error → Prop
  | missing (h : ∀ s, symbols.get? leaf.1 = some s → s.wire < 0) :
      Complains leaf (.expectation (.notInWitness leaf.1))
  | differs {value want : Int} (hValue : IsValueOf symbols witness leaf.1 value)
      (hWant : Field.ofValue leaf.2 prime = .ok want) (hDiffers : ¬ value ≡ want [ZMOD prime])
      (hShort : IsShort want ∧ IsShort (value % prime)) :
      Complains leaf (.expectation (.differsFrom leaf.1 want (toString (value % prime))))
  | unsaid {value want : Int} (hValue : IsValueOf symbols witness leaf.1 value)
      (hWant : Field.ofValue leaf.2 prime = .ok want) (hDiffers : ¬ value ≡ want [ZMOD prime])
      (hLong : ¬ (IsShort want ∧ IsShort (value % prime))) :
      Complains leaf (.value .digitsToPrint)

end Leaves

section Checking

variable {symbols : SymbolTable} {prime : Nat} {witness : List Int}

theorem isShort_of_lt {k : Nat} (hPrime : prime ≤ Nat.pow 10 digitLimit) (h : k < prime) :
    IsShort k :=
  length_numeral_le (by decide) (Nat.lt_of_lt_of_le h hPrime)

/-- With a prime that is not too long, every complaint can be made. -/
theorem Complains.isExpectation {leaf : String × Value} {e : Error}
    (h : Complains symbols prime witness leaf e) (hPrime : 2 ≤ prime)
    (hShort : prime ≤ Nat.pow 10 digitLimit) : ∃ fault, e = .expectation fault := by
  cases h with
  | missing => exact ⟨_, rfl⟩
  | differs => exact ⟨_, rfl⟩
  | @unsaid value want hValue hWant hDiffers hLong =>
      obtain ⟨k, hk, rfl⟩ := Field.ofValue_range hPrime hWant
      have hLow := Int.emod_nonneg value (show (prime : Int) ≠ 0 by omega)
      have hHigh := Int.emod_lt_of_pos value (show (0 : Int) < prime by omega)
      obtain ⟨r, hr⟩ := Int.eq_ofNat_of_zero_le hLow
      refine absurd ⟨isShort_of_lt hShort hk, ?_⟩ hLong
      rw [hr]
      exact isShort_of_lt hShort (by omega)

/-- Two residues are the same exactly when the numbers are congruent. -/
theorem emod_eq_iff (hPrime : 2 ≤ prime) {v : Value} {want : Int}
    (hWant : Field.ofValue v prime = .ok want) (value : Int) :
    value % prime = want ↔ value ≡ want [ZMOD prime] := by
  obtain ⟨k, hk, rfl⟩ := Field.ofValue_range hPrime hWant
  have hSmall : (k : Int) % prime = k := Int.emod_eq_of_lt (by omega) (by omega)
  rw [Int.ModEq, hSmall]

theorem integerText_eq (n : Int) :
    (IsShort n ∧ Value.integerText n = .ok (toString n)) ∨
      (¬ IsShort n ∧ Value.integerText n = .error (.value .digitsToPrint)) := by
  rw [Value.integerText, printInteger?_eq]
  by_cases hShort : (numeral n.natAbs).length ≤ digitLimit
  · rw [if_pos hShort]
    exact .inl ⟨hShort, rfl⟩
  · rw [if_neg hShort]
    exact .inr ⟨hShort, rfl⟩

/-- What is said of two different numbers. -/
theorem differFrom_int (name : String) (want got : Int) :
    (IsShort want ∧ IsShort got ∧ differFrom name want (.int got) =
        .error (.expectation (.differsFrom name want (toString got)))) ∨
      (¬ (IsShort want ∧ IsShort got) ∧
        differFrom name want (.int got) = .error (.value .digitsToPrint)) := by
  have hGot : (Value.int got).inlineText = Value.integerText got := rfl
  rw [differFrom, hGot]
  rcases integerText_eq want with ⟨hWant, hText⟩ | ⟨hWant, hText⟩
  · rw [hText]
    rcases integerText_eq got with ⟨hGot, hText'⟩ | ⟨hGot, hText'⟩
    · rw [hText']
      exact .inl ⟨hWant, hGot, rfl⟩
    · rw [hText']
      exact .inr ⟨fun h => hGot h.2, rfl⟩
  · rw [hText]
    exact .inr ⟨fun h => hWant h.1, rfl⟩

/-- A signal that was not removed has one value. -/
theorem IsValueOf.unique {name : String} {value value' : Int}
    (h : IsValueOf symbols witness name value) (h' : IsValueOf symbols witness name value') :
    value = value' := by
  obtain ⟨s, hSymbol, -, hValue⟩ := h
  obtain ⟨s', hSymbol', -, hValue'⟩ := h'
  cases hSymbol.symm.trans hSymbol'
  exact Option.some.inj (hValue.symm.trans hValue')

theorem mem_of_get? {name : String} {s : Symbol} (h : symbols.get? name = some s) :
    (name, s) ∈ symbols := by
  induction symbols with
  | nil => cases h
  | cons signal rest ih =>
      obtain ⟨n, s'⟩ := signal
      rw [SymbolTable.get?] at h
      by_cases hSame : n = name
      · rw [if_pos hSame] at h
        cases h
        rw [hSame]
        exact List.mem_cons_self
      · rw [if_neg hSame] at h
        exact List.mem_cons_of_mem _ (ih h)

/-- In a witness that is long enough a signal has a value, unless it is unknown or was removed. -/
theorem isValueOf_or_missing (hLong : ∀ signal ∈ symbols, signal.2.wire < witness.length)
    (name : String) : (∃ value, IsValueOf symbols witness name value) ∨
      ∀ s, symbols.get? name = some s → s.wire < 0 := by
  cases hSymbol : symbols.get? name with
  | none => exact .inr nofun
  | some s =>
      by_cases hWire : s.wire < 0
      · refine .inr fun s' hSome => ?_
        cases hSome
        exact hWire
      · have hBound : s.wire < witness.length := hLong _ (mem_of_get? hSymbol)
        have hLt : s.wire.toNat < witness.length := by omega
        exact .inl ⟨_, s, hSymbol, by omega, List.getElem?_eq_getElem hLt⟩

/-- The value of a signal is the entry on its wire. -/
theorem IsValueOf.entry {name : String} {value : Int} (h : IsValueOf symbols witness name value) :
    ∃ s, symbols.get? name = some s ∧ ¬ s.wire < 0 ∧
      (Value.ofIntegers witness).entry s.wire = .ok (.int value) := by
  obtain ⟨s, hSymbol, hWire, hValue⟩ := h
  obtain ⟨hLt, rfl⟩ := List.getElem?_eq_some_iff.mp hValue
  refine ⟨s, hSymbol, by omega, ?_⟩
  have hAt := atIndex_ofNat witness s.wire.toNat hLt
  rw [Int.toNat_of_nonneg hWire] at hAt
  rw [entry_ofIntegers, hAt]
  rfl

/-! ## Leaf by leaf -/

/-- A signal that is unknown or was removed is not in the witness. -/
theorem expectLeafOf_missing {leaf : String × Value}
    (h : ∀ s, symbols.get? leaf.1 = some s → s.wire < 0) (witness : Value) :
    expectLeafOf symbols prime witness leaf = .error (.expectation (.notInWitness leaf.1)) := by
  rw [expectLeafOf]
  split
  · rfl
  · rename_i s hSymbol
    exact if_pos (h s hSymbol)

/-- A signal that has a value is compared with its leaf. -/
theorem expectLeafOf_value (hPrime : 2 ≤ prime) {leaf : String × Value} {value want : Int}
    (hValue : IsValueOf symbols witness leaf.1 value)
    (hWant : Field.ofValue leaf.2 prime = .ok want) :
    expectLeafOf symbols prime (.ofIntegers witness) leaf =
      if value ≡ want [ZMOD prime] then .ok ()
      else differFrom leaf.1 want (.int (value % prime)) := by
  obtain ⟨s, hSymbol, hWire, hEntry⟩ := hValue.entry
  have hResidue : (Value.int value).residue (.int prime) = .ok (.int (value % prime)) := by
    rw [residue_int, Field.residue_ok (by omega), Int.fmod_eq_emod_of_nonneg value (by omega)]
    rfl
  have hCompare := emod_eq_iff hPrime hWant value
  rw [expectLeafOf, hSymbol]
  simp only [if_neg hWire, hEntry, hResidue, hWant, same_int, bind, Except.bind, beq_iff_eq,
    hCompare]
  rfl

/-- A leaf is met, or there is a complaint. -/
theorem expectLeafOf_cases (hPrime : 2 ≤ prime)
    (hLong : ∀ signal ∈ symbols, signal.2.wire < witness.length) {leaf : String × Value}
    (hLeaf : ∃ want, Field.ofValue leaf.2 prime = .ok want) :
    (Meets symbols prime witness leaf ∧
        expectLeafOf symbols prime (.ofIntegers witness) leaf = .ok ()) ∨
      (¬ Meets symbols prime witness leaf ∧ ∃ e, Complains symbols prime witness leaf e ∧
        expectLeafOf symbols prime (.ofIntegers witness) leaf = .error e) := by
  rcases isValueOf_or_missing hLong leaf.1 with ⟨value, hValue⟩ | hMissing
  · obtain ⟨want, hWant⟩ := hLeaf
    rw [expectLeafOf_value hPrime hValue hWant]
    by_cases hSame : value ≡ want [ZMOD prime]
    · rw [if_pos hSame]
      exact .inl ⟨⟨value, want, hValue, hWant, hSame⟩, rfl⟩
    · rw [if_neg hSame]
      refine .inr ⟨?_, ?_⟩
      · rintro ⟨value', want', hValue', hWant', hMeets⟩
        cases hValue.unique hValue'
        cases hWant.symm.trans hWant'
        exact hSame hMeets
      · rcases differFrom_int leaf.1 want (value % prime) with
          ⟨hWants, hGot, hSaid⟩ | ⟨hUnsaid, hSaid⟩
        · exact ⟨_, .differs hValue hWant hSame ⟨hWants, hGot⟩, hSaid⟩
        · exact ⟨_, .unsaid hValue hWant hSame hUnsaid, hSaid⟩
  · refine .inr ⟨?_, _, .missing hMissing, expectLeafOf_missing hMissing _⟩
    rintro ⟨value, want, ⟨s, hSymbol, hWire, -⟩, -⟩
    have hRemoved := hMissing s hSymbol
    omega

/-! ## Leaf after leaf -/

/-- With texts as keys, the leaves are gone through one after another. -/
theorem expectAllOf_eq {entries : List (Value × Value)} (hKeys : ∀ e ∈ entries, e.1.text? ≠ none)
    (prime : Int) (witness : Value) :
    expectAllOf symbols prime witness entries =
      (expectedLeaves entries).forM (expectLeafOf symbols prime witness) := by
  induction entries with
  | nil => rfl
  | cons e rest ih =>
      obtain ⟨hKey, hRest⟩ := List.forall_mem_cons.mp hKeys
      obtain ⟨key, hText⟩ := Option.ne_none_iff_exists'.mp hKey
      have hName : qualifyValue e.1 = .ok (qualify (e.1.text?.getD "")) :=
        (qualifyValue_eq_ok_iff e.1 _).mpr ⟨key, hText, by rw [hText]; rfl⟩
      rw [expectAllOf, hName, ih hRest, expectedLeaves_cons, List.forM_eq_forM, List.forM_append]
      rfl

/-- The first complaint ends it. -/
theorem forM_eq_error {α : Type} {check : α → Except Error Unit} {before after : List α} {a : α}
    {e : Error} (hBefore : ∀ b ∈ before, check b = .ok ()) (hFails : check a = .error e) :
    (before ++ a :: after).forM check = .error e := by
  induction before with
  | nil =>
      show (check a >>= fun _ => after.forM check) = _
      rw [hFails]
      rfl
  | cons b rest ih =>
      obtain ⟨hFirst, hRest⟩ := List.forall_mem_cons.mp hBefore
      show (check b >>= fun _ => (rest ++ a :: after).forM check) = _
      rw [hFirst]
      exact ih hRest

/-- Without a complaint it ends well, and only then. -/
theorem forM_eq_ok_iff {α : Type} {check : α → Except Error Unit} {items : List α} :
    items.forM check = .ok () ↔ ∀ a ∈ items, check a = .ok () := by
  induction items with
  | nil => exact iff_of_true rfl fun _ h => absurd h List.not_mem_nil
  | cons a rest ih =>
      rw [List.forall_mem_cons, ← ih]
      show (check a >>= fun _ => rest.forM check) = .ok () ↔ _
      cases hFirst : check a with
      | ok _ => exact (and_iff_right rfl).symm
      | error e => exact iff_of_false (fun h => nomatch h) fun h => nomatch h.1

section Tables

variable {entries : List (Value × Value)} (hPrime : 2 ≤ prime)
  (hLong : ∀ signal ∈ symbols, signal.2.wire < witness.length)
  (hKeys : ∀ e ∈ entries, e.1.text? ≠ none)
  (hLeaves : ∀ leaf ∈ expectedLeaves entries, ∃ want, Field.ofValue leaf.2 prime = .ok want)

include hPrime hLong hKeys hLeaves

/-- A table is met exactly if all of its leaves are. -/
theorem expectAllOf_eq_ok_iff :
    expectAllOf symbols prime (.ofIntegers witness) entries = .ok () ↔
      ∀ leaf ∈ expectedLeaves entries, Meets symbols prime witness leaf := by
  rw [expectAllOf_eq hKeys, forM_eq_ok_iff]
  refine forall₂_congr fun leaf hMem => ?_
  rcases expectLeafOf_cases hPrime hLong (hLeaves leaf hMem) with
    ⟨hMeets, hOk⟩ | ⟨hNot, e, -, hFails⟩
  · exact iff_of_true hOk hMeets
  · exact iff_of_false (fun hOk => nomatch hFails.symm.trans hOk) hNot

/-- Otherwise the complaint is about the first leaf that is not. -/
theorem expectAllOf_eq_error {before after : List (String × Value)} {leaf : String × Value}
    (hSplit : expectedLeaves entries = before ++ leaf :: after)
    (hBefore : ∀ l ∈ before, Meets symbols prime witness l)
    (hNot : ¬ Meets symbols prime witness leaf) :
    ∃ e, Complains symbols prime witness leaf e ∧
      expectAllOf symbols prime (.ofIntegers witness) entries = .error e := by
  rw [hSplit] at hLeaves
  have hAccepts : ∀ l ∈ before,
      expectLeafOf symbols prime (.ofIntegers witness) l = .ok () := by
    intro l hMem
    rcases expectLeafOf_cases hPrime hLong (hLeaves l (List.mem_append_left _ hMem)) with
      ⟨-, hOk⟩ | ⟨hNotMet, -⟩
    · exact hOk
    · exact absurd (hBefore l hMem) hNotMet
  rcases expectLeafOf_cases hPrime hLong
      (hLeaves leaf (List.mem_append_right _ List.mem_cons_self)) with
    ⟨hMeets, -⟩ | ⟨-, e, hComplains, hFails⟩
  · exact absurd hMeets hNot
  · refine ⟨e, hComplains, ?_⟩
    rw [expectAllOf_eq hKeys, hSplit]
    exact forM_eq_error hAccepts hFails

end Tables

/-! ## Looking up what is expected later -/

/-- Whether an output gives the value of the signal that it is named after. -/
def IsOutput (symbols : SymbolTable) (witness : List Int) (output : String × Option Value) : Prop :=
  ∃ value, IsValueOf symbols witness (qualify output.1) value ∧ output.2 = some (.int value)

/-- Outputs as a table from names to values. -/
def outputTable (outputs : List (String × Option Value)) : List (Value × Value) :=
  outputs.map fun output => (.text output.1, output.2.getD .null)

theorem mem_putOutput {name : String} {value : Option Value}
    {found : List (String × Option Value)} {output : String × Option Value}
    (h : output ∈ putOutput name value found) : output = (name, value) ∨ output ∈ found := by
  induction found with
  | nil => exact .inl (List.mem_singleton.mp h)
  | cons first rest ih =>
      rw [putOutput] at h
      split at h
      · rename_i hSame
        rcases List.mem_cons.mp h with rfl | hRest
        · exact .inl (by rw [hSame])
        · exact .inr (List.mem_cons_of_mem _ hRest)
      · rcases List.mem_cons.mp h with rfl | hRest
        · exact .inr List.mem_cons_self
        · exact (ih hRest).imp_right (List.mem_cons_of_mem _)

/-- What is put has its name among the others, and takes away none of them. -/
theorem mem_names_putOutput (name n : String) (value : Option Value)
    (found : List (String × Option Value)) :
    n ∈ (putOutput name value found).map Prod.fst ↔ n = name ∨ n ∈ found.map Prod.fst := by
  induction found with
  | nil => simp [putOutput]
  | cons first rest ih =>
      rw [putOutput]
      split
      · rename_i hSame
        simp [hSame]
      · rw [List.map_cons, List.mem_cons, ih, List.map_cons, List.mem_cons]
        tauto

/-- Signals that were not removed are looked up, each under the name that it was asked for by. -/
theorem outputsInto_eq (hLong : ∀ signal ∈ symbols, signal.2.wire < witness.length)
    {names : List String}
    (hNames : ∀ name ∈ names, ∃ s, symbols.get? (qualify name) = some s ∧ 0 ≤ s.wire)
    {found : List (String × Option Value)}
    (hFound : ∀ output ∈ found, IsOutput symbols witness output) :
    ∃ outputs, outputsInto symbols (Value.ofIntegers witness).entry found (names.map .text) =
        .ok outputs ∧ (∀ output ∈ outputs, IsOutput symbols witness output) ∧
      ∀ n, n ∈ outputs.map Prod.fst ↔ n ∈ names ∨ n ∈ found.map Prod.fst := by
  induction names generalizing found with
  | nil => exact ⟨found, rfl, hFound, fun n => by simp⟩
  | cons name rest ih =>
      obtain ⟨⟨s, hSymbol, hWire⟩, hRest⟩ := List.forall_mem_cons.mp hNames
      obtain ⟨value, hValue⟩ : ∃ value, IsValueOf symbols witness (qualify name) value := by
        refine (isValueOf_or_missing hLong _).resolve_right fun hMissing => ?_
        have hRemoved := hMissing s hSymbol
        omega
      obtain ⟨s', hSymbol', hKept, hEntry⟩ := hValue.entry
      have hOutput : signalValue (Value.ofIntegers witness).entry s' = .ok (some (.int value)) := by
        rw [signalValue, if_neg hKept, hEntry]
        rfl
      have hPut : ∀ output ∈ putOutput name (some (.int value)) found,
          IsOutput symbols witness output := by
        intro output hMem
        rcases mem_putOutput hMem with rfl | hBefore
        · exact ⟨value, hValue, rfl⟩
        · exact hFound output hBefore
      obtain ⟨outputs, hEnd, hAll, hNamed⟩ := ih hRest hPut
      refine ⟨outputs, ?_, hAll, fun n => ?_⟩
      · have hName : qualifyValue (.text name) = .ok (qualify name) := rfl
        have hGiven : (Value.text name).plainText = .ok name := rfl
        rw [List.map_cons, outputsInto, hName, hGiven]
        simp only [bind, Except.bind, hSymbol', hOutput]
        exact hEnd
      · rw [hNamed, mem_names_putOutput, List.mem_cons]
        tauto

/-- What was looked up is what is expected of it later. -/
theorem meets_of_isOutput (hPrime : 2 ≤ prime) {outputs : List (String × Option Value)}
    (h : ∀ output ∈ outputs, IsOutput symbols witness output) :
    ∀ leaf ∈ expectedLeaves (outputTable outputs), Meets symbols prime witness leaf := by
  intro leaf hLeaf
  obtain ⟨e, hEntry, hLeaf⟩ := List.mem_flatMap.mp hLeaf
  obtain ⟨output, hOutput, rfl⟩ := List.mem_map.mp hEntry
  obtain ⟨value, hValue, hSome⟩ := h output hOutput
  rw [hSome] at hLeaf
  obtain rfl := List.mem_singleton.mp hLeaf
  refine ⟨value, value.fmod prime, hValue, Field.residue_ok (by omega), ?_⟩
  rw [Int.fmod_eq_emod_of_nonneg value (by omega), Int.ModEq, Int.emod_emod]

end Checking

namespace Session

variable {s : Session} {symbols : SymbolTable} {system : ConstraintSystem}

/-- Expectations are compared when the symbols and the constraints have been found. -/
theorem assertLoosely_of_found (hSymbols : s.found .symbols = .ok symbols)
    (hSystem : s.found .constraints = .ok system) (witness : Value)
    (entries : List (Value × Value)) :
    assertLoosely witness (.table entries) s =
      (Bench.attempt (expectAllOf symbols system.prime witness entries) : Step Unit)
        (s.keepingBoth system symbols) := by
  have hLater : (s.keeping .symbols symbols).found .constraints = .ok system := by
    rw [found_keeping hSymbols]
    exact hSystem
  have hFirst : loadSymbols s = .ok symbols (s.keeping .symbols symbols) := load_of_found hSymbols
  have hSecond : loadConstraints (s.keeping .symbols symbols) =
      .ok system (s.keepingBoth system symbols) := load_of_found hLater
  rw [assertLoosely, bind_ok hFirst, bind_ok hSecond]
  rfl

theorem attempt_eq_ok_iff {x : Except Error Unit} {s : Session} :
    (Bench.attempt x : Step Unit) s = .ok () s ↔ x = .ok () := by
  constructor
  · exact fun h => (attempt_eq_ok h).1
  · rintro rfl
    rfl

/-- Names are looked up when the symbols have been found. -/
theorem getOutput_of_found (hSymbols : s.found .symbols = .ok symbols)
    (onWire : Int → Except Error Value) (names : List Value) :
    getOutput onWire (.list names) s =
      (Bench.attempt (outputsInto symbols onWire [] names) : Step _)
        (s.keeping .symbols symbols) := by
  have hLoad : loadSymbols s = .ok symbols (s.keeping .symbols symbols) := load_of_found hSymbols
  rw [getOutput, bind_ok hLoad]
  rfl

/-- Expectations of a witness that has a value for each wire, and their agreement with what is
looked up.  If the keys of a table are texts and its leaves stand for field elements, then the
expectations are met exactly if every leaf is; and otherwise they fail with the complaint about the
first leaf, in the order of the table and of the values in it, that is not met.  That complaint is
the failure of an expectation, except that it may be a failure to print when the prime has more
digits than are printed.  And the values of signals that were not removed can be looked up under any
of their names, and what is looked up is met. -/
theorem assertLoosely_exact (hSymbols : s.found .symbols = .ok symbols)
    (hSystem : s.found .constraints = .ok system) (hPrime : 2 ≤ system.prime) {witness : List Int}
    (hLong : ∀ signal ∈ symbols, signal.2.wire < witness.length) :
    (∀ entries, (∀ e ∈ entries, e.1.text? ≠ none) →
      (∀ leaf ∈ expectedLeaves entries, ∃ want, Field.ofValue leaf.2 system.prime = .ok want) →
      (assertLoosely (.ofIntegers witness) (.table entries) s =
          .ok () (s.keepingBoth system symbols) ↔
        ∀ leaf ∈ expectedLeaves entries, Meets symbols system.prime witness leaf) ∧
      ∀ before leaf after, expectedLeaves entries = before ++ leaf :: after →
        (∀ l ∈ before, Meets symbols system.prime witness l) →
        ¬ Meets symbols system.prime witness leaf →
        ∃ e, Complains symbols system.prime witness leaf e ∧
          (system.prime ≤ Nat.pow 10 digitLimit → ∃ fault, e = .expectation fault) ∧
          assertLoosely (.ofIntegers witness) (.table entries) s =
            .error e (s.keepingBoth system symbols)) ∧
    ∀ names : List String,
      (∀ name ∈ names, ∃ signal, symbols.get? (qualify name) = some signal ∧ 0 ≤ signal.wire) →
      ∃ outputs, getOutput (Value.ofIntegers witness).entry (.list (names.map .text)) s =
          .ok outputs (s.keeping .symbols symbols) ∧
        (∀ output ∈ outputs, IsOutput symbols witness output) ∧
        (∀ name, name ∈ outputs.map Prod.fst ↔ name ∈ names) ∧
        assertLoosely (.ofIntegers witness) (.table (outputTable outputs))
          (s.keeping .symbols symbols) = .ok () (s.keepingBoth system symbols) := by
  refine ⟨fun entries hKeys hLeaves => ⟨?_, fun before leaf after hSplit hBefore hNot => ?_⟩,
    fun names hNames => ?_⟩
  · rw [assertLoosely_of_found hSymbols hSystem,
      ← expectAllOf_eq_ok_iff hPrime hLong hKeys hLeaves]
    exact attempt_eq_ok_iff
  · obtain ⟨e, hComplains, hFails⟩ :=
      expectAllOf_eq_error hPrime hLong hKeys hLeaves hSplit hBefore hNot
    refine ⟨e, hComplains, hComplains.isExpectation hPrime, ?_⟩
    rw [assertLoosely_of_found hSymbols hSystem, hFails]
    rfl
  · have hNone : ∀ output ∈ ([] : List (String × Option Value)),
        IsOutput symbols witness output := fun _ hMem => absurd hMem List.not_mem_nil
    obtain ⟨outputs, hEnd, hAll, hNamed⟩ := outputsInto_eq hLong hNames hNone
    refine ⟨outputs, ?_, hAll, fun name => by simpa using hNamed name, ?_⟩
    · rw [getOutput_of_found hSymbols, hEnd]
      rfl
    · have hMet := meets_of_isOutput hPrime hAll
      have hTexts : ∀ e ∈ outputTable outputs, e.1.text? ≠ none := by
        intro e hMem
        obtain ⟨output, -, rfl⟩ := List.mem_map.mp hMem
        exact Option.some_ne_none _
      have hLeaves : ∀ leaf ∈ expectedLeaves (outputTable outputs),
          ∃ want, Field.ofValue leaf.2 system.prime = .ok want := by
        intro leaf hMem
        obtain ⟨value, want, -, hWant, -⟩ := hMet leaf hMem
        exact ⟨want, hWant⟩
      -- both files are found as before, and the second is kept in addition to the first
      have hKept : (s.keeping .symbols symbols).found .symbols = .ok symbols := by
        rw [found_keeping hSymbols, hSymbols]
      have hStill : (s.keeping .symbols symbols).found .constraints = .ok system := by
        rw [found_keeping hSymbols, hSystem]
      rw [assertLoosely_of_found hKept hStill,
        (expectAllOf_eq_ok_iff hPrime hLong hTexts hLeaves).mpr hMet]
      rfl

/-- Of a witness over the residues of seven, nine is two and minus four is three. -/
theorem assertLoosely_square :
    assertLoosely (.ofIntegers [1, 9, -4])
        (.table [(.text "c", .int (-5)), (.text "main.a", .text " 0x3 ")]) squareSession =
      .ok () (squareSession.keepingBoth squareSystem squareSymbols) := by
  have hSymbols : squareSession.found .symbols = .ok squareSymbols :=
    Except.eq_ok_of_toOption (by decide +kernel)
  have hSystem : squareSession.found .constraints = .ok squareSystem :=
    Except.eq_ok_of_toOption (by decide +kernel)
  have hLong : ∀ signal ∈ squareSymbols, signal.2.wire < ([1, 9, -4] : List Int).length := by
    decide
  obtain ⟨hExact, -⟩ := assertLoosely_exact hSymbols hSystem (by decide) hLong
  have hLeaves : expectedLeaves [(.text "c", .int (-5)), (.text "main.a", .text " 0x3 ")] =
      [("main.c", .int (-5)), ("main.a", .text " 0x3 ")] := rfl
  have hTwo : Field.ofValue (.int (-5)) squareSystem.prime = .ok 2 := rfl
  have hThree : Field.ofValue (.text " 0x3 ") squareSystem.prime = .ok 3 :=
    Except.eq_ok_of_toOption (by decide +kernel)
  refine (hExact _ (by simp [Value.text?]) ?_).1.mpr ?_ <;>
    rw [hLeaves, List.forall_mem_cons, List.forall_mem_singleton]
  · exact ⟨⟨2, hTwo⟩, ⟨3, hThree⟩⟩
  · exact ⟨⟨9, 2, ⟨⟨1, 1, 0⟩, rfl, by decide, rfl⟩, hTwo, by decide⟩,
      ⟨-4, 3, ⟨⟨2, 2, 0⟩, rfl, by decide, rfl⟩, hThree, by decide⟩⟩

/-! ### Long numbers -/

/-- A circuit over a prime, with one signal. -/
def sessionOver (prime : Nat) : Session where
  bench := {}
  circuit := { Circuit.ofPaths "mult.circom" "build" (.table []) false with
    symbols := some [("main.c", ⟨1, 1, 0⟩)]
    constraints := some ⟨⟨prime, 1792, 2, 0, 0, 1, 2, 0⟩, []⟩ }

theorem lt_length_numeral {n limit : Nat} (hLimit : 0 < limit) (h : Nat.pow 10 limit ≤ n) :
    limit < (numeral n).length := by
  refine Nat.lt_of_not_le fun hShort => ?_
  exact absurd ((Nat.length_toDigits_le_iff (by decide) hLimit).mp hShort) (Nat.not_lt.mpr h)

/-- Over a prime that is long enough, minus one is too long to be told from zero. -/
theorem assertLoosely_unsaid {prime : Nat} (hPrime : Nat.pow 10 digitLimit < prime) :
    assertLoosely (.ofIntegers [1, -1]) (.table [(.text "c", .int 0)]) (sessionOver prime) =
      .error (.value .digitsToPrint) (sessionOver prime) := by
  have hPositive : ∀ limit, 0 < Nat.pow 10 limit := fun _ => Nat.pow_pos (by decide)
  have hSome := hPositive digitLimit
  have hTwo : 2 ≤ prime := by omega
  have hValue : IsValueOf [("main.c", ⟨1, 1, 0⟩)] [1, -1] "main.c" (-1) :=
    ⟨⟨1, 1, 0⟩, rfl, by decide, rfl⟩
  have hWant : Field.ofValue (.int 0) prime = .ok 0 := by
    rw [Field.ofValue_int, Field.residue_ok (by omega), Int.zero_fmod]
  have hResidue : (-1 : Int) % prime = ((prime - 1 : Nat) : Int) := by
    rw [← Int.add_emod_right, Int.emod_eq_of_lt] <;> omega
  have hDiffers : ¬ (-1 : Int) ≡ 0 [ZMOD prime] := by
    rw [Int.ModEq, hResidue, Int.zero_emod]
    omega
  have hLong : ¬ IsShort ((-1 : Int) % prime) := by
    rw [hResidue, IsShort, Int.natAbs_natCast, Nat.not_le]
    exact lt_length_numeral (by decide) (by omega)
  have hLeaf : expectLeafOf [("main.c", ⟨1, 1, 0⟩)] prime (.ofIntegers [1, -1]) ("main.c", .int 0) =
      .error (.value .digitsToPrint) := by
    rw [expectLeafOf_value hTwo hValue hWant, if_neg hDiffers]
    rcases differFrom_int "main.c" 0 ((-1) % prime) with ⟨-, hShort, -⟩ | ⟨-, hUnsaid⟩
    · exact absurd hShort hLong
    · exact hUnsaid
  have hSymbols : (sessionOver prime).found .symbols = .ok [("main.c", ⟨1, 1, 0⟩)] := rfl
  have hSystem : (sessionOver prime).found .constraints =
      .ok ⟨⟨prime, 1792, 2, 0, 0, 1, 2, 0⟩, []⟩ := rfl
  have hAll : expectAllOf [("main.c", ⟨1, 1, 0⟩)] prime (.ofIntegers [1, -1])
      [(.text "c", .int 0)] = .error (.value .digitsToPrint) := by
    rw [expectAllOf_eq (by simp [Value.text?]), expectedLeaves_cons]
    exact forM_eq_error (fun _ hMem => absurd hMem List.not_mem_nil) hLeaf
  rw [assertLoosely_of_found hSymbols hSystem]
  show (Bench.attempt (expectAllOf [("main.c", ⟨1, 1, 0⟩)] prime (.ofIntegers [1, -1])
    [(.text "c", .int 0)]) : Step Unit) (sessionOver prime) = _
  rw [hAll]
  rfl

/-- So an expectation that is not met need not fail as one: with two numbers that differ over such a
prime, the failure is that one of them cannot be printed. -/
theorem difference_unsaid :
    ¬ ∀ (s : Session) (symbols : SymbolTable) (system : ConstraintSystem) (witness : List Int)
        (entries : List (Value × Value)),
      s.found .symbols = .ok symbols → s.found .constraints = .ok system → 2 ≤ system.prime →
      (∀ signal ∈ symbols, signal.2.wire < witness.length) →
      (∀ e ∈ entries, e.1.text? ≠ none) →
      (∀ leaf ∈ expectedLeaves entries, ∃ want, Field.ofValue leaf.2 system.prime = .ok want) →
      (∃ s', assertLoosely (.ofIntegers witness) (.table entries) s = .ok () s') ∨
        ∃ fault s', assertLoosely (.ofIntegers witness) (.table entries) s =
          .error (.expectation fault) s' := by
  intro h
  -- any prime with a digit more than are printed will do
  have hMore : ∀ limit, 0 < Nat.pow 10 limit ∧ Nat.pow 10 limit < Nat.pow 10 (limit + 1) :=
    fun limit =>
      ⟨Nat.pow_pos (by decide), Nat.pow_lt_pow_right (by decide) (Nat.lt_succ_self limit)⟩
  obtain ⟨prime, hTwo, hLong⟩ : ∃ prime : Nat, 2 ≤ prime ∧ Nat.pow 10 digitLimit < prime :=
    ⟨_, Nat.lt_of_le_of_lt (hMore digitLimit).1 (hMore digitLimit).2, (hMore digitLimit).2⟩
  have hEnd := assertLoosely_unsaid hLong
  have hLeaves : ∀ leaf ∈ expectedLeaves [(.text "c", .int 0)],
      ∃ want, Field.ofValue leaf.2 prime = .ok want := by
    intro leaf hMem
    obtain rfl := List.mem_singleton.mp hMem
    exact ⟨_, Field.residue_ok (by omega)⟩
  rcases h (sessionOver prime) [("main.c", ⟨1, 1, 0⟩)] _ [1, -1] [(.text "c", .int 0)] rfl rfl hTwo
      (by decide) (by simp [Value.text?]) hLeaves with ⟨s', hOk⟩ | ⟨fault, s', hFails⟩
  · cases hEnd.symm.trans hOk
  · cases hEnd.symm.trans hFails

end Session

end CircuitBench
