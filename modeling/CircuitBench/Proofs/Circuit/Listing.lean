import CircuitBench.Circuit.Witness
import CircuitBench.Proofs.Number.Decimal
import Mathlib.Data.List.Forall2
import Mathlib.Data.List.TakeWhile

/-!
# Which signals are listed

The listing of a witness gives a line to each signal that was not removed and has a single dot in
its name before the first bracket, in the order of the table.  The signals of the main component are
told apart from others in another way where inputs are concerned: there a name has to start with
that of the main component, and to have a single dot in all.

Every signal of the main component is listed by the first rule, because its indices hold no dot.
But not only these are.  An array of components has its brackets after the first dot and the names
of what is in it behind them, so the second dot is not seen: its signals are listed with those of
the main component.  So is a name that does not start with that of the main component, if it has a
dot at the right place.

## Main results

* `Signal.depth_base_eq_one_iff` : the names with one dot before the first bracket.
* `isListed_iff` : the signals that are listed.
* `outputLines_of_wires` : the lines of signals that are on the wires of a witness.
* `Session.decoratedOutput_lists` : the listing of a witness, and when it is that of the signals of
  the main component alone.
-/

namespace CircuitBench

open Number

/-! ## Names -/

namespace Signal

/-- Whether a name leads into an element of an array of the main component: behind the bracket that
follows the name of the array there is another dot. -/
def EntersArray (name : String) : Prop :=
  ∃ (array : String) (rest : List Char), isOwn array = true ∧ '[' ∉ array.toList ∧ '.' ∈ rest ∧
    name.toList = array.toList ++ '[' :: rest

/-- Whether a name does not start with that of the main component, and has a single dot before its
first bracket. -/
def IsForeign (name : String) : Prop :=
  ¬ mainDot <+: name.toList ∧ depth (baseChars name.toList) = 1

theorem isOwn_iff (name : String) :
    isOwn name = true ↔ depth name.toList = 1 ∧ mainDot <+: name.toList := by
  rw [isOwn, Bool.and_eq_true, beq_iff_eq, List.isPrefixOf_iff_prefix]

/-- A name is its base name, and what stands behind it. -/
theorem baseChars_append_rest (name : List Char) :
    baseChars name ++ name.dropWhile (· != '[') = name :=
  List.takeWhile_append_dropWhile

theorem bracket_not_mem_baseChars (name : List Char) : '[' ∉ baseChars name := by
  intro hMem
  have hNot := List.mem_takeWhile_imp hMem
  simp at hNot

/-- What stands behind a base name starts with a bracket. -/
theorem rest_cases (name : List Char) :
    name.dropWhile (· != '[') = [] ∨ ∃ rest, name.dropWhile (· != '[') = '[' :: rest := by
  cases hRest : name.dropWhile (· != '[') with
  | nil => exact .inl rfl
  | cons c rest =>
      have hHead := List.head?_dropWhile_not (· != '[') name
      rw [hRest] at hHead
      have hBracket : c = '[' := by simpa using hHead
      exact .inr ⟨rest, by rw [hBracket]⟩

/-- The name of the main component holds no bracket, so it is found before the first one. -/
theorem mainDot_prefix_baseChars {name : List Char} (h : mainDot <+: name) :
    mainDot <+: baseChars name := by
  obtain ⟨rest, rfl⟩ := h
  have hNoBracket : ∀ c ∈ mainDot, (c != '[') = true := List.all_eq_true.mp (by decide)
  rw [baseChars, List.takeWhile_append_of_pos hNoBracket]
  exact List.prefix_append _ _

/-- A signal of the main component has its dot before the first bracket. -/
theorem depth_baseChars_of_isOwn {name : String} (h : isOwn name = true) :
    depth (baseChars name.toList) = 1 := by
  obtain ⟨hDepth, hMain⟩ := (isOwn_iff name).mp h
  have hOne : 1 ≤ depth (baseChars name.toList) :=
    (mainDot_prefix_baseChars hMain).sublist.count_le '.'
  have hAtMost : depth (baseChars name.toList) ≤ depth name.toList :=
    (List.takeWhile_sublist _).count_le '.'
  omega

/-- A name that starts with that of the main component and has a single dot before the first bracket
is the name of a signal of the main component, unless there is another dot behind the bracket. -/
theorem own_or_entersArray {name : String} (hMain : mainDot <+: name.toList)
    (hDepth : depth (baseChars name.toList) = 1) : isOwn name = true ∨ EntersArray name := by
  have hName := baseChars_append_rest name.toList
  by_cases hDot : '.' ∈ name.toList.dropWhile (· != '[')
  · rcases rest_cases name.toList with hNone | ⟨rest, hRest⟩
    · rw [hNone] at hDot
      exact absurd hDot List.not_mem_nil
    · rw [hRest] at hName hDot
      refine .inr ⟨baseName name, rest, ?_, ?_, ?_, ?_⟩
      · rw [isOwn_iff, baseName, String.toList_ofList]
        exact ⟨hDepth, mainDot_prefix_baseChars hMain⟩
      · rw [baseName, String.toList_ofList]
        exact bracket_not_mem_baseChars _
      · exact List.mem_of_ne_of_mem (by decide) hDot
      · rw [baseName, String.toList_ofList, hName]
  · have hRest : depth (name.toList.dropWhile (· != '[')) = 0 := List.count_eq_zero.mpr hDot
    refine .inl ((isOwn_iff name).mpr ⟨?_, hMain⟩)
    rw [← hName, depth, List.count_append]
    exact congrArg₂ (· + ·) hDepth hRest

/-- The names that have a single dot before the first bracket. -/
theorem depth_base_eq_one_iff (name : String) :
    depth (baseChars name.toList) = 1 ↔
      isOwn name = true ∨ EntersArray name ∨ IsForeign name := by
  constructor
  · intro hDepth
    by_cases hMain : mainDot <+: name.toList
    · rcases own_or_entersArray hMain hDepth with hOwn | hEnters
      · exact .inl hOwn
      · exact .inr (.inl hEnters)
    · exact .inr (.inr ⟨hMain, hDepth⟩)
  · rintro (hOwn | ⟨array, rest, hOwn, hBracket, -, hName⟩ | ⟨-, hDepth⟩)
    · exact depth_baseChars_of_isOwn hOwn
    · rw [hName, baseChars_append _ _ hBracket]
      exact ((isOwn_iff array).mp hOwn).1
    · exact hDepth

/-- A name that leads into an array is not one of a signal of the main component. -/
theorem EntersArray.not_isOwn {name : String} (h : EntersArray name) : isOwn name = false := by
  obtain ⟨array, rest, hOwn, -, hDot, hName⟩ := h
  have hArray := ((isOwn_iff array).mp hOwn).1
  have hRest : 0 < rest.count '.' := List.count_pos_iff.mpr hDot
  rw [← Bool.not_eq_true, isOwn_iff]
  rintro ⟨hDepth, -⟩
  rw [depth] at hArray
  rw [hName, depth, List.count_append, List.count_cons_of_ne (by decide)] at hDepth
  omega

/-- Neither is a foreign name. -/
theorem IsForeign.not_isOwn {name : String} (h : IsForeign name) : isOwn name = false := by
  rw [← Bool.not_eq_true, isOwn_iff]
  exact fun hOwn => h.1 hOwn.2

end Signal

open Signal

/-! ## Listed signals -/

/-- The signals that are listed: those of the main component, those in arrays of components, and
foreign ones, as far as they were not removed. -/
theorem isListed_iff (signal : String × Symbol) :
    isListed signal = true ↔
      0 ≤ signal.2.wire ∧
        (isOwn signal.1 = true ∨ EntersArray signal.1 ∨ IsForeign signal.1) := by
  rw [isListed, Bool.and_eq_true, decide_eq_true_eq, beq_iff_eq, depth_base_eq_one_iff]

/-- Whether a signal is one of the main component that was not removed. -/
def isOwnSignal (signal : String × Symbol) : Bool :=
  0 ≤ signal.2.wire && isOwn signal.1

theorem isOwnSignal_iff (signal : String × Symbol) :
    isOwnSignal signal = true ↔ 0 ≤ signal.2.wire ∧ isOwn signal.1 = true := by
  rw [isOwnSignal, Bool.and_eq_true, decide_eq_true_eq]

/-- No others than the signals of the main component are listed exactly if there are no others with
a single dot before the first bracket. -/
theorem listed_eq_own_iff (symbols : SymbolTable) :
    symbols.filter isListed = symbols.filter isOwnSignal ↔
      ∀ signal ∈ symbols, 0 ≤ signal.2.wire →
        ¬ EntersArray signal.1 ∧ ¬ IsForeign signal.1 := by
  constructor
  · intro hSame signal hMem hWire
    have hOwn : isListed signal = true → isOwn signal.1 = true := by
      intro hListed
      have hThere := List.mem_filter.mpr ⟨hMem, hListed⟩
      rw [hSame] at hThere
      exact ((isOwnSignal_iff signal).mp (List.mem_filter.mp hThere).2).2
    refine ⟨fun hEnters => ?_, fun hForeign => ?_⟩
    · have hNot := hOwn ((isListed_iff signal).mpr ⟨hWire, .inr (.inl hEnters)⟩)
      rw [hEnters.not_isOwn] at hNot
      cases hNot
    · have hNot := hOwn ((isListed_iff signal).mpr ⟨hWire, .inr (.inr hForeign)⟩)
      rw [hForeign.not_isOwn] at hNot
      cases hNot
  · intro hNone
    refine List.filter_congr fun signal hMem => ?_
    rw [Bool.eq_iff_iff, isListed_iff, isOwnSignal_iff]
    constructor
    · rintro ⟨hWire, hOwn | hEnters | hForeign⟩
      · exact ⟨hWire, hOwn⟩
      · exact absurd hEnters (hNone signal hMem hWire).1
      · exact absurd hForeign (hNone signal hMem hWire).2
    · rintro ⟨hWire, hOwn⟩
      exact ⟨hWire, .inl hOwn⟩

/-! ## Lines -/

/-- Whether a line gives a signal with the value of its wire. -/
def IsLineOf (witness : List Int) (signal : String × Symbol) (line : String) : Prop :=
  ∃ value, witness[signal.2.wire.toNat]? = some value ∧
    line = signal.1 ++ " --> " ++ toString value

/-- Whether the value of a signal is not too long to print. -/
def IsPrintable (witness : List Int) (signal : String × Symbol) : Prop :=
  ∃ value, witness[signal.2.wire.toNat]? = some value ∧
    (numeral value.natAbs).length ≤ digitLimit

theorem inlineText_int (n : Int) :
    (Value.int n).inlineText =
      if (numeral n.natAbs).length ≤ digitLimit then .ok (toString n)
      else .error (.value .digitsToPrint) := by
  have hInline : (Value.int n).inlineText? = printInteger? n := rfl
  rw [Value.inlineText, hInline, printInteger?_eq]
  by_cases hShort : (numeral n.natAbs).length ≤ digitLimit
  · rw [if_pos hShort, if_pos hShort]
  · rw [if_neg hShort, if_neg hShort]

/-- The line of a signal that is on a wire of a witness. -/
theorem outputLine_of_wire {witness : List Int} {signal : String × Symbol}
    (hWire : 0 ≤ signal.2.wire) (hLong : signal.2.wire < witness.length) :
    ∃ line, IsLineOf witness signal line ∧
      ((IsPrintable witness signal ∧
          outputLine (Value.ofIntegers witness).entry signal = .ok line) ∨
        (¬ IsPrintable witness signal ∧
          outputLine (Value.ofIntegers witness).entry signal =
            .error (.value .digitsToPrint))) := by
  obtain ⟨n, hn⟩ := Int.eq_ofNat_of_zero_le hWire
  have hLt : n < witness.length := by omega
  have hValue : witness[signal.2.wire.toNat]? = some witness[n] := by
    rw [hn, Int.toNat_natCast, List.getElem?_eq_getElem hLt]
  have hEntry : (Value.ofIntegers witness).entry signal.2.wire = .ok (.int witness[n]) := by
    rw [entry_ofIntegers, hn, atIndex_ofNat witness n hLt]
    rfl
  refine ⟨_, ⟨_, hValue, rfl⟩, ?_⟩
  simp only [outputLine, hEntry, inlineText_int, bind, Except.bind]
  by_cases hShort : (numeral (witness[n]).natAbs).length ≤ digitLimit
  · rw [if_pos hShort]
    exact .inl ⟨⟨_, hValue, hShort⟩, rfl⟩
  · rw [if_neg hShort]
    refine .inr ⟨?_, rfl⟩
    rintro ⟨value, hSome, hPrintable⟩
    cases hValue.symm.trans hSome
    exact hShort hPrintable

/-- The lines of signals that are on the wires of a witness: one for each, in order, or none if one
of the values is too long to print. -/
theorem outputLines_of_wires {witness : List Int} {signals : List (String × Symbol)}
    (h : ∀ signal ∈ signals, 0 ≤ signal.2.wire ∧ signal.2.wire < witness.length) :
    ∃ lines, List.Forall₂ (IsLineOf witness) signals lines ∧
      (((∀ signal ∈ signals, IsPrintable witness signal) ∧
          outputLines (Value.ofIntegers witness).entry signals = .ok lines) ∨
        (¬ (∀ signal ∈ signals, IsPrintable witness signal) ∧
          outputLines (Value.ofIntegers witness).entry signals =
            .error (.value .digitsToPrint))) := by
  induction signals with
  | nil => exact ⟨[], .nil, .inl ⟨fun _ hMem => absurd hMem List.not_mem_nil, rfl⟩⟩
  | cons signal rest ih =>
      rw [List.forall_mem_cons] at h
      obtain ⟨line, hLine, hFirst⟩ := outputLine_of_wire h.1.1 h.1.2
      obtain ⟨lines, hLines, hRest⟩ := ih h.2
      refine ⟨line :: lines, .cons hLine hLines, ?_⟩
      rw [List.forall_mem_cons, outputLines]
      rcases hFirst with ⟨hPrints, hFirst⟩ | ⟨hNot, hFirst⟩
      · rcases hRest with ⟨hAll, hRest⟩ | ⟨hNotAll, hRest⟩
        · exact .inl ⟨⟨hPrints, hAll⟩, by rw [hFirst, hRest]; rfl⟩
        · exact .inr ⟨fun hAll => hNotAll hAll.2, by rw [hFirst, hRest]; rfl⟩
      · exact .inr ⟨fun hAll => hNot hAll.1, by rw [hFirst]; rfl⟩

/-! ## The listing -/

namespace Session

open Bench

/-- The listing of a witness that has a value for the wire of every signal.  It gives a line to each
signal that is listed, in the order of the table, with the value of its wire, unless one of these
values is too long to print.  The signals of the main component are among those that are listed, and
there are no others exactly if no signal that was not removed lies in an array of components or has
a foreign name. -/
theorem decoratedOutput_lists {s s' : Session} {symbols : SymbolTable}
    (hLoad : loadSymbols s = .ok symbols s') {witness : List Int}
    (hLong : ∀ signal ∈ symbols, signal.2.wire < witness.length) :
    (∃ lines, List.Forall₂ (IsLineOf witness) (symbols.filter isListed) lines ∧
      (((∀ signal ∈ symbols.filter isListed, IsPrintable witness signal) ∧
          decoratedOutput (Value.ofIntegers witness).entry s =
            .ok ("\n".intercalate lines) s') ∨
        (¬ (∀ signal ∈ symbols.filter isListed, IsPrintable witness signal) ∧
          decoratedOutput (Value.ofIntegers witness).entry s =
            .error (.value .digitsToPrint) s'))) ∧
    (∀ signal, isListed signal = true ↔
      0 ≤ signal.2.wire ∧
        (isOwn signal.1 = true ∨ EntersArray signal.1 ∨ IsForeign signal.1)) ∧
    (symbols.filter isListed = symbols.filter isOwnSignal ↔
      ∀ signal ∈ symbols, 0 ≤ signal.2.wire →
        ¬ EntersArray signal.1 ∧ ¬ IsForeign signal.1) := by
  refine ⟨?_, isListed_iff, listed_eq_own_iff symbols⟩
  have hWires : ∀ signal ∈ symbols.filter isListed,
      0 ≤ signal.2.wire ∧ signal.2.wire < witness.length := by
    intro signal hSignal
    obtain ⟨hMem, hListed⟩ := List.mem_filter.mp hSignal
    exact ⟨((isListed_iff signal).mp hListed).1, hLong signal hMem⟩
  have hDecorated : decoratedOutput (Value.ofIntegers witness).entry s =
      attempt (CircuitBench.listing symbols (Value.ofIntegers witness).entry) s' := by
    rw [decoratedOutput]
    simp only [bind, EStateM.bind, hLoad]
  obtain ⟨lines, hLines, hEnd⟩ := outputLines_of_wires hWires
  refine ⟨lines, hLines, ?_⟩
  rw [hDecorated, CircuitBench.listing]
  rcases hEnd with ⟨hAll, hEnd⟩ | ⟨hNot, hEnd⟩
  · exact .inl ⟨hAll, by rw [hEnd]; rfl⟩
  · exact .inr ⟨hNot, by rw [hEnd]; rfl⟩

/-- A table with a signal of the main component, one in an array of components, a removed one and
one of a component. -/
def arraySymbols : SymbolTable :=
  [("main.out", ⟨1, 1, 0⟩), ("main.sub[0].x", ⟨2, 2, 1⟩), ("main.gone", ⟨3, -1, 0⟩),
    ("main.one.y", ⟨4, 2, 2⟩)]

/-- A circuit with these signals. -/
def arraySession : Session :=
  ⟨{}, { Circuit.ofPaths "m.circom" "out" .null false with symbols := some arraySymbols }⟩

/-- The listing of a witness of three values. -/
theorem decoratedOutput_array :
    (∀ signal ∈ arraySymbols, signal.2.wire < [1, -12, 7].length) ∧
      ∃ lines, List.Forall₂ (IsLineOf [1, -12, 7]) (arraySymbols.filter isListed) lines ∧
        decoratedOutput (Value.ofIntegers [1, -12, 7]).entry arraySession =
          .ok ("\n".intercalate lines) arraySession := by
  have hLong : ∀ signal ∈ arraySymbols, signal.2.wire < ([1, -12, 7] : List Int).length := by
    decide
  have hListed : arraySymbols.filter isListed =
      [("main.out", ⟨1, 1, 0⟩), ("main.sub[0].x", ⟨2, 2, 1⟩)] := by
    decide
  obtain ⟨lines, hLines, hEnd⟩ :=
    (decoratedOutput_lists (loadSymbols_of_some (s := arraySession) rfl) hLong).1
  refine ⟨hLong, lines, hLines, ?_⟩
  rcases hEnd with ⟨-, hEnd⟩ | ⟨hNot, -⟩
  · exact hEnd
  · refine absurd ?_ hNot
    rw [hListed]
    simp only [List.forall_mem_cons]
    exact ⟨⟨-12, rfl, by decide⟩, ⟨7, rfl, by decide⟩, fun _ hMem => absurd hMem List.not_mem_nil⟩

/-- Not every signal that is listed is one of the main component: a line is given to a signal in an
array of components. -/
theorem component_listed :
    ¬ ∀ (s : Session) (symbols : SymbolTable) (witness : List Int) (text : String),
      s.circuit.symbols = some symbols →
      (∀ signal ∈ symbols, signal.2.wire < witness.length) →
      decoratedOutput (Value.ofIntegers witness).entry s = .ok text s →
      ∃ lines, List.Forall₂ (IsLineOf witness) (symbols.filter isOwnSignal) lines ∧
        text = "\n".intercalate lines := by
  intro h
  have hText : decoratedOutput (Value.ofIntegers [1, -12, 7]).entry arraySession =
      .ok "main.out --> -12\nmain.sub[0].x --> 7" arraySession := by
    rfl
  obtain ⟨lines, hLines, hSame⟩ := h arraySession arraySymbols [1, -12, 7] _ rfl (by decide) hText
  have hOwn : arraySymbols.filter isOwnSignal = [("main.out", ⟨1, 1, 0⟩)] := by decide
  rw [hOwn] at hLines
  cases hLines with
  | cons hLine hNone =>
      cases hNone
      obtain ⟨value, hValue, rfl⟩ := hLine
      cases hValue
      revert hSame
      decide

end Session

end CircuitBench
