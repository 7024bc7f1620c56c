import CircuitBench.Circuit.Files
import CircuitBench.Proofs.Bench.Preserved
import CircuitBench.Proofs.Symbol.Rows
import CircuitBench.Proofs.Text.Utf8

/-!
# Malformed lines of a symbol file

A line that is not blank is malformed if it has fewer than three commas, or if what stands in front
of one of the first three is no decimal literal of an integer.  White space around the line does not
count.  Reading stops at the first malformed line, whatever stands behind it, and the report names
that line by its number, with blank lines counted.

Together with the rows of a file this says what becomes of a symbol file: a file that lists rows is
read as their table, and a file with a malformed line is refused.

## Main results

* `readFields_of_isMalformed`, `readFields_of_not_isMalformed` : which lines are read.
* `readLines_first_malformed` : the first malformed line is the one that is reported.
* `readSymbols_rows` : what becomes of a symbol file.
-/

namespace CircuitBench

namespace SymbolTable

open Number Text

/-! ## Fields -/

/-- Splitting at the first commas gives a field for each comma, up to the limit, and one more. -/
theorem length_splitFields (limit : Nat) (s : List Char) :
    (splitFields limit s).length = min limit (s.count ',') + 1 := by
  induction s generalizing limit with
  | nil => cases limit <;> simp [splitFields]
  | cons c s ih =>
      cases limit with
      | zero => simp [splitFields]
      | succ limit =>
          rw [splitFields]
          by_cases hComma : c = ','
          · subst hComma
            rw [if_pos rfl, List.length_cons, ih, List.count_cons_self]
            omega
          · have hSome : splitFields (limit + 1) s ≠ [] := by
              rw [← List.length_pos_iff_ne_nil, ih]
              omega
            obtain ⟨field, fields, hSplit⟩ := List.exists_cons_of_ne_nil hSome
            have hLength := ih (limit + 1)
            rw [hSplit, List.length_cons] at hLength
            rw [if_neg hComma, hSplit, consFirst, List.length_cons, hLength,
              List.count_cons_of_ne hComma]

/-- A text with a comma has a first one. -/
theorem exists_field (count : Nat) {s : List Char} (h : count < s.count ',') :
    ∃ field rest, s = field ++ ',' :: rest ∧ ',' ∉ field ∧ count ≤ rest.count ',' := by
  have hMem : ',' ∈ s := List.count_pos_iff.mp (by omega)
  obtain ⟨field, rest, rfl, hField⟩ := List.eq_append_cons_of_mem hMem
  refine ⟨field, rest, rfl, hField, ?_⟩
  rw [List.count_append, List.count_eq_zero_of_not_mem hField, List.count_cons_self] at h
  omega

/-- What a line consists of: three fields without commas, each with a comma behind it, and the
rest. -/
structure IsSplit (s label wire component name : List Char) : Prop where
  joined : s = label ++ ',' :: (wire ++ ',' :: (component ++ ',' :: name))
  label : ',' ∉ label
  wire : ',' ∉ wire
  component : ',' ∉ component

theorem exists_isSplit {s : List Char} (h : 3 ≤ s.count ',') :
    ∃ label wire component name, IsSplit s label wire component name := by
  obtain ⟨label, rest, rfl, hLabel, h⟩ := exists_field 2 h
  obtain ⟨wire, rest, rfl, hWire, h⟩ := exists_field 1 h
  obtain ⟨component, name, rfl, hComponent, -⟩ := exists_field 0 h
  exact ⟨label, wire, component, name, rfl, hLabel, hWire, hComponent⟩

/-! ## Malformed lines -/

/-- Whether a field is no integer. -/
def IsNoInteger (field : List Char) : Prop :=
  ∀ n, ¬IsDecimalLiteral n field

/-- Whether a line can be read neither as a row nor as a blank line: without the white space around it
there is something, but fewer than three commas, or one of the first three fields is no integer. -/
inductive IsMalformed (l : List Char) : Prop
  | fields (hVisible : trim l ≠ []) (hFew : (trim l).count ',' < 3)
  | number {label wire component name field : List Char}
      (hSplit : IsSplit (trim l) label wire component name)
      (hField : field ∈ [label, wire, component]) (hNone : IsNoInteger field)

theorem IsMalformed.visible {l : List Char} (h : IsMalformed l) : trim l ≠ [] := by
  cases h with
  | fields hVisible _ => exact hVisible
  | number hSplit _ _ =>
      rw [hSplit.joined]
      exact List.append_ne_nil_of_right_ne_nil _ (List.cons_ne_nil _ _)

/-- Whether a report names a line of a file. -/
def NamesLine (file : String) (number : Nat) (fault : FormatFault) : Prop :=
  ∃ rest, fault.message = file ++ ":" ++ toString number ++ ": " ++ rest

section OneLine

variable (file : String) (number : Nat)

/-- A field that is no integer is refused, in a report that names its line. -/
theorem readField_of_isNoInteger {field : List Char} (h : IsNoInteger field) :
    ∃ fault, readField file number field = .error (.format fault) ∧
      NamesLine file number fault := by
  cases hRead : readInteger 10 field with
  | ok n => exact absurd ((readInteger_eq_ok_iff field n).mp hRead) (h n)
  | error fault =>
      exact ⟨_, by rw [readField, hRead], _, rfl⟩

/-- A field that is an integer is read. -/
theorem readField_of_not_isNoInteger {field : List Char} (h : ¬IsNoInteger field) :
    ∃ n, readField file number field = .ok n := by
  obtain ⟨n, hNot⟩ := not_forall.mp h
  exact ⟨n, by rw [readField, (readInteger_eq_ok_iff field n).mpr (not_not.mp hNot)]⟩

theorem readFields_of_isSplit {s label wire component name : List Char}
    (hSplit : IsSplit s label wire component name) :
    readFields file number s = (do
      let label ← readField file number label
      let wire ← readField file number wire
      let component ← readField file number component
      return (String.ofList name, ⟨label, wire, component⟩)) := by
  obtain ⟨rfl, hLabel, hWire, hComponent⟩ := hSplit
  rw [readFields, splitFields_line label wire component name hLabel hWire hComponent]

theorem namesLine_symbolFields (found : Nat) :
    NamesLine file number (.symbolFields file number found) := by
  have hWords : ": expected 4 fields, got " = ": " ++ "expected 4 fields, got " := by decide
  refine ⟨"expected 4 fields, got " ++ toString found, ?_⟩
  show file ++ ":" ++ toString number ++ ": expected 4 fields, got " ++ toString found = _
  rw [hWords]
  simp only [String.append_assoc]

theorem readFields_of_isMalformed {l : List Char} (h : IsMalformed l) :
    ∃ fault, readFields file number (trim l) = .error (.format fault) ∧
      NamesLine file number fault := by
  cases h with
  | fields hVisible hFew =>
      have hLength := length_splitFields 3 (trim l)
      rw [readFields]
      split
      · rename_i hFour
        rw [hFour] at hLength
        simp only [List.length_cons, List.length_nil] at hLength
        omega
      · exact ⟨_, rfl, namesLine_symbolFields file number _⟩
  | @number label wire component name field hSplit hField hNone =>
      rw [readFields_of_isSplit file number hSplit]
      by_cases hLabel : IsNoInteger label
      · obtain ⟨fault, hRead, hNames⟩ := readField_of_isNoInteger file number hLabel
        exact ⟨fault, by rw [hRead]; rfl, hNames⟩
      obtain ⟨a, hReadLabel⟩ := readField_of_not_isNoInteger file number hLabel
      rw [hReadLabel]
      by_cases hWire : IsNoInteger wire
      · obtain ⟨fault, hRead, hNames⟩ := readField_of_isNoInteger file number hWire
        exact ⟨fault, by rw [hRead]; rfl, hNames⟩
      obtain ⟨b, hReadWire⟩ := readField_of_not_isNoInteger file number hWire
      rw [hReadWire]
      have hComponent : IsNoInteger component := by
        simp only [List.mem_cons, List.not_mem_nil, or_false] at hField
        rcases hField with rfl | rfl | rfl
        · exact absurd hNone hLabel
        · exact absurd hNone hWire
        · exact hNone
      obtain ⟨fault, hRead, hNames⟩ := readField_of_isNoInteger file number hComponent
      exact ⟨fault, by rw [hRead]; rfl, hNames⟩

theorem readFields_of_not_isMalformed {l : List Char} (hVisible : trim l ≠ [])
    (h : ¬IsMalformed l) : ∃ row, readFields file number (trim l) = .ok row := by
  have hEnough : 3 ≤ (trim l).count ',' := Nat.le_of_not_lt fun hFew => h (.fields hVisible hFew)
  obtain ⟨label, wire, component, name, hSplit⟩ := exists_isSplit hEnough
  have hRead : ∀ field ∈ [label, wire, component], ∃ n, readField file number field = .ok n :=
    fun field hField => readField_of_not_isNoInteger file number fun hNone =>
      h (.number hSplit hField hNone)
  obtain ⟨a, hLabel⟩ := hRead label (by simp)
  obtain ⟨b, hWire⟩ := hRead wire (by simp)
  obtain ⟨c, hComponent⟩ := hRead component (by simp)
  exact ⟨_, by rw [readFields_of_isSplit file number hSplit, hLabel, hWire, hComponent]; rfl⟩

/-- The first malformed line is the one that is reported, whatever stands behind it. -/
theorem readLines_first_malformed {ls : List (List Char)} {k : Nat} {l : List Char}
    (hAt : ls[k]? = some l) (hBad : IsMalformed l)
    (hBefore : ∀ j < k, ∀ l', ls[j]? = some l' → ¬IsMalformed l') (number : Nat)
    (t : SymbolTable) :
    ∃ fault, readLines file number t ls = .error (.format fault) ∧
      NamesLine file (number + k) fault := by
  induction ls generalizing k number t with
  | nil => cases hAt
  | cons first ls ih =>
      cases k with
      | zero =>
          cases hAt
          obtain ⟨fault, hRead, hNames⟩ := readFields_of_isMalformed file number hBad
          refine ⟨fault, ?_, hNames⟩
          rw [readLines]
          split
          · rename_i hBlank
            exact absurd hBlank hBad.visible
          · rw [hRead]
            rfl
      | succ k =>
          have hRest : ∀ t, ∃ fault, readLines file (number + 1) t ls = .error (.format fault) ∧
              NamesLine file (number + (k + 1)) fault := by
            intro t
            rw [Nat.add_comm k 1, ← Nat.add_assoc]
            exact ih hAt (fun j hj => hBefore (j + 1) (Nat.succ_lt_succ hj)) (number + 1) t
          rw [readLines]
          split
          · exact hRest t
          · rename_i hVisible
            obtain ⟨row, hRead⟩ := readFields_of_not_isMalformed file number hVisible
              (hBefore 0 (Nat.succ_pos k) first rfl)
            rw [hRead]
            exact hRest _

end OneLine

theorem read_encode (file text : String) :
    read file (Utf8.encode text) = readText file text.toList := by
  rw [read, Utf8.decode?_encode]

end SymbolTable

namespace Bench

open SymbolTable Text

theorem readSymbols_of_readFile {path text : String} {b : Bench}
    (hFile : b.disk.readFile b.current path = .ok (Utf8.encode text)) :
    readSymbols path b = attempt (SymbolTable.readText path text.toList) b := by
  have hBytes : readBytes path b = .ok (Utf8.encode text) b := ask_ok hFile
  rw [readSymbols, bind_ok hBytes, read_encode]

/-- A text that lists rows can be stored.  It is read as their table: the rows themselves, if their
names are different, and otherwise each name once, in the order in which the names first occur, with
what was listed for it last.  A text with a malformed line is refused, and the report names the first
of these lines by its number. -/
theorem readSymbols_rows {path text : String} {b : Bench}
    (hFile : b.disk.readFile b.current path = .ok (Utf8.encode text)) :
    (∀ rows, Lists rows text.toList → Utf8.encode? text = some (Utf8.encode text) ∧
      ∃ t, readSymbols path b = .ok t b ∧ ((rows.map Prod.fst).Nodup → t = rows) ∧
        t.names = (rows.map Prod.fst).eraseDups ∧
        ∀ name, t.get? name = (rows.reverse.find? fun row => row.1 == name).map Prod.snd) ∧
    ∀ k l, (lines text.toList)[k]? = some l → IsMalformed l →
      (∀ j < k, ∀ l', (lines text.toList)[j]? = some l' → ¬IsMalformed l') →
        ∃ fault, readSymbols path b = .error (.format fault) b ∧ NamesLine path (k + 1) fault := by
  rw [readSymbols_of_readFile hFile]
  refine ⟨fun rows hLists => ⟨?_, ?_⟩, fun k l hAt hBad hBefore => ?_⟩
  · have hWhole : hasHalf text = false :=
      List.any_eq_false.mpr fun c hc => Bool.not_eq_true _ ▸ isHalf_of_lists hLists c hc
    rw [Utf8.encode?, hWhole]
    rfl
  · rw [readText_of_lists hLists]
    exact ⟨ofList rows, rfl, ofList_of_nodup, names_ofList rows, get?_ofList rows⟩
  · obtain ⟨fault, hRead, hNames⟩ := readLines_first_malformed path hAt hBad hBefore 1 []
    rw [SymbolTable.readText, hRead, Nat.add_comm k 1]
    exact ⟨fault, rfl, hNames⟩

/-- Two rows of one name with a comma in it and a row of a removed signal between them, in lines that
end in all three ways; and a file of which the second line, behind an empty one, has a letter for a
number. -/
theorem readSymbols_rows_mixed :
    let rows : List (String × Symbol) := [("main.a,b", ⟨1, 2, 3⟩), ("c", ⟨4, -1, 6⟩),
      ("main.a,b", ⟨7, 8, 9⟩)]
    let text := "1,2,3,main.a,b\r\n\t\r4,-1,6,c\r7,8,9,main.a,b"
    let faulty := "\r\n1,x,3,b\n4,5"
    let b : Bench := { disk := ⟨[(["a"], .file (Utf8.encode text)),
      (["b"], .file (Utf8.encode faulty))]⟩ }
    (∃ t, readSymbols "/a" b = .ok t b ∧ t.names = ["main.a,b", "c"] ∧
      t.get? "main.a,b" = some ⟨7, 8, 9⟩ ∧ Lists rows text.toList) ∧
    ∃ fault, readSymbols "/b" b = .error (.format fault) b ∧ NamesLine "/b" 2 fault := by
  intro rows text faulty b
  have hFile : b.disk.readFile b.current "/a" = .ok (Utf8.encode text) := by rfl
  have hFaulty : b.disk.readFile b.current "/b" = .ok (Utf8.encode faulty) := by rfl
  have hFirst : IsRow ("main.a,b", ⟨1, 2, 3⟩) := by decide
  have hSecond : IsRow ("c", ⟨4, -1, 6⟩) := by decide
  have hThird : IsRow ("main.a,b", ⟨7, 8, 9⟩) := by decide
  have hBlank : IsBlankLine ['\t'] := by decide
  have hText : text.toList = line "main.a,b" ⟨1, 2, 3⟩ ++ (['\r', '\n'] ++ (['\t'] ++ (['\r'] ++
      (line "c" ⟨4, -1, 6⟩ ++ (['\r'] ++ line "main.a,b" ⟨7, 8, 9⟩))))) := by
    decide +kernel
  have hLists : Lists rows text.toList := by
    rw [hText]
    exact .row hFirst .both (.blank hBlank .carriageReturn (.row hSecond .carriageReturn
      (.lastRow hThird)))
  obtain ⟨-, t, hRead, -, hNames, hHolds⟩ := (readSymbols_rows hFile).1 rows hLists
  refine ⟨⟨t, hRead, hNames.trans (by decide), (hHolds _).trans (by decide), hLists⟩, ?_⟩
  have hNone : IsNoInteger ['x'] := by
    intro n hLiteral
    have hRefused : Number.readInteger 10 ['x'] = .error (.malformed 10) := by decide
    rw [(Number.readInteger_eq_ok_iff ['x'] n).mpr hLiteral] at hRefused
    cases hRefused
  have hSplit : IsSplit (trim "1,x,3,b".toList) ['1'] ['x'] ['3'] ['b'] :=
    ⟨by decide, by decide, by decide, by decide⟩
  have hBad : IsMalformed "1,x,3,b".toList := .number hSplit (by decide) hNone
  have hEmpty : (lines faulty.toList)[0]? = some [] := by decide
  refine (readSymbols_rows hFaulty).2 1 "1,x,3,b".toList (by decide) hBad ?_
  intro j hj l' hAt hMalformed
  cases Nat.lt_one_iff.mp hj
  cases hEmpty.symm.trans hAt
  exact hMalformed.visible rfl

end Bench

end CircuitBench
