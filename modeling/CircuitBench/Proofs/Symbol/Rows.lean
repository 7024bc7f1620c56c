import CircuitBench.Proofs.Field.Spellings
import CircuitBench.Proofs.Json.Strings
import CircuitBench.Proofs.Number.Literals
import CircuitBench.Symbol.Text

/-!
# The rows of a symbol file

A symbol file lists a row on a line: the three numbers of a signal and its name, with commas between
them.  The lines may end in any of the three ways, and lines of white space alone may stand anywhere.
What a file lists is defined here by the way it is put together, without a look at its reader: the
reader makes of it the table that the rows make when they are put one after the other.

In such a table every name stands once, in the order in which the names first occur, with the numbers
that were listed for it last.

## Main results

* `names_ofList`, `get?_ofList` : the names of a table, and what it holds for each.
* `readText_of_lists` : a text is read as the table of the rows that it lists.
-/

namespace CircuitBench.SymbolTable

open Number Text

/-! ## Tables of rows -/

theorem ofList_append_singleton (rows : List (String × Symbol)) (row : String × Symbol) :
    ofList (rows ++ [row]) = (ofList rows).put row.1 row.2 := by
  rw [ofList, List.foldl_append]
  rfl

/-- A table has the names of its rows in the order in which they first occur. -/
theorem names_ofList (rows : List (String × Symbol)) :
    (ofList rows).names = (rows.map Prod.fst).eraseDups := by
  induction rows using List.reverseRecOn with
  | nil => rfl
  | append_singleton rows row ih =>
      rw [ofList_append_singleton, List.map_append, List.eraseDups_append, ← ih]
      by_cases hKnown : row.1 ∈ (ofList rows).names
      · have hListed : row.1 ∈ rows.map Prod.fst := by rwa [ih, List.mem_eraseDups] at hKnown
        rw [names_put_of_mem _ hKnown, List.map_singleton, List.removeAll,
          List.filter_cons_of_neg (by simpa using hListed)]
        exact (List.append_nil _).symm
      · have hNew : row.1 ∉ rows.map Prod.fst := by rwa [ih, List.mem_eraseDups] at hKnown
        rw [names_put_of_not_mem _ hKnown, names, List.map_append, List.map_singleton,
          List.removeAll, List.filter_cons_of_pos (by simpa using hNew)]
        rfl

/-- A table holds for a name what was listed for it last. -/
theorem get?_ofList (rows : List (String × Symbol)) (name : String) :
    (ofList rows).get? name =
      (rows.reverse.find? fun row => row.1 == name).map Prod.snd := by
  induction rows using List.reverseRecOn with
  | nil => rfl
  | append_singleton rows row ih =>
      rw [ofList_append_singleton, List.reverse_append, List.reverse_singleton,
        List.singleton_append]
      by_cases hName : row.1 = name
      · subst hName
        rw [get?_put_self, List.find?_cons_of_pos (by simp)]
        rfl
      · rw [get?_put_of_ne _ (Ne.symm hName), ih, List.find?_cons_of_neg (by simpa using hName)]

/-- Rows with different names are the table that they make. -/
theorem ofList_of_nodup {rows : List (String × Symbol)} (h : (rows.map Prod.fst).Nodup) :
    ofList rows = rows := by
  induction rows using List.reverseRecOn with
  | nil => rfl
  | append_singleton rows row ih =>
      rw [List.map_append, List.nodup_append] at h
      obtain ⟨hRows, -, hApart⟩ := h
      have hNew : row.1 ∉ (ofList rows).names := by
        rw [ih hRows]
        exact fun hMem => hApart row.1 hMem row.1 (List.mem_singleton_self _) rfl
      rw [ofList_append_singleton, names_put_of_not_mem _ hNew, ih hRows]

/-! ## Lines -/

/-- Whether a row can be listed: its numbers are not too long, and its name has no line end and no
half of a surrogate pair in it, and no white space at its end. -/
structure IsRow (row : String × Symbol) : Prop where
  label : (numeral row.2.label.natAbs).length ≤ digitLimit
  wire : (numeral row.2.wire.natAbs).length ≤ digitLimit
  component : (numeral row.2.component.natAbs).length ≤ digitLimit
  oneLine : ∀ c ∈ row.1.toList, isLineEnd c = false
  closed : ∀ c ∈ row.1.toList.getLast?, isBlank c = false
  whole : hasHalf row.1 = false

instance (row : String × Symbol) : Decidable (IsRow row) :=
  decidable_of_iff
    ((numeral row.2.label.natAbs).length ≤ digitLimit ∧
      (numeral row.2.wire.natAbs).length ≤ digitLimit ∧
      (numeral row.2.component.natAbs).length ≤ digitLimit ∧
      row.1.toList.any isLineEnd = false ∧ row.1.toList.getLast?.toList.any isBlank = false ∧
      hasHalf row.1 = false)
    ⟨fun ⟨hLabel, hWire, hComponent, hLine, hLast, hWhole⟩ =>
      ⟨hLabel, hWire, hComponent, by simpa using hLine, by simpa using hLast, hWhole⟩,
    fun h => ⟨h.label, h.wire, h.component, by simpa using h.oneLine, by simpa using h.closed,
      h.whole⟩⟩

/-- What ends a line. -/
inductive IsEnd : List Char → Prop
  | lineFeed : IsEnd ['\n']
  | carriageReturn : IsEnd ['\r']
  | both : IsEnd ['\r', '\n']

/-- Whether a line is of white space alone. -/
def IsBlankLine (l : List Char) : Prop :=
  ∀ c ∈ l, isBlank c = true ∧ isLineEnd c = false

instance (l : List Char) : Decidable (IsBlankLine l) :=
  decidable_of_iff (l.all (fun c => isBlank c && !isLineEnd c) = true) (by simp [IsBlankLine])

/-- A text lists rows: one on a line, with blank lines anywhere between them, and each line ended in
one of the three ways, the last one also by the end of the text. -/
inductive Lists : List (String × Symbol) → List Char → Prop
  | last {l : List Char} (hBlank : IsBlankLine l) : Lists [] l
  | lastRow {row : String × Symbol} (hRow : IsRow row) : Lists [row] (line row.1 row.2)
  | blank {rows : List (String × Symbol)} {l lineEnd rest : List Char} (hBlank : IsBlankLine l)
      (hEnd : IsEnd lineEnd) (hRest : Lists rows rest) : Lists rows (l ++ (lineEnd ++ rest))
  | row {row : String × Symbol} {rows : List (String × Symbol)} {lineEnd rest : List Char}
      (hRow : IsRow row) (hEnd : IsEnd lineEnd) (hRest : Lists rows rest) :
      Lists (row :: rows) (line row.1 row.2 ++ (lineEnd ++ rest))

/-! ## A line -/

/-- The characters of an integer's decimal text. -/
theorem isVisible_of_mem_toString {n : Int} {c : Char} (h : c ∈ (toString n).toList) :
    IsVisible c ∧ c ≠ ',' := by
  rw [toList_toString_int] at h
  have hDigit : ∀ c ∈ numeral n.natAbs, IsVisible c ∧ c ≠ ',' := by
    intro c hc
    obtain ⟨hLow, hHigh⟩ := digit_of_mem_numeral hc
    refine ⟨⟨by omega, by omega⟩, ?_⟩
    rintro rfl
    exact absurd hLow (by decide)
  split at h
  · rcases List.mem_cons.mp h with rfl | h
    · exact ⟨⟨by decide, by decide⟩, by decide⟩
    · exact hDigit c h
  · exact hDigit c h

theorem isLineEnd_of_isVisible {c : Char} (h : IsVisible c) : isLineEnd c = false := by
  obtain ⟨hLow, -⟩ := h
  rw [isLineEnd, Bool.or_eq_false_iff, beq_eq_false_iff_ne, beq_eq_false_iff_ne]
  constructor
  · rintro rfl
    exact absurd hLow (by decide)
  · rintro rfl
    exact absurd hLow (by decide)

theorem readInteger_toString {n : Int} (h : (numeral n.natAbs).length ≤ digitLimit) :
    readInteger 10 (toString n).toList = .ok n := by
  rw [Field.toList_toString_signed, readInteger_decimal h, Field.signed_natAbs]

/-- A text that neither starts nor ends with white space has none around it. -/
theorem trim_eq_self {s : List Char} (hFirst : ∀ c ∈ s.head?, isBlank c = false)
    (hLast : ∀ c ∈ s.getLast?, isBlank c = false) : trim s = s := by
  have hDrop : ∀ s : List Char, (∀ c ∈ s.head?, isBlank c = false) → s.dropWhile isBlank = s := by
    intro s hFirst
    cases s with
    | nil => rfl
    | cons c rest => exact List.dropWhile_cons_of_neg (by rw [hFirst c rfl]; decide)
  rw [trim, trimStart, hDrop s hFirst, trimEnd, hDrop, List.reverse_reverse]
  rw [List.head?_reverse]
  exact hLast

theorem line_eq (name : String) (s : Symbol) :
    line name s = (toString s.label).toList ++ ',' :: ((toString s.wire).toList ++
      ',' :: ((toString s.component).toList ++ ',' :: name.toList)) := by
  simp only [line, List.append_assoc, List.cons_append]

section OneLine

variable {row : String × Symbol}

/-- The line of a row has no white space around it. -/
theorem trim_line (hRow : IsRow row) : trim (line row.1 row.2) = line row.1 row.2 := by
  rw [line_eq]
  refine trim_eq_self ?_ ?_
  · intro c hc
    have hSome : (toString row.2.label).toList ≠ [] := by
      rw [Field.toList_toString_signed]
      exact Field.withMinus_ne_nil (numeral_ne_nil _) _
    rw [List.head?_append_of_ne_nil _ hSome] at hc
    exact isBlank_of_isVisible (isVisible_of_mem_toString (List.mem_of_mem_head? hc)).1
  · intro c hc
    simp only [List.getLast?_append, List.getLast?_cons, Option.some_or, Option.mem_some] at hc
    cases hName : row.1.toList.getLast? with
    | none =>
        rw [hName] at hc
        cases hc
        rfl
    | some last =>
        rw [hName] at hc
        cases hc
        exact hRow.closed last hName

/-- The line of a row is read as the row, whatever its number is. -/
theorem readFields_line (hRow : IsRow row) (file : String) (number : Nat) :
    readFields file number (line row.1 row.2) = .ok row := by
  have hNoComma : ∀ n : Int, ',' ∉ (toString n).toList :=
    fun n hMem => (isVisible_of_mem_toString hMem).2 rfl
  have hField : ∀ n : Int, (numeral n.natAbs).length ≤ digitLimit →
      readField file number (toString n).toList = .ok n :=
    fun n hShort => by rw [readField, readInteger_toString hShort]
  rw [readFields, line_eq, splitFields_line _ _ _ _ (hNoComma _) (hNoComma _) (hNoComma _)]
  simp only [hField _ hRow.label, hField _ hRow.wire, hField _ hRow.component, bind, Except.bind,
    pure, Except.pure, String.ofList_toList]

/-- The line of a row is a line. -/
theorem isLineEnd_of_mem_line (hRow : IsRow row) :
    ∀ c ∈ line row.1 row.2, isLineEnd c = false := by
  intro c hc
  have hNumber : ∀ n : Int, c ∈ (toString n).toList → isLineEnd c = false :=
    fun n hMem => isLineEnd_of_isVisible (isVisible_of_mem_toString hMem).1
  simp only [line_eq, List.mem_append, List.mem_cons] at hc
  rcases hc with hLabel | rfl | hWire | rfl | hComponent | rfl | hName
  · exact hNumber _ hLabel
  · rfl
  · exact hNumber _ hWire
  · rfl
  · exact hNumber _ hComponent
  · rfl
  · exact hRow.oneLine c hName

end OneLine

/-! ## What lines show -/

/-- What lines show: each line without the white space around it, blank lines left out. -/
def shown (ls : List (List Char)) : List (List Char) :=
  (ls.map trim).filter fun l => !l.isEmpty

theorem shown_cons_blank {l : List Char} (hBlank : trim l = []) (ls : List (List Char)) :
    shown (l :: ls) = shown ls := by
  rw [shown, List.map_cons, hBlank]
  rfl

theorem shown_cons_visible {l : List Char} (hVisible : trim l ≠ []) (ls : List (List Char)) :
    shown (l :: ls) = trim l :: shown ls := by
  rw [shown, List.map_cons, List.filter_cons_of_pos (by simpa using hVisible)]
  rfl

/-- Lines that show rows are read as the rows, put into a table one after the other. -/
theorem readLines_of_shown {file : String} {rows : List (String × Symbol)}
    (hRows : ∀ row ∈ rows, IsRow row) {ls : List (List Char)}
    (hShown : shown ls = rows.map fun row => line row.1 row.2) (number : Nat) (t : SymbolTable) :
    readLines file number t ls = .ok (rows.foldl (fun t row => t.put row.1 row.2) t) := by
  induction ls generalizing rows number t with
  | nil =>
      have hNone : rows = [] := List.map_eq_nil_iff.mp hShown.symm
      rw [hNone]
      rfl
  | cons l ls ih =>
      by_cases hBlank : trim l = []
      · rw [shown_cons_blank hBlank] at hShown
        rw [readLines, hBlank]
        exact ih hRows hShown (number + 1) t
      · rw [shown_cons_visible hBlank] at hShown
        obtain ⟨row, rest, rfl, hFirst, hRest⟩ := List.map_eq_cons_iff.mp hShown.symm
        have hRead := readFields_line (hRows row List.mem_cons_self) file number
        rw [hFirst] at hRead
        rw [readLines]
        split
        · rename_i hNil
          exact absurd hNil hBlank
        · rw [hRead]
          exact ih (fun r hr => hRows r (List.mem_cons_of_mem row hr)) hRest.symm (number + 1) _

/-! ## The lines of a text -/

/-- The first line of a text goes to its first line end. -/
theorem lines_append {l rest : List Char} (hLine : ∀ c ∈ l, isLineEnd c = false)
    {ls : List (List Char)} (hRest : lines rest = [] :: ls) : lines (l ++ rest) = l :: ls := by
  induction l with
  | nil => exact hRest
  | cons c l ih =>
      rw [List.forall_mem_cons] at hLine
      rw [List.cons_append, lines_cons hLine.1, ih hLine.2]
      rfl

theorem lines_of_line {l : List Char} (hLine : ∀ c ∈ l, isLineEnd c = false) : lines l = [l] := by
  have hOnly : lines (l ++ []) = [l] := lines_append hLine rfl
  rwa [List.append_nil] at hOnly

/-- Behind the end of a line, a text shows what it shows without that line. A carriage return in front
of an empty line may take its line feed, which shows nothing. -/
theorem exists_lines_end {lineEnd : List Char} (hEnd : IsEnd lineEnd) (rest : List Char) :
    ∃ ls, lines (lineEnd ++ rest) = [] :: ls ∧ shown ls = shown (lines rest) := by
  cases hEnd with
  | lineFeed => exact ⟨_, lines_lineFeed rest, rfl⟩
  | both => exact ⟨_, by rw [List.cons_append, List.cons_append, List.nil_append, lines], rfl⟩
  | carriageReturn =>
      by_cases hFeed : rest.head? = some '\n'
      · obtain ⟨more, rfl⟩ := List.head?_eq_some_iff.mp hFeed
        refine ⟨lines more, by rw [List.cons_append, List.nil_append, lines], ?_⟩
        rw [lines_lineFeed, shown_cons_blank rfl]
      · exact ⟨_, lines_carriageReturn hFeed, rfl⟩

theorem shown_lines_append {l lineEnd : List Char} (hLine : ∀ c ∈ l, isLineEnd c = false)
    (hEnd : IsEnd lineEnd) (rest : List Char) :
    shown (lines (l ++ (lineEnd ++ rest))) = shown (l :: lines rest) := by
  obtain ⟨ls, hLines, hShown⟩ := exists_lines_end hEnd rest
  rw [lines_append hLine hLines]
  by_cases hBlank : trim l = []
  · rw [shown_cons_blank hBlank, shown_cons_blank hBlank, hShown]
  · rw [shown_cons_visible hBlank, shown_cons_visible hBlank, hShown]

theorem shown_cons_row {row : String × Symbol} (hRow : IsRow row) (ls : List (List Char)) :
    shown (line row.1 row.2 :: ls) = line row.1 row.2 :: shown ls := by
  have hTrim := trim_line hRow
  have hVisible : trim (line row.1 row.2) ≠ [] := by
    rw [hTrim, line_eq]
    exact List.append_ne_nil_of_right_ne_nil _ (List.cons_ne_nil _ _)
  rw [shown_cons_visible hVisible, hTrim]

/-- A text shows the lines of the rows that it lists. -/
theorem shown_lines_of_lists {rows : List (String × Symbol)} {text : List Char}
    (h : Lists rows text) : shown (lines text) = rows.map fun row => line row.1 row.2 := by
  have hTrim : ∀ {l}, IsBlankLine l → trim l = [] :=
    fun hBlank => (trim_nil_iff _).mpr fun c hc => (hBlank c hc).1
  induction h with
  | last hBlank =>
      rw [lines_of_line fun c hc => (hBlank c hc).2, shown_cons_blank (hTrim hBlank)]
      rfl
  | lastRow hRow =>
      rw [lines_of_line (isLineEnd_of_mem_line hRow), shown_cons_row hRow]
      rfl
  | blank hBlank hEnd _ ih =>
      rw [shown_lines_append (fun c hc => (hBlank c hc).2) hEnd, shown_cons_blank (hTrim hBlank), ih]
  | row hRow hEnd _ ih =>
      rw [shown_lines_append (isLineEnd_of_mem_line hRow) hEnd, shown_cons_row hRow, ih,
        List.map_cons]

theorem isRow_of_lists {rows : List (String × Symbol)} {text : List Char} (h : Lists rows text) :
    ∀ row ∈ rows, IsRow row := by
  induction h with
  | last _ => exact fun row hMem => absurd hMem List.not_mem_nil
  | lastRow hRow => exact List.forall_mem_singleton.mpr hRow
  | blank _ _ _ ih => exact ih
  | row hRow _ _ ih => exact List.forall_mem_cons.mpr ⟨hRow, ih⟩

/-- A text is read as the table of the rows that it lists. -/
theorem readText_of_lists {rows : List (String × Symbol)} {text : List Char} (h : Lists rows text)
    (file : String) : readText file text = .ok (ofList rows) :=
  readLines_of_shown (isRow_of_lists h) (shown_lines_of_lists h) 1 []

/-! ## Halves -/

/-- White space is made of characters. -/
theorem isHalf_of_isBlank {c : Char} (h : isBlank c = true) : isHalf c = false := by
  have hApart : ∀ n ∈ blankCodes, isSurrogate (n - standInDistance) = false := by decide
  exact hApart _ (mem_blankCodes h)

theorem isHalf_of_mem_line {row : String × Symbol} (hRow : IsRow row) :
    ∀ c ∈ line row.1 row.2, isHalf c = false := by
  intro c hc
  have hNumber : ∀ n : Int, c ∈ (toString n).toList → isHalf c = false := by
    intro n hMem
    obtain ⟨-, hHigh⟩ := (isVisible_of_mem_toString hMem).1
    exact Json.isHalf_of_ascii (by omega)
  have hComma : isHalf ',' = false := Json.isHalf_of_ascii (by decide)
  simp only [line_eq, List.mem_append, List.mem_cons] at hc
  rcases hc with hLabel | rfl | hWire | rfl | hComponent | rfl | hName
  · exact hNumber _ hLabel
  · exact hComma
  · exact hNumber _ hWire
  · exact hComma
  · exact hNumber _ hComponent
  · exact hComma
  · exact Bool.eq_false_iff.mpr (List.any_eq_false.mp hRow.whole c hName)

/-- A text that lists rows has no halves of surrogate pairs in it. -/
theorem isHalf_of_lists {rows : List (String × Symbol)} {text : List Char} (h : Lists rows text) :
    ∀ c ∈ text, isHalf c = false := by
  have hEnds : ∀ {lineEnd}, IsEnd lineEnd → ∀ c ∈ lineEnd, isHalf c = false := by
    intro lineEnd hEnd c hc
    have hNone : lineEnd.any isHalf = false := by cases hEnd <;> decide
    exact Bool.eq_false_iff.mpr (List.any_eq_false.mp hNone c hc)
  induction h with
  | last hBlank => exact fun c hc => isHalf_of_isBlank (hBlank c hc).1
  | lastRow hRow => exact isHalf_of_mem_line hRow
  | blank hBlank hEnd _ ih =>
      exact List.forall_mem_append.mpr ⟨fun c hc => isHalf_of_isBlank (hBlank c hc).1,
        List.forall_mem_append.mpr ⟨hEnds hEnd, ih⟩⟩
  | row hRow hEnd _ ih =>
      exact List.forall_mem_append.mpr ⟨isHalf_of_mem_line hRow,
        List.forall_mem_append.mpr ⟨hEnds hEnd, ih⟩⟩

end CircuitBench.SymbolTable
