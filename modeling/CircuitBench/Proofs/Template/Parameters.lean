import CircuitBench.Proofs.Json.Refused
import CircuitBench.Template.Source

/-!
# The arguments of a template, read again

The arguments of a template stand in a source as the items of a JSON list without its brackets.  Put
between brackets again, they are read as the same items with the values of array code and the tuples
replaced by plain integers and lists, so nothing is lost of what they are: arguments that differ
after that replacement make sources that differ.  Arguments that JSON has no form for, at whatever
depth they stand, are refused for their kind.

## Main results

* `parametersText_read` : the text of arguments is read as the items that they stand for.
* `parametersText_eq_error_iff` : arguments are refused as their list is.
* `source_ne` : other arguments make another source.
* `parametersText_faithful` : nothing is lost of arguments that have a form, and others are refused.
-/

namespace CircuitBench.MainComponent

open Json

/-- Arguments are given as a list or as a tuple of items. -/
inductive IsSequence (items : List Value) : Value → Prop
  | list : IsSequence items (.list items)
  | tuple : IsSequence items (.tuple items)

theorem readable_parameters : Style.parameters.Readable where
  indent := fun _ h => nomatch h
  item := ⟨[], by decide, fun _ hc => absurd hc List.not_mem_nil⟩
  key := ⟨[], by decide, fun _ hc => absurd hc List.not_mem_nil⟩

section Written

variable {items : List Value} {parameters : Value}

theorem parametersText_of_isSequence (hSeq : IsSequence items parameters) :
    parametersText parameters = (parameterChars items).map String.ofList := by
  have hMembers : parameters.members = .ok items := by cases hSeq <;> rfl
  rw [parametersText, hMembers]
  show (parameterChars items >>= fun chars => .ok (String.ofList chars)) = _
  cases parameterChars items with
  | ok chars => rfl
  | error e => rfl

/-- Arguments are refused as their list is. -/
theorem parametersText_eq_error_iff (hSeq : IsSequence items parameters) (e : Error) :
    parametersText parameters = .error e ↔ write .parameters 0 (.list items) = .error e := by
  rw [parametersText_of_isSequence hSeq, parameterChars]
  cases write .parameters 0 (.list items) with
  | ok s => exact iff_of_false (by rintro ⟨⟩) (by rintro ⟨⟩)
  | error fault => exact ⟨fun h => by cases h; rfl, fun h => by cases h; rfl⟩

/-- Arguments that are data are written, and between brackets they are read as the items that they
stand for. -/
theorem parametersText_read (hSeq : IsSequence items parameters)
    (hData : AllData .parameters items) :
    ∃ s, parametersText parameters = .ok s ∧
      ∀ depth, levels (.list items) ≤ depth → readWithin depth ('[' :: (s.toList ++ [']'])) =
        .ok (.list (restoredItems .parameters items)) := by
  obtain ⟨written, hWrite, hSpells⟩ :=
    write_spells readable_parameters (v := .list items) hData 0
  rw [restored] at hSpells
  cases hChars : parameterChars items with
  | error e =>
      have hRefused := (parametersText_eq_error_iff .list e).mp (by
        rw [parametersText_of_isSequence .list, hChars]
        rfl)
      rw [hWrite] at hRefused
      cases hRefused
  | ok body =>
      rw [bracketed_parameterChars hChars] at hWrite
      refine ⟨String.ofList body, ?_, fun depth hDepth => ?_⟩
      · rw [parametersText_of_isSequence hSeq, hChars]
        rfl
      · rw [String.toList_ofList, Except.ok.inj hWrite]
        exact readWithin_of_spells hSpells hDepth

/-- A source shows its arguments: with everything else the same, other arguments make another
source. -/
theorem sourceText_injective (version includePath clause template : String) :
    Function.Injective (sourceText version includePath clause template) := by
  intro s t hSame
  have hOpen := (String.append_left_inj ");\n").mp hSame
  exact (String.append_right_inj _).mp hOpen

/-- A source fails before the arguments are looked at, or it is made of them and of what does not depend
on them. -/
theorem source_cases (m : MainComponent) :
    (∃ e, ∀ parameters, { m with parameters }.source = .error e) ∨
      ∃ version clause template, ∀ parameters, { m with parameters }.source =
        (parametersText parameters).map (sourceText version m.includePath clause template) := by
  simp only [source]
  cases m.version.inlineText with
  | error e => exact .inl ⟨e, fun _ => rfl⟩
  | ok version =>
  cases publicClause m.publicSignals with
  | error e => exact .inl ⟨e, fun _ => rfl⟩
  | ok clause =>
  cases m.template.inlineText with
  | error e => exact .inl ⟨e, fun _ => rfl⟩
  | ok template =>
  refine .inr ⟨version, clause, template, fun parameters => ?_⟩
  cases parametersText parameters <;> rfl

/-- Main components with arguments of different texts, and the same otherwise, have different sources,
or fail alike. -/
theorem source_ne {parameters parameters' : Value} {s s' : String}
    (hText : parametersText parameters = .ok s) (hText' : parametersText parameters' = .ok s')
    (hNe : s ≠ s') (m : MainComponent) :
    (∃ e, { m with parameters }.source = .error e ∧
      { m with parameters := parameters' }.source = .error e) ∨
      ∃ t t', { m with parameters }.source = .ok t ∧
        { m with parameters := parameters' }.source = .ok t' ∧ t ≠ t' := by
  rcases source_cases m with ⟨e, hFails⟩ | ⟨version, clause, template, hSource⟩
  · exact .inl ⟨e, hFails _, hFails _⟩
  · refine .inr ⟨_, _, ?_, ?_, (sourceText_injective version m.includePath clause template).ne hNe⟩
    · rw [hSource, hText]
      rfl
    · rw [hSource, hText']
      rfl

end Written

/-- Arguments built from null, truth values, integers, texts, lists, tuples and tables with texts as
keys, and from the integers and arrays of array code, are read back from between their brackets as
the same items, with plain integers and lists in the place of array code and tuples.  Arguments that
differ after that replacement are written differently, and so are the sources that pass them: two main
components that differ in such arguments only have different sources, or neither has one.
Arguments with something that JSON has no form for, at whatever depth, are refused for the kind of
such a thing, unless there are integers too long to be printed; and nothing else is refused. -/
theorem parametersText_faithful {items items' : List Value} {parameters parameters' : Value}
    (hSeq : IsSequence items parameters) (hSeq' : IsSequence items' parameters') :
    (AllData .parameters items →
      ∃ s, parametersText parameters = .ok s ∧
        ∀ depth, levels (.list items) ≤ depth → readWithin depth ('[' :: (s.toList ++ [']'])) =
          .ok (.list (restoredItems .parameters items))) ∧
    (AllData .parameters items → AllData .parameters items' →
      restoredItems .parameters items ≠ restoredItems .parameters items' →
        ∃ s s', parametersText parameters = .ok s ∧ parametersText parameters' = .ok s' ∧ s ≠ s' ∧
          (∀ version includePath clause template,
            sourceText version includePath clause template s ≠
              sourceText version includePath clause template s') ∧
          ∀ m : MainComponent,
            (∃ e, { m with parameters }.source = .error e ∧
              { m with parameters := parameters' }.source = .error e) ∨
            ∃ t t', { m with parameters }.source = .ok t ∧
              { m with parameters := parameters' }.source = .ok t' ∧ t ≠ t') ∧
    (∀ part fault, IsPart part (.list items) → Obstructs part (.type fault) →
      (∀ part, IsPart part (.list items) → ¬IsOverlong part) →
        ∃ refused fault, IsPart refused (.list items) ∧ Obstructs refused (.type fault) ∧
          parametersText parameters = .error (.type fault)) ∧
    (∀ e, parametersText parameters = .error e →
      ∃ part, IsPart part (.list items) ∧ Obstructs part e) := by
  refine ⟨parametersText_read hSeq, fun hData hData' hDiffer => ?_,
    fun part fault hPart hObstructs hShort => ?_, fun e hError => ?_⟩
  · obtain ⟨s, hText, hRead⟩ := parametersText_read hSeq hData
    obtain ⟨s', hText', hRead'⟩ := parametersText_read hSeq' hData'
    have hNe : s ≠ s' := by
      intro hSame
      subst hSame
      have hBoth := (hRead _ (Nat.le_max_left _ (levels (.list items')))).symm.trans
        (hRead' _ (Nat.le_max_right (levels (.list items)) _))
      exact hDiffer (Value.list.inj (Except.ok.inj hBoth))
    exact ⟨s, s', hText, hText', hNe, fun version includePath clause template =>
      (sourceText_injective version includePath clause template).ne hNe, source_ne hText hText' hNe⟩
  · obtain ⟨refused, fault, hRefused, hFound, hError⟩ :=
      write_eq_type_error hPart hObstructs hShort 0
    exact ⟨refused, fault, hRefused, hFound, (parametersText_eq_error_iff hSeq _).mpr hError⟩
  · exact exists_obstacle ((parametersText_eq_error_iff hSeq e).mp hError)

/-- A tuple of arguments with an array of rows, an integer of array code, a text with a quote and a
tuple inside a table; the same arguments with one more level of brackets inside; and a list with a set
three levels deep, in a table with an integer as key. -/
theorem parametersText_faithful_nested :
    let grid := Value.array (.integer .int64) (.list [.list [.int 1, .int (-2)], .list []])
    let items := [grid, .integerCell .uint8 7, .text "a\"]",
      .table [(.text "é", .tuple [.null, .bool true])]]
    let items' := [.list [grid], .integerCell .uint8 7, .text "a\"]",
      .table [(.text "é", .tuple [.null, .bool true])]]
    let items'' := [.list [.table [(.int 7, .set [])]]]
    (∃ s s', parametersText (.tuple items) = .ok s ∧ parametersText (.list items') = .ok s' ∧
      s ≠ s' ∧
      readWithin 3 ('[' :: (s.toList ++ [']'])) =
        .ok (.list [.list [.list [.int 1, .int (-2)], .list []], .int 7, .text "a\"]",
          .table [(.text "é", .list [.null, .bool true])]])) ∧
    ∃ fault, parametersText (.list items'') = .error (.type fault) := by
  intro grid items items' items''
  have hPrinted : ∀ n ∈ [(1 : Int), -2, 7], IsPrinted n := by
    unfold IsPrinted
    decide +kernel
  have hOne : IsPrinted 1 := hPrinted 1 (by decide)
  have hTwo : IsPrinted (-2) := hPrinted (-2) (by decide)
  have hSeven : IsPrinted 7 := hPrinted 7 (by decide)
  have hGrid : IsData .parameters grid := ⟨rfl, ⟨hOne, hTwo, trivial⟩, trivial, trivial⟩
  have hTable : IsData .parameters (.table [(.text "é", .tuple [.null, .bool true])]) :=
    ⟨⟨⟨"é", rfl, by decide⟩, ⟨trivial, trivial, trivial⟩, trivial⟩, by decide⟩
  have hRest : AllData .parameters [.integerCell .uint8 7, .text "a\"]",
      .table [(.text "é", .tuple [.null, .bool true])]] :=
    ⟨⟨rfl, hSeven⟩, (by decide : Text.hasHalf "a\"]" = false), hTable, trivial⟩
  have hData : AllData .parameters items := ⟨hGrid, hRest⟩
  have hData' : AllData .parameters items' := ⟨⟨hGrid, trivial⟩, hRest⟩
  have hTuple : IsSequence items (.tuple items) := .tuple
  have hList : IsSequence items' (.list items') := .list
  have hSets : IsSequence items'' (.list items'') := .list
  obtain ⟨hRead, hDiffer, -, -⟩ := parametersText_faithful hTuple hList
  obtain ⟨-, -, hRefused, -⟩ := parametersText_faithful hSets hList
  obtain ⟨s, hText, hFound⟩ := hRead hData
  obtain ⟨t, t', hText', hText'', hNe, -⟩ := hDiffer hData hData' (fun hSame => nomatch hSame)
  cases Except.ok.inj (hText.symm.trans hText')
  have hPart : IsPart (.set []) (.list items'') :=
    .listed List.mem_cons_self (.listed List.mem_cons_self (.entered List.mem_cons_self .whole))
  have hShort : ∀ part, IsPart part (.list items'') → ¬IsOverlong part := by
    intro part hPart hLong
    cases hPart with
    | whole => cases hLong
    | listed hMem hPart =>
        cases List.mem_singleton.mp hMem
        cases hPart with
        | whole => cases hLong
        | listed hMem hPart =>
            cases List.mem_singleton.mp hMem
            cases hPart with
            | whole =>
                cases hLong with
                | key hKey hLong =>
                    cases List.mem_singleton.mp hKey
                    exact hLong hSeven
            | entered hMem hPart =>
                cases List.mem_singleton.mp hMem
                cases hPart
                cases hLong
  obtain ⟨-, fault, -, -, hError⟩ := hRefused _ _ hPart (.kind rfl) hShort
  exact ⟨⟨s, t', hText, hText'', hNe, hFound 3 (by decide)⟩, fault, hError⟩

end CircuitBench.MainComponent
