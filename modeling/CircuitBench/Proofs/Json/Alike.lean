import CircuitBench.Proofs.Json.RoundTrip
import Mathlib.Data.List.Forall2

/-!
# The values of JSON

JSON has null, truth values, integers, texts, and lists and tables of these, where the keys of a
table are texts.  Such a value is written as a document with its tables sorted, so that what is read
need not be the same value; but it is the same where tables are taken for what they are, maps from
keys to values.

A document says the same on one line and on many.  The levels are indented by blanks, and however
many these are, the reader skips them.

## Main results

* `get?_eq_some_iff` : a table with different texts as keys holds an entry under its key.
* `alike_restored` : what a value of JSON stands for in a document is alike the value.
* `text_alike` : the text of a value of JSON is read as a value alike it, whatever the indent.
-/

namespace CircuitBench.Json

open Number Text

/-! ## Values -/

/-- Whether the keys of a table are texts, all of them different. -/
structure HasTextKeys (t : Table) : Prop where
  texts : ∀ e ∈ t, ∃ s, e.1 = .text s
  distinct : (t.map Prod.fst).Nodup

/-- Whether a value is one of JSON, of which the integers are not too long to be printed and no text
has half of a surrogate pair in it. -/
inductive IsJson : Value → Prop
  | null : IsJson .null
  | bool (b : Bool) : IsJson (.bool b)
  | int {n : Int} (hShort : (numeral n.natAbs).length ≤ digitLimit) : IsJson (.int n)
  | text {s : String} (hWhole : hasHalf s = false) : IsJson (.text s)
  | list {items : List Value} (hItems : ∀ v ∈ items, IsJson v) : IsJson (.list items)
  | table {entries : Table} (hKeys : HasTextKeys entries)
      (hWhole : ∀ e ∈ entries, ∀ s, e.1 = .text s → hasHalf s = false)
      (hValues : ∀ e ∈ entries, IsJson e.2) : IsJson (.table entries)

/-- Whether two values of JSON are the same when their tables are compared as maps: lists place by
place, and tables by what they hold under every key. -/
inductive Alike : Value → Value → Prop
  | null : Alike .null .null
  | bool (b : Bool) : Alike (.bool b) (.bool b)
  | int (n : Int) : Alike (.int n) (.int n)
  | text (s : String) : Alike (.text s) (.text s)
  | list {items items' : List Value} (h : List.Forall₂ Alike items items') :
      Alike (.list items) (.list items')
  | table {entries entries' : Table} (hKeys : HasTextKeys entries) (hKeys' : HasTextKeys entries')
      (h : ∀ key, Option.Rel Alike (entries.get? key) (entries'.get? key)) :
      Alike (.table entries) (.table entries')

/-! ## Tables as maps -/

theorem HasTextKeys.tail {e : Value × Value} {t : Table} (h : HasTextKeys (e :: t)) :
    HasTextKeys t :=
  ⟨fun e' he' => h.texts e' (List.mem_cons_of_mem e he'), (List.nodup_cons.mp h.distinct).2⟩

/-- A table with different texts as keys holds an entry under its key. -/
theorem get?_eq_some_iff {t : Table} (h : HasTextKeys t) (key : String) (v : Value) :
    t.get? key = some v ↔ (Value.text key, v) ∈ t := by
  induction t with
  | nil => exact iff_of_false (fun hNone => nomatch hNone) List.not_mem_nil
  | cons e rest ih =>
      obtain ⟨k, w⟩ := e
      obtain ⟨s, hText⟩ := h.texts (k, w) List.mem_cons_self
      obtain rfl : k = .text s := hText
      obtain ⟨hApart, -⟩ := List.nodup_cons.mp h.distinct
      rw [Table.get?, Table.sameKey_text, List.mem_cons]
      by_cases hSame : s = key
      · subst hSame
        have hNotRest : (Value.text s, v) ∉ rest := fun hMem =>
          hApart (List.mem_map.mpr ⟨_, hMem, rfl⟩)
        rw [if_pos (beq_self_eq_true s), or_iff_left hNotRest, Option.some_inj, Prod.mk.injEq]
        exact ⟨fun hValue => ⟨rfl, hValue.symm⟩, fun hEntry => hEntry.2.symm⟩
      · have hOther : (Value.text key, v) ≠ (Value.text s, w) := by
          rintro hEntry
          cases hEntry
          exact hSame rfl
        rw [if_neg (by simpa using hSame), ih h.tail, or_iff_right hOther]

/-- Entries in any order, with values that are alike, make tables that are alike. -/
theorem alike_table {entries found : Table} {f : Value → Value} (hKeys : HasTextKeys entries)
    (hPerm : found.Perm (entries.map fun e => (e.1, f e.2)))
    (hValues : ∀ e ∈ entries, Alike e.2 (f e.2)) : Alike (.table entries) (.table found) := by
  have hSameKeys : (found.map Prod.fst).Perm (entries.map Prod.fst) := by
    have hFirst := hPerm.map Prod.fst
    rwa [List.map_map] at hFirst
  have hFound : HasTextKeys found := by
    refine ⟨fun e he => ?_, hSameKeys.nodup_iff.mpr hKeys.distinct⟩
    obtain ⟨e', he', rfl⟩ := List.mem_map.mp (hPerm.mem_iff.mp he)
    exact hKeys.texts e' he'
  refine .table hKeys hFound fun key => ?_
  cases hHeld : entries.get? key with
  | none =>
      have hNone : found.get? key = none := by
        refine Option.eq_none_iff_forall_ne_some.mpr fun w hSome => ?_
        have hMem := hPerm.mem_iff.mp ((get?_eq_some_iff hFound key w).mp hSome)
        obtain ⟨⟨k, v⟩, hEntry, hSame⟩ := List.mem_map.mp hMem
        obtain ⟨rfl, -⟩ := Prod.mk.inj hSame
        cases hHeld.symm.trans ((get?_eq_some_iff hKeys key v).mpr hEntry)
      rw [hNone]
      exact .none
  | some v =>
      have hEntry := (get?_eq_some_iff hKeys key v).mp hHeld
      have hMem : (Value.text key, f v) ∈ found :=
        hPerm.mem_iff.mpr (List.mem_map.mpr ⟨_, hEntry, rfl⟩)
      rw [(get?_eq_some_iff hFound key (f v)).mpr hMem]
      exact .some (hValues _ hEntry)

/-! ## Documents -/

section Documents

variable {v : Value}

theorem allData_iff {style : Style} (items : List Value) :
    AllData style items ↔ ∀ v ∈ items, IsData style v := by
  induction items with
  | nil =>
      rw [AllData]
      exact ⟨fun _ v hv => absurd hv List.not_mem_nil, fun _ => trivial⟩
  | cons v rest ih => rw [AllData, ih, List.forall_mem_cons]

theorem restoredItems_eq_map (style : Style) (items : List Value) :
    restoredItems style items = items.map (restored style) := by
  induction items with
  | nil => rfl
  | cons v rest ih => rw [restoredItems, ih, List.map_cons]

/-- Every style can carry the values of JSON. -/
theorem IsJson.isData (h : IsJson v) (style : Style) : IsData style v := by
  induction h with
  | null => trivial
  | bool b => trivial
  | int hShort =>
      show printInteger? _ ≠ none
      rw [printInteger?_eq, if_pos hShort]
      exact Option.some_ne_none _
  | text hWhole => exact hWhole
  | list hItems ih => exact (allData_iff _).mpr ih
  | table hKeys hWhole hValues ih =>
      refine ⟨(entriesData_iff _).mpr fun e he => ⟨?_, ih e he⟩, ?_⟩
      · obtain ⟨s, hText⟩ := hKeys.texts e he
        exact ⟨s, by rw [hText]; rfl, hWhole e he s hText⟩
      · have hTexts := List.Nodup.map_on (f := Value.text?) (fun k hk k' hk' hSame => ?_)
          hKeys.distinct
        · rwa [List.map_map] at hTexts
        · obtain ⟨e, he, rfl⟩ := List.mem_map.mp hk
          obtain ⟨e', he', rfl⟩ := List.mem_map.mp hk'
          obtain ⟨s, hText⟩ := hKeys.texts e he
          obtain ⟨s', hText'⟩ := hKeys.texts e' he'
          rw [hText, hText'] at hSame ⊢
          exact congrArg Value.text (Option.some.inj hSame)

/-- What a value of JSON stands for in a document is alike the value. -/
theorem alike_restored (h : IsJson v) (style : Style) : Alike v (restored style v) := by
  induction h with
  | null => exact .null
  | bool b => exact .bool b
  | int hShort => exact .int _
  | text hWhole => exact .text _
  | list hItems ih =>
      rw [restored, restoredItems_eq_map]
      exact .list (List.forall₂_map_right_iff.mpr (List.forall₂_same.mpr ih))
  | @table entries hKeys hWhole hValues ih =>
      have hPlain : (entries.map fun e => (plainKey e.1, restored style e.2)) =
          entries.map fun e => (e.1, restored style e.2) := by
        refine List.map_congr_left fun e he => ?_
        obtain ⟨s, hText⟩ := hKeys.texts e he
        rw [hText]
        rfl
      rw [restored, restoredEntries_eq_map, hPlain]
      exact alike_table hKeys (arranged_perm style _) ih

/-- Whether a value asks for an indent of blanks that can be had, or for none: a number of blanks
must be one that an index of 64 bits can say. -/
inductive IsIndent : Value → Prop
  | null : IsIndent .null
  | int {n : Int} (least : -9223372036854775808 ≤ n) (most : n ≤ 9223372036854775807) :
      IsIndent (.int n)
  | bool (b : Bool) : IsIndent (.bool b)

theorem allBlank_blanks {kind blanked : String} {n : Int} (h : blanks kind n = .ok blanked) :
    AllBlank blanked.toList := by
  rw [blanks] at h
  split at h
  · cases h
    intro c hc
    rw [String.toList_ofList] at hc
    rw [List.eq_of_mem_replicate hc]
    rfl
  · cases h

theorem blanks_of_size (kind : String) {n : Int} (least : -9223372036854775808 ≤ n)
    (most : n ≤ 9223372036854775807) : ∃ blanked, blanks kind n = .ok blanked :=
  ⟨_, if_pos ((isSize_iff n).mpr ⟨least, most⟩)⟩

/-- An indent of blanks can be had. -/
theorem indentOf_of_isIndent {i : Value} (h : IsIndent i) :
    ∃ indent, indentOf i = .ok indent ∧
      ∀ blanked, indent = some blanked → AllBlank blanked.toList := by
  cases h with
  | null => exact ⟨none, rfl, fun _ hNone => nomatch hNone⟩
  | @int n least most =>
      obtain ⟨blanked, hBlanked⟩ := blanks_of_size "int" least most
      refine ⟨some blanked, by rw [indentOf, hBlanked]; rfl, ?_⟩
      rintro _ ⟨⟩
      exact allBlank_blanks hBlanked
  | bool b =>
      obtain ⟨blanked, hBlanked⟩ : ∃ blanked, blanks "bool" b.toInt = .ok blanked :=
        blanks_of_size "bool" (by cases b <;> decide) (by cases b <;> decide)
      refine ⟨some blanked, by rw [indentOf, hBlanked]; rfl, ?_⟩
      rintro _ ⟨⟩
      exact allBlank_blanks hBlanked

/-- A number beyond an index is no indent. -/
theorem indentOf_beyond {n : Int} (h : n < -9223372036854775808 ∨ 9223372036854775807 < n) :
    indentOf (.int n) = .error (.overflow (.integerToIndex "int")) := by
  have hSize : ¬ isSize n = true := by
    rw [isSize_iff]
    omega
  rw [indentOf, blanks, if_neg hSize]
  rfl

/-- The text of a value of JSON can be stored, and is read as a value alike it by every reader that
allows as many levels as it has, whatever the indent. -/
theorem text_alike {i : Value} (hIndent : IsIndent i) (h : IsJson v) :
    ∃ s w, documentText i v = .ok s ∧ hasHalf s = false ∧ Alike v w ∧
      ∀ depth, levels v ≤ depth → readWithin depth s.toList = .ok w := by
  obtain ⟨indent, hFound, hBlank⟩ := indentOf_of_isIndent hIndent
  have hStyle : (Style.document indent).Readable := readable_document hBlank
  obtain ⟨s, hText, hWhole, hRead⟩ := read_text hStyle (h.isData _)
  refine ⟨s, _, ?_, hWhole, alike_restored h _, hRead⟩
  rw [documentText, hFound]
  exact hText

end Documents

end CircuitBench.Json
