import CircuitBench.Proofs.Json.Containers
import Mathlib.Data.List.Nodup

/-!
# What is written is read back

A value that is written in a style is read back as the value that it stands for in JSON: texts,
lists and tables are plain ones, and a table has its entries in the order of the style.  That
concerns data: null, truth values, integers that are not too long, texts without halves, and lists
and tables of data where the keys of a table are texts and all different.  Arrays and their integers
are data in a style that writes them.

The reader allows values to be nested to a limited depth; apart from that limit the depth makes no
difference.

## Main results

* `write_spells` : data is written, and what is written spells it.
* `read_text` : the text of a value is read as the value that it stands for.
* `text_table_perm` : with sorted keys, the order of a table does not show in its text.
-/

namespace CircuitBench.Json

open Number Text

/-! ## Data -/

/-- Whether an integer is short enough to be printed. -/
def IsPrinted (n : Int) : Prop :=
  printInteger? n ≠ none

/-- Whether a value may be the key of a table of data: a text without halves. -/
def IsKey (key : Value) : Prop :=
  ∃ s, key.text? = some s ∧ hasHalf s = false

mutual

/-- Whether a value is data that a style can carry. -/
def IsData (style : Style) : Value → Prop
  | .null => True
  | .bool _ => True
  | .int n => IsPrinted n
  | .text s => hasHalf s = false
  | .textCell s => hasHalf s = false
  | .list items => AllData style items
  | .tuple items => AllData style items
  | .table entries => EntriesData style entries ∧ (entries.map fun e => e.1.text?).Nodup
  | .integerCell _ n => style.arrays = true ∧ IsPrinted n
  | .array _ content => style.arrays = true ∧ IsData style content
  | _ => False

/-- Whether all values of a list are data. -/
def AllData (style : Style) : List Value → Prop
  | [] => True
  | v :: vs => IsData style v ∧ AllData style vs

/-- Whether all entries of a table have a key that is a text and a value that is data. -/
def EntriesData (style : Style) : List (Value × Value) → Prop
  | [] => True
  | (k, v) :: rest => IsKey k ∧ IsData style v ∧ EntriesData style rest

end

mutual

/-- The levels to which a value is nested. -/
def levels : Value → Nat
  | .list items => levelsOf items + 1
  | .tuple items => levelsOf items + 1
  | .table entries => levelsOfEntries entries + 1
  | .array _ content => levels content
  | _ => 0

/-- The most levels of several values. -/
def levelsOf : List Value → Nat
  | [] => 0
  | v :: vs => max (levels v) (levelsOf vs)

/-- The most levels of the values of a table. -/
def levelsOfEntries : List (Value × Value) → Nat
  | [] => 0
  | (_, v) :: rest => max (levels v) (levelsOfEntries rest)

end

/-- The plain text that a key is. -/
def plainKey (key : Value) : Value :=
  .text (key.text?.getD "")

/-- The order of entries by keys that are texts. -/
def keyOrder (a b : Value × Value) : Bool :=
  comesNoLater (a.1.text?.getD "") (b.1.text?.getD "")

/-- Entries in the order in which a style writes them. -/
def arranged (style : Style) (entries : List (Value × Value)) : List (Value × Value) :=
  if style.sortKeys then entries.mergeSort keyOrder else entries

mutual

/-- The value that a value stands for in JSON. -/
def restored (style : Style) : Value → Value
  | .textCell s => .text s
  | .list items => .list (restoredItems style items)
  | .tuple items => .list (restoredItems style items)
  | .table entries => .table (arranged style (restoredEntries style entries))
  | .integerCell _ n => .int n
  | .array _ content => restored style content
  | v => v

/-- The values that several values stand for. -/
def restoredItems (style : Style) : List Value → List Value
  | [] => []
  | v :: vs => restored style v :: restoredItems style vs

/-- The entries of a table, each with the value that its value stands for. -/
def restoredEntries (style : Style) : List (Value × Value) → List (Value × Value)
  | [] => []
  | (k, v) :: rest => (plainKey k, restored style v) :: restoredEntries style rest

end

/-! ## Entries -/

theorem entriesData_iff {style : Style} (entries : List (Value × Value)) :
    EntriesData style entries ↔ ∀ e ∈ entries, IsKey e.1 ∧ IsData style e.2 := by
  induction entries with
  | nil =>
      rw [EntriesData]
      exact ⟨fun _ e he => absurd he List.not_mem_nil, fun _ => trivial⟩
  | cons e rest ih => rw [EntriesData, ih, List.forall_mem_cons, and_assoc]

theorem restoredEntries_eq_map (style : Style) (entries : List (Value × Value)) :
    restoredEntries style entries = entries.map fun e => (plainKey e.1, restored style e.2) := by
  induction entries with
  | nil => rfl
  | cons e rest ih => rw [restoredEntries, ih, List.map_cons]

theorem writeValues_eq_map (style : Style) (level : Nat) (entries : List (Value × Value)) :
    writeValues style level entries = entries.map fun e => (e, write style level e.2) := by
  induction entries with
  | nil => rfl
  | cons e rest ih => rw [writeValues, ih, List.map_cons]

theorem arranged_perm (style : Style) (entries : List (Value × Value)) :
    (arranged style entries).Perm entries := by
  unfold arranged
  split
  · exact List.mergeSort_perm entries keyOrder
  · exact List.Perm.refl entries

/-- The order looks at keys alone. -/
theorem arranged_map (style : Style) (f : Value → Value) (entries : List (Value × Value)) :
    arranged style (entries.map fun e => (plainKey e.1, f e.2)) =
      (arranged style entries).map fun e => (plainKey e.1, f e.2) := by
  unfold arranged
  split
  · have hOrder : ∀ a ∈ entries, ∀ b ∈ entries,
        keyOrder a b = keyOrder (plainKey a.1, f a.2) (plainKey b.1, f b.2) :=
      fun _ _ _ _ => rfl
    exact (List.map_mergeSort hOrder).symm
  · rfl

/-- Entries with texts as keys are written in the order of the style. -/
theorem ordered_eq {style : Style} {α : Type} {entries : List (Value × Value)}
    (hKeys : ∀ e ∈ entries, IsKey e.1) (f : Value × Value → α) :
    ordered style (entries.map fun e => (e, f e)) =
      .ok ((arranged style entries).map fun e => (e, f e)) := by
  unfold ordered arranged
  cases style.sortKeys with
  | false => rfl
  | true =>
      have hTexts : ∀ e ∈ entries.map (fun e => (e, f e)), Keyed.hasTextKey e = true := by
        intro e' he'
        obtain ⟨e, he, rfl⟩ := List.mem_map.mp he'
        obtain ⟨s, hKey, -⟩ := hKeys e he
        rw [Keyed.hasTextKey, hKey]
        rfl
      rw [if_pos rfl, if_pos rfl, Keyed.sortByKey_of_text _ hTexts]
      have hOrder : ∀ a ∈ entries, ∀ b ∈ entries,
          keyOrder a b = Keyed.textOrder (a, f a) (b, f b) := fun _ _ _ _ => rfl
      exact congrArg Except.ok (List.map_mergeSort hOrder).symm

/-! ## Writing -/

section Writing

variable {style : Style}

theorem integerText_of_isPrinted {n : Int} (h : IsPrinted n) :
    ∃ s, Value.integerText n = .ok s ∧ printInteger? n = some s := by
  obtain ⟨s, hPrinted⟩ := Option.ne_none_iff_exists'.mp h
  exact ⟨s, by rw [Value.integerText, hPrinted], hPrinted⟩

/-- An indent of white space can be written. -/
theorem checkIndent_of_readable (hStyle : style.Readable) (isEmpty : Bool) :
    checkIndent style isEmpty = .ok () := by
  have hWhole : style.indent.any hasHalf = false := by
    cases hIndent : style.indent with
    | none => rfl
    | some indent =>
        rw [Option.any_some, hasHalf, List.any_eq_false]
        intro c hc
        rw [isHalf_of_isBlank (hStyle.indent indent hIndent c hc)]
        exact Bool.false_ne_true
  rw [checkIndent, hWhole, Bool.and_false, if_neg Bool.false_ne_true]

theorem keyText_of_isKey {key : Value} {s : String} (hKey : key.text? = some s)
    (hWhole : hasHalf s = false) : keyText style key = .ok (stringText style (codes s)) := by
  cases key <;> cases hKey <;> rw [keyText, stringOf_of_whole style hWhole]

theorem plainKey_of_text {key : Value} {s : String} (hKey : key.text? = some s) :
    plainKey key = .text s := by
  rw [plainKey, hKey, Option.getD_some]

/-- Keys that are different texts are different plain texts. -/
theorem nodup_plainKeys {entries : List (Value × Value)} (hKeys : ∀ e ∈ entries, IsKey e.1)
    (hNodup : (entries.map fun e => e.1.text?).Nodup) :
    (entries.map fun e => plainKey e.1).Nodup := by
  refine List.Nodup.of_map Value.text? ?_
  have hTexts : (entries.map fun e => plainKey e.1).map Value.text? =
      entries.map fun e => e.1.text? := by
    rw [List.map_map]
    refine List.map_congr_left fun e he => ?_
    obtain ⟨s, hKey, -⟩ := hKeys e he
    show (plainKey e.1).text? = e.1.text?
    rw [plainKey_of_text hKey, hKey]
    rfl
  rw [hTexts]
  exact hNodup

/-- Entries of which every value is written are written. -/
theorem entryTexts_spells {level bound : Nat} {entries : List (Value × Value)}
    (hKeys : ∀ e ∈ entries, IsKey e.1)
    (hValues : ∀ e ∈ entries, ∃ s, write style level e.2 = .ok s ∧
      Spells bound (restored style e.2) s) :
    ∃ texts, entryTexts style (entries.map fun e => (e, write style level e.2)) = .ok texts ∧
      List.Forall₂ (SpellsEntry style bound)
        (entries.map fun e => (plainKey e.1, restored style e.2)) texts := by
  induction entries with
  | nil => exact ⟨[], rfl, .nil⟩
  | cons e rest ih =>
      rw [List.forall_mem_cons] at hKeys hValues
      obtain ⟨⟨key, hKey, hWhole⟩, hKeys⟩ := hKeys
      obtain ⟨⟨s, hWrite, hSpells⟩, hValues⟩ := hValues
      obtain ⟨texts, hTexts, hRest⟩ := ih hKeys hValues
      refine ⟨(stringText style (codes key) ++ style.keySeparator.toList ++ s) :: texts, ?_, ?_⟩
      · rw [List.map_cons, entryTexts, keyText_of_isKey hKey hWhole, hWrite, hTexts]
        rfl
      · exact .cons ⟨key, s, plainKey_of_text hKey, hWhole, hSpells, rfl⟩ hRest

/-- A table of which every value is written is written. -/
theorem write_table_spells (hStyle : style.Readable) {level bound : Nat}
    {entries : List (Value × Value)} (hKeys : ∀ e ∈ entries, IsKey e.1)
    (hNodup : (entries.map fun e => e.1.text?).Nodup)
    (hValues : ∀ e ∈ entries, ∃ s, write style (level + 1) e.2 = .ok s ∧
      Spells bound (restored style e.2) s) :
    ∃ s, write style level (.table entries) = .ok s ∧
      Spells (bound + 1) (restored style (.table entries)) s := by
  have hPerm := arranged_perm style entries
  have hKeys' : ∀ e ∈ arranged style entries, IsKey e.1 :=
    fun e he => hKeys e (hPerm.mem_iff.mp he)
  obtain ⟨texts, hTexts, hEntries⟩ :=
    entryTexts_spells hKeys' fun e he => hValues e (hPerm.mem_iff.mp he)
  refine ⟨bracketed style level '\x7b' '\x7d' texts, ?_, ?_⟩
  · rw [write, checkIndent_of_readable hStyle, writeValues_eq_map, ordered_eq hKeys]
    show (entryTexts style _ >>= fun texts => _) = _
    rw [hTexts]
    rfl
  · rw [restored, restoredEntries_eq_map, arranged_map]
    refine spells_table hStyle hEntries ?_ level
    rw [List.map_map]
    exact nodup_plainKeys hKeys' ((hPerm.map _).nodup_iff.mpr hNodup)

mutual

/-- Data is written, and what is written spells the value that it stands for. -/
theorem write_spells (hStyle : style.Readable) {v : Value} (h : IsData style v) (level : Nat) :
    ∃ s, write style level v = .ok s ∧ Spells (levels v) (restored style v) s := by
  cases v with
  | null => exact ⟨_, rfl, spells_null⟩
  | bool b => exact ⟨_, rfl, spells_bool b⟩
  | int n =>
      obtain ⟨s, hText, hPrinted⟩ := integerText_of_isPrinted h
      exact ⟨s.toList, by rw [write, hText]; rfl, spells_int hPrinted⟩
  | integerCell kind n =>
      obtain ⟨hArrays, hPrint⟩ := h
      obtain ⟨s, hText, hPrinted⟩ := integerText_of_isPrinted hPrint
      exact ⟨s.toList, by rw [write, if_pos hArrays, hText]; rfl, spells_int hPrinted⟩
  | text s => exact ⟨_, by rw [write, stringOf_of_whole style h], spells_text h⟩
  | textCell s => exact ⟨_, by rw [write, stringOf_of_whole style h], spells_text h⟩
  | list items =>
      obtain ⟨texts, hTexts, hItems⟩ := writeItems_spells hStyle h (level + 1)
      refine ⟨_, ?_, spells_list hStyle hItems level⟩
      rw [write, checkIndent_of_readable hStyle, hTexts]
      rfl
  | tuple items =>
      obtain ⟨texts, hTexts, hItems⟩ := writeItems_spells hStyle h (level + 1)
      refine ⟨_, ?_, spells_list hStyle hItems level⟩
      rw [write, checkIndent_of_readable hStyle, hTexts]
      rfl
  | table entries =>
      obtain ⟨hEntries, hNodup⟩ := h
      have hKeys := fun e he => ((entriesData_iff entries).mp hEntries e he).1
      exact write_table_spells hStyle hKeys hNodup (writeEntries_spells hStyle hEntries (level + 1))
  | array kind content =>
      obtain ⟨hArrays, hContent⟩ := h
      obtain ⟨s, hWrite, hSpells⟩ := write_spells hStyle hContent level
      exact ⟨s, by rw [write, if_pos hArrays, hWrite], hSpells⟩
  | _ => exact h.elim

/-- Items that are data are written, and what is written for each spells it. -/
theorem writeItems_spells (hStyle : style.Readable) {items : List Value} (h : AllData style items)
    (level : Nat) :
    ∃ texts, writeItems style level items = .ok texts ∧
      List.Forall₂ (Spells (levelsOf items)) (restoredItems style items) texts := by
  cases items with
  | nil => exact ⟨[], rfl, .nil⟩
  | cons v vs =>
      obtain ⟨hFirst, hRest⟩ := h
      obtain ⟨s, hWrite, hSpells⟩ := write_spells hStyle hFirst level
      obtain ⟨texts, hTexts, hItems⟩ := writeItems_spells hStyle hRest level
      refine ⟨s :: texts, by rw [writeItems, hWrite, hTexts]; rfl, ?_⟩
      have hMore := fun w t (hPart : Spells (levelsOf vs) w t) =>
        hPart.mono (Nat.le_max_right (levels v) (levelsOf vs))
      exact .cons (hSpells.mono (Nat.le_max_left _ _)) (hItems.imp hMore)

/-- The values of entries that are data are written. -/
theorem writeEntries_spells (hStyle : style.Readable) {entries : List (Value × Value)}
    (h : EntriesData style entries) (level : Nat) :
    ∀ e ∈ entries, ∃ s, write style level e.2 = .ok s ∧
      Spells (levelsOfEntries entries) (restored style e.2) s := by
  cases entries with
  | nil => exact fun e he => absurd he List.not_mem_nil
  | cons e rest =>
      obtain ⟨k, v⟩ := e
      obtain ⟨-, hFirst, hRest⟩ := h
      intro e' he'
      rcases List.mem_cons.mp he' with rfl | he'
      · obtain ⟨s, hWrite, hSpells⟩ := write_spells hStyle hFirst level
        exact ⟨s, hWrite, hSpells.mono (Nat.le_max_left _ _)⟩
      · obtain ⟨s, hWrite, hSpells⟩ := writeEntries_spells hStyle hRest level e' he'
        exact ⟨s, hWrite, hSpells.mono (Nat.le_max_right _ _)⟩

end

end Writing

/-! ## Reading -/

/-- Reads a text that is one value with white space around it, nested to a given depth at most. -/
def readWithin (depth : Nat) (s : List Char) : Except ReadFault Value :=
  match readValue (s.length + 1) depth (skipBlank s) with
  | .error e => .error e
  | .ok (v, r) => if (skipBlank r).isEmpty then .ok v else .error .malformed

theorem read_eq_readWithin (s : List Char) : read s = readWithin depthLimit s := rfl

theorem readWithin_of_spells {bound depth : Nat} {v : Value} {s : List Char} (h : Spells bound v s)
    (hDepth : bound ≤ depth) : readWithin depth s = .ok v := by
  have hRead := h.reads (Nat.le_succ s.length) hDepth endsValue_nil
  have hStart := h.skipBlank_append []
  rw [List.append_nil] at hRead hStart
  rw [readWithin, hStart, hRead]
  rfl

/-- Data has a text, which can be stored and is read as the value that the data stands for by every
reader that allows as many levels as it has. -/
theorem read_text {style : Style} (hStyle : style.Readable) {v : Value} (h : IsData style v) :
    ∃ s, text style v = .ok s ∧ hasHalf s = false ∧
      ∀ depth, levels v ≤ depth → readWithin depth s.toList = .ok (restored style v) := by
  obtain ⟨s, hWrite, hSpells⟩ := write_spells hStyle h 0
  refine ⟨String.ofList s, by rw [text, hWrite]; rfl, ?_, fun depth hDepth => ?_⟩
  · rw [hasHalf, String.toList_ofList, List.any_eq_false]
    intro c hc
    rw [hSpells.whole c hc]
    exact Bool.false_ne_true
  · rw [String.toList_ofList]
    exact readWithin_of_spells hSpells hDepth

/-- The style of documents can be read back, whatever white space a level is indented by. -/
theorem readable_document {indent : Option String}
    (h : ∀ blanks, indent = some blanks → AllBlank blanks.toList) :
    (Style.document indent).Readable := by
  have hBlank : AllBlank [' '] := by
    intro c hc
    rw [List.mem_singleton.mp hc]
    rfl
  have hColon : ": ".toList = [':', ' '] := by decide
  have hComma : ", ".toList = [',', ' '] := by decide
  refine ⟨h, ?_, ⟨[' '], hColon, hBlank⟩⟩
  cases indent with
  | none => exact ⟨[' '], hComma, hBlank⟩
  | some blanks =>
      have hClose : ",".toList = [','] := by decide
      exact ⟨[], hClose, fun c hc => absurd hc List.not_mem_nil⟩

/-! ## Order -/

/-- Sorted entries do not depend on the order in which they were listed, if their keys are different
texts. -/
theorem arranged_eq_of_perm {style : Style} (hSort : style.sortKeys = true)
    {entries entries' : List (Value × Value)} (hPerm : entries.Perm entries')
    (hKeys : ∀ e ∈ entries, IsKey e.1) (hNodup : (entries.map fun e => e.1.text?).Nodup) :
    arranged style entries = arranged style entries' := by
  rw [arranged, arranged, if_pos hSort, if_pos hSort]
  have hTrans : ∀ a b c, keyOrder a b = true → keyOrder b c = true → keyOrder a c = true :=
    fun a b c => comesNoLater_trans _ _ _
  have hTotal : ∀ a b, (keyOrder a b || keyOrder b a) = true :=
    fun a b => comesNoLater_total _ _
  refine mergeSort_eq_of_perm hTrans hTotal ?_ hPerm
  intro a ha b hb hab hba
  obtain ⟨s, hFirst, -⟩ := hKeys a ha
  obtain ⟨t, hSecond, -⟩ := hKeys b hb
  rw [keyOrder, hFirst, hSecond] at hab hba
  have hSame : s = t := comesNoLater_antisymm hab hba
  exact List.inj_on_of_nodup_map hNodup ha hb (by rw [hFirst, hSecond, hSame])

/-- With sorted keys, the order of a table does not show in its text. -/
theorem text_table_perm {style : Style} (hSort : style.sortKeys = true)
    {entries entries' : List (Value × Value)} (hPerm : entries.Perm entries')
    (hKeys : ∀ e ∈ entries, IsKey e.1) (hNodup : (entries.map fun e => e.1.text?).Nodup) :
    text style (.table entries) = text style (.table entries') := by
  have hKeys' : ∀ e ∈ entries', IsKey e.1 := fun e he => hKeys e (hPerm.mem_iff.mpr he)
  have hEmpty : entries.isEmpty = entries'.isEmpty := by
    rw [Bool.eq_iff_iff, List.isEmpty_iff_length_eq_zero, List.isEmpty_iff_length_eq_zero,
      hPerm.length_eq]
  have hWrite : write style 0 (.table entries) = write style 0 (.table entries') := by
    rw [write, write, hEmpty, writeValues_eq_map, writeValues_eq_map, ordered_eq hKeys,
      ordered_eq hKeys', arranged_eq_of_perm hSort hPerm hKeys hNodup]
  rw [text, text, hWrite]

end CircuitBench.Json
