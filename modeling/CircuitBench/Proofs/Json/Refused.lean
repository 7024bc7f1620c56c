import CircuitBench.Proofs.Bench.Preserved
import CircuitBench.Proofs.Json.RoundTrip

/-!
# What has no written form among parameters

Template parameters may be values of any kind, nested in any way.  Some kinds have no written form:
bytes, sets, opaque values, the truth values and the shorter floating-point numbers of array code;
and some kinds cannot be written as a key.  An integer can be too long to be printed.  The writer
refuses a value as soon as a part of it, at whatever depth, is such an obstacle, and for no other
reason; and the refusal is that of one of the obstacles.

## Main results

* `exists_obstacle` : a value that is refused has a part that is refused for the same reason.
* `write_ne_ok_of_obstacle` : a value with an obstacle among its parts has no written form.
* `write_eq_type_error` : unless there are integers that are too long, the refusal is one of a kind.
-/

namespace CircuitBench.Json

open Number Text

/-! ## Parts and obstacles -/

/-- The values that the writer meets on its way through a value: the value itself, the items of a
list or a tuple, the values of a table, what an array lists, and what these are made of.  Keys are
not among them. -/
inductive IsPart (part : Value) : Value → Prop
  | whole : IsPart part part
  | listed {items : List Value} {v : Value} (hMem : v ∈ items) (hPart : IsPart part v) :
      IsPart part (.list items)
  | placed {items : List Value} {v : Value} (hMem : v ∈ items) (hPart : IsPart part v) :
      IsPart part (.tuple items)
  | entered {entries : List (Value × Value)} {entry : Value × Value} (hMem : entry ∈ entries)
      (hPart : IsPart part entry.2) : IsPart part (.table entries)
  | arrayed {kind : CellKind} {content : Value} (hPart : IsPart part content) :
      IsPart part (.array kind content)

/-- Whether values of a kind have a written form, their parts apart. -/
def hasForm : Value → Bool
  | .bytes _ => false
  | .set _ => false
  | .object => false
  | .boolCell _ => false
  | .floatCell .half _ => false
  | .floatCell .single _ => false
  | _ => true

/-- Whether values of a kind can be written as a key. -/
def hasKeyForm : Value → Bool
  | .text _ => true
  | .textCell _ => true
  | .float _ => true
  | .floatCell .double _ => true
  | .bool _ => true
  | .null => true
  | .int _ => true
  | _ => false

/-- Whether a value is an integer that is too long to be printed, or a table with such a key. -/
inductive IsOverlong : Value → Prop
  | int {n : Int} (hLong : ¬IsPrinted n) : IsOverlong (.int n)
  | cell {kind : IntegerCell} {n : Int} (hLong : ¬IsPrinted n) : IsOverlong (.integerCell kind n)
  | key {entries : List (Value × Value)} {n : Int} {v : Value} (hMem : (.int n, v) ∈ entries)
      (hLong : ¬IsPrinted n) : IsOverlong (.table entries)

/-- A value that cannot be written as it is, whatever its parts are, with the report of that. -/
inductive Obstructs : Value → Error → Prop
  | kind {v : Value} (hForm : hasForm v = false) : Obstructs v (.type (.notParameter v.kindName))
  | key {entries : List (Value × Value)} {entry : Value × Value} (hMem : entry ∈ entries)
      (hForm : hasKeyForm entry.1 = false) :
      Obstructs (.table entries) (.type (.keyKind entry.1.fullKindName))
  | digits {v : Value} (hLong : IsOverlong v) : Obstructs v (.value .digitsToPrint)

/-! ## Steps of the writer -/

section Steps

variable {style : Style} {level : Nat} {e : Error}

theorem integerText_eq_error {n : Int} (h : Value.integerText n = .error e) :
    ¬IsPrinted n ∧ e = .value .digitsToPrint := by
  rw [Value.integerText] at h
  cases hPrinted : printInteger? n with
  | some s => rw [hPrinted] at h; cases h
  | none =>
      rw [hPrinted] at h
      exact ⟨fun hShort => hShort hPrinted, (Except.error.inj h).symm⟩

theorem isPrinted_of_integerText {n : Int} {s : String} (h : Value.integerText n = .ok s) :
    IsPrinted n := by
  intro hNone
  rw [Value.integerText, hNone] at h
  cases h

theorem keyText_eq_error {key : Value} (h : keyText .parameters key = .error e) :
    (hasKeyForm key = false ∧ e = .type (.keyKind key.fullKindName)) ∨
      ∃ n, key = .int n ∧ ¬IsPrinted n ∧ e = .value .digitsToPrint := by
  cases key with
  | int n =>
      rw [keyText] at h
      cases hText : Value.integerText n with
      | ok digits => rw [hText] at h; cases h
      | error fault =>
          rw [hText] at h
          obtain ⟨hLong, rfl⟩ := integerText_eq_error hText
          exact .inr ⟨n, rfl, hLong, (Except.error.inj h).symm⟩
  | floatCell kind x =>
      cases kind with
      | double => cases h
      | half => exact .inl ⟨rfl, (Except.error.inj h).symm⟩
      | single => exact .inl ⟨rfl, (Except.error.inj h).symm⟩
  | text s => cases h
  | textCell s => cases h
  | float x => cases h
  | bool b => cases h
  | null => cases h
  | _ => exact .inl ⟨rfl, (Except.error.inj h).symm⟩

theorem hasKeyForm_of_keyText {key : Value} {k : List Char}
    (h : keyText .parameters key = .ok k) : hasKeyForm key = true := by
  cases key with
  | floatCell kind x => cases kind <;> first | rfl | cases h
  | _ => first | rfl | cases h

theorem writeItems_eq_ok {items : List Value} {texts : List (List Char)}
    (h : writeItems style level items = .ok texts) :
    ∀ v ∈ items, ∃ t, write style level v = .ok t := by
  induction items generalizing texts with
  | nil => exact fun v hMem => absurd hMem List.not_mem_nil
  | cons v vs ih =>
      rw [writeItems] at h
      obtain ⟨t, hFirst, h⟩ := except_bind_eq_ok h
      obtain ⟨ts, hRest, -⟩ := except_bind_eq_ok h
      exact List.forall_mem_cons.mpr ⟨⟨t, hFirst⟩, ih hRest⟩

theorem entryTexts_eq_ok {entries : List (Value × Value)}
    {f : Value × Value → Except Error (List Char)} {texts : List (List Char)}
    (h : entryTexts style (entries.map fun entry => (entry, f entry)) = .ok texts) :
    ∀ entry ∈ entries, (∃ k, keyText style entry.1 = .ok k) ∧ ∃ t, f entry = .ok t := by
  induction entries generalizing texts with
  | nil => exact fun entry hMem => absurd hMem List.not_mem_nil
  | cons entry rest ih =>
      rw [List.map_cons, entryTexts] at h
      obtain ⟨k, hKey, h⟩ := except_bind_eq_ok h
      obtain ⟨t, hValue, h⟩ := except_bind_eq_ok h
      obtain ⟨more, hRest, -⟩ := except_bind_eq_ok h
      exact List.forall_mem_cons.mpr ⟨⟨⟨k, hKey⟩, t, hValue⟩, ih hRest⟩

theorem write_parameters_list (items : List Value) :
    write .parameters level (.list items) = (do
      let texts ← writeItems .parameters (level + 1) items
      return bracketed .parameters level '[' ']' texts) := by
  rw [write, checkIndent_parameters]
  rfl

theorem write_tuple (items : List Value) :
    write style level (.tuple items) = write style level (.list items) := by
  rw [write, write]

/-- The entries of a table are written in the order that they have. -/
theorem write_parameters_table (entries : List (Value × Value)) :
    write .parameters level (.table entries) = (do
      let texts ← entryTexts .parameters (writeValues .parameters (level + 1) entries)
      return bracketed .parameters level '\x7b' '\x7d' texts) := by
  rw [write, checkIndent_parameters]
  rfl

theorem write_parameters_integerCell (kind : IntegerCell) (n : Int) :
    write .parameters level (.integerCell kind n) = write .parameters level (.int n) := by
  rw [write, write]
  rfl

theorem write_parameters_array (kind : CellKind) (content : Value) :
    write .parameters level (.array kind content) = write .parameters level content := by
  rw [write]
  rfl

theorem write_int_eq_error {n : Int} (h : write style level (.int n) = .error e) :
    ¬IsPrinted n ∧ e = .value .digitsToPrint := by
  rw [write] at h
  cases hText : Value.integerText n with
  | ok s => rw [hText] at h; cases h
  | error fault =>
      rw [hText] at h
      cases Except.error.inj h
      exact integerText_eq_error hText

theorem isPrinted_of_write {n : Int} {s : List Char} (h : write style level (.int n) = .ok s) :
    IsPrinted n := by
  rw [write] at h
  cases hText : Value.integerText n with
  | error fault => rw [hText] at h; cases h
  | ok digits => exact isPrinted_of_integerText hText

end Steps

/-! ## Refusals -/

section Refusals

variable {e : Error}

mutual

/-- A value that is refused has a part that is refused for the same reason. -/
theorem exists_obstacle {level : Nat} {v : Value} (h : write .parameters level v = .error e) :
    ∃ part, IsPart part v ∧ Obstructs part e := by
  cases v with
  | null => cases h
  | bool b => cases h
  | float x => cases h
  | text s => cases h
  | textCell s => cases h
  | int n =>
      obtain ⟨hLong, rfl⟩ := write_int_eq_error h
      exact ⟨_, .whole, .digits (.int hLong)⟩
  | integerCell kind n =>
      rw [write_parameters_integerCell] at h
      obtain ⟨hLong, rfl⟩ := write_int_eq_error h
      exact ⟨_, .whole, .digits (.cell hLong)⟩
  | floatCell kind x =>
      cases kind with
      | double => cases h
      | half => cases h; exact ⟨_, .whole, .kind rfl⟩
      | single => cases h; exact ⟨_, .whole, .kind rfl⟩
  | list items =>
      rw [write_parameters_list] at h
      rcases except_bind_eq_error h with hItems | ⟨texts, -, h⟩
      · obtain ⟨v, hMem, part, hPart, hObstructs⟩ := exists_obstacle_item hItems
        exact ⟨part, .listed hMem hPart, hObstructs⟩
      · cases h
  | tuple items =>
      rw [write_tuple, write_parameters_list] at h
      rcases except_bind_eq_error h with hItems | ⟨texts, -, h⟩
      · obtain ⟨v, hMem, part, hPart, hObstructs⟩ := exists_obstacle_item hItems
        exact ⟨part, .placed hMem hPart, hObstructs⟩
      · cases h
  | table entries =>
      rw [write_parameters_table] at h
      rcases except_bind_eq_error h with hEntries | ⟨texts, -, h⟩
      · obtain ⟨entry, hMem, hKey | ⟨part, hPart, hObstructs⟩⟩ := exists_obstacle_entry hEntries
        · rcases keyText_eq_error hKey with ⟨hForm, rfl⟩ | ⟨n, hInt, hLong, rfl⟩
          · exact ⟨_, .whole, .key hMem hForm⟩
          · have hMem' : (.int n, entry.2) ∈ entries := hInt ▸ hMem
            exact ⟨_, .whole, .digits (.key hMem' hLong)⟩
        · exact ⟨part, .entered hMem hPart, hObstructs⟩
      · cases h
  | array kind content =>
      rw [write_parameters_array] at h
      obtain ⟨part, hPart, hObstructs⟩ := exists_obstacle h
      exact ⟨part, .arrayed hPart, hObstructs⟩
  | _ =>
      cases h
      exact ⟨_, .whole, .kind rfl⟩

/-- Items that are refused have one that is refused. -/
theorem exists_obstacle_item {level : Nat} {items : List Value}
    (h : writeItems .parameters level items = .error e) :
    ∃ v ∈ items, ∃ part, IsPart part v ∧ Obstructs part e := by
  cases items with
  | nil => cases h
  | cons v vs =>
      rw [writeItems] at h
      rcases except_bind_eq_error h with hFirst | ⟨t, -, h⟩
      · exact ⟨v, List.mem_cons_self, exists_obstacle hFirst⟩
      rcases except_bind_eq_error h with hRest | ⟨ts, -, h⟩
      · obtain ⟨w, hMem, hObstacle⟩ := exists_obstacle_item hRest
        exact ⟨w, List.mem_cons_of_mem v hMem, hObstacle⟩
      · cases h

/-- Entries that are refused have one of which the key or the value is refused. -/
theorem exists_obstacle_entry {level : Nat} {entries : List (Value × Value)}
    (h : entryTexts .parameters (writeValues .parameters level entries) = .error e) :
    ∃ entry ∈ entries, keyText .parameters entry.1 = .error e ∨
      ∃ part, IsPart part entry.2 ∧ Obstructs part e := by
  cases entries with
  | nil => cases h
  | cons entry rest =>
      obtain ⟨k, v⟩ := entry
      rw [writeValues, entryTexts] at h
      rcases except_bind_eq_error h with hKey | ⟨text, -, h⟩
      · exact ⟨(k, v), List.mem_cons_self, .inl hKey⟩
      rcases except_bind_eq_error h with hValue | ⟨t, -, h⟩
      · exact ⟨(k, v), List.mem_cons_self, .inr (exists_obstacle hValue)⟩
      rcases except_bind_eq_error h with hRest | ⟨more, -, h⟩
      · obtain ⟨found, hMem, hObstacle⟩ := exists_obstacle_entry hRest
        exact ⟨found, List.mem_cons_of_mem (k, v) hMem, hObstacle⟩
      · cases h

end

/-- A value that is written has all its parts written. -/
theorem written_part {part v : Value} (hPart : IsPart part v) {level : Nat} {s : List Char}
    (h : write .parameters level v = .ok s) : ∃ level' t, write .parameters level' part = .ok t := by
  induction hPart generalizing level s with
  | whole => exact ⟨level, s, h⟩
  | listed hMem _ ih =>
      rw [write_parameters_list] at h
      obtain ⟨texts, hItems, -⟩ := except_bind_eq_ok h
      obtain ⟨t, hItem⟩ := writeItems_eq_ok hItems _ hMem
      exact ih hItem
  | placed hMem _ ih =>
      rw [write_tuple, write_parameters_list] at h
      obtain ⟨texts, hItems, -⟩ := except_bind_eq_ok h
      obtain ⟨t, hItem⟩ := writeItems_eq_ok hItems _ hMem
      exact ih hItem
  | entered hMem _ ih =>
      rw [write_parameters_table, writeValues_eq_map] at h
      obtain ⟨texts, hEntries, -⟩ := except_bind_eq_ok h
      obtain ⟨-, t, hValue⟩ := entryTexts_eq_ok hEntries _ hMem
      exact ih hValue
  | arrayed _ ih =>
      rw [write_parameters_array] at h
      exact ih h

/-- A value without a form is not written. -/
theorem hasForm_of_write {level : Nat} {v : Value} {s : List Char}
    (h : write .parameters level v = .ok s) : hasForm v = true := by
  cases v with
  | floatCell kind x => cases kind <;> first | rfl | cases h
  | _ => first | rfl | cases h

/-- A table is written only if all its keys are. -/
theorem written_key {level : Nat} {entries : List (Value × Value)} {s : List Char}
    (h : write .parameters level (.table entries) = .ok s) {entry : Value × Value}
    (hMem : entry ∈ entries) : ∃ k, keyText .parameters entry.1 = .ok k := by
  rw [write_parameters_table, writeValues_eq_map] at h
  obtain ⟨texts, hEntries, -⟩ := except_bind_eq_ok h
  exact (entryTexts_eq_ok hEntries entry hMem).1

/-- An obstacle has no written form itself. -/
theorem write_ne_ok_of_obstructs {v : Value} (hObstructs : Obstructs v e) (level : Nat)
    (s : List Char) : write .parameters level v ≠ .ok s := by
  intro h
  cases hObstructs with
  | kind hForm => exact Bool.false_ne_true (hForm.symm.trans (hasForm_of_write h))
  | key hMem hForm =>
      obtain ⟨k, hKey⟩ := written_key h hMem
      exact Bool.false_ne_true (hForm.symm.trans (hasKeyForm_of_keyText hKey))
  | digits hLong =>
      cases hLong with
      | int hLong => exact hLong (isPrinted_of_write h)
      | cell hLong =>
          rw [write_parameters_integerCell] at h
          exact hLong (isPrinted_of_write h)
      | key hMem hLong =>
          obtain ⟨k, hKey⟩ := written_key h hMem
          obtain ⟨digits, hText, -⟩ := except_bind_eq_ok hKey
          exact hLong (isPrinted_of_integerText hText)

/-- A value with an obstacle among its parts has no written form. -/
theorem write_ne_ok_of_obstacle {part v : Value} (hPart : IsPart part v)
    (hObstructs : Obstructs part e) (level : Nat) (s : List Char) :
    write .parameters level v ≠ .ok s := by
  intro h
  obtain ⟨level', t, hWritten⟩ := written_part hPart h
  exact write_ne_ok_of_obstructs hObstructs level' t hWritten

/-- Unless there are integers that are too long, a value with an obstacle among its parts is refused
for the kind of one of its values or keys. -/
theorem write_eq_type_error {part v : Value} (hPart : IsPart part v)
    (hObstructs : Obstructs part e) (hShort : ∀ part, IsPart part v → ¬IsOverlong part)
    (level : Nat) : ∃ refused fault, IsPart refused v ∧ Obstructs refused (.type fault) ∧
      write .parameters level v = .error (.type fault) := by
  cases hWrite : write .parameters level v with
  | ok s => exact absurd hWrite (write_ne_ok_of_obstacle hPart hObstructs level s)
  | error found =>
      obtain ⟨refused, hRefused, hFound⟩ := exists_obstacle hWrite
      cases hFound with
      | kind hForm => exact ⟨refused, _, hRefused, .kind hForm, rfl⟩
      | key hMem hForm => exact ⟨_, _, hRefused, .key hMem hForm, rfl⟩
      | digits hLong => exact absurd hLong (hShort refused hRefused)

end Refusals

end CircuitBench.Json
