import CircuitBench.Json.Reader

/-!
# What the reader of JSON puts together

The reader gives nulls, truth values, numbers and texts, lists of what it gives, and tables that
come about by putting one entry after another under a text.  So a property of values that all of
these have, and a property of tables that putting keeps, hold of whatever is read.

## Main results

* `IsReadClosed.of_read` : what holds of the parts holds of what is read.
-/

namespace CircuitBench.Json

/-- Whether a property of values, together with one of tables, holds of what the reader puts
together from parts that have it. -/
structure IsReadClosed (P : Value → Prop) (T : Table → Prop) : Prop where
  null : P .null
  bool (b : Bool) : P (.bool b)
  int (n : Int) : P (.int n)
  float (x : Number.Binary) : P (.float x)
  text (s : String) : P (.text s)
  list {items : List Value} (hItems : ∀ v ∈ items, P v) : P (.list items)
  empty : T []
  put {t : Table} (s : String) {v : Value} (hTable : T t) (hValue : P v) : T (t.insert (.text s) v)
  table {t : Table} (hTable : T t) : P (.table t)

/-- What is read as a string is a text. -/
theorem text_of_readString {s r : List Char} {v : Value} (h : readString s = .ok (v, r)) :
    ∃ t, v = .text t := by
  rw [readString] at h
  split at h
  · cases h
    exact ⟨_, rfl⟩
  · cases h

namespace IsReadClosed

variable {P : Value → Prop} {T : Table → Prop}

theorem of_readWord (hClosed : IsReadClosed P T) {s : List Char} {v : Value} {r : List Char}
    (h : readWord? s = some (v, r)) : P v := by
  obtain ⟨w, hWord, hRead⟩ := List.exists_of_findSome?_eq_some h
  obtain ⟨rest, -, hSame⟩ := Option.map_eq_some_iff.mp hRead
  cases hSame
  have hWords : ∀ w ∈ words, P w.2 := by
    simp only [words, List.forall_mem_cons]
    exact ⟨hClosed.null, hClosed.bool _, hClosed.bool _, hClosed.float _, hClosed.float _,
      hClosed.float _, fun w hw => absurd hw List.not_mem_nil⟩
  exact hWords w hWord

theorem of_readNumber (hClosed : IsReadClosed P T) {s r : List Char} {v : Value}
    (h : readNumber s = .ok (v, r)) : P v := by
  unfold readNumber at h
  -- with a sign in front or without
  split at h
  all_goals
    dsimp only at h
    split at h
    · cases h
    split at h
    · split at h
      · cases h
      · cases h
        exact hClosed.int _
    · cases h
      exact hClosed.float _

/-- The readers of a value, of items and of entries give what the properties hold of.  The induction
is on the fuel, which each of them hands on to the others. -/
theorem of_reading (hClosed : IsReadClosed P T) (fuel : Nat) :
    (∀ depth s v r, readValue fuel depth s = .ok (v, r) → P v) ∧
    (∀ depth s items r, readItems fuel depth s = .ok (items, r) → ∀ v ∈ items, P v) ∧
    (∀ depth t s entries r, T t → readEntries fuel depth t s = .ok (entries, r) → T entries) := by
  induction fuel with
  | zero =>
      refine ⟨fun depth s v r h => ?_, fun depth s items r h => ?_, fun depth t s es r _ h => ?_⟩
      · unfold readValue at h
        cases h
      · unfold readItems at h
        cases h
      · unfold readEntries at h
        cases h
  | succ fuel ih =>
  obtain ⟨hValue, hItems, hEntries⟩ := ih
  refine ⟨fun depth s v r h => ?_, fun depth s items r h => ?_, fun depth t s es r ht h => ?_⟩
  · cases s with
    | nil =>
        unfold readValue at h
        cases h
    | cons c rest =>
    unfold readValue at h
    split at h
    · obtain ⟨t, rfl⟩ := text_of_readString h
      exact hClosed.text t
    split at h
    · split at h
      · cases h
      · cases h
        exact hClosed.list fun v hv => absurd hv List.not_mem_nil
      · split at h
        · rename_i hRead
          cases h
          exact hClosed.list (hItems _ _ _ _ hRead)
        · cases h
    split at h
    · split at h
      · cases h
      · cases h
        exact hClosed.table hClosed.empty
      · split at h
        · rename_i hRead
          cases h
          exact hClosed.table (hEntries _ _ _ _ _ hClosed.empty hRead)
        · cases h
    split at h
    · rename_i hWord
      cases h
      exact hClosed.of_readWord hWord
    · exact hClosed.of_readNumber h
  · unfold readItems at h
    split at h
    · cases h
    · rename_i item more hRead
      have hFirst := hValue _ _ _ _ hRead
      split at h
      · cases h
        exact List.forall_mem_singleton.mpr hFirst
      · split at h
        · rename_i hMore
          cases h
          exact List.forall_mem_cons.mpr ⟨hFirst, hItems _ _ _ _ hMore⟩
        · cases h
      · cases h
  · cases s with
    | nil =>
        unfold readEntries at h
        cases h
    | cons c rest =>
    unfold readEntries at h
    split at h
    · split at h
      · cases h
      · rename_i key afterKey hKey
        obtain ⟨name, rfl⟩ := text_of_readString hKey
        split at h
        · split at h
          · cases h
          · rename_i value afterValue hRead
            have hPut := hClosed.put name ht (hValue _ _ _ _ hRead)
            dsimp only at h
            split at h
            · cases h
              exact hPut
            · exact hEntries _ _ _ _ _ hPut h
            · cases h
        · cases h
    · cases h

/-- What holds of the parts holds of what is read. -/
theorem of_read (hClosed : IsReadClosed P T) {s : List Char} {v : Value} (h : read s = .ok v) :
    P v := by
  rw [read] at h
  split at h
  · cases h
  · rename_i hRead
    split at h
    · cases h
      exact (hClosed.of_reading _).1 _ _ _ _ hRead
    · cases h

end IsReadClosed

end CircuitBench.Json
