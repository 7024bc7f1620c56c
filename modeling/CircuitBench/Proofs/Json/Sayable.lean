import CircuitBench.Proofs.Bench.Preserved
import CircuitBench.Proofs.Json.Readings
import CircuitBench.Value.Access

/-!
# What JSON can say

A JSON text says nulls, truth values, numbers and texts, and lists and tables of what it can say.
Arrays, their cells and bytes come from elsewhere.  So what has been read from a text counts as true
or as false, which an array of several cells does not; and so do its members and its entries, however
deep they lie.

## Main results

* `isSayable_of_read` : what is read from a text can be said in JSON.
* `IsSayable.truth` : what can be said counts as true or as false.
* `IsSayable.entries` : the entries of what can be said can be said.
-/

namespace CircuitBench

open Json

/-! ## Values -/

/-- Whether a value can be said in JSON. -/
inductive Value.IsSayable : Value → Prop
  | null : IsSayable .null
  | bool (b : Bool) : IsSayable (.bool b)
  | int (n : Int) : IsSayable (.int n)
  | float (x : Number.Binary) : IsSayable (.float x)
  | text (s : String) : IsSayable (.text s)
  | list {items : List Value} (hItems : ∀ v ∈ items, IsSayable v) : IsSayable (.list items)
  | table {entries : Table} (hKeys : ∀ e ∈ entries, IsSayable e.1)
      (hValues : ∀ e ∈ entries, IsSayable e.2) : IsSayable (.table entries)

/-- Whether the keys and values of a table can be said in JSON. -/
def Table.IsSayable (t : Table) : Prop :=
  ∀ e ∈ t, e.1.IsSayable ∧ e.2.IsSayable

theorem Table.isSayable_nil : Table.IsSayable [] :=
  fun _ he => absurd he List.not_mem_nil

namespace Table.IsSayable

variable {t more : Table}

theorem toValue (h : t.IsSayable) : (Value.table t).IsSayable :=
  .table (fun e he => (h e he).1) fun e he => (h e he).2

theorem ofValue (h : (Value.table t).IsSayable) : t.IsSayable := by
  cases h with
  | table hKeys hValues => exact fun e he => ⟨hKeys e he, hValues e he⟩

theorem insert (h : t.IsSayable) {key value : Value} (hKey : key.IsSayable)
    (hValue : value.IsSayable) : (t.insert key value).IsSayable := by
  induction t with
  | nil => exact List.forall_mem_singleton.mpr ⟨hKey, hValue⟩
  | cons e rest ih =>
      obtain ⟨hFirst, hRest⟩ := List.forall_mem_cons.mp h
      rw [Table.insert]
      split
      · exact List.forall_mem_cons.mpr ⟨⟨hFirst.1, hValue⟩, hRest⟩
      · exact List.forall_mem_cons.mpr ⟨hFirst, ih hRest⟩

theorem merge (h : t.IsSayable) (hMore : more.IsSayable) : (t.merge more).IsSayable := by
  induction more generalizing t with
  | nil => exact h
  | cons e rest ih =>
      obtain ⟨hFirst, hRest⟩ := List.forall_mem_cons.mp hMore
      exact ih (h.insert hFirst.1 hFirst.2) hRest

/-- What is found in a table can be said if all of it can, and if what stands for nothing can. -/
theorem getD (h : t.IsSayable) (key : String) {default : Value} (hDefault : default.IsSayable) :
    (t.getD key default).IsSayable := by
  induction t with
  | nil => exact hDefault
  | cons e rest ih =>
      obtain ⟨hFirst, hRest⟩ := List.forall_mem_cons.mp h
      rw [Table.getD, Table.get?]
      split
      · exact hFirst.2
      · exact ih hRest

end Table.IsSayable

namespace Value.IsSayable

variable {v : Value}

/-- What can be said counts as true or as false. -/
theorem truth (h : v.IsSayable) : ∃ b, v.truth = .ok b := by
  cases h <;> exact ⟨_, rfl⟩

theorem members (h : v.IsSayable) {items : List Value} (hMembers : v.members = .ok items) :
    ∀ w ∈ items, w.IsSayable := by
  cases h with
  | null => cases hMembers
  | bool b => cases hMembers
  | int n => cases hMembers
  | float x => cases hMembers
  | text s =>
      cases hMembers
      exact List.forall_mem_map.mpr fun c _ => .text _
  | list hItems =>
      cases hMembers
      exact hItems
  | table hKeys hValues =>
      cases hMembers
      exact List.forall_mem_map.mpr hKeys

theorem pairsFrom {items : List Value} (h : ∀ v ∈ items, v.IsSayable) {index : Nat} {pairs : Table}
    (hPairs : Value.pairsFrom index items = .ok pairs) : pairs.IsSayable := by
  induction items generalizing index pairs with
  | nil =>
      cases hPairs
      exact Table.isSayable_nil
  | cons v rest ih =>
      obtain ⟨hFirst, hRest⟩ := List.forall_mem_cons.mp h
      obtain ⟨pair, hPair, hPairs⟩ := except_bind_eq_ok hPairs
      obtain ⟨more, hMore, hPairs⟩ := except_bind_eq_ok hPairs
      cases hPairs
      refine List.forall_mem_cons.mpr ⟨?_, ih hRest hMore⟩
      rw [Value.pairAt] at hPair
      split at hPair
      · cases hPair
      · rename_i k w hMembers
        have hBoth := hFirst.members hMembers
        split at hPair
        · cases hPair
        · cases hPair
          exact ⟨hBoth _ (by simp), hBoth _ (by simp)⟩
      · cases hPair

/-- The entries of what can be said can be said, whether it is a table or a list of pairs. -/
theorem entries (h : v.IsSayable) {found : Table} (hEntries : v.entries = .ok found) :
    found.IsSayable := by
  rw [Value.entries.eq_def] at hEntries
  split at hEntries
  · cases hEntries
    exact .ofValue h
  · obtain ⟨items, hMembers, hEntries⟩ := except_bind_eq_ok hEntries
    exact pairsFrom (h.members hMembers) hEntries

end Value.IsSayable

/-! ## Texts -/

namespace Json

/-- What is read from a text can be said in JSON. -/
theorem isSayable_of_read {s : List Char} {v : Value} (h : read s = .ok v) : v.IsSayable := by
  have hClosed : IsReadClosed Value.IsSayable Table.IsSayable :=
    { null := .null
      bool := .bool
      int := .int
      float := .float
      text := .text
      list := .list
      empty := Table.isSayable_nil
      put := fun s _ hTable hValue => hTable.insert (.text s) hValue
      table := Table.IsSayable.toValue }
  exact hClosed.of_read h

end Json

end CircuitBench
