import CircuitBench.Sort.Natural
import CircuitBench.Value.Order

/-!
# The order of entries

A document written with sorted keys lists the entries of every table by key.  A table may mix kinds
of keys that have no order between them; writing it then fails, and the report names the kinds of
the first two keys that sorting compares in vain.  Keys that are the same by value, but not the same
key, leave the order to the values.

Keys that are all texts have an order, by code points, and are sorted as such.

## Main results

* `sortByKey_of_text` : entries with texts as keys are always sorted.
-/

namespace CircuitBench

open Text

/-- Something that belongs to an entry of a table. -/
abbrev Keyed (α : Type) := (Value × Value) × α

namespace Keyed

variable {α : Type}

/-- Whether an entry's key is a text. -/
def hasTextKey (e : Keyed α) : Bool :=
  e.1.1.text?.isSome

/-- The text of a key, empty for a key that is none. -/
def keyText (e : Keyed α) : String :=
  e.1.1.text?.getD ""

/-- The order of entries with texts as keys. -/
def textOrder (a b : Keyed α) : Bool :=
  comesNoLater a.keyText b.keyText

/-- Whether an entry comes before another. -/
def before (a b : Keyed α) : Except Error Bool :=
  Value.lessItems [a.1.1, a.1.2] [b.1.1, b.1.2]

/-- Entries sorted by key. -/
def sortByKey (entries : List (Keyed α)) : Except Error (List (Keyed α)) :=
  if entries.all hasTextKey then .ok (entries.mergeSort textOrder) else Sort.sort before entries

theorem sortByKey_of_text (entries : List (Keyed α)) (h : ∀ e ∈ entries, hasTextKey e = true) :
    sortByKey entries = .ok (entries.mergeSort textOrder) := by
  rw [sortByKey, if_pos (List.all_eq_true.2 h)]

end Keyed

end CircuitBench
