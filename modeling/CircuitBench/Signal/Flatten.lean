import CircuitBench.Signal.Name

/-!
# Nested values and the signals they set

A value for an array signal is a nested list.  It sets one signal for each of its leaves, named by
the name of the array and the indices on the way to the leaf.  Tuples and numeric arrays nest like
lists; every other value is a leaf, whatever it holds.

A value may be nested to any depth here.  At which depth the recursion ends that walks through a
value depends on how deep the caller has got, and is set aside.

## Main results

* `flatten_list` : the leaves of a list are those of its items in order.
* `length_flatten` : there are as many names as leaves.
-/

namespace CircuitBench.Signal

mutual

/-- The signals that a value sets under a name, each with its leaf, in row-major order. -/
def flatten (name : String) : Value → List (String × Value)
  | .list items => flattenFrom name 0 items
  | .tuple items => flattenFrom name 0 items
  | .array _ content => flatten name content
  | v => [(name, v)]

/-- The signals that the items of a list set, numbered from `index`. -/
def flattenFrom (name : String) (index : Nat) : List Value → List (String × Value)
  | [] => []
  | v :: vs => flatten (element name index) v ++ flattenFrom name (index + 1) vs

end

mutual

/-- The leaves of a value in row-major order. -/
def leaves : Value → List Value
  | .list items => leavesOf items
  | .tuple items => leavesOf items
  | .array _ content => leaves content
  | v => [v]

/-- The leaves of several values in order. -/
def leavesOf : List Value → List Value
  | [] => []
  | v :: vs => leaves v ++ leavesOf vs

end

theorem flatten_list (name : String) (items : List Value) :
    flatten name (.list items) = flattenFrom name 0 items := by
  simp [flatten]

mutual

theorem map_snd_flatten (name : String) (v : Value) : (flatten name v).map Prod.snd = leaves v := by
  cases v with
  | list items => simp [flatten, leaves, map_snd_flattenFrom]
  | tuple items => simp [flatten, leaves, map_snd_flattenFrom]
  | array kind content => simp [flatten, leaves, map_snd_flatten]
  | _ => simp [flatten, leaves]

theorem map_snd_flattenFrom (name : String) (index : Nat) (vs : List Value) :
    (flattenFrom name index vs).map Prod.snd = leavesOf vs := by
  cases vs with
  | nil => simp [flattenFrom, leavesOf]
  | cons v vs => simp [flattenFrom, leavesOf, map_snd_flatten, map_snd_flattenFrom]

end

theorem length_flatten (name : String) (v : Value) :
    (flatten name v).length = (leaves v).length := by
  rw [← map_snd_flatten name v, List.length_map]

end CircuitBench.Signal
