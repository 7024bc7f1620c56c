import CircuitBench.Signal.Flatten
import Mathlib.Data.List.Induction
import Mathlib.Data.List.Nodup

/-!
# Names of elements

An element of a nested array is reached by a way of indices, and its name is the name of the array
with these indices in brackets.  The name tells the way, because no index holds a bracket: two ways
from one array lead to one name only if they are the same.  From two different arrays a common name
is reached only where the name of one array spells an element of the other.

A value sets the elements at its places, which are the ways to its leaves.  A row of a value is the
value itself, an item of it, or a row of an item; what a row sets is set by the whole.

## Main results

* `elementAt_eq_elementAt` : two arrays with a common element name, of which one is an element of
  the other.
* `elementAt_injective` : the name of an element tells the way to it.
* `names_flatten` : a value sets the elements at its places.
* `nodup_names_flatten` : a value sets no element twice.
* `sublist_flatten_of_mem_rows` : what a row sets is set by the whole.
-/

namespace CircuitBench.Signal

/-! ## Ways and names -/

/-- The name of the element at the end of a way of indices. -/
def elementAt (name : String) (way : List Nat) : String :=
  way.foldl element name

theorem elementAt_cons (name : String) (index : Nat) (way : List Nat) :
    elementAt name (index :: way) = elementAt (element name index) way := rfl

theorem elementAt_append (name : String) (way more : List Nat) :
    elementAt name (way ++ more) = elementAt (elementAt name way) more :=
  List.foldl_append

theorem toList_element (name : String) (index : Nat) :
    (element name index).toList = name.toList ++ '[' :: (Nat.toDigits 10 index ++ [']']) := by
  have hDigits : (toString index).toList = Nat.toDigits 10 index := by
    rw [Nat.toString_eq_ofList_toDigits, String.toList_ofList]
  simp only [element, String.toList_append, hDigits, List.append_assoc]
  rfl

/-- What stands before the last bracket of two texts, and what stands behind it. -/
private theorem append_bracket_inj {a b d e : List Char} (hd : '[' ∉ d) (he : '[' ∉ e)
    (h : a ++ '[' :: d = b ++ '[' :: e) : a = b ∧ d = e := by
  rcases List.append_eq_append_iff.mp h with ⟨more, hb, hSplit⟩ | ⟨more, ha, hSplit⟩
  · cases more with
    | nil =>
        rw [List.append_nil] at hb
        cases hSplit
        exact ⟨hb.symm, rfl⟩
    | cons c more =>
        cases hSplit
        exact absurd (List.mem_append_right more (List.mem_cons_self)) hd
  · cases more with
    | nil =>
        rw [List.append_nil] at ha
        cases hSplit
        exact ⟨ha, rfl⟩
    | cons c more =>
        cases hSplit
        exact absurd (List.mem_append_right more (List.mem_cons_self)) he

private theorem bracket_not_mem_digits (index : Nat) :
    '[' ∉ Nat.toDigits 10 index ++ [']'] := by
  have hDigits : '[' ∉ Nat.toDigits 10 index := by
    intro hMem
    have hDigit := Nat.isDigit_of_mem_toDigits (by decide) (by decide) hMem
    exact absurd hDigit (by decide)
  simp [hDigits]

/-- The name of an element tells the name of the array and the index. -/
theorem element_inj {a b : String} {i j : Nat} (h : element a i = element b j) : a = b ∧ i = j := by
  have hText := congrArg String.toList h
  rw [toList_element, toList_element] at hText
  obtain ⟨hName, hIndex⟩ :=
    append_bracket_inj (bracket_not_mem_digits i) (bracket_not_mem_digits j) hText
  have hDigits : Nat.toDigits 10 i = Nat.toDigits 10 j := (List.append_inj' hIndex rfl).1
  refine ⟨String.toList_injective hName, ?_⟩
  have hValue := congrArg (Nat.ofDigitChars 10 · 0) hDigits
  simpa only [Nat.ofDigitChars_ten_toDigits] using hValue

/-- Two arrays have a common element name only if the name of one of them spells an element of the
other, at the way that is left when the shorter of the two ways is taken off the longer. -/
theorem elementAt_eq_elementAt {a b : String} {is js : List Nat}
    (h : elementAt a is = elementAt b js) :
    (∃ ks, js = ks ++ is ∧ a = elementAt b ks) ∨ ∃ ks, is = ks ++ js ∧ b = elementAt a ks := by
  -- the last indices are compared first, as the last brackets of the name
  induction is using List.reverseRecOn generalizing js with
  | nil => exact .inl ⟨js, (List.append_nil js).symm, h⟩
  | append_singleton is i ih =>
      cases js using List.reverseRecOn with
      | nil => exact .inr ⟨is ++ [i], (List.append_nil _).symm, h.symm⟩
      | append_singleton js j =>
          rw [elementAt_append, elementAt_append] at h
          obtain ⟨hNames, rfl⟩ := element_inj h
          rcases ih hNames with ⟨ks, rfl, ha⟩ | ⟨ks, rfl, hb⟩
          · exact .inl ⟨ks, List.append_assoc ks is [i], ha⟩
          · exact .inr ⟨ks, List.append_assoc ks js [i], hb⟩

theorem length_le_elementAt (name : String) (way : List Nat) :
    name.toList.length + way.length ≤ (elementAt name way).toList.length := by
  induction way generalizing name with
  | nil => exact Nat.le_refl _
  | cons index way ih =>
      have hStep := ih (element name index)
      rw [toList_element] at hStep
      simp only [List.length_append, List.length_cons, elementAt_cons] at hStep ⊢
      omega

/-- An element has another name than its array. -/
theorem eq_nil_of_elementAt_eq {name : String} {way : List Nat} (h : name = elementAt name way) :
    way = [] := by
  have hLength := length_le_elementAt name way
  rw [← h] at hLength
  exact List.length_eq_zero_iff.mp (by omega)

/-- The name of an element tells the way to it. -/
theorem elementAt_injective (name : String) : Function.Injective (elementAt name) := by
  intro is js h
  rcases elementAt_eq_elementAt h with ⟨ks, rfl, hName⟩ | ⟨ks, rfl, hName⟩
  · rw [eq_nil_of_elementAt_eq hName]
    rfl
  · rw [eq_nil_of_elementAt_eq hName]
    rfl

/-! ## Places -/

mutual

/-- The places of a value: the ways to its leaves, in row-major order. -/
def places : Value → List (List Nat)
  | .list items => placesFrom 0 items
  | .tuple items => placesFrom 0 items
  | .array _ content => places content
  | _ => [[]]

/-- The ways to the leaves of items, numbered from `index`. -/
def placesFrom (index : Nat) : List Value → List (List Nat)
  | [] => []
  | v :: vs => (places v).map (index :: ·) ++ placesFrom (index + 1) vs

end

mutual

/-- A value sets the elements at its places. -/
theorem names_flatten (name : String) (v : Value) :
    (flatten name v).map Prod.fst = (places v).map (elementAt name) := by
  cases v with
  | list items => simp only [flatten, places, names_flattenFrom]
  | tuple items => simp only [flatten, places, names_flattenFrom]
  | array kind content => simp only [flatten, places, names_flatten]
  | _ => simp [flatten, places, elementAt]

theorem names_flattenFrom (name : String) (index : Nat) (vs : List Value) :
    (flattenFrom name index vs).map Prod.fst = (placesFrom index vs).map (elementAt name) := by
  cases vs with
  | nil => simp [flattenFrom, placesFrom]
  | cons v vs =>
      have hFirst := names_flatten (element name index) v
      have hRest := names_flattenFrom name (index + 1) vs
      simp only [flattenFrom, placesFrom, List.map_append, List.map_map, hFirst, hRest]
      rfl

end

/-- The ways to the leaves of items start with the number of an item. -/
private theorem le_of_mem_placesFrom {index : Nat} {vs : List Value} {way : List Nat}
    (h : way ∈ placesFrom index vs) : ∃ i rest, way = i :: rest ∧ index ≤ i := by
  induction vs generalizing index with
  | nil => cases h
  | cons v vs ih =>
      rw [placesFrom, List.mem_append, List.mem_map] at h
      rcases h with ⟨rest, -, rfl⟩ | h
      · exact ⟨index, rest, rfl, Nat.le_refl index⟩
      · obtain ⟨i, rest, hWay, hi⟩ := ih h
        exact ⟨i, rest, hWay, by omega⟩

mutual

theorem nodup_places (v : Value) : (places v).Nodup := by
  cases v with
  | list items => simpa only [places] using nodup_placesFrom 0 items
  | tuple items => simpa only [places] using nodup_placesFrom 0 items
  | array kind content => simpa only [places] using nodup_places content
  | _ => simp [places]

theorem nodup_placesFrom (index : Nat) (vs : List Value) : (placesFrom index vs).Nodup := by
  cases vs with
  | nil => simp [placesFrom]
  | cons v vs =>
      rw [placesFrom, List.nodup_append]
      refine ⟨?_, nodup_placesFrom (index + 1) vs, ?_⟩
      · exact List.Nodup.map (fun _ _ h => (List.cons.inj h).2) (nodup_places v)
      · -- the ways into the first item start with a lower index than those into the others
        intro way hWay way' hWay' hSame
        obtain ⟨rest, -, rfl⟩ := List.mem_map.mp hWay
        obtain ⟨i, rest', rfl, hi⟩ := le_of_mem_placesFrom hWay'
        cases hSame
        omega

end

/-- A value sets no element twice. -/
theorem nodup_names_flatten (name : String) (v : Value) : ((flatten name v).map Prod.fst).Nodup := by
  rw [names_flatten]
  exact List.Nodup.map (elementAt_injective name) (nodup_places v)

/-! ## Rows -/

mutual

/-- The rows of a value, each with the way to it: the value itself and the rows of its items. -/
def rows : Value → List (List Nat × Value)
  | .list items => ([], .list items) :: rowsFrom 0 items
  | .tuple items => ([], .tuple items) :: rowsFrom 0 items
  | .array _ content => rows content
  | v => [([], v)]

/-- The rows of items, numbered from `index`. -/
def rowsFrom (index : Nat) : List Value → List (List Nat × Value)
  | [] => []
  | v :: vs => (rows v).map (fun r => (index :: r.1, r.2)) ++ rowsFrom (index + 1) vs

end

mutual

/-- What a row sets is set by the whole. -/
theorem sublist_flatten_of_mem_rows {name : String} {v : Value} {r : List Nat × Value}
    (h : r ∈ rows v) : List.Sublist (flatten (elementAt name r.1) r.2) (flatten name v) := by
  cases v with
  | list items =>
      rw [rows, List.mem_cons] at h
      rcases h with rfl | h
      · exact List.Sublist.refl _
      · rw [flatten_list]
        exact sublist_flattenFrom_of_mem_rowsFrom h
  | tuple items =>
      rw [rows, List.mem_cons] at h
      rcases h with rfl | h
      · exact List.Sublist.refl _
      · simpa only [flatten] using sublist_flattenFrom_of_mem_rowsFrom h
  | array kind content =>
      rw [rows] at h
      simpa only [flatten] using sublist_flatten_of_mem_rows h
  | _ =>
      simp only [rows, List.mem_singleton] at h
      subst h
      exact List.Sublist.refl _

theorem sublist_flattenFrom_of_mem_rowsFrom {name : String} {index : Nat} {vs : List Value}
    {r : List Nat × Value} (h : r ∈ rowsFrom index vs) :
    List.Sublist (flatten (elementAt name r.1) r.2) (flattenFrom name index vs) := by
  cases vs with
  | nil => cases h
  | cons v vs =>
      rw [rowsFrom, List.mem_append, List.mem_map] at h
      rw [flattenFrom]
      rcases h with ⟨r', hr', rfl⟩ | h
      · exact (sublist_flatten_of_mem_rows hr').trans (List.sublist_append_left _ _)
      · exact (sublist_flattenFrom_of_mem_rowsFrom h).trans (List.sublist_append_right _ _)

end

end CircuitBench.Signal
