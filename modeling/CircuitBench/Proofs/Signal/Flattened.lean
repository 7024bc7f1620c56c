import CircuitBench.Proofs.Signal.Elements

/-!
# What a flattened value tells

Flattening walks through a value and forgets it: what is left is a list of names and leaves.  The
names keep the ways to the leaves, so nothing about the nesting is lost, lists without items apart,
which have no leaf to show for them.

A way leads to a leaf by what the value is alone, item by item (`LeadsTo`), and ways are ordered by
the first index in which they differ.  That order is the row-major one, so the list that flattening
gives is fixed by the ways that lead to leaves.  To go back from the list to the value, the leaves
are sorted by the first index of their ways: those with the index of an item belong to that item, and
an item without leaves would leave no trace.

## Main results

* `flatten_eq_located` : flattening names the located leaves.
* `mem_located_iff` : the located leaves are those that a way leads to.
* `pairwise_located` : and they are listed in the order of their ways.
* `plain_eq_of_located_eq` : a value without empty lists is known by its located leaves.
* `flatten_unambiguous` : what the names of a flattened value tell.
-/

namespace CircuitBench.Signal

/-! ## Ways that lead to leaves -/

/-- Whether a value is taken for a leaf: it is no list, tuple or array. -/
def isLeaf : Value → Bool
  | .list _ => false
  | .tuple _ => false
  | .array _ _ => false
  | _ => true

/-- Whether a way of indices leads from a value to a leaf in it. -/
inductive LeadsTo : Value → List Nat → Value → Prop
  | here {leaf : Value} (h : isLeaf leaf = true) : LeadsTo leaf [] leaf
  | list {items : List Value} {i : Nat} {v leaf : Value} {way : List Nat}
      (hItem : items[i]? = some v) (h : LeadsTo v way leaf) : LeadsTo (.list items) (i :: way) leaf
  | tuple {items : List Value} {i : Nat} {v leaf : Value} {way : List Nat}
      (hItem : items[i]? = some v) (h : LeadsTo v way leaf) : LeadsTo (.tuple items) (i :: way) leaf
  | array {kind : CellKind} {content leaf : Value} {way : List Nat}
      (h : LeadsTo content way leaf) : LeadsTo (.array kind content) way leaf

mutual

/-- The leaves of a value in row-major order, each with the way to it. -/
def located : Value → List (List Nat × Value)
  | .list items => locatedFrom 0 items
  | .tuple items => locatedFrom 0 items
  | .array _ content => located content
  | v => [([], v)]

/-- The leaves of items, numbered from `index`, each with the way to it. -/
def locatedFrom (index : Nat) : List Value → List (List Nat × Value)
  | [] => []
  | v :: vs => (located v).map (fun e => (index :: e.1, e.2)) ++ locatedFrom (index + 1) vs

end

mutual

/-- Flattening names the located leaves. -/
theorem flatten_eq_located (name : String) (v : Value) :
    flatten name v = (located v).map fun e => (elementAt name e.1, e.2) := by
  cases v with
  | list items => simp only [flatten, located, flattenFrom_eq_locatedFrom]
  | tuple items => simp only [flatten, located, flattenFrom_eq_locatedFrom]
  | array kind content => simp only [flatten, located, flatten_eq_located]
  | _ => simp [flatten, located, elementAt]

theorem flattenFrom_eq_locatedFrom (name : String) (index : Nat) (vs : List Value) :
    flattenFrom name index vs =
      (locatedFrom index vs).map fun e => (elementAt name e.1, e.2) := by
  cases vs with
  | nil => simp [flattenFrom, locatedFrom]
  | cons v vs =>
      have hFirst := flatten_eq_located (element name index) v
      have hRest := flattenFrom_eq_locatedFrom name (index + 1) vs
      simp only [flattenFrom, locatedFrom, List.map_append, List.map_map, hFirst, hRest]
      rfl

end

mutual

/-- The located leaves are those that a way leads to. -/
theorem mem_located_iff (v : Value) (way : List Nat) (leaf : Value) :
    (way, leaf) ∈ located v ↔ LeadsTo v way leaf := by
  cases v with
  | list items =>
      rw [located, mem_locatedFrom_iff]
      constructor
      · rintro ⟨i, v, rest, hItem, rfl, hLeads⟩
        rw [Nat.zero_add]
        exact .list hItem hLeads
      · intro h
        cases h with
        | here hLeaf => cases hLeaf
        | list hItem hLeads => exact ⟨_, _, _, hItem, by rw [Nat.zero_add], hLeads⟩
  | tuple items =>
      rw [located, mem_locatedFrom_iff]
      constructor
      · rintro ⟨i, v, rest, hItem, rfl, hLeads⟩
        rw [Nat.zero_add]
        exact .tuple hItem hLeads
      · intro h
        cases h with
        | here hLeaf => cases hLeaf
        | tuple hItem hLeads => exact ⟨_, _, _, hItem, by rw [Nat.zero_add], hLeads⟩
  | array kind content =>
      rw [located, mem_located_iff]
      constructor
      · exact .array
      · intro h
        cases h with
        | here hLeaf => cases hLeaf
        | array hLeads => exact hLeads
  | _ =>
      rw [located, List.mem_singleton, Prod.mk.injEq]
      · constructor
        · rintro ⟨rfl, rfl⟩
          exact .here rfl
        · intro h
          cases h
          exact ⟨rfl, rfl⟩
      all_goals nofun

theorem mem_locatedFrom_iff (index : Nat) (vs : List Value) (way : List Nat) (leaf : Value) :
    (way, leaf) ∈ locatedFrom index vs ↔
      ∃ i v rest, vs[i]? = some v ∧ way = (index + i) :: rest ∧ LeadsTo v rest leaf := by
  cases vs with
  | nil => simp [locatedFrom]
  | cons v vs =>
      have hFirst := fun rest => mem_located_iff v rest leaf
      have hRest := mem_locatedFrom_iff (index + 1) vs way leaf
      rw [locatedFrom, List.mem_append, List.mem_map, hRest]
      constructor
      · rintro (⟨⟨rest, leaf'⟩, hMem, hSame⟩ | ⟨i, w, rest, hItem, hWay, hLeads⟩)
        · cases hSame
          exact ⟨0, v, rest, rfl, rfl, (hFirst rest).mp hMem⟩
        · exact ⟨i + 1, w, rest, hItem, by rw [hWay, Nat.add_assoc, Nat.add_comm 1 i], hLeads⟩
      · rintro ⟨i, w, rest, hItem, rfl, hLeads⟩
        cases i with
        | zero =>
            cases hItem
            exact .inl ⟨(rest, leaf), (hFirst rest).mpr hLeads, rfl⟩
        | succ i =>
            exact .inr ⟨i, w, rest, hItem, by rw [Nat.add_assoc, Nat.add_comm 1 i], hLeads⟩

end

/-- Whether one located leaf stands before another in row-major order: in the first index in which
their ways differ, the way to it has the smaller one. -/
def StandsBefore (a b : List Nat × Value) : Prop :=
  List.Lex (· < ·) a.1 b.1

mutual

/-- The located leaves are listed in row-major order. -/
theorem pairwise_located (v : Value) : (located v).Pairwise StandsBefore := by
  cases v with
  | list items => simpa only [located] using pairwise_locatedFrom 0 items
  | tuple items => simpa only [located] using pairwise_locatedFrom 0 items
  | array kind content => simpa only [located] using pairwise_located content
  | _ => simp [located]

theorem pairwise_locatedFrom (index : Nat) (vs : List Value) :
    (locatedFrom index vs).Pairwise StandsBefore := by
  cases vs with
  | nil => simp [locatedFrom]
  | cons v vs =>
      rw [locatedFrom, List.pairwise_append, List.pairwise_map]
      refine ⟨?_, pairwise_locatedFrom (index + 1) vs, ?_⟩
      · exact (pairwise_located v).imp fun h => .cons h
      · -- the ways into the first item start with a lower index than those into the others
        rintro a ha ⟨way, leaf⟩ hb
        obtain ⟨e, -, rfl⟩ := List.mem_map.mp ha
        obtain ⟨i, w, rest, -, rfl, -⟩ := (mem_locatedFrom_iff _ _ _ _).mp hb
        exact .rel (by omega)

end

/-! ## Back to the value -/

mutual

/-- A value with lists in place of its tuples and arrays. -/
def plain : Value → Value
  | .list items => .list (plainEach items)
  | .tuple items => .list (plainEach items)
  | .array _ content => plain content
  | v => v

/-- Several values with lists in place of their tuples and arrays. -/
def plainEach : List Value → List Value
  | [] => []
  | v :: vs => plain v :: plainEach vs

end

mutual

/-- Whether every list, tuple and array in a value has an item. -/
def isFilled : Value → Bool
  | .list items => !items.isEmpty && areFilled items
  | .tuple items => !items.isEmpty && areFilled items
  | .array _ content => isFilled content
  | _ => true

/-- Whether every list, tuple and array in several values has an item. -/
def areFilled : List Value → Bool
  | [] => true
  | v :: vs => isFilled v && areFilled vs

end

/-- What can be said of a value when tuples and arrays are not told apart from lists: either it has
items, or it is a single leaf. -/
theorem located_cases (v : Value) :
    (∃ items, located v = locatedFrom 0 items ∧ plain v = .list (plainEach items) ∧
      (isFilled v = true → items ≠ [] ∧ areFilled items = true)) ∨
    (∃ leaf, located v = [([], leaf)] ∧ plain v = leaf) := by
  cases v with
  | list items =>
      refine .inl ⟨items, by rw [located], by rw [plain], fun h => ?_⟩
      rw [isFilled, Bool.and_eq_true, Bool.not_eq_true', List.isEmpty_eq_false_iff] at h
      exact h
  | tuple items =>
      refine .inl ⟨items, by rw [located], by rw [plain], fun h => ?_⟩
      rw [isFilled, Bool.and_eq_true, Bool.not_eq_true', List.isEmpty_eq_false_iff] at h
      exact h
  | array kind content =>
      rw [located, plain, isFilled]
      exact located_cases content
  | _ => exact .inr ⟨_, rfl, rfl⟩

mutual

/-- A value without empty lists has a leaf. -/
theorem located_ne_nil {v : Value} (h : isFilled v = true) : located v ≠ [] := by
  cases v with
  | list items =>
      rw [isFilled, Bool.and_eq_true, Bool.not_eq_true', List.isEmpty_eq_false_iff] at h
      exact locatedFrom_ne_nil 0 h.1 h.2
  | tuple items =>
      rw [isFilled, Bool.and_eq_true, Bool.not_eq_true', List.isEmpty_eq_false_iff] at h
      exact locatedFrom_ne_nil 0 h.1 h.2
  | array kind content =>
      rw [isFilled] at h
      rw [located]
      exact located_ne_nil h
  | _ => exact List.cons_ne_nil _ _

theorem locatedFrom_ne_nil (index : Nat) {vs : List Value} (hSome : vs ≠ [])
    (h : areFilled vs = true) : locatedFrom index vs ≠ [] := by
  cases vs with
  | nil => exact absurd rfl hSome
  | cons v vs =>
      rw [areFilled, Bool.and_eq_true] at h
      have hFirst := located_ne_nil h.1
      simp [locatedFrom, hFirst]

end

/-- The leaves of the first item are known by the first index of their ways. -/
theorem filter_locatedFrom (index : Nat) (v : Value) (vs : List Value) :
    (locatedFrom index (v :: vs)).filter (fun e => e.1.head? == some index) =
      (located v).map fun e => (index :: e.1, e.2) := by
  have hFirst : ∀ e ∈ (located v).map (fun e => (index :: e.1, e.2)),
      (e.1.head? == some index) = true := by
    intro e he
    obtain ⟨e', -, rfl⟩ := List.mem_map.mp he
    exact beq_self_eq_true _
  have hRest : ∀ e ∈ locatedFrom (index + 1) vs, ¬ (e.1.head? == some index) = true := by
    rintro ⟨way, leaf⟩ he
    obtain ⟨i, w, rest, -, rfl, -⟩ := (mem_locatedFrom_iff _ _ _ _).mp he
    rw [List.head?_cons, beq_iff_eq, Option.some.injEq]
    omega
  rw [locatedFrom, List.filter_append, List.filter_eq_self.mpr hFirst,
    List.filter_eq_nil_iff.mpr hRest, List.append_nil]

/-- Items that have their leaves in common, from the first on, have them in common one by one. -/
theorem locatedFrom_cons_inj {index : Nat} {v w : Value} {vs ws : List Value}
    (h : locatedFrom index (v :: vs) = locatedFrom index (w :: ws)) :
    located v = located w ∧ locatedFrom (index + 1) vs = locatedFrom (index + 1) ws := by
  have hFirst := congrArg (List.filter fun e => e.1.head? == some index) h
  rw [filter_locatedFrom, filter_locatedFrom] at hFirst
  rw [locatedFrom, locatedFrom, hFirst] at h
  refine ⟨?_, List.append_cancel_left h⟩
  refine List.map_injective_iff.mpr (fun a b hSame => ?_) hFirst
  obtain ⟨hWay, hLeaf⟩ := Prod.mk.inj hSame
  exact Prod.ext (List.cons.inj hWay).2 hLeaf

/-- What has items has no leaf at its own place. -/
theorem locatedFrom_ne_leaf (index : Nat) (vs : List Value) (leaf : Value) :
    locatedFrom index vs ≠ [([], leaf)] := by
  intro h
  have hMem : ([], leaf) ∈ locatedFrom index vs := by
    rw [h]
    exact List.mem_singleton_self _
  obtain ⟨i, w, rest, -, hWay, -⟩ := (mem_locatedFrom_iff _ _ _ _).mp hMem
  cases hWay

mutual

/-- A value without empty lists is known by its located leaves, up to tuples and arrays. -/
theorem plain_eq_of_located_eq {v w : Value} (hv : isFilled v = true) (hw : isFilled w = true)
    (h : located v = located w) : plain v = plain w := by
  cases v with
  | list items =>
      rw [isFilled, Bool.and_eq_true] at hv
      rw [located] at h
      rcases located_cases w with ⟨items', hLocated, hPlain, hFilled⟩ | ⟨leaf, hLocated, -⟩
      · rw [hLocated] at h
        rw [plain, hPlain, plainEach_eq_of_locatedFrom_eq hv.2 (hFilled hw).2 h]
      · exact absurd (h.trans hLocated) (locatedFrom_ne_leaf 0 items leaf)
  | tuple items =>
      rw [isFilled, Bool.and_eq_true] at hv
      rw [located] at h
      rcases located_cases w with ⟨items', hLocated, hPlain, hFilled⟩ | ⟨leaf, hLocated, -⟩
      · rw [hLocated] at h
        rw [plain, hPlain, plainEach_eq_of_locatedFrom_eq hv.2 (hFilled hw).2 h]
      · exact absurd (h.trans hLocated) (locatedFrom_ne_leaf 0 items leaf)
  | array kind content =>
      rw [isFilled] at hv
      rw [located] at h
      rw [plain]
      exact plain_eq_of_located_eq hv hw h
  | _ =>
      rcases located_cases w with ⟨items', hLocated, -, -⟩ | ⟨leaf, hLocated, hPlain⟩
      · exact absurd (hLocated.symm.trans h.symm) (locatedFrom_ne_leaf 0 items' _)
      · have hSame := h.trans hLocated
        rw [hPlain]
        cases hSame
        rfl

theorem plainEach_eq_of_locatedFrom_eq {index : Nat} {vs ws : List Value}
    (hvs : areFilled vs = true) (hws : areFilled ws = true)
    (h : locatedFrom index vs = locatedFrom index ws) : plainEach vs = plainEach ws := by
  cases vs with
  | nil =>
      cases ws with
      | nil => rfl
      | cons w ws => exact absurd h.symm (locatedFrom_ne_nil index (List.cons_ne_nil w ws) hws)
  | cons v vs =>
      cases ws with
      | nil => exact absurd h (locatedFrom_ne_nil index (List.cons_ne_nil v vs) hvs)
      | cons w ws =>
          rw [areFilled, Bool.and_eq_true] at hvs hws
          obtain ⟨hFirst, hRest⟩ := locatedFrom_cons_inj h
          rw [plainEach, plainEach, plain_eq_of_located_eq hvs.1 hws.1 hFirst,
            plainEach_eq_of_locatedFrom_eq hvs.2 hws.2 hRest]

end

mutual

/-- Lists in place of tuples and arrays leave the located leaves as they are. -/
theorem located_plain (v : Value) : located (plain v) = located v := by
  cases v with
  | list items => rw [plain, located, located, locatedFrom_plainEach]
  | tuple items => rw [plain, located, located, locatedFrom_plainEach]
  | array kind content => rw [plain, located, located_plain]
  | _ => rfl

theorem locatedFrom_plainEach (index : Nat) (vs : List Value) :
    locatedFrom index (plainEach vs) = locatedFrom index vs := by
  cases vs with
  | nil => rfl
  | cons v vs => rw [plainEach, locatedFrom, locatedFrom, located_plain, locatedFrom_plainEach]

end

/-- Two values with the same flattening have the same located leaves. -/
theorem located_eq_of_flatten_eq {name : String} {v w : Value}
    (h : flatten name v = flatten name w) : located v = located w := by
  rw [flatten_eq_located, flatten_eq_located] at h
  refine List.map_injective_iff.mpr (fun a b hSame => ?_) h
  obtain ⟨hName, hLeaf⟩ := Prod.mk.inj hSame
  exact Prod.ext (elementAt_injective name hName) hLeaf

/-! ## Base names -/

theorem baseChars_append_bracket (name more : List Char) :
    baseChars (name ++ '[' :: more) = baseChars name := by
  unfold baseChars
  induction name with
  | nil => rfl
  | cons c rest ih => rw [List.cons_append, List.takeWhile_cons, List.takeWhile_cons, ih]

/-- The index of an element is left out of its base name. -/
theorem baseName_element (name : String) (index : Nat) :
    baseName (element name index) = baseName name := by
  rw [baseName, toList_element, baseChars_append_bracket, baseName]

theorem baseName_elementAt (name : String) (way : List Nat) :
    baseName (elementAt name way) = baseName name := by
  induction way generalizing name with
  | nil => rfl
  | cons index way ih => rw [elementAt_cons, ih, baseName_element]

/-- A name without brackets is its own base name. -/
theorem baseName_of_not_mem {name : String} (h : '[' ∉ name.toList) : baseName name = name := by
  have hKept : ∀ c ∈ name.toList, (c != '[') = true := by
    intro c hc
    rw [bne_iff_ne]
    rintro rfl
    exact h hc
  have hAll : baseChars (name.toList ++ []) = name.toList ++ [] :=
    List.takeWhile_append_of_pos hKept
  rw [List.append_nil] at hAll
  rw [baseName, hAll, String.ofList_toList]

/-! ## What the names tell -/

/-- What is listed for a value under a name: one element for each leaf, named by the way to it, in
the order of the ways. -/
structure ListsLeaves (name : String) (v : Value) (entries : List (String × Value)) : Prop where
  distinct : (entries.map Prod.fst).Nodup
  count : entries.length = (leaves v).length
  ordered : ∃ spots : List (List Nat × Value), spots.Pairwise StandsBefore ∧
    (∀ way leaf, (way, leaf) ∈ spots ↔ LeadsTo v way leaf) ∧
    entries = spots.map fun e => (elementAt name e.1, e.2)

/-- Flattening is unambiguous.  Under any name, it lists the leaves of a value in row-major order,
under names that all differ.  Under a name without brackets, that name is the base name of all of
them, so that two such names have no element in common.  And two values without empty lists that are
flattened to the same are the same, up to tuples and arrays. -/
theorem flatten_unambiguous (name : String) (v : Value) :
    ListsLeaves name v (flatten name v) ∧
      ('[' ∉ name.toList → ∀ e ∈ flatten name v, baseName e.1 = name) ∧
      (∀ (other : String) (w : Value), '[' ∉ name.toList → '[' ∉ other.toList → other ≠ name →
        ∀ e ∈ flatten name v, ∀ e' ∈ flatten other w, e.1 ≠ e'.1) ∧
      (∀ w : Value, isFilled v = true → isFilled w = true →
        (flatten name v = flatten name w ↔ plain v = plain w)) := by
  have hBase : ∀ {name : String} {v : Value}, '[' ∉ name.toList →
      ∀ e ∈ flatten name v, baseName e.1 = name := by
    intro name v hName e he
    rw [flatten_eq_located, List.mem_map] at he
    obtain ⟨spot, -, rfl⟩ := he
    rw [baseName_elementAt, baseName_of_not_mem hName]
  refine ⟨⟨nodup_names_flatten name v, length_flatten name v, ?_⟩, hBase, ?_, ?_⟩
  · exact ⟨located v, pairwise_located v, mem_located_iff v, flatten_eq_located name v⟩
  · intro other w hName hOther hDiffer e he e' he' hSame
    have hCommon := congrArg baseName hSame
    rw [hBase hName e he, hBase hOther e' he'] at hCommon
    exact hDiffer hCommon.symm
  · intro w hv hw
    constructor
    · intro h
      exact plain_eq_of_located_eq hv hw (located_eq_of_flatten_eq h)
    · intro h
      rw [flatten_eq_located, flatten_eq_located, ← located_plain v, h, located_plain]

/-- A ragged value with a tuple and an array in it, and the same in lists. -/
theorem flatten_unambiguous_ragged :
    let ragged : Value := .list [.int 7, .tuple [.int 8], .array (.integer .int64)
      (.list [.list [.int 1, .int 2], .list [.int 3, .int 4]])]
    let lists : Value := .list [.int 7, .list [.int 8], .list [.list [.int 1, .int 2],
      .list [.int 3, .int 4]]]
    '[' ∉ "main.in".toList ∧ '[' ∉ "main.k".toList ∧ "main.k" ≠ "main.in" ∧
      isFilled ragged = true ∧ isFilled lists = true ∧
      (∀ e ∈ flatten "main.in" ragged, baseName e.1 = "main.in") ∧
      (∀ e ∈ flatten "main.in" ragged, ∀ e' ∈ flatten "main.k" lists, e.1 ≠ e'.1) ∧
      flatten "main.in" ragged = flatten "main.in" lists ∧ plain ragged = plain lists := by
  intro ragged lists
  have hIn : '[' ∉ "main.in".toList := by decide
  have hK : '[' ∉ "main.k".toList := by decide
  have hDiffer : "main.k" ≠ "main.in" := by decide
  obtain ⟨-, hBase, hApart, hKnown⟩ := flatten_unambiguous "main.in" ragged
  have hSame : plain ragged = plain lists := rfl
  exact ⟨hIn, hK, hDiffer, rfl, rfl, hBase hIn, hApart "main.k" lists hIn hK hDiffer,
    (hKnown lists rfl rfl).mpr hSame, hSame⟩

end CircuitBench.Signal
