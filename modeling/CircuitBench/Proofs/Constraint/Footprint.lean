import CircuitBench.Constraint.Evaluate
import CircuitBench.Constraint.Support
import Mathlib.Data.List.Perm.Subperm
import Mathlib.Data.List.Nodup

/-!
# What the support of a constraint says about it

The support lists the wires that a constraint names.  It is a footprint: the value of a constraint
depends on the witness at these wires and nowhere else, so two witnesses that agree there cannot be
told apart by the constraint, however much they differ in the rest and in length.  This is what
makes a report that names the wires of a violated constraint complete.

The summary of a constraint is held against the terms of its three forms.  The support is built by
inserting one wire after another into an increasing list, which keeps it increasing; so it names no
wire twice, and wires can be counted by it.  Terms are counted one by one instead, which is why the
number of coefficients that are not zero lies between the number of wires that have such a
coefficient and the number of all terms.

## Main results

* `Constraint.evaluate_congr` : a constraint has the same value on witnesses that agree on its
  support.
* `Constraint.increasing_support` : the support is listed in increasing order.
* `Constraint.length_nonzeroWires_le` : each wire with a coefficient other than zero is counted.
* `Constraint.footprint_exact` : the support as a footprint, and the summary.
-/

namespace CircuitBench

/-! ## Values that are looked at -/

section Agreement

variable {v w : List Int}

namespace LinearForm

/-- A linear form has the same sum on witnesses that agree on its wires. -/
theorem weightedSum_congr {f : LinearForm} (h : ∀ wire ∈ f.wires, atIndex v wire = atIndex w wire) :
    f.weightedSum v = f.weightedSum w := by
  induction f with
  | nil => rfl
  | cons t rest ih =>
      have hFirst : atIndex v t.1 = atIndex w t.1 := h t.1 List.mem_cons_self
      have hRest : ∀ wire ∈ wires rest, atIndex v wire = atIndex w wire :=
        fun wire hWire => h wire (List.mem_cons_of_mem _ hWire)
      rw [weightedSum, weightedSum, hFirst, ih hRest]

/-- A linear form has a value on a witness that has one for each of its wires. -/
theorem exists_evaluate {f : LinearForm} {p : Nat} (hPrime : p ≠ 0)
    (h : ∀ wire ∈ f.wires, ∃ value, atIndex v wire = .ok value) :
    ∃ value, f.evaluate v p = .ok value := by
  have hSum : ∃ sum, f.weightedSum v = .ok sum := by
    induction f with
    | nil => exact ⟨0, rfl⟩
    | cons t rest ih =>
        obtain ⟨value, hValue⟩ := h t.1 List.mem_cons_self
        obtain ⟨more, hMore⟩ := ih fun wire hWire => h wire (List.mem_cons_of_mem _ hWire)
        exact ⟨t.2 * value + more, by rw [weightedSum, hValue, hMore]; rfl⟩
  obtain ⟨sum, hSum⟩ := hSum
  exact ⟨_, evaluate_ok hSum (by omega)⟩

end LinearForm

namespace Constraint

/-- A constraint has the same value on witnesses that agree on its support. -/
theorem evaluate_congr {k : Constraint} (h : ∀ wire ∈ k.support, atIndex v wire = atIndex w wire)
    (prime : Int) : k.evaluate v prime = k.evaluate w prime := by
  have hForm : ∀ f ∈ k.forms, f.evaluate v prime = f.evaluate w prime := by
    intro f hf
    have hSum := LinearForm.weightedSum_congr
      fun wire hWire => h wire (mem_support_of_form hf hWire)
    rw [LinearForm.evaluate, LinearForm.evaluate, hSum]
  rw [evaluate, evaluate, hForm k.a (by simp [forms]), hForm k.b (by simp [forms]),
    hForm k.c (by simp [forms])]

/-- A constraint has a value on a witness that has one for each of its wires. -/
theorem exists_evaluate {k : Constraint} {p : Nat} (hPrime : p ≠ 0)
    (h : ∀ wire ∈ k.support, ∃ value, atIndex v wire = .ok value) :
    ∃ value, k.evaluate v p = .ok value := by
  have hForm : ∀ f ∈ k.forms, ∃ value, f.evaluate v p = .ok value :=
    fun f hf => LinearForm.exists_evaluate hPrime
      fun wire hWire => h wire (mem_support_of_form hf hWire)
  obtain ⟨a, hA⟩ := hForm k.a (by simp [forms])
  obtain ⟨b, hB⟩ := hForm k.b (by simp [forms])
  obtain ⟨c, hC⟩ := hForm k.c (by simp [forms])
  exact ⟨_, evaluate_ok hA hB hC (by omega)⟩

end Constraint

end Agreement

/-! ## Increasing lists of wires -/

/-- Inserting keeps a list increasing. -/
theorem increasing_insertIncreasing {n : Int} {ms : List Int} (h : ms.Pairwise (· < ·)) :
    (insertIncreasing n ms).Pairwise (· < ·) := by
  induction ms with
  | nil => exact List.pairwise_singleton _ _
  | cons m rest ih =>
      obtain ⟨hFirst, hRest⟩ := List.pairwise_cons.mp h
      rw [insertIncreasing]
      split
      · rename_i hBelow
        refine List.pairwise_cons.mpr ⟨fun k hk => ?_, h⟩
        rcases List.mem_cons.mp hk with rfl | hk
        · exact hBelow
        · exact Int.lt_trans hBelow (hFirst k hk)
      · split
        · exact h
        · -- the number comes behind the first one, so the first one stays below all others
          refine List.pairwise_cons.mpr ⟨fun k hk => ?_, ih hRest⟩
          rcases (mem_insertIncreasing n k rest).mp hk with rfl | hk
          · omega
          · exact hFirst k hk

/-- So does inserting one number after another. -/
theorem increasing_foldl_insertIncreasing (ns : List Int) {ms : List Int}
    (h : ms.Pairwise (· < ·)) :
    (ns.foldl (fun wires w => insertIncreasing w wires) ms).Pairwise (· < ·) := by
  induction ns generalizing ms with
  | nil => exact h
  | cons n rest ih => exact ih (increasing_insertIncreasing h)

namespace Constraint

/-- The support is listed in increasing order. -/
theorem increasing_support (k : Constraint) : k.support.Pairwise (· < ·) :=
  increasing_foldl_insertIncreasing _ List.Pairwise.nil

/-! ## Counting coefficients -/

/-- The wires that have a coefficient other than zero in one of the forms of a constraint. -/
def nonzeroWires (k : Constraint) : List Int :=
  k.support.filter fun wire => ∃ t ∈ k.forms.flatten, t.1 = wire ∧ t.2 ≠ 0

/-- A wire has a coefficient other than zero if one of the forms says so. -/
theorem mem_nonzeroWires {k : Constraint} {wire : Int} :
    wire ∈ k.nonzeroWires ↔ ∃ f ∈ k.forms, ∃ coefficient, (wire, coefficient) ∈ f ∧
      coefficient ≠ 0 := by
  rw [nonzeroWires, List.mem_filter, decide_eq_true_eq]
  constructor
  · rintro ⟨-, ⟨w, coefficient⟩, ht, rfl, hNonzero⟩
    obtain ⟨f, hf, hMem⟩ := List.mem_flatten.mp ht
    exact ⟨f, hf, coefficient, hMem, hNonzero⟩
  · rintro ⟨f, hf, coefficient, hMem, hNonzero⟩
    have hWire : wire ∈ f.wires := List.mem_map_of_mem hMem
    exact ⟨mem_support_of_form hf hWire, _, List.mem_flatten.mpr ⟨f, hf, hMem⟩, rfl, hNonzero⟩

/-- Each wire that has a coefficient other than zero is counted, once at least. -/
theorem length_nonzeroWires_le (k : Constraint) : k.nonzeroWires.length ≤ k.nonzeroCount := by
  let terms := k.forms.flatten.filter fun t => t.2 != 0
  have hDistinct : k.nonzeroWires.Nodup :=
    (k.increasing_support.imp fun h => Int.ne_of_lt h).filter _
  have hNamed : k.nonzeroWires ⊆ terms.map Prod.fst := by
    intro wire hWire
    obtain ⟨f, hf, coefficient, hMem, hNonzero⟩ := mem_nonzeroWires.mp hWire
    have hTerm : (wire, coefficient) ∈ terms :=
      List.mem_filter.mpr ⟨List.mem_flatten.mpr ⟨f, hf, hMem⟩, by simpa using hNonzero⟩
    exact List.mem_map_of_mem hTerm
  calc k.nonzeroWires.length
      ≤ (terms.map Prod.fst).length := (hDistinct.subperm hNamed).length_le
    _ = k.nonzeroCount := by rw [List.length_map, nonzeroCount, List.countP_eq_length_filter]

/-- The coefficients that are not zero are among the coefficients of all terms. -/
theorem nonzeroCount_le (k : Constraint) :
    k.nonzeroCount ≤ k.a.length + k.b.length + k.c.length := by
  rw [← length_flatten_forms]
  exact List.countP_le_length

/-! ## The footprint -/

/-- The support of a constraint is its footprint: on any two witnesses that have a value for each
wire of it, and the same one, the constraint has a value, and the same one.  The summary lists it in
increasing order, namely the wires of the three forms, tells how many they are, and counts
coefficients: not more than there are terms, and not fewer than there are wires with a coefficient
other than zero. -/
theorem footprint_exact (k : Constraint) :
    (∀ (p : Nat) (v w : List Int), 1 ≤ p →
      (∀ wire ∈ k.support, ∃ value, atIndex v wire = .ok value ∧ atIndex w wire = .ok value) →
      ∃ value, k.evaluate v p = .ok value ∧ k.evaluate w p = .ok value) ∧
    k.summary.support.Pairwise (· < ·) ∧
    (∀ wire, wire ∈ k.summary.support ↔ wire ∈ k.a.wires ∨ wire ∈ k.b.wires ∨ wire ∈ k.c.wires) ∧
    k.summary.supportSize = k.summary.support.length ∧
    k.summary.nonzeroCount ≤ k.a.length + k.b.length + k.c.length ∧
    k.nonzeroWires.length ≤ k.summary.nonzeroCount := by
  refine ⟨?_, k.increasing_support, k.mem_support, rfl, k.nonzeroCount_le, k.length_nonzeroWires_le⟩
  intro p v w hPrime hAgree
  have hSame : ∀ wire ∈ k.support, atIndex v wire = atIndex w wire := by
    intro wire hWire
    obtain ⟨value, hv, hw⟩ := hAgree wire hWire
    rw [hv, hw]
  have hCovered : ∀ wire ∈ k.support, ∃ value, atIndex v wire = .ok value := by
    intro wire hWire
    obtain ⟨value, hv, -⟩ := hAgree wire hWire
    exact ⟨value, hv⟩
  obtain ⟨value, hValue⟩ := exists_evaluate (by omega : p ≠ 0) hCovered
  exact ⟨value, hValue, evaluate_congr hSame p ▸ hValue⟩

/-- A constraint without a second form, with a coefficient of zero and a wire that two forms name.
The witnesses differ on wire one, which it does not name, and in length; of its two wires only one
has a coefficient other than zero, and it has two of them. -/
theorem footprint_exact_shared :
    let k : Constraint := { a := [(3, 2), (0, 0)], c := [(3, -1)] }
    (∃ value, k.evaluate [1, 5, 2, 4] 7 = .ok value ∧ k.evaluate [1, 6, 0, 4, 9] 7 = .ok value) ∧
      k.summary = ⟨2, 2, [0, 3]⟩ ∧ k.nonzeroWires = [3] ∧ k.nonzeroWires.length ≤ 2 := by
  intro k
  have hAgree : ∀ wire ∈ k.support, ∃ value : Int, atIndex [1, 5, 2, 4] wire = .ok value ∧
      atIndex [1, 6, 0, 4, 9] wire = .ok value := by
    intro wire hWire
    have hWires : k.support = [0, 3] := rfl
    rw [hWires, List.mem_cons, List.mem_singleton] at hWire
    rcases hWire with rfl | rfl
    · exact ⟨1, rfl, rfl⟩
    · exact ⟨4, rfl, rfl⟩
  obtain ⟨hValue, -, -, -, -, hCount⟩ := k.footprint_exact
  exact ⟨hValue 7 _ _ (by decide) hAgree, rfl, rfl, hCount⟩

end Constraint

end CircuitBench
