import CircuitBench.Constraint.Evaluate
import CircuitBench.Constraint.Support
import Mathlib.Data.ZMod.Basic

/-!
# What it means to satisfy a constraint system

A constraint is evaluated by reducing every linear form by itself, multiplying and subtracting the
residues, and reducing again.  Here satisfaction is stated without any of that, as equations in the
ring of residues, and the two are shown to agree.  Reduction is a map of rings, so the steps in
between leave no trace: a constraint evaluates to zero exactly when its equation holds, whatever the
signs and sizes of values and coefficients.

The wires of a constraint have to be natural numbers for this, since a negative index would count
from the end of the witness.

## Main results

* `Constraint.evaluate_eq_zero_iff` : a constraint evaluates to zero exactly when its equation
  holds.
* `Constraint.within_of_evaluate` : a constraint has a value only if its wires are all there.
-/

namespace CircuitBench

/-! ## Equations -/

/-- The value that a witness gives to a wire. -/
def wireValue (witness : List Int) (wire : Int) : Int :=
  witness.getD wire.toNat 0

namespace LinearForm

/-- The value of a linear form in the ring of residues. -/
def valueIn (p : Nat) (witness : List Int) (f : LinearForm) : ZMod p :=
  (f.map fun t => (t.2 : ZMod p) * (wireValue witness t.1 : ZMod p)).sum

/-- The value of a linear form before anything is reduced. -/
def sumOn (witness : List Int) (f : LinearForm) : Int :=
  (f.map fun t => t.2 * wireValue witness t.1).sum

/-- Whether a linear form names only wires that there are. -/
def Within (count : Nat) (f : LinearForm) : Prop :=
  ∀ wire ∈ f.wires, 0 ≤ wire ∧ wire < count

end LinearForm

namespace Constraint

/-- Whether a witness satisfies a constraint, as an equation between residues. -/
def Holds (p : Nat) (witness : List Int) (k : Constraint) : Prop :=
  k.a.valueIn p witness * k.b.valueIn p witness = k.c.valueIn p witness

/-- Whether a constraint names only wires that there are. -/
def Within (count : Nat) (k : Constraint) : Prop :=
  ∀ f ∈ k.forms, f.Within count

end Constraint

/-- Whether a constraint is the first one of a list that a witness does not satisfy. -/
structure IsFirstViolated (p : Nat) (witness : List Int) (ks : List Constraint) (index : Nat) :
    Prop where
  violated : ∃ k, ks[index]? = some k ∧ ¬ k.Holds p witness
  earlier : ∀ i < index, ∀ k, ks[i]? = some k → k.Holds p witness

namespace ConstraintSystem

/-- Whether a witness satisfies a constraint system: there is a value for every wire, wire zero
carries one, and every constraint holds. -/
structure Satisfies (system : ConstraintSystem) (witness : List Int) : Prop where
  length : system.wires ≤ witness.length
  constant : wireValue witness 0 ≡ 1 [ZMOD system.prime]
  constraints : ∀ k ∈ system.constraints, k.Holds system.prime witness

/-- What is wrong first with a witness: no constraint, when there are too few values or wire zero
does not carry one, and otherwise the first constraint that does not hold. -/
def FirstFault (system : ConstraintSystem) (witness : List Int) : Option Nat → Prop
  | none => ¬ (system.wires ≤ witness.length ∧ wireValue witness 0 ≡ 1 [ZMOD system.prime])
  | some index =>
    (system.wires ≤ witness.length ∧ wireValue witness 0 ≡ 1 [ZMOD system.prime]) ∧
      IsFirstViolated system.prime witness system.constraints index

/-- Whether a constraint system is about residues among which one is not zero, and names only wires
that it has, among them the one that carries one. -/
structure Regular (system : ConstraintSystem) : Prop where
  prime : 2 ≤ system.prime
  wires : 1 ≤ system.wires
  support : ∀ k ∈ system.constraints, ∀ wire ∈ k.support, wire < system.wires

/-- A witness with a fault does not satisfy the system. -/
theorem FirstFault.not_satisfies {system : ConstraintSystem} {witness : List Int}
    {index : Option Nat} (h : system.FirstFault witness index) : ¬ system.Satisfies witness := by
  intro hSatisfies
  cases index with
  | none => exact h ⟨hSatisfies.length, hSatisfies.constant⟩
  | some index =>
      obtain ⟨k, hk, hNot⟩ := h.2.violated
      exact hNot (hSatisfies.constraints k (List.mem_of_getElem? hk))

end ConstraintSystem

/-! ## Linear forms -/

/-- A wire that there is has a value. -/
theorem atIndex_wire {witness : List Int} {wire : Int} (hNonneg : 0 ≤ wire)
    (hLt : wire < witness.length) : atIndex witness wire = .ok (wireValue witness wire) := by
  obtain ⟨n, rfl⟩ := Int.eq_ofNat_of_zero_le hNonneg
  have hNat : n < witness.length := by omega
  rw [atIndex_ofNat witness n hNat, wireValue, Int.toNat_natCast, List.getD_eq_getElem?_getD,
    List.getElem?_eq_getElem hNat, Option.getD_some]

/-- A natural number that an index was taken at is that of a wire. -/
theorem lt_length_of_atIndex {witness : List Int} {wire value : Int} (hNonneg : 0 ≤ wire)
    (h : atIndex witness wire = .ok value) : wire < witness.length := by
  by_contra hNot
  have hNone : witness[wire.toNat]? = none := List.getElem?_eq_none (by omega)
  have hSign : ¬ wire < 0 := by omega
  simp [atIndex, memberAt, hSign, hNone] at h

namespace LinearForm

theorem within_cons {count : Nat} {t : Int × Int} {f : LinearForm} :
    Within count (t :: f) ↔ (0 ≤ t.1 ∧ t.1 < count) ∧ Within count f := by
  simp [Within, wires]

/-- A linear form whose wires there are has a sum. -/
theorem weightedSum_of_within {witness : List Int} {f : LinearForm} (h : f.Within witness.length) :
    f.weightedSum witness = .ok (f.sumOn witness) := by
  induction f with
  | nil => rfl
  | cons t rest ih =>
      obtain ⟨⟨hNonneg, hLt⟩, hRest⟩ := within_cons.mp h
      rw [weightedSum, atIndex_wire hNonneg hLt, ih hRest]
      rfl

/-- Every wire of a linear form that has a sum is there. -/
theorem within_of_weightedSum {witness : List Int} {f : LinearForm} {sum : Int}
    (hNonneg : ∀ wire ∈ f.wires, 0 ≤ wire) (h : f.weightedSum witness = .ok sum) :
    f.Within witness.length := by
  induction f generalizing sum with
  | nil => simp [Within, wires]
  | cons t rest ih =>
      simp only [weightedSum, bind, Except.bind] at h
      split at h
      · cases h
      · rename_i value hValue
        split at h
        · cases h
        · rename_i more hMore
          have hFirst : 0 ≤ t.1 := hNonneg t.1 (by simp [wires])
          have hRest : ∀ wire ∈ wires rest, 0 ≤ wire := by
            intro wire hWire
            exact hNonneg wire (by simp only [wires] at hWire ⊢; simp [hWire])
          exact within_cons.mpr ⟨⟨hFirst, lt_length_of_atIndex hFirst hValue⟩, ih hRest hMore⟩

/-- Reduction carries the sum to the value in the ring of residues. -/
theorem cast_sumOn (p : Nat) (witness : List Int) (f : LinearForm) :
    ((f.sumOn witness : Int) : ZMod p) = f.valueIn p witness := by
  induction f with
  | nil => simp [sumOn, valueIn]
  | cons t rest ih =>
      simp only [sumOn, valueIn, List.map_cons, List.sum_cons] at ih ⊢
      rw [Int.cast_add, Int.cast_mul, ih]

/-- The value of a linear form is the residue of its sum. -/
theorem evaluate_of_within {witness : List Int} {f : LinearForm} {p : Nat} (hPrime : p ≠ 0)
    (h : f.Within witness.length) : f.evaluate witness p = .ok (f.sumOn witness % p) := by
  have hCast : (p : Int) ≠ 0 := by omega
  rw [evaluate_ok (weightedSum_of_within h) hCast, Int.fmod_eq_emod_of_nonneg _ (by omega)]

end LinearForm

/-! ## Constraints -/

/-- A constraint evaluates to zero exactly when its equation holds. -/
theorem Constraint.evaluate_eq_zero_iff {witness : List Int} {k : Constraint} {p : Nat}
    (hPrime : p ≠ 0) (h : k.Within witness.length) :
    ∃ value, k.evaluate witness p = .ok value ∧ (value = 0 ↔ k.Holds p witness) := by
  have hA := LinearForm.evaluate_of_within hPrime (h k.a (by simp [forms]))
  have hB := LinearForm.evaluate_of_within hPrime (h k.b (by simp [forms]))
  have hC := LinearForm.evaluate_of_within hPrime (h k.c (by simp [forms]))
  have hCast : (p : Int) ≠ 0 := by omega
  refine ⟨_, evaluate_ok hA hB hC hCast, ?_⟩
  rw [Int.fmod_eq_emod_of_nonneg _ (by omega), ← Int.dvd_iff_emod_eq_zero,
    ← ZMod.intCast_zmod_eq_zero_iff_dvd,
    Int.cast_sub, Int.cast_mul, ZMod.intCast_mod, ZMod.intCast_mod, ZMod.intCast_mod, sub_eq_zero,
    LinearForm.cast_sumOn, LinearForm.cast_sumOn, LinearForm.cast_sumOn, Holds]

/-- Every wire of a constraint that has a value is there. -/
theorem Constraint.within_of_evaluate {witness : List Int} {k : Constraint} {prime value : Int}
    (hNonneg : ∀ wire ∈ k.support, 0 ≤ wire) (h : k.evaluate witness prime = .ok value) :
    k.Within witness.length := by
  have hForm : ∀ {f : LinearForm} {v : Int}, (∀ wire ∈ f.wires, 0 ≤ wire) →
      f.evaluate witness prime = .ok v → f.Within witness.length := by
    intro f v hWires hValue
    simp only [LinearForm.evaluate, bind, Except.bind] at hValue
    split at hValue
    · cases hValue
    · rename_i sum hSum
      exact LinearForm.within_of_weightedSum hWires hSum
  simp only [evaluate, bind, Except.bind] at h
  split at h
  · cases h
  · rename_i a hA
    split at h
    · cases h
    · rename_i b hB
      split at h
      · cases h
      · rename_i c hC
        intro f hf
        have hWires : ∀ wire ∈ f.wires, 0 ≤ wire :=
          fun wire hWire => hNonneg wire (mem_support_of_form hf hWire)
        simp only [forms, List.mem_cons, List.not_mem_nil, or_false] at hf
        rcases hf with rfl | rfl | rfl
        · exact hForm hWires hA
        · exact hForm hWires hB
        · exact hForm hWires hC

end CircuitBench
