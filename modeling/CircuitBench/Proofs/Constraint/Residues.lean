import CircuitBench.Proofs.Constraint.Scan
import CircuitBench.Proofs.Constraint.Footprint

/-!
# Checking by residues

Coefficients need not be reduced, and neither need the values of a witness; both may be of any sign
and size.  The evaluation of a constraint reduces only here and there: sums are formed of unreduced
products, then each of the three sums is reduced, and so is the difference at the end.  None of
this can be seen in the result, nor can the order in which the terms of a linear form are listed.
What counts are the residues alone.

Two constraint systems are compared form by form.  A form is congruent to another one if the terms
of the other can be put in an order in which the wires agree and the coefficients have the same
residues.  Two witnesses are compared where both have a value, so they may differ in length.

## Main results

* `LinearForm.sumOn_congruent` : the sum of a form depends on residues only, up to its residue.
* `Constraint.evaluate_congruent` : the value of a constraint depends on residues only.
* `violations_of_congruent` : so do the violations that are listed, whatever the limit.
-/

namespace CircuitBench

/-! ## Congruence -/

/-- Whether two terms are about the same wire, with coefficients of the same residue. -/
structure TermCongruent (p : Nat) (t u : Int × Int) : Prop where
  wire : t.1 = u.1
  coefficient : t.2 ≡ u.2 [ZMOD p]

/-- Whether two linear forms have the same wires with coefficients of the same residues, listed in
whatever order. -/
def LinearForm.Congruent (p : Nat) (f g : LinearForm) : Prop :=
  ∃ h : LinearForm, h.Perm g ∧ List.Forall₂ (TermCongruent p) f h

/-- Whether the linear forms of two constraints are congruent, each to the corresponding one. -/
structure Constraint.Congruent (p : Nat) (k l : Constraint) : Prop where
  a : k.a.Congruent p l.a
  b : k.b.Congruent p l.b
  c : k.c.Congruent p l.c

/-- Whether two witnesses have values of the same residues, as far as both have values. -/
def WitnessCongruent (p : Nat) (v w : List Int) : Prop :=
  ∀ (i : Nat) (x y : Int), v[i]? = some x → w[i]? = some y → x ≡ y [ZMOD p]

/-! ## Values -/

section Congruence

variable {p : Nat} {v w : List Int}

/-- A wire that both witnesses have carries values of the same residue. -/
theorem wireValue_congruent (hWitness : WitnessCongruent p v w) {wire : Int} (hNonneg : 0 ≤ wire)
    (hv : wire < v.length) (hw : wire < w.length) :
    wireValue v wire ≡ wireValue w wire [ZMOD p] := by
  obtain ⟨n, rfl⟩ := Int.eq_ofNat_of_zero_le hNonneg
  have hvNat : n < v.length := by omega
  have hwNat : n < w.length := by omega
  have hValues := hWitness n v[n] w[n] (List.getElem?_eq_getElem hvNat)
    (List.getElem?_eq_getElem hwNat)
  simpa [wireValue, hvNat, hwNat] using hValues

namespace LinearForm

/-- The order of the terms does not matter for the sum. -/
theorem sumOn_perm {f g : LinearForm} (h : f.Perm g) : f.sumOn w = g.sumOn w :=
  (h.map fun t : Int × Int => t.2 * wireValue w t.1).sum_eq

/-- Sums of congruent forms have the same residue, on witnesses that are congruent too. -/
theorem sumOn_congruent (hWitness : WitnessCongruent p v w) {f g : LinearForm}
    (hForms : f.Congruent p g) (hv : f.Within v.length) (hw : g.Within w.length) :
    f.sumOn v ≡ g.sumOn w [ZMOD p] := by
  obtain ⟨h, hPerm, hTerms⟩ := hForms
  have hWithin : h.Within w.length :=
    fun wire hWire => hw wire ((hPerm.map Prod.fst).mem_iff.mp hWire)
  rw [← sumOn_perm hPerm]
  clear hPerm hw
  induction hTerms with
  | nil => exact Int.ModEq.refl 0
  | @cons t u f h hTerm _ ih =>
      obtain ⟨⟨hNonneg, hvWire⟩, hvRest⟩ := within_cons.mp hv
      obtain ⟨⟨-, hwWire⟩, hwRest⟩ := within_cons.mp hWithin
      rw [← hTerm.wire] at hwWire
      have hValue := wireValue_congruent hWitness hNonneg hvWire hwWire
      have hFirst : t.2 * wireValue v t.1 ≡ u.2 * wireValue w u.1 [ZMOD p] := by
        rw [← hTerm.wire]
        exact hTerm.coefficient.mul hValue
      exact hFirst.add (ih hvRest hwRest)

/-- Congruent forms have the same value. -/
theorem evaluate_congruent (hPrime : p ≠ 0) (hWitness : WitnessCongruent p v w) {f g : LinearForm}
    (hForms : f.Congruent p g) (hv : f.Within v.length) (hw : g.Within w.length) :
    f.evaluate v p = g.evaluate w p := by
  have hSums : f.sumOn v % p = g.sumOn w % p := sumOn_congruent hWitness hForms hv hw
  rw [evaluate_of_within hPrime hv, evaluate_of_within hPrime hw, hSums]

end LinearForm

/-- Congruent constraints have the same value. -/
theorem Constraint.evaluate_congruent (hPrime : p ≠ 0) (hWitness : WitnessCongruent p v w)
    {k l : Constraint} (h : k.Congruent p l) (hv : k.Within v.length) (hw : l.Within w.length) :
    k.evaluate v p = l.evaluate w p := by
  have hForm : ∀ {f g : LinearForm}, f ∈ k.forms → g ∈ l.forms → f.Congruent p g →
      f.evaluate v p = g.evaluate w p :=
    fun hf hg hCongruent =>
      LinearForm.evaluate_congruent hPrime hWitness hCongruent (hv _ hf) (hw _ hg)
  rw [evaluate, evaluate, hForm (by simp [forms]) (by simp [forms]) h.a,
    hForm (by simp [forms]) (by simp [forms]) h.b, hForm (by simp [forms]) (by simp [forms]) h.c]

/-- Congruent systems have the same values, constraint by constraint. -/
theorem forall₂_evaluate_congruent (hPrime : p ≠ 0) (hWitness : WitnessCongruent p v w)
    {ks ls : List Constraint} (h : List.Forall₂ (Constraint.Congruent p) ks ls)
    (hv : ∀ k ∈ ks, k.Within v.length) (hw : ∀ l ∈ ls, l.Within w.length) :
    List.Forall₂ (fun k l => k.evaluate v p = l.evaluate w p) ks ls := by
  induction h with
  | nil => exact List.Forall₂.nil
  | @cons k l ks ls hFirst _ ih =>
      obtain ⟨hvFirst, hvRest⟩ := List.forall_mem_cons.mp hv
      obtain ⟨hwFirst, hwRest⟩ := List.forall_mem_cons.mp hw
      have hValue := Constraint.evaluate_congruent hPrime hWitness hFirst hvFirst hwFirst
      exact List.Forall₂.cons hValue (ih hvRest hwRest)

end Congruence

/-! ## Violations -/

/-- Only residues count for the violations that are listed: two lists of constraints whose forms are
congruent, each to the corresponding one, have the same violations on two witnesses that have values
for all the wires and congruent ones, and any limit leaves the same of them. -/
theorem violations_of_congruent {p : Nat} (hPrime : 1 ≤ p) {ks ls : List Constraint}
    (hSystems : List.Forall₂ (Constraint.Congruent p) ks ls) {v w : List Int}
    (hv : ∀ k ∈ ks, k.Within v.length) (hw : ∀ l ∈ ls, l.Within w.length)
    (hWitness : WitnessCongruent p v w) (limit : Int) :
    ∃ bad, violations ks v p limit = .ok bad ∧ violations ls w p limit = .ok bad := by
  have hNonzero : p ≠ 0 := by omega
  obtain ⟨bad, hBad, -⟩ := violationsFrom_all hNonzero hv 0 0
  have hFound : violations ks v p limit = .ok (reported limit 0 bad) :=
    violationsFrom_limit hBad limit 0
  have hValues := forall₂_evaluate_congruent hNonzero hWitness hSystems hv hw
  have hSame : violations ks v p limit = violations ls w p limit :=
    violationsFrom_congr hValues limit 0 0
  exact ⟨_, hFound, hSame ▸ hFound⟩

/-- Two constraints over the residues of seven, written once with reduced coefficients and once with
others and in another order, on witnesses of which one has values below zero and beyond seven, and
is longer.  The second constraint is violated in either form. -/
theorem violations_of_congruent_unreduced :
    let ks : List Constraint :=
      [⟨[(0, 1), (1, 2)], [(0, 3)], [(2, 1)]⟩, ⟨[(1, 1)], [(1, 1)], [(2, 5)]⟩]
    let ls : List Constraint :=
      [⟨[(1, -5), (0, 8)], [(0, 10)], [(2, -6)]⟩, ⟨[(1, 15)], [(1, -6)], [(2, 12)]⟩]
    ∃ bad, violations ks [1, 2, 1] 7 0 = .ok bad ∧ violations ls [-6, 9, 15, 4] 7 0 = .ok bad ∧
      bad = [1] := by
  intro ks ls
  have hSystems : List.Forall₂ (Constraint.Congruent 7) ks ls := by
    refine .cons ⟨⟨[(0, 8), (1, -5)], .swap _ _ _, ?_⟩, ⟨[(0, 10)], .refl _, ?_⟩,
      ⟨[(2, -6)], .refl _, ?_⟩⟩ (.cons ⟨⟨[(1, 15)], .refl _, ?_⟩, ⟨[(1, -6)], .refl _, ?_⟩,
      ⟨[(2, 12)], .refl _, ?_⟩⟩ .nil)
    · exact .cons ⟨rfl, by decide⟩ (.cons ⟨rfl, by decide⟩ .nil)
    all_goals exact .cons ⟨rfl, by decide⟩ .nil
  have hv : ∀ k ∈ ks, k.Within ([1, 2, 1] : List Int).length := by
    unfold Constraint.Within LinearForm.Within
    decide
  have hw : ∀ l ∈ ls, l.Within ([-6, 9, 15, 4] : List Int).length := by
    unfold Constraint.Within LinearForm.Within
    decide
  have hWitness : WitnessCongruent 7 [1, 2, 1] [-6, 9, 15, 4] := by
    intro i x y hx hy
    match i with
    | 0 => cases hx; cases hy; decide
    | 1 => cases hx; cases hy; decide
    | 2 => cases hx; cases hy; decide
    | n + 3 => cases hx
  obtain ⟨bad, hk, hl⟩ := violations_of_congruent (by decide : 1 ≤ 7) hSystems hv hw hWitness 0
  have hFound : violations ks [1, 2, 1] 7 0 = .ok [1] := rfl
  exact ⟨bad, hk, hl, Except.ok.inj (hk.symm.trans hFound)⟩

end CircuitBench
