import CircuitBench.Proofs.Constraint.Scan
import CircuitBench.Proofs.Constraint.Truncation

/-!
# Wires that a linear form names more than once

A constraint file lists the terms of a linear form one after another, and nothing keeps it from
naming a wire twice.  What is kept of such a list is a table from wires to coefficients, in which a
second coefficient replaces the first.  So the value of the form is the sum over the terms that
stand, which are those that no later one replaces, and not over all terms of the list.

The invariant of the reading is a permutation: of the terms kept so far those remain that are not
named again, and those terms join them that stand in the rest of the list.  The order is another
one, since a wire keeps its first place and its last coefficient, but a sum does not depend on it.

## Main results

* `kept_perm` : a list of terms is kept as the terms that stand, in some order.
* `evaluate_kept` : the value of a form is the residue of the sum over the terms that stand.
* `violations_encode` : the violations of written constraints are those of the terms that stand,
  hence of all terms where no linear form names a wire twice.
* `repeated_wire_accepted` : elsewhere a witness may pass that violates the constraint as written.
-/

namespace CircuitBench

/-! ## Terms that stand -/

/-- The terms of a list that no later term on the same wire replaces. -/
def standing : List (Nat × Nat) → List (Nat × Nat)
  | [] => []
  | t :: more => if t.1 ∈ more.map Prod.fst then standing more else t :: standing more

/-- Where no wire is named twice, all terms stand. -/
theorem standing_of_nodup {terms : List (Nat × Nat)} (h : (terms.map Prod.fst).Nodup) :
    standing terms = terms := by
  induction terms with
  | nil => rfl
  | cons t more ih =>
      obtain ⟨hFirst, hMore⟩ := List.nodup_cons.mp h
      rw [standing, if_neg hFirst, ih hMore]

/-- The terms that stand are among those of the list. -/
theorem standing_sublist (terms : List (Nat × Nat)) : (standing terms).Sublist terms := by
  induction terms with
  | nil => exact List.Sublist.slnil
  | cons t more ih =>
      rw [standing]
      split
      · exact ih.cons t
      · exact ih.cons_cons t

namespace LinearForm

/-- Giving a wire a coefficient takes the place of what it had, wherever that stood. -/
theorem put_perm (f : LinearForm) (hDistinct : f.wires.Nodup) (wire k : Int) :
    (put wire k f).Perm ((wire, k) :: f.filter fun t => t.1 ≠ wire) := by
  induction f with
  | nil => exact List.Perm.refl _
  | cons t rest ih =>
      obtain ⟨hFirst, hRest⟩ := List.nodup_cons.mp hDistinct
      by_cases ht : t.1 = wire
      · -- the wire stands here, so it stands nowhere else
        have hOthers : rest.filter (fun u => u.1 ≠ wire) = rest := by
          rw [List.filter_eq_self]
          intro u hu
          rw [decide_eq_true_eq]
          intro hSame
          apply hFirst
          rw [ht, ← hSame]
          exact List.mem_map_of_mem hu
        rw [put, if_pos ht, List.filter_cons_of_neg (by simp [ht]), hOthers, ht]
      · rw [put, if_neg ht, List.filter_cons_of_pos (by simp [ht])]
        exact ((ih hRest).cons t).trans (List.Perm.swap _ _ _)

/-- No wire is named twice by a form that is put together one coefficient at a time. -/
theorem nodup_wires_put (f : LinearForm) (hDistinct : f.wires.Nodup) (wire k : Int) :
    (put wire k f).wires.Nodup := by
  by_cases hMem : wire ∈ f.wires
  · rw [wires_put_of_mem f hMem]
    exact hDistinct
  · rw [put_of_not_mem f hMem, wires, List.map_append]
    rw [List.nodup_append_comm]
    exact List.nodup_cons.mpr ⟨hMem, hDistinct⟩

/-- The wires of a list of terms are the numbers that it names. -/
theorem mem_wires_ofList (terms : List (Nat × Nat)) (n : Nat) :
    (n : Int) ∈ (ofList terms).wires ↔ n ∈ terms.map Prod.fst := by
  simp [wires, ofList]

/-- After a list of terms those of a form remain that are not named again, and those join them that
stand in the list. -/
theorem foldl_put_perm (terms : List (Nat × Nat)) (f : LinearForm) (hDistinct : f.wires.Nodup) :
    ((ofList terms).foldl (fun g t => g.put t.1 t.2) f).Perm
      (f.filter (fun u => u.1 ∉ (ofList terms).wires) ++ ofList (standing terms)) := by
  induction terms generalizing f with
  | nil => simp [ofList, standing, wires]
  | cons t more ih =>
      let remains : LinearForm := f.filter fun u => u.1 ∉ (ofList (t :: more)).wires
      -- what the first term leaves of the form, and the rest of the terms of that
      have hPut := put_perm f hDistinct t.1 t.2
      have hMore := ih (f.put t.1 t.2) (nodup_wires_put f hDistinct t.1 t.2)
      have hRemains : (f.filter fun u => u.1 ≠ (t.1 : Int)).filter
          (fun u => u.1 ∉ (ofList more).wires) = remains := by
        rw [List.filter_filter]
        apply List.filter_congr
        intro u _
        have hEither : u.1 ∈ (ofList (t :: more)).wires ↔ u.1 = t.1 ∨ u.1 ∈ (ofList more).wires :=
          List.mem_cons
        rw [← Bool.decide_and, decide_eq_decide, hEither, not_or, and_comm]
      have hFilter := hPut.filter fun u => u.1 ∉ (ofList more).wires
      by_cases hAgain : t.1 ∈ more.map Prod.fst
      · have hNamed : (t.1 : Int) ∈ (ofList more).wires := (mem_wires_ofList more t.1).mpr hAgain
        rw [List.filter_cons_of_neg (by simpa using hNamed), hRemains] at hFilter
        rw [standing, if_pos hAgain]
        exact hMore.trans (hFilter.append_right _)
      · have hNew : (t.1 : Int) ∉ (ofList more).wires :=
          fun hNamed => hAgain ((mem_wires_ofList more t.1).mp hNamed)
        rw [List.filter_cons_of_pos (by simpa using hNew), hRemains] at hFilter
        rw [standing, if_neg hAgain]
        exact (hMore.trans (hFilter.append_right _)).trans List.perm_middle.symm

/-- A list of terms is kept as the terms that stand, in some order. -/
theorem kept_perm (terms : List (Nat × Nat)) : (kept terms).Perm (ofList (standing terms)) :=
  foldl_put_perm terms [] List.nodup_nil

end LinearForm

/-! ## Values -/

/-- The sum of coefficient times value over a list of terms. -/
def termSum (witness : List Int) (terms : List (Nat × Nat)) : Int :=
  (terms.map fun t => (t.2 : Int) * witness.getD t.1 0).sum

namespace LinearForm

/-- The sum over what is kept is the sum over the terms that stand. -/
theorem sumOn_kept (witness : List Int) (terms : List (Nat × Nat)) :
    (kept terms).sumOn witness = termSum witness (standing terms) := by
  have hSum := ((kept_perm terms).map fun t => t.2 * wireValue witness t.1).sum_eq
  rw [sumOn, hSum, ofList, List.map_map]
  rfl

/-- What is kept names no other wires than the list. -/
theorem within_kept {terms : List (Nat × Nat)} {count : Nat} (h : ∀ t ∈ terms, t.1 < count) :
    (kept terms).Within count := by
  intro wire hWire
  have hStanding : wire ∈ (ofList (standing terms)).wires :=
    ((kept_perm terms).map Prod.fst).mem_iff.mp hWire
  simp only [wires, ofList, List.map_map, List.mem_map] at hStanding
  obtain ⟨t, ht, rfl⟩ := hStanding
  have hLt := h t ((standing_sublist terms).mem ht)
  show (0 : Int) ≤ t.1 ∧ (t.1 : Int) < count
  omega

/-- The value of what is kept is the residue of the sum over the terms that stand. -/
theorem evaluate_kept {terms : List (Nat × Nat)} {witness : List Int} {p : Nat} (hPrime : p ≠ 0)
    (h : ∀ t ∈ terms, t.1 < witness.length) :
    (kept terms).evaluate witness p = .ok (termSum witness (standing terms) % p) := by
  rw [evaluate_of_within hPrime (within_kept h), sumOn_kept]

end LinearForm

/-! ## Violations -/

namespace ConstraintTerms

/-- The terms of a constraint that stand. -/
def standing (k : ConstraintTerms) : ConstraintTerms :=
  ⟨CircuitBench.standing k.a, CircuitBench.standing k.b, CircuitBench.standing k.c⟩

/-- Whether the sums over the terms of a constraint satisfy its equation. -/
def HoldsOn (p : Nat) (witness : List Int) (k : ConstraintTerms) : Prop :=
  termSum witness k.a * termSum witness k.b ≡ termSum witness k.c [ZMOD p]

/-- Whether a constraint names only wires that a witness has a value for. -/
def Within (count : Nat) (k : ConstraintTerms) : Prop :=
  ∀ terms ∈ k.forms, ∀ t ∈ terms, t.1 < count

instance (count : Nat) (k : ConstraintTerms) : Decidable (k.Within count) :=
  inferInstanceAs (Decidable (∀ terms ∈ k.forms, ∀ t ∈ terms, t.1 < count))

/-- Where no linear form names a wire twice, all terms of a constraint stand. -/
theorem standing_eq_self {k : ConstraintTerms}
    (h : ∀ terms ∈ k.forms, (terms.map Prod.fst).Nodup) : k.standing = k := by
  obtain ⟨a, b, c⟩ := k
  have ha := standing_of_nodup (h a (by simp [forms]))
  have hb := standing_of_nodup (h b (by simp [forms]))
  have hc := standing_of_nodup (h c (by simp [forms]))
  rw [standing, ha, hb, hc]

/-- What is kept of a constraint holds exactly if its equation holds for the terms that stand. -/
theorem holds_kept_iff (p : Nat) (witness : List Int) (k : ConstraintTerms) :
    k.kept.Holds p witness ↔ k.standing.HoldsOn p witness := by
  have hValue : ∀ terms, (LinearForm.kept terms).valueIn p witness =
      ((termSum witness (CircuitBench.standing terms) : Int) : ZMod p) := by
    intro terms
    rw [← LinearForm.cast_sumOn, LinearForm.sumOn_kept]
  simp only [Constraint.Holds, kept, hValue, HoldsOn, standing]
  rw [← Int.cast_mul, ZMod.intCast_eq_intCast_iff]

end ConstraintTerms

/-! ## Written constraints -/

/-- Written constraints are read, each linear form evaluates to the residue of the sum over the
terms that stand, and the violations are, in increasing order, the constraints whose equation fails
for these sums.  Where no linear form of a constraint names a wire twice, all its terms stand. -/
theorem violations_encode {elementSize : Nat} {ks : List ConstraintTerms}
    (hks : ∀ k ∈ ks, k.Writable elementSize) {p : Nat} (hPrime : 1 ≤ p) {witness : List Int}
    (hWires : ∀ k ∈ ks, k.Within witness.length) (rest : List UInt8) :
    parseConstraints (ks.flatMap (ConstraintTerms.encode elementSize) ++ rest) elementSize
        ks.length = .ok (ks.map ConstraintTerms.kept) ∧
      (∀ k ∈ ks, ∀ terms ∈ k.forms, (LinearForm.kept terms).evaluate witness p =
        .ok (termSum witness (standing terms) % p)) ∧
      (∃ bad, violations (ks.map ConstraintTerms.kept) witness p 0 = .ok bad ∧
        bad.Pairwise (· < ·) ∧
        ∀ i, i ∈ bad ↔ ∃ k, ks[i]? = some k ∧ ¬ k.standing.HoldsOn p witness) ∧
      ∀ k ∈ ks, (∀ terms ∈ k.forms, (terms.map Prod.fst).Nodup) → k.standing = k := by
  have hNonzero : p ≠ 0 := by omega
  have hWithin : ∀ c ∈ ks.map ConstraintTerms.kept, c.Within witness.length := by
    intro c hc
    obtain ⟨k, hk, rfl⟩ := List.mem_map.mp hc
    intro f hf
    simp only [Constraint.forms, ConstraintTerms.kept, List.mem_cons, List.not_mem_nil,
      or_false] at hf
    rcases hf with rfl | rfl | rfl
    · exact LinearForm.within_kept (hWires k hk k.a (by simp [ConstraintTerms.forms]))
    · exact LinearForm.within_kept (hWires k hk k.b (by simp [ConstraintTerms.forms]))
    · exact LinearForm.within_kept (hWires k hk k.c (by simp [ConstraintTerms.forms]))
  obtain ⟨bad, hBad, hOrder, hMem⟩ := violationsFrom_all hNonzero hWithin 0 0
  refine ⟨parseConstraints_encode hks rest, ?_, ⟨bad, hBad, hOrder, ?_⟩,
    fun k _ => ConstraintTerms.standing_eq_self⟩
  · intro k hk terms hTerms
    exact LinearForm.evaluate_kept hNonzero (hWires k hk terms hTerms)
  · intro i
    rw [hMem]
    constructor
    · rintro ⟨j, c, hj, hc, hNot⟩
      rw [Nat.zero_add] at hj
      subst hj
      rw [List.getElem?_map, Option.map_eq_some_iff] at hc
      obtain ⟨k, hk, rfl⟩ := hc
      exact ⟨k, hk, fun hHolds => hNot ((k.holds_kept_iff p witness).mpr hHolds)⟩
    · rintro ⟨k, hk, hNot⟩
      refine ⟨i, k.kept, (Nat.zero_add i).symm, ?_, ?_⟩
      · rw [List.getElem?_map, hk]
        rfl
      · exact fun hHolds => hNot ((k.holds_kept_iff p witness).mp hHolds)

/-- Two constraints that name a wire twice in their first form, on a witness that gives it five: of
the first the sums over all terms fail and those over the standing terms hold, of the second the
other way round.  Only the second is a violation. -/
theorem violations_encode_twice :
    let ks : List ConstraintTerms :=
      [⟨[(1, 1), (1, 1)], [(0, 1)], [(1, 1)]⟩, ⟨[(1, 1), (1, 1)], [(0, 1)], [(1, 2)]⟩]
    parseConstraints (ks.flatMap (ConstraintTerms.encode 8)) 8 2 =
        .ok (ks.map ConstraintTerms.kept) ∧
      ∃ bad, violations (ks.map ConstraintTerms.kept) [1, 5] 7 0 = .ok bad ∧
        0 ∉ bad ∧ 1 ∈ bad := by
  intro ks
  have hks : ∀ k ∈ ks, k.Writable 8 := by decide
  have hWires : ∀ k ∈ ks, k.Within ([1, 5] : List Int).length := by decide
  obtain ⟨hParse, -, ⟨bad, hBad, -, hMem⟩, -⟩ :=
    violations_encode hks (by decide : 1 ≤ 7) hWires []
  rw [List.append_nil] at hParse
  refine ⟨hParse, bad, hBad, ?_, ?_⟩
  · intro hFirst
    obtain ⟨k, hk, hNot⟩ := (hMem 0).mp hFirst
    cases hk
    apply hNot
    show (5 : Int) * 1 ≡ 5 [ZMOD 7]
    decide
  · refine (hMem 1).mpr ⟨_, rfl, ?_⟩
    show ¬ (5 : Int) * 1 ≡ 10 [ZMOD 7]
    decide

/-- The violations of written constraints are not always the constraints whose equation fails for
the sums over all terms. -/
theorem repeated_wire_accepted :
    ¬ ∀ (elementSize : Nat) (ks : List ConstraintTerms) (p : Nat) (witness : List Int),
      (∀ k ∈ ks, k.Writable elementSize) → 1 ≤ p → (∀ k ∈ ks, k.Within witness.length) →
      ∃ found bad, parseConstraints (ks.flatMap (ConstraintTerms.encode elementSize)) elementSize
          ks.length = .ok found ∧ violations found witness p 0 = .ok bad ∧
        ∀ i, i ∈ bad ↔ ∃ k, ks[i]? = some k ∧ ¬ k.HoldsOn p witness := by
  intro h
  let ks : List ConstraintTerms := [⟨[(1, 1), (1, 1)], [(0, 1)], [(1, 1)]⟩]
  have hks : ∀ k ∈ ks, k.Writable 8 := by decide
  have hWires : ∀ k ∈ ks, k.Within ([1, 5] : List Int).length := by decide
  obtain ⟨found, bad, hFound, hBad, hMem⟩ := h 8 ks 7 [1, 5] hks (by decide) hWires
  have hRead : parseConstraints (ks.flatMap (ConstraintTerms.encode 8)) 8 1 =
      .ok [⟨[(1, 1)], [(0, 1)], [(1, 1)]⟩] := by decide
  have hSame := hRead.symm.trans hFound
  cases hSame
  have hNone : violations [⟨[(1, 1)], [(0, 1)], [(1, 1)]⟩] [1, 5] 7 0 = .ok [] := rfl
  have hEmpty := hNone.symm.trans hBad
  cases hEmpty
  -- the first form is ten in the file and five in what is kept of it
  have hFails : ∃ k, ks[0]? = some k ∧ ¬ k.HoldsOn 7 [1, 5] := by
    refine ⟨_, rfl, ?_⟩
    show ¬ (10 : Int) * 1 ≡ 5 [ZMOD 7]
    decide
  have hNever := (hMem 0).mpr hFails
  cases hNever

end CircuitBench
