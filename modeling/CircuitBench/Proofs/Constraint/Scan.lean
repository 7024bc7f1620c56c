import CircuitBench.Proofs.Constraint.Satisfaction
import Mathlib.Data.List.Forall2

/-!
# The scan for violations

A scan goes through the constraints of a list in order, keeps the indices of those that do not
hold, and may end early: when a limit is given and as many have been found.  The scan without a
limit is the reference.  It finds the violations that there are, all of them, in increasing order,
and says so in terms of the equations between residues.

A limit is then a matter of lists alone.  Given the violations that there are, a scan with a limit
reports a front of them, whatever the constraints and the witness.  The length of the front is the
limit, with one exception: the limit is only looked at when a violation has just been found, so the
first one is reported whatever the limit.  A limit below zero therefore ends the scan at the first
violation; it does not stand for the absence of a limit.

## Main results

* `violationsFrom_all` : without a limit the scan finds the constraints that do not hold, in
  increasing order.
* `violationsFrom_limit` : with a limit it reports a front of what it finds without one.
* `violations_limit` : the violations that are reported for every limit.
* `negative_limit_stops` : a limit below zero does not leave the scan unlimited.
-/

namespace CircuitBench

/-! ## All violations -/

/-- The scan for all violations finds the constraints that do not hold, in increasing order. -/
theorem violationsFrom_all {witness : List Int} {p : Nat} (hPrime : p ≠ 0) {cs : List Constraint}
    (h : ∀ k ∈ cs, k.Within witness.length) (index found : Nat) :
    ∃ bad, violationsFrom witness p 0 index found cs = .ok bad ∧ bad.Pairwise (· < ·) ∧
      ∀ n, n ∈ bad ↔ ∃ i k, n = index + i ∧ cs[i]? = some k ∧ ¬ k.Holds p witness := by
  induction cs generalizing index found with
  | nil => exact ⟨[], rfl, List.Pairwise.nil, by simp⟩
  | cons k rest ih =>
      obtain ⟨value, hValue, hZero⟩ := Constraint.evaluate_eq_zero_iff hPrime (h k (by simp))
      have hRest : ∀ k' ∈ rest, k'.Within witness.length := fun k' hk' => h k' (by simp [hk'])
      -- a violation is the first constraint or one of the rest, counted from the next index on
      have hSplit : ∀ n, (∃ i k', n = index + i ∧ (k :: rest)[i]? = some k' ∧
          ¬ k'.Holds p witness) ↔ (n = index ∧ ¬ k.Holds p witness) ∨
            ∃ i k', n = index + 1 + i ∧ rest[i]? = some k' ∧ ¬ k'.Holds p witness := by
        intro n
        constructor
        · rintro ⟨i, k', rfl, hk', hNot⟩
          cases i with
          | zero =>
              have hSame : k = k' := by simpa using hk'
              exact .inl ⟨rfl, hSame ▸ hNot⟩
          | succ i => exact .inr ⟨i, k', by omega, by simpa using hk', hNot⟩
        · rintro (⟨rfl, hNot⟩ | ⟨i, k', rfl, hk', hNot⟩)
          · exact ⟨0, k, rfl, rfl, hNot⟩
          · exact ⟨i + 1, k', by omega, by simpa using hk', hNot⟩
      by_cases hHolds : k.Holds p witness
      · obtain ⟨bad, hBad, hOrder, hMem⟩ := ih hRest (index + 1) found
        refine ⟨bad, ?_, hOrder, ?_⟩
        · simp only [violationsFrom, hValue, bind, Except.bind]
          rw [if_pos (hZero.mpr hHolds)]
          exact hBad
        · intro n
          rw [hSplit, hMem]
          simp [hHolds]
      · obtain ⟨bad, hBad, hOrder, hMem⟩ := ih hRest (index + 1) (found + 1)
        refine ⟨index :: bad, ?_, ?_, ?_⟩
        · simp only [violationsFrom, hValue, bind, Except.bind]
          rw [if_neg fun hv => hHolds (hZero.mp hv), if_neg (by simp), hBad]
          rfl
        · refine List.pairwise_cons.mpr ⟨?_, hOrder⟩
          intro n hn
          obtain ⟨i, _, rfl, _⟩ := (hMem n).mp hn
          omega
        · intro n
          rw [List.mem_cons, hSplit, hMem]
          simp [hHolds]

/-! ## Limits -/

/-- What is reported of violations when `found` of them came before: all without a limit, otherwise
as many as the limit still allows, and the next one in any case. -/
def reported (limit : Int) (found : Nat) (bad : List Nat) : List Nat :=
  if limit = 0 then bad else bad.take (max (limit - found) 1).toNat

theorem reported_zero (found : Nat) (bad : List Nat) : reported 0 found bad = bad := rfl

/-- A limit that is reached, or was passed before, leaves the violation at which it is looked at. -/
theorem reported_last {limit : Int} {found : Nat} (h : limit ≠ 0 ∧ limit ≤ found + 1) (index : Nat)
    (more : List Nat) : reported limit found (index :: more) = [index] := by
  have hOne : max (limit - found) 1 = 1 := by omega
  rw [reported, if_neg h.1, hOne]
  rfl

/-- A limit that is not reached yet leaves the violation and what is reported behind it. -/
theorem reported_cons {limit : Int} {found : Nat} (h : ¬ (limit ≠ 0 ∧ limit ≤ found + 1))
    (index : Nat) (more : List Nat) :
    reported limit found (index :: more) = index :: reported limit (found + 1) more := by
  by_cases hLimit : limit = 0
  · rw [hLimit, reported_zero, reported_zero]
  · have hRoom : (max (limit - found) 1).toNat = (max (limit - (found + 1 : Nat)) 1).toNat + 1 := by
      omega
    rw [reported, reported, if_neg hLimit, if_neg hLimit, hRoom, List.take_succ_cons]

/-- With a limit the scan reports a front of what it finds without one. -/
theorem violationsFrom_limit {witness : List Int} {prime : Int} {ks : List Constraint}
    {bad : List Nat} {index count : Nat}
    (h : violationsFrom witness prime 0 index count ks = .ok bad) (limit : Int) (found : Nat) :
    violationsFrom witness prime limit index found ks = .ok (reported limit found bad) := by
  induction ks generalizing index count found bad with
  | nil =>
      cases h
      simp [violationsFrom, reported]
  | cons k rest ih =>
      simp only [violationsFrom, bind, Except.bind] at h ⊢
      cases hValue : k.evaluate witness prime with
      | error e =>
          rw [hValue] at h
          cases h
      | ok value =>
          simp only [hValue] at h ⊢
          by_cases hZero : value = 0
          · rw [if_pos hZero] at h ⊢
            exact ih h found
          · rw [if_neg hZero, if_neg (by simp)] at h
            rw [if_neg hZero]
            cases hMore : violationsFrom witness prime 0 (index + 1) (count + 1) rest with
            | error e =>
                rw [hMore] at h
                cases h
            | ok more =>
                rw [hMore] at h
                cases h
                by_cases hLast : limit ≠ 0 ∧ limit ≤ found + 1
                · rw [if_pos hLast, reported_last hLast]
                  rfl
                · rw [if_neg hLast, ih hMore (found + 1), reported_cons hLast]
                  rfl

/-- A scan that stops at the first violation finds nothing if all constraints hold, and otherwise
the first one that does not. -/
theorem violationsFrom_spec {witness : List Int} {p : Nat} (hPrime : p ≠ 0) {ks : List Constraint}
    (h : ∀ k ∈ ks, k.Within witness.length) (index : Nat) :
    (violationsFrom witness p 1 index 0 ks = .ok [] ∧ ∀ k ∈ ks, k.Holds p witness) ∨
      ∃ i, violationsFrom witness p 1 index 0 ks = .ok [index + i] ∧
        IsFirstViolated p witness ks i := by
  obtain ⟨bad, hBad, hOrder, hMem⟩ := violationsFrom_all hPrime h index 0
  rw [violationsFrom_limit hBad 1 0]
  cases bad with
  | nil =>
      refine .inl ⟨rfl, fun k hk => ?_⟩
      obtain ⟨i, hi⟩ := List.mem_iff_getElem?.mp hk
      by_contra hNot
      exact absurd ((hMem (index + i)).mpr ⟨i, k, rfl, hi, hNot⟩) List.not_mem_nil
  | cons n more =>
      obtain ⟨i, k, rfl, hk, hNot⟩ := (hMem n).mp List.mem_cons_self
      refine .inr ⟨i, rfl, ⟨k, hk, hNot⟩, fun j hj k' hk' => ?_⟩
      by_contra hNot'
      have hLater : index + j ∈ (index + i) :: more := (hMem _).mpr ⟨j, k', rfl, hk', hNot'⟩
      rcases List.mem_cons.mp hLater with hSame | hMore
      · omega
      · have hLt := List.rel_of_pairwise_cons hOrder hMore
        omega

/-! ## What a scan depends on -/

/-- A scan that finds nothing has found every constraint to be zero. -/
theorem evaluate_of_violationsFrom_nil {witness : List Int} {prime limit : Int} {index found : Nat}
    {ks : List Constraint} (h : violationsFrom witness prime limit index found ks = .ok []) :
    ∀ k ∈ ks, k.evaluate witness prime = .ok 0 := by
  induction ks generalizing index found with
  | nil => simp
  | cons k rest ih =>
      simp only [violationsFrom, bind, Except.bind] at h
      split at h
      · cases h
      · rename_i value hValue
        split at h
        · rename_i hZero
          intro k' hk'
          rcases List.mem_cons.mp hk' with rfl | hk'
          · rw [hValue, hZero]
          · exact ih h k' hk'
        · split at h
          · cases h
          · split at h
            · cases h
            · cases h

/-- The scan for violations asks for nothing but the values of the constraints. -/
theorem violationsFrom_congr {v w : List Int} {prime : Int} {ks ks' : List Constraint}
    (h : List.Forall₂ (fun k k' => k.evaluate v prime = k'.evaluate w prime) ks ks') (limit : Int)
    (index found : Nat) :
    violationsFrom v prime limit index found ks = violationsFrom w prime limit index found ks' := by
  induction h generalizing index found with
  | nil => rfl
  | cons hValue _ ih => simp only [violationsFrom, hValue, ih]

/-! ## The violations that are reported -/

/-- The value of a constraint on a witness before anything is reduced. -/
def Constraint.residual (witness : List Int) (k : Constraint) : Int :=
  k.a.sumOn witness * k.b.sumOn witness - k.c.sumOn witness

/-- A constraint holds exactly if its residue is zero. -/
theorem Constraint.holds_iff_residual {p : Nat} {witness : List Int} {k : Constraint} :
    k.Holds p witness ↔ k.residual witness ≡ 0 [ZMOD p] := by
  rw [Holds, ← LinearForm.cast_sumOn, ← LinearForm.cast_sumOn, ← LinearForm.cast_sumOn,
    ← Int.cast_mul, ← sub_eq_zero, ← Int.cast_sub, ← Int.cast_zero, ZMod.intCast_eq_intCast_iff,
    residual]

/-- Whether a list holds, in increasing order, the indices of the constraints that a witness
violates: those that differ from zero modulo the prime. -/
structure ListsViolations (p : Nat) (witness : List Int) (ks : List Constraint) (bad : List Nat) :
    Prop where
  increasing : bad.Pairwise (· < ·)
  members : ∀ i, i ∈ bad ↔ ∃ k, ks[i]? = some k ∧ ¬ k.residual witness ≡ 0 [ZMOD p]

/-- The violations of a witness are listed by a search without a limit.  One with a positive limit
lists the first of them, as many as the limit says or all if there are fewer; and one with a limit
below zero lists the first one only. -/
theorem violations_limit {p : Nat} (hPrime : 1 ≤ p) {ks : List Constraint} {witness : List Int}
    (hWires : ∀ k ∈ ks, k.Within witness.length) :
    ∃ bad, ListsViolations p witness ks bad ∧ ∀ limit : Int,
      (0 < limit → violations ks witness p limit = .ok (bad.take limit.toNat)) ∧
      (limit = 0 → violations ks witness p limit = .ok bad) ∧
      (limit < 0 → violations ks witness p limit = .ok (bad.take 1)) := by
  obtain ⟨bad, hBad, hOrder, hMem⟩ := violationsFrom_all (by omega : p ≠ 0) hWires 0 0
  refine ⟨bad, ⟨hOrder, fun i => ?_⟩, fun limit => ?_⟩
  · simp [hMem, Constraint.holds_iff_residual]
  · rw [violations, violationsFrom_limit hBad limit 0]
    refine ⟨fun hPositive => ?_, fun hZero => ?_, fun hNegative => ?_⟩
    · have hFront : (max (limit - (0 : Nat)) 1).toNat = limit.toNat := by omega
      rw [reported, if_neg (by omega), hFront]
    · rw [hZero, reported_zero]
    · have hFront : (max (limit - (0 : Nat)) 1).toNat = 1 := by omega
      rw [reported, if_neg (by omega), hFront]

/-- Four constraints over the residues of seven, of which the second holds by a multiple of seven.
A limit of two lists the first two violations, a larger one all three, and one below zero the first
alone. -/
theorem violations_limit_four :
    let ks : List Constraint := [⟨[(0, 1)], [(0, 1)], [(1, 1)]⟩, ⟨[(0, 3)], [(0, 3)], [(0, -5)]⟩,
      ⟨[(0, 1)], [(0, 1)], [(1, 2)]⟩, ⟨[(1, 1)], [(1, 1)], [(0, 1)]⟩]
    violations ks [1, 0] 7 2 = .ok [0, 2] ∧ violations ks [1, 0] 7 9 = .ok [0, 2, 3] ∧
      violations ks [1, 0] 7 (-2) = .ok [0] := by
  intro ks
  have hWires : ∀ k ∈ ks, k.Within ([1, 0] : List Int).length := by
    unfold Constraint.Within LinearForm.Within
    decide
  obtain ⟨bad, -, hLimit⟩ := violations_limit (by decide : 1 ≤ 7) hWires
  have hAll : violations ks [1, 0] 7 0 = .ok [0, 2, 3] := rfl
  have hSame := hAll.symm.trans ((hLimit 0).2.1 rfl)
  cases hSame
  exact ⟨(hLimit 2).1 (by decide), (hLimit 9).1 (by decide), (hLimit (-2)).2.2 (by decide)⟩

/-- A search with a limit that is not positive does not always list all violations. -/
theorem negative_limit_stops :
    ¬ ∀ (p : Nat) (ks : List Constraint) (witness : List Int) (limit : Int), 1 ≤ p →
      (∀ k ∈ ks, k.Within witness.length) →
      ∃ bad, ListsViolations p witness ks bad ∧
        violations ks witness p limit = .ok (if 0 < limit then bad.take limit.toNat else bad) := by
  intro h
  let ks : List Constraint := [⟨[(0, 1)], [(0, 1)], [(1, 1)]⟩, ⟨[(0, 1)], [(0, 1)], [(1, 1)]⟩]
  have hWires : ∀ k ∈ ks, k.Within ([1, 0] : List Int).length := by
    unfold Constraint.Within LinearForm.Within
    decide
  obtain ⟨bad, hList, hFound⟩ := h 7 ks [1, 0] (-1) (by decide) hWires
  have hFirst : violations ks [1, 0] 7 (-1) = .ok [0] := rfl
  have hSame := hFirst.symm.trans hFound
  cases hSame
  -- the second constraint is one less zero too, and is not listed
  have hSecond : (1 : Nat) ∈ [0] := by
    refine (hList.members 1).mpr ⟨_, rfl, ?_⟩
    show ¬ (1 : Int) ≡ 0 [ZMOD 7]
    decide
  cases hSecond with
  | tail _ hNone => cases hNone

end CircuitBench
