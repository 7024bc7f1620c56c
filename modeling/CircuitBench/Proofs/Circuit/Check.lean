import CircuitBench.Circuit.Witness
import CircuitBench.Proofs.Bench.Preserved
import CircuitBench.Proofs.Constraint.Footprint
import CircuitBench.Proofs.Constraint.Scan

/-!
# The check of a witness is exact

A witness passes the check exactly when it satisfies the constraint system, as equations between
residues.  Any other one is refused with a report that names the first fault: none of the
constraints when there are too few values or wire zero does not carry one, and otherwise the first
constraint that is violated.

The wires of a system are the only places at which a witness is looked at, so values behind them are
free.

## Main results

* `ConstraintSystem.support_nonneg_of_read` : the wires of a constraint file are natural numbers.
* `checkWitness_eq_ok_iff` : the check passes exactly the witnesses that satisfy the system.
* `checkWitness_sound` : and so it is for a system of which nothing is known, if the check passes.
* `checkWitness_congr` : what stands behind the wires is not looked at.
* `Session.checkConstraints_exact` : the same of a circuit, with the report on any other witness.
-/

namespace CircuitBench

open CircuitBench.Field

/-! ## The wires of a file -/

/-- A term adds its wire to a linear form and no other. -/
theorem LinearForm.wires_put_subset {f : LinearForm} {wire k w : Int}
    (h : w ∈ (f.put wire k).wires) :
    w = wire ∨ w ∈ f.wires := by
  by_cases hMem : wire ∈ f.wires
  · exact .inr (by rwa [wires_put_of_mem f hMem] at h)
  · rw [put_of_not_mem f hMem] at h
    simp only [wires, List.map_append, List.mem_append, List.map_cons, List.map_nil,
      List.mem_singleton] at h ⊢
    exact h.symm

/-- The wires of terms are natural numbers. -/
theorem LinearForm.nonneg_of_parseTerms {elementSize count : Nat} {f g : LinearForm} {c c' : Cursor}
    (hf : ∀ wire ∈ f.wires, 0 ≤ wire) (h : parseTerms elementSize count f c = .ok (g, c')) :
    ∀ wire ∈ g.wires, 0 ≤ wire := by
  induction count generalizing f c with
  | zero =>
      cases h
      exact hf
  | succ count ih =>
      rw [parseTerms] at h
      split at h
      · cases h
      · rename_i first c'' hFirst
        refine ih ?_ h
        intro wire hWire
        rcases wires_put_subset hWire with rfl | hWire
        · exact Int.natCast_nonneg first
        · exact hf wire hWire

/-- The wires of a linear form in a file are natural numbers. -/
theorem LinearForm.nonneg_of_parse {elementSize : Nat} {g : LinearForm} {c c' : Cursor}
    (h : LinearForm.parse elementSize c = .ok (g, c')) : ∀ wire ∈ g.wires, 0 ≤ wire := by
  rw [LinearForm.parse] at h
  split at h
  · cases h
  · exact nonneg_of_parseTerms (by simp [wires]) h

/-- The wires of a constraint in a file are natural numbers. -/
theorem Constraint.nonneg_of_parse {elementSize : Nat} {k : Constraint} {c c' : Cursor}
    (h : Constraint.parse elementSize c = .ok (k, c')) : ∀ wire ∈ k.support, 0 ≤ wire := by
  simp only [Constraint.parse, bind, Except.bind] at h
  split at h
  · cases h
  · rename_i a hA
    split at h
    · cases h
    · rename_i b hB
      split at h
      · cases h
      · rename_i c hC
        cases h
        intro wire hWire
        rcases (Constraint.mem_support _ wire).mp hWire with hWire | hWire | hWire
        · exact LinearForm.nonneg_of_parse hA wire hWire
        · exact LinearForm.nonneg_of_parse hB wire hWire
        · exact LinearForm.nonneg_of_parse hC wire hWire

/-- The wires of the constraints of a section are natural numbers. -/
theorem Constraint.nonneg_of_parseMany {elementSize count : Nat} {ks : List Constraint} {c : Cursor}
    (h : Constraint.parseMany elementSize count c = .ok ks) :
    ∀ k ∈ ks, ∀ wire ∈ k.support, 0 ≤ wire := by
  induction count generalizing ks c with
  | zero =>
      cases h
      simp
  | succ count ih =>
      simp only [parseMany, bind, Except.bind] at h
      split at h
      · cases h
      · rename_i first hFirst
        split at h
        · cases h
        · rename_i more hMore
          cases h
          intro k hk
          rcases List.mem_cons.mp hk with rfl | hk
          · exact nonneg_of_parse hFirst
          · exact ih hMore k hk

/-- The wires of the constraints of a file are natural numbers. -/
theorem ConstraintSystem.support_nonneg_of_read {file : String} {bytes : List UInt8}
    {system : ConstraintSystem} (h : ConstraintSystem.read file bytes = .ok system) :
    ∀ k ∈ system.constraints, ∀ wire ∈ k.support, 0 ≤ wire := by
  rw [ConstraintSystem.read] at h
  split at h
  · cases h
  · split at h
    · cases h
    · split at h
      · cases h
      · split at h
        · cases h
        · rename_i header _ body _
          split at h
          · cases h
          · rename_i constraints hConstraints
            cases h
            rw [parseConstraints] at hConstraints
            split at hConstraints
            · rename_i ks hParse
              cases hConstraints
              exact Constraint.nonneg_of_parseMany hParse
            · cases hConstraints

/-! ## The check -/

section Check

variable {system : ConstraintSystem} {witness : List Int}

/-- A constraint of which all wires are those of a system is within any witness that is long
enough. -/
theorem ConstraintSystem.Regular.within (hRegular : system.Regular)
    (hNonneg : ∀ k ∈ system.constraints, ∀ wire ∈ k.support, 0 ≤ wire)
    (hLength : system.wires ≤ witness.length) :
    ∀ k ∈ system.constraints, k.Within witness.length := by
  intro k hk f hf wire hWire
  have hSupport : wire ∈ k.support := Constraint.mem_support_of_form hf hWire
  have hBelow := hRegular.support k hk wire hSupport
  exact ⟨hNonneg k hk wire hSupport, by omega⟩

/-- What is left of one by a modulus of at least two is one. -/
theorem emod_eq_one_iff {n : Int} {p : Nat} (hPrime : 2 ≤ p) :
    n % p = 1 ↔ n ≡ 1 [ZMOD p] := by
  have hOne : (1 : Int) % p = 1 := Int.emod_eq_of_lt (by omega) (by omega)
  rw [Int.ModEq, hOne]

/-- The check with a prime other than zero, once there are enough values and one on wire zero: that
one is looked at, and then the constraints. -/
theorem checkWitness_of_length (symbols : Option SymbolTable)
    (hLength : system.wires ≤ witness.length) (hThere : 0 < witness.length)
    (hPrime : system.prime ≠ 0) :
    checkWitness system symbols witness =
      if wireValue witness 0 % system.prime ≠ 1 then .error (.circuit (.constraint .constantWire))
      else (violations system.constraints witness system.prime 1).bind
        (reportViolation system symbols) := by
  have hZero : atIndex witness 0 = .ok (wireValue witness 0) := atIndex_wire (by omega) (by omega)
  rw [checkWitness, if_neg (by omega)]
  simp only [hZero, bind, Except.bind]
  rw [residue_ok (by omega), Int.fmod_eq_emod_of_nonneg _ (by omega)]

/-- The end of a check: it passes, or the report names what is wrong first. -/
theorem checkWitness_cases (hRegular : system.Regular)
    (hNonneg : ∀ k ∈ system.constraints, ∀ wire ∈ k.support, 0 ≤ wire)
    (symbols : Option SymbolTable) :
    (checkWitness system symbols witness = .ok () ∧ system.Satisfies witness) ∨
      ∃ fault, checkWitness system symbols witness = .error (.circuit (.constraint fault)) ∧
        system.FirstFault witness fault.index? := by
  have hPrime : system.prime ≠ 0 := by
    have hTwo := hRegular.prime
    omega
  by_cases hLength : system.wires ≤ witness.length
  · have hThere : 0 < witness.length := Nat.lt_of_lt_of_le hRegular.wires hLength
    rw [checkWitness_of_length symbols hLength hThere hPrime]
    by_cases hConstant : wireValue witness 0 ≡ 1 [ZMOD system.prime]
    · rw [if_neg (not_not.mpr ((emod_eq_one_iff hRegular.prime).mpr hConstant)), violations]
      have hWithin := hRegular.within hNonneg hLength
      rcases violationsFrom_spec hPrime hWithin 0 with ⟨hNone, hAll⟩ | ⟨i, hFound, hFirst⟩
      · rw [hNone]
        exact .inl ⟨rfl, hLength, hConstant, hAll⟩
      · obtain ⟨k, hk, -⟩ := hFirst.violated
        refine .inr ⟨violation symbols i k, ?_, ⟨hLength, hConstant⟩, hFirst⟩
        rw [hFound, Nat.zero_add]
        simp only [Except.bind, reportViolation, hk]
    · rw [if_pos fun h => hConstant ((emod_eq_one_iff hRegular.prime).mp h)]
      exact .inr ⟨.constantWire, rfl, fun h => hConstant h.2⟩
  · refine .inr ⟨.tooShort witness.length system.wires, ?_, fun h => hLength h.1⟩
    rw [checkWitness, if_pos (by omega)]

/-- The check passes exactly the witnesses that satisfy the system. -/
theorem checkWitness_eq_ok_iff (hRegular : system.Regular)
    (hNonneg : ∀ k ∈ system.constraints, ∀ wire ∈ k.support, 0 ≤ wire)
    (symbols : Option SymbolTable) :
    checkWitness system symbols witness = .ok () ↔ system.Satisfies witness := by
  rcases checkWitness_cases hRegular hNonneg symbols with
    ⟨hOk, hSatisfies⟩ | ⟨fault, hError, hFault⟩
  · exact iff_of_true hOk hSatisfies
  · refine iff_of_false ?_ hFault.not_satisfies
    intro hOk
    rw [hOk] at hError
    cases hError

/-- A violation that was found is reported. -/
theorem reportViolation_eq_ok {symbols : Option SymbolTable} {found : List Nat}
    (h : reportViolation system symbols found = .ok ()) : found = [] := by
  cases found with
  | nil => rfl
  | cons index more =>
      rw [reportViolation] at h
      split at h <;> cases h

/-- A witness that passes satisfies the system, whatever system that is: one in which one is zero,
or that has no wires, or that names wires which the witness does not have, lets no witness pass. -/
theorem checkWitness_sound (hNonneg : ∀ k ∈ system.constraints, ∀ wire ∈ k.support, 0 ≤ wire)
    {symbols : Option SymbolTable} (h : checkWitness system symbols witness = .ok ()) :
    2 ≤ system.prime ∧ 0 < witness.length ∧ (∀ k ∈ system.constraints, k.Within witness.length) ∧
      system.Satisfies witness := by
  simp only [checkWitness, bind, Except.bind] at h
  split at h
  · cases h
  · rename_i hLength
    split at h
    · cases h
    · rename_i constant hConstant
      have hThere : (0 : Int) < witness.length := lt_length_of_atIndex (Int.le_refl 0) hConstant
      rw [atIndex_wire (Int.le_refl 0) hThere] at hConstant
      cases hConstant
      split at h
      · cases h
      · rename_i one hOne
        split at h
        · cases h
        · rename_i hIsOne
          rw [not_not] at hIsOne
          subst hIsOne
          split at h
          · cases h
          · rename_i found hFound
            rw [reportViolation_eq_ok h] at hFound
            have hZero := evaluate_of_violationsFrom_nil hFound
            have hNonzero : system.prime ≠ 0 := by
              intro hPrime
              rw [hPrime] at hOne
              cases hOne
            rw [residue_ok (by omega), Int.fmod_eq_emod_of_nonneg _ (by omega)] at hOne
            have hResidue : wireValue witness 0 % system.prime = 1 := Except.ok.inj hOne
            have hPrime : 2 ≤ system.prime := by
              have hBelow := Int.emod_lt_of_pos (wireValue witness 0)
                (show (0 : Int) < system.prime by omega)
              omega
            have hWithin : ∀ k ∈ system.constraints, k.Within witness.length :=
              fun k hk => Constraint.within_of_evaluate (hNonneg k hk) (hZero k hk)
            refine ⟨hPrime, by omega, hWithin, by omega, (emod_eq_one_iff hPrime).mp hResidue, ?_⟩
            intro k hk
            obtain ⟨value, hValue, hHolds⟩ :=
              Constraint.evaluate_eq_zero_iff hNonzero (hWithin k hk)
            rw [hZero k hk] at hValue
            exact hHolds.mp (Except.ok.inj hValue).symm

end Check

/-! ## Values behind the wires -/

section Congruence

variable {system : ConstraintSystem} {v w : List Int}

/-- Witnesses that agree on the wires of a system have the same value on each of them. -/
theorem atIndex_congr {count : Nat} (h : v.take count = w.take count) {wire : Int}
    (hNonneg : 0 ≤ wire) (hLt : wire < count) : atIndex v wire = atIndex w wire := by
  obtain ⟨n, rfl⟩ := Int.eq_ofNat_of_zero_le hNonneg
  have hNat : n < count := by omega
  have hSame : v[n]? = w[n]? := by
    rw [← List.getElem?_take_of_lt hNat, h, List.getElem?_take_of_lt hNat]
  have hSign : ¬ (n : Int) < 0 := by omega
  simp only [atIndex, memberAt, hSign, if_false, Int.toNat_natCast, hSame]

/-- What stands behind the wires of a system is not looked at. -/
theorem checkWitness_congr (hRegular : system.Regular)
    (hNonneg : ∀ k ∈ system.constraints, ∀ wire ∈ k.support, 0 ≤ wire)
    (symbols : Option SymbolTable) (h : v.take system.wires = w.take system.wires) :
    checkWitness system symbols v = checkWitness system symbols w := by
  have hLengths : min system.wires v.length = min system.wires w.length := by
    rw [← List.length_take, h, List.length_take]
  by_cases hLength : system.wires ≤ v.length
  · have hLength' : system.wires ≤ w.length := by omega
    have hWires := hRegular.wires
    have hValues : ∀ k ∈ system.constraints,
        k.evaluate v system.prime = k.evaluate w system.prime := by
      intro k hk
      exact Constraint.evaluate_congr (fun wire hWire => atIndex_congr h (hNonneg k hk wire hWire)
        (hRegular.support k hk wire hWire)) system.prime
    rw [checkWitness, checkWitness, if_neg (by omega), if_neg (by omega),
      atIndex_congr h (Int.le_refl 0) (by omega), violations, violations,
      violationsFrom_congr (List.forall₂_same.mpr hValues)]
  · -- a witness that is too short has nothing behind the wires
    rw [List.take_of_length_le (by omega), List.take_of_length_le (by omega)] at h
    rw [h]

end Congruence

/-! ## Circuits -/

namespace Session

/-- The check of a circuit is that of its constraint system, which is read first if it has not
been. -/
theorem checkConstraints_of_load {s s' : Session} {system : ConstraintSystem}
    (hLoad : loadConstraints s = .ok system s') (witness : List Int) :
    checkConstraints witness s =
      Bench.attempt (checkWitness system s'.circuit.symbols witness) s' := by
  rw [checkConstraints]
  simp only [bind, EStateM.bind, hLoad, circuitNow]

/-- The check of a circuit is exact: it passes exactly the witnesses that satisfy the constraint
system; any other one is refused with a report that names the first violated constraint, or none if
there are too few values or wire zero does not carry one; and values behind the wires make no
difference. -/
theorem checkConstraints_exact {file : String} {bytes : List UInt8} {system : ConstraintSystem}
    (hRead : ConstraintSystem.read file bytes = .ok system) (hRegular : system.Regular)
    {s s' : Session} (hLoad : loadConstraints s = .ok system s') (witness : List Int) :
    (checkConstraints witness s = .ok () s' ↔ system.Satisfies witness) ∧
    (¬ system.Satisfies witness →
      ∃ fault, checkConstraints witness s = .error (.circuit (.constraint fault)) s' ∧
        system.FirstFault witness fault.index?) ∧
    ∀ other : List Int, other.take system.wires = witness.take system.wires →
      checkConstraints other s = checkConstraints witness s := by
  have hNonneg := ConstraintSystem.support_nonneg_of_read hRead
  have hSession := checkConstraints_of_load hLoad
  refine ⟨?_, ?_, ?_⟩
  · rw [hSession, ← checkWitness_eq_ok_iff hRegular hNonneg s'.circuit.symbols]
    cases checkWitness system s'.circuit.symbols witness with
    | ok result => exact iff_of_true rfl rfl
    | error e =>
        constructor
        · intro hOk
          cases hOk
        · intro hOk
          cases hOk
  · intro hNot
    rcases checkWitness_cases hRegular hNonneg s'.circuit.symbols with
      ⟨-, hSatisfies⟩ | ⟨fault, hError, hFault⟩
    · exact absurd hSatisfies hNot
    · exact ⟨fault, by rw [hSession, hError]; rfl, hFault⟩
  · intro other hAgree
    rw [hSession, hSession, checkWitness_congr hRegular hNonneg _ hAgree]

/-- A system over the residues of seven, of which the first constraint has a coefficient that is not
reduced and the second squares wire one.  Values of any sign and size pass by their residues, and a
wrong square is reported as the second constraint, whatever stands behind it. -/
theorem checkConstraints_square :
    let h : ConstraintHeader := ⟨7, 8, 3, 1, 0, 1, 3, 2⟩
    let system : ConstraintSystem :=
      ⟨h, [⟨[(0, 1)], [(1, 15)], [(1, 1)]⟩, ⟨[(1, 1)], [(1, 1)], [(2, 1)]⟩]⟩
    let s : Session :=
      ⟨{}, { Circuit.ofPaths "m.circom" "out" .null false with constraints := some system }⟩
    checkConstraints [8, -4, 23, 100] s = .ok () s ∧
      ∃ fault, checkConstraints [1, 3, 1] s = .error (.circuit (.constraint fault)) s ∧
        system.FirstFault [1, 3, 1] fault.index? := by
  intro h system s
  let ks : List ConstraintTerms := [⟨[(0, 1)], [(1, 15)], [(1, 1)]⟩, ⟨[(1, 1)], [(1, 1)], [(2, 1)]⟩]
  let c : Container := ⟨1, [(1, h.encode), (2, ks.flatMap (ConstraintTerms.encode 8))]⟩
  have hRead : ConstraintSystem.read "m.r1cs" (c.encode constraintMagic) = .ok system := by
    apply Except.eq_ok_of_toOption
    decide +kernel
  have hRegular : system.Regular := ⟨by decide, by decide, by decide⟩
  have hLoad : loadConstraints s = .ok system s := loadConstraints_of_some rfl
  have hSquare : system.Satisfies [8, -4, 23, 100] := by
    refine ⟨by decide, by decide, ?_⟩
    unfold Constraint.Holds
    decide
  have hWrong : ¬ system.Satisfies [1, 3, 1] := by
    intro hSatisfies
    have hSecond := hSatisfies.constraints ⟨[(1, 1)], [(1, 1)], [(2, 1)]⟩ (by decide)
    revert hSecond
    unfold Constraint.Holds
    decide
  exact ⟨(checkConstraints_exact hRead hRegular hLoad _).1.mpr hSquare,
    (checkConstraints_exact hRead hRegular hLoad _).2.1 hWrong⟩

end Session

end CircuitBench
