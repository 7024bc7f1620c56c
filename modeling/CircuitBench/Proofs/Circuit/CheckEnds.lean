import CircuitBench.Proofs.Circuit.Check

/-!
# How a check can end

A constraint file is read without a look at what its numbers mean.  So the prime may be zero, there
may be no wires at all, and a constraint may name a wire that the header does not count.  The check
of a witness does not look at that either, and it stumbles in three places: it takes the value on
wire zero when no value is needed and none is there, it divides by the prime, and it takes the value
of a wire behind the last one of the witness.

Where it stumbles is told exactly.  The first two depend on the header and the length of the
witness alone.  The third is reached only by a witness that is good up to then: wire zero carries
one, and every earlier constraint has all its wires and holds.

## Main results

* `LinearForm.weightedSum_cases` : a linear form has a sum unless it names a wire without a value.
* `violationsFrom_ends` : how a scan that stops at the first violation ends.
* `checkWitness_ends` : how a check ends.
* `Session.checkConstraints_ends` : the same of a circuit, for each of the ends.
-/

namespace CircuitBench

open CircuitBench.Field

/-! ## Values that are missing -/

/-- A wire behind the last one has no value. -/
theorem atIndex_beyond (witness : List Int) {wire : Int} (hNonneg : 0 ≤ wire)
    (hBeyond : ¬ wire < witness.length) : ∃ fault, atIndex witness wire = .error (.index fault) := by
  have hNone : witness[wire.toNat]? = none := List.getElem?_eq_none (by omega)
  rw [atIndex, memberAt]
  simp only [Int.not_lt.mpr hNonneg, if_false, hNone]
  exact ⟨_, rfl⟩

/-- A linear form has a sum unless it names a wire without a value. -/
theorem LinearForm.weightedSum_cases {witness : List Int} {f : LinearForm}
    (hNonneg : ∀ wire ∈ f.wires, 0 ≤ wire) :
    f.Within witness.length ∨
      ¬ f.Within witness.length ∧ ∃ fault, f.weightedSum witness = .error (.index fault) := by
  induction f with
  | nil => exact .inl fun wire hWire => absurd hWire List.not_mem_nil
  | cons t rest ih =>
      have hFirst : 0 ≤ t.1 := hNonneg t.1 List.mem_cons_self
      have hRest : ∀ wire ∈ LinearForm.wires rest, 0 ≤ wire :=
        fun wire hWire => hNonneg wire (List.mem_cons_of_mem _ hWire)
      rw [within_cons, weightedSum]
      by_cases hLt : t.1 < witness.length
      · rw [atIndex_wire hFirst hLt]
        rcases ih hRest with hWithin | ⟨hNot, fault, hSum⟩
        · exact .inl ⟨⟨hFirst, hLt⟩, hWithin⟩
        · exact .inr ⟨fun h => hNot h.2, fault, by rw [hSum]; rfl⟩
      · obtain ⟨fault, hFault⟩ := atIndex_beyond witness hFirst hLt
        exact .inr ⟨fun h => hLt h.1.2, fault, by rw [hFault]; rfl⟩

/-- A linear form that names a wire without a value has no value itself. -/
theorem LinearForm.evaluate_cases (witness : List Int) {f : LinearForm} {p : Nat} (hPrime : p ≠ 0)
    (hNonneg : ∀ wire ∈ f.wires, 0 ≤ wire) :
    (f.Within witness.length ∧ ∃ value, f.evaluate witness p = .ok value) ∨
      ¬ f.Within witness.length ∧ ∃ fault, f.evaluate witness p = .error (.index fault) := by
  rcases weightedSum_cases hNonneg with hWithin | ⟨hNot, fault, hSum⟩
  · exact .inl ⟨hWithin, _, evaluate_of_within hPrime hWithin⟩
  · exact .inr ⟨hNot, fault, by rw [evaluate, hSum]; rfl⟩

/-- Neither has a constraint. -/
theorem Constraint.evaluate_of_not_within {witness : List Int} {k : Constraint} {p : Nat}
    (hPrime : p ≠ 0) (hNonneg : ∀ wire ∈ k.support, 0 ≤ wire) (hNot : ¬ k.Within witness.length) :
    ∃ fault, k.evaluate witness p = .error (.index fault) := by
  have hWires : ∀ f ∈ k.forms, ∀ wire ∈ f.wires, 0 ≤ wire :=
    fun f hf wire hWire => hNonneg wire (mem_support_of_form hf hWire)
  have hA := LinearForm.evaluate_cases witness hPrime (hWires k.a (by simp [forms]))
  have hB := LinearForm.evaluate_cases witness hPrime (hWires k.b (by simp [forms]))
  have hC := LinearForm.evaluate_cases witness hPrime (hWires k.c (by simp [forms]))
  rw [evaluate]
  rcases hA with ⟨hInA, a, hA⟩ | ⟨-, fault, hA⟩
  · rcases hB with ⟨hInB, b, hB⟩ | ⟨-, fault, hB⟩
    · rcases hC with ⟨hInC, c, hC⟩ | ⟨-, fault, hC⟩
      · refine absurd ?_ hNot
        simp only [Within, forms, List.forall_mem_cons]
        exact ⟨hInA, hInB, hInC, fun _ hMem => absurd hMem List.not_mem_nil⟩
      · exact ⟨fault, by rw [hA, hB, hC]; rfl⟩
    · exact ⟨fault, by rw [hA, hB]; rfl⟩
  · exact ⟨fault, by rw [hA]; rfl⟩

/-! ## The scan -/

/-- Whether a constraint is the first one of a list that names a wire without a value, and the ones
before it all hold. -/
structure IsFirstStray (p : Nat) (witness : List Int) (ks : List Constraint) (index : Nat) :
    Prop where
  stray : ∃ k, ks[index]? = some k ∧ ¬ k.Within witness.length
  earlier : ∀ i < index, ∀ k, ks[i]? = some k → k.Within witness.length ∧ k.Holds p witness

section Scan

variable {p : Nat} {witness : List Int} {k : Constraint} {ks : List Constraint}

theorem isFirstStray_zero :
    IsFirstStray p witness (k :: ks) 0 ↔ ¬ k.Within witness.length := by
  constructor
  · rintro ⟨⟨k', hk, hStray⟩, -⟩
    cases hk
    exact hStray
  · intro hStray
    exact ⟨⟨k, rfl, hStray⟩, fun i hi => absurd hi (Nat.not_lt_zero i)⟩

theorem isFirstStray_succ {index : Nat} :
    IsFirstStray p witness (k :: ks) (index + 1) ↔
      (k.Within witness.length ∧ k.Holds p witness) ∧ IsFirstStray p witness ks index := by
  constructor
  · rintro ⟨hStray, hEarlier⟩
    refine ⟨hEarlier 0 (Nat.succ_pos index) k rfl, hStray, fun i hi k' hk' => ?_⟩
    exact hEarlier (i + 1) (Nat.succ_lt_succ hi) k' hk'
  · rintro ⟨hFirst, hStray, hEarlier⟩
    refine ⟨hStray, fun i hi k' hk' => ?_⟩
    cases i with
    | zero =>
        cases hk'
        exact hFirst
    | succ i => exact hEarlier i (Nat.lt_of_succ_lt_succ hi) k' hk'

/-- A scan that stops at the first violation fails exactly if it comes to a constraint that names a
wire without a value; otherwise what it finds are constraints of the list. -/
theorem violationsFrom_ends (hPrime : p ≠ 0)
    (hNonneg : ∀ k ∈ ks, ∀ wire ∈ k.support, 0 ≤ wire) (index : Nat) :
    ((∃ fault, violationsFrom witness p 1 index 0 ks = .error (.index fault)) ∧
        ∃ i, IsFirstStray p witness ks i) ∨
      (∃ found, violationsFrom witness p 1 index 0 ks = .ok found ∧
          ∀ i ∈ found, i < index + ks.length) ∧
        ¬ ∃ i, IsFirstStray p witness ks i := by
  induction ks generalizing index with
  | nil =>
      refine .inr ⟨⟨[], rfl, fun i hi => absurd hi List.not_mem_nil⟩, ?_⟩
      rintro ⟨i, ⟨k, hk, -⟩, -⟩
      cases hk
  | cons k rest ih =>
      rw [List.forall_mem_cons] at hNonneg
      rw [violationsFrom]
      by_cases hWithin : k.Within witness.length
      · obtain ⟨value, hValue, hZero⟩ := Constraint.evaluate_eq_zero_iff hPrime hWithin
        simp only [hValue, bind, Except.bind]
        by_cases hHolds : k.Holds p witness
        · -- the scan goes on behind a constraint that holds
          rw [if_pos (hZero.mpr hHolds)]
          rcases ih hNonneg.2 (index + 1) with ⟨hFails, i, hStray⟩ | ⟨⟨found, hFound, hBelow⟩, hNone⟩
          · exact .inl ⟨hFails, i + 1, isFirstStray_succ.mpr ⟨⟨hWithin, hHolds⟩, hStray⟩⟩
          · refine .inr ⟨⟨found, hFound, fun i hi => ?_⟩, ?_⟩
            · have hLt := hBelow i hi
              rw [List.length_cons]
              omega
            · rintro ⟨i, hStray⟩
              cases i with
              | zero => exact isFirstStray_zero.mp hStray hWithin
              | succ i => exact hNone ⟨i, (isFirstStray_succ.mp hStray).2⟩
        · -- and stops at one that does not
          rw [if_neg fun h => hHolds (hZero.mp h), if_pos (by simp)]
          refine .inr ⟨⟨[index], rfl, fun i hi => ?_⟩, ?_⟩
          · rw [List.mem_singleton.mp hi, List.length_cons]
            omega
          · rintro ⟨i, hStray⟩
            cases i with
            | zero => exact isFirstStray_zero.mp hStray hWithin
            | succ i => exact hHolds (isFirstStray_succ.mp hStray).1.2
      · obtain ⟨fault, hFault⟩ := Constraint.evaluate_of_not_within hPrime hNonneg.1 hWithin
        exact .inl ⟨⟨fault, by rw [hFault]; rfl⟩, 0, isFirstStray_zero.mpr hWithin⟩

end Scan

/-! ## The check -/

namespace ConstraintSystem

/-- Whether wire zero is looked at although there is none: the system asks for no values, and none
are there. -/
structure LacksConstant (system : ConstraintSystem) (witness : List Int) : Prop where
  wires : system.wires = 0
  empty : witness = []

/-- Whether a value is divided by a prime of zero. -/
structure LacksField (system : ConstraintSystem) (witness : List Int) : Prop where
  prime : system.prime = 0
  length : system.wires ≤ witness.length
  nonempty : witness ≠ []

/-- Whether the scan comes to a constraint that names a wire without a value. -/
structure LacksWire (system : ConstraintSystem) (witness : List Int) : Prop where
  prime : 2 ≤ system.prime
  length : system.wires ≤ witness.length
  constant : wireValue witness 0 ≡ 1 [ZMOD system.prime]
  stray : ∃ index, IsFirstStray system.prime witness system.constraints index

section Lacks

variable {system : ConstraintSystem} {witness : List Int}

theorem LacksField.not_lacksConstant (h : system.LacksField witness) :
    ¬ system.LacksConstant witness :=
  fun hConstant => h.nonempty hConstant.empty

theorem LacksField.not_lacksWire (h : system.LacksField witness) :
    ¬ system.LacksWire witness := by
  intro hWire
  have hPrime := hWire.prime
  rw [h.prime] at hPrime
  omega

end Lacks

/-- A system of which the prime is not zero, and that names no other wires than it counts, among
them wire zero, lacks nothing with any witness. -/
theorem lacks_nothing {system : ConstraintSystem} (hPrime : system.prime ≠ 0) (hWires : 1 ≤ system.wires)
    (hNonneg : ∀ k ∈ system.constraints, ∀ wire ∈ k.support, 0 ≤ wire)
    (hSupport : ∀ k ∈ system.constraints, ∀ wire ∈ k.support, wire < system.wires)
    (witness : List Int) :
    ¬ system.LacksConstant witness ∧ ¬ system.LacksField witness ∧
      ¬ system.LacksWire witness := by
  refine ⟨fun h => ?_, fun h => hPrime h.prime, fun h => ?_⟩
  · rw [h.wires] at hWires
    omega
  · obtain ⟨index, ⟨k, hk, hStray⟩, -⟩ := h.stray
    have hRegular : system.Regular := ⟨h.prime, hWires, hSupport⟩
    exact hStray (hRegular.within hNonneg h.length k (List.mem_of_getElem? hk))

end ConstraintSystem

section Check

variable {system : ConstraintSystem}

/-- A violation that is one of the constraints is reported. -/
theorem reportViolation_of_found (symbols : Option SymbolTable) {found : List Nat}
    (h : ∀ i ∈ found, i < system.constraints.length) :
    reportViolation system symbols found = .ok () ∨
      ∃ fault, reportViolation system symbols found = .error (.circuit (.constraint fault)) := by
  cases found with
  | nil => exact .inl rfl
  | cons index more =>
      have hLt := h index List.mem_cons_self
      refine .inr ⟨violation symbols index system.constraints[index], ?_⟩
      rw [reportViolation, List.getElem?_eq_getElem hLt]

/-- How a check ends: it passes or refuses the witness, unless it is in want of wire zero, of another
wire, or of a field. -/
theorem checkWitness_ends (hNonneg : ∀ k ∈ system.constraints, ∀ wire ∈ k.support, 0 ≤ wire)
    (symbols : Option SymbolTable) (witness : List Int) :
    ((checkWitness system symbols witness = .ok () ∨
        ∃ fault, checkWitness system symbols witness = .error (.circuit (.constraint fault))) ∧
      ¬ system.LacksConstant witness ∧ ¬ system.LacksField witness ∧
      ¬ system.LacksWire witness) ∨
    ((∃ fault, checkWitness system symbols witness = .error (.index fault)) ∧
      (system.LacksConstant witness ∨ system.LacksWire witness)) ∨
    (checkWitness system symbols witness = .error .moduloByZero ∧ system.LacksField witness) := by
  by_cases hLength : system.wires ≤ witness.length
  · by_cases hThere : 0 < witness.length
    · by_cases hPrime : system.prime = 0
      · -- the value on wire zero is divided by zero
        have hZero : atIndex witness 0 = .ok (wireValue witness 0) :=
          atIndex_wire (by omega) (by omega)
        refine .inr (.inr ⟨?_, hPrime, hLength, List.ne_nil_of_length_pos hThere⟩)
        rw [checkWitness, if_neg (by omega), hZero, hPrime]
        rfl
      · have hNonempty : ¬ system.LacksConstant witness :=
          fun h => List.ne_nil_of_length_pos hThere h.empty
        have hField : ¬ system.LacksField witness := fun h => hPrime h.prime
        rw [checkWitness_of_length symbols hLength hThere hPrime]
        by_cases hOne : wireValue witness 0 % system.prime = 1
        · have hBelow := Int.emod_lt_of_pos (wireValue witness 0)
            (show (0 : Int) < system.prime by omega)
          have hTwo : 2 ≤ system.prime := by omega
          have hConstant := (emod_eq_one_iff hTwo).mp hOne
          rw [if_neg (not_not.mpr hOne), violations]
          rcases violationsFrom_ends hPrime hNonneg 0 with
            ⟨⟨fault, hFails⟩, hStray⟩ | ⟨⟨found, hFound, hBounds⟩, hNone⟩
          · refine .inr (.inl ⟨⟨fault, ?_⟩, .inr ⟨hTwo, hLength, hConstant, hStray⟩⟩)
            rw [hFails]
            rfl
          · refine .inl ⟨?_, hNonempty, hField, fun h => hNone h.stray⟩
            rw [hFound]
            refine reportViolation_of_found symbols fun i hi => ?_
            have hBound := hBounds i hi
            omega
        · rw [if_pos hOne]
          exact .inl ⟨.inr ⟨_, rfl⟩, hNonempty, hField,
            fun h => hOne ((emod_eq_one_iff h.prime).mpr h.constant)⟩
    · -- no values are asked for, and there are none
      have hEmpty : witness = [] := List.eq_nil_of_length_eq_zero (by omega)
      obtain ⟨fault, hFault⟩ := atIndex_beyond witness (Int.le_refl 0) (by omega)
      refine .inr (.inl ⟨⟨fault, ?_⟩, .inl ⟨by omega, hEmpty⟩⟩)
      rw [checkWitness, if_neg (by omega), hFault]
      rfl
  · refine .inl ⟨.inr ⟨.tooShort witness.length system.wires, ?_⟩, fun h => ?_, fun h => ?_,
      fun h => hLength h.length⟩
    · rw [checkWitness, if_pos (by omega)]
    · have hNone := h.wires
      omega
    · exact hLength h.length

end Check

/-! ## Circuits -/

namespace Session

/-- How the check of a circuit ends whose constraints are in a file that can be read.  It stumbles
over an index exactly if no values are asked for and none are there, or if the scan comes to a
constraint that names a wire without a value; over a division by zero exactly if the prime is zero
and there are values, as many as are asked for.  Otherwise it passes or refuses the witness, and so
it does with every witness if the prime is not zero and the file names no other wires than it
counts, among them wire zero. -/
theorem checkConstraints_ends {file : String} {bytes : List UInt8} {system : ConstraintSystem}
    (hRead : ConstraintSystem.read file bytes = .ok system) {s s' : Session}
    (hLoad : loadConstraints s = .ok system s') (witness : List Int) :
    ((checkConstraints witness s = .ok () s' ∨
        ∃ fault, checkConstraints witness s = .error (.circuit (.constraint fault)) s') ↔
      ¬ system.LacksConstant witness ∧ ¬ system.LacksField witness ∧
        ¬ system.LacksWire witness) ∧
    ((∃ fault, checkConstraints witness s = .error (.index fault) s') ↔
      system.LacksConstant witness ∨ system.LacksWire witness) ∧
    (checkConstraints witness s = .error .moduloByZero s' ↔ system.LacksField witness) ∧
    (system.prime ≠ 0 → 1 ≤ system.wires →
      (∀ k ∈ system.constraints, ∀ wire ∈ k.support, wire < system.wires) →
      ∀ other : List Int, checkConstraints other s = .ok () s' ∨
        ∃ fault, checkConstraints other s = .error (.circuit (.constraint fault)) s') := by
  have hNonneg := ConstraintSystem.support_nonneg_of_read hRead
  have hEnds : ∀ other : List Int,
      ((checkConstraints other s = .ok () s' ∨
          ∃ fault, checkConstraints other s = .error (.circuit (.constraint fault)) s') ∧
        ¬ system.LacksConstant other ∧ ¬ system.LacksField other ∧ ¬ system.LacksWire other) ∨
      ((∃ fault, checkConstraints other s = .error (.index fault) s') ∧
        (system.LacksConstant other ∨ system.LacksWire other)) ∨
      (checkConstraints other s = .error .moduloByZero s' ∧ system.LacksField other) := by
    intro other
    have hSession := checkConstraints_of_load hLoad other
    rcases checkWitness_ends hNonneg s'.circuit.symbols other with
      ⟨hOk | ⟨fault, hFault⟩, hLacks⟩ | ⟨⟨fault, hFault⟩, hLacks⟩ | ⟨hFault, hLacks⟩
    · exact .inl ⟨.inl (by rw [hSession, hOk]; rfl), hLacks⟩
    · exact .inl ⟨.inr ⟨fault, by rw [hSession, hFault]; rfl⟩, hLacks⟩
    · exact .inr (.inl ⟨⟨fault, by rw [hSession, hFault]; rfl⟩, hLacks⟩)
    · exact .inr (.inr ⟨by rw [hSession, hFault]; rfl, hLacks⟩)
  refine ⟨?_, ?_, ?_, ?_⟩
  · rcases hEnds witness with ⟨hEnd, hLacks⟩ | ⟨⟨fault, hEnd⟩, hLacks⟩ | ⟨hEnd, hLacks⟩
    · exact iff_of_true hEnd hLacks
    · refine iff_of_false ?_ ?_
      · rw [hEnd]
        rintro (h | ⟨_, h⟩) <;> cases h
      · rintro ⟨hConstant, -, hWire⟩
        exact hLacks.elim hConstant hWire
    · refine iff_of_false ?_ fun h => h.2.1 hLacks
      rw [hEnd]
      rintro (h | ⟨_, h⟩) <;> cases h
  · rcases hEnds witness with ⟨hEnd, hConstant, -, hWire⟩ | ⟨hEnd, hLacks⟩ | ⟨hEnd, hLacks⟩
    · refine iff_of_false ?_ fun h => h.elim hConstant hWire
      rintro ⟨fault, hFault⟩
      rw [hFault] at hEnd
      rcases hEnd with h | ⟨_, h⟩ <;> cases h
    · exact iff_of_true hEnd hLacks
    · refine iff_of_false ?_ fun h => h.elim hLacks.not_lacksConstant hLacks.not_lacksWire
      rw [hEnd]
      rintro ⟨_, h⟩
      cases h
  · rcases hEnds witness with ⟨hEnd, -, hField, -⟩ | ⟨⟨fault, hEnd⟩, hLacks⟩ | ⟨hEnd, hLacks⟩
    · refine iff_of_false ?_ hField
      intro hFault
      rw [hFault] at hEnd
      rcases hEnd with h | ⟨_, h⟩ <;> cases h
    · refine iff_of_false ?_ fun h => hLacks.elim h.not_lacksConstant h.not_lacksWire
      rw [hEnd]
      intro h
      cases h
    · exact iff_of_true hEnd hLacks
  · intro hPrime hWires hSupport other
    obtain ⟨hConstant, hField, hWire⟩ :=
      ConstraintSystem.lacks_nothing hPrime hWires hNonneg hSupport other
    rcases hEnds other with ⟨hEnd, -⟩ | ⟨-, hLacks⟩ | ⟨-, hLacks⟩
    · exact hEnd
    · exact absurd hLacks (not_or.mpr ⟨hConstant, hWire⟩)
    · exact absurd hLacks hField

/-- The system of a file with a single wire, of which the second constraint names another. -/
def straySystem : ConstraintSystem :=
  ⟨⟨7, 8, 1, 0, 0, 0, 1, 2⟩, [⟨[(0, 1)], [(0, 1)], [(0, 1)]⟩, ⟨[(0, 1)], [(5, 1)], []⟩]⟩

/-- A system without wires and without constraints. -/
def emptySystem : ConstraintSystem :=
  ⟨⟨7, 8, 0, 0, 0, 0, 0, 0⟩, []⟩

/-- A circuit of which the constraints have been read. -/
def sessionOf (system : ConstraintSystem) : Session :=
  ⟨{}, { Circuit.ofPaths "m.circom" "out" .null false with constraints := some system }⟩

/-- A witness that does not carry one on wire zero, and one that is good up to the constraint that
names a wire which it does not have. -/
theorem checkConstraints_stray :
    (checkConstraints [3] (sessionOf straySystem) = .ok () (sessionOf straySystem) ∨
      ∃ fault, checkConstraints [3] (sessionOf straySystem) =
        .error (.circuit (.constraint fault)) (sessionOf straySystem)) ∧
      ∃ fault, checkConstraints [8] (sessionOf straySystem) =
        .error (.index fault) (sessionOf straySystem) := by
  let ks : List ConstraintTerms :=
    [⟨[(0, 1)], [(0, 1)], [(0, 1)]⟩, ⟨[(0, 1)], [(5, 1)], []⟩]
  let c : Container :=
    ⟨1, [(1, straySystem.toConstraintHeader.encode), (2, ks.flatMap (ConstraintTerms.encode 8))]⟩
  have hRead : ConstraintSystem.read "m.r1cs" (c.encode constraintMagic) = .ok straySystem := by
    apply Except.eq_ok_of_toOption
    decide +kernel
  have hLoad : loadConstraints (sessionOf straySystem) = .ok straySystem (sessionOf straySystem) :=
    loadConstraints_of_some rfl
  have hStray : straySystem.LacksWire [8] := by
    refine ⟨by decide, by decide, by decide, 1, ⟨_, rfl, ?_⟩, ?_⟩
    · unfold Constraint.Within LinearForm.Within
      decide
    · intro i hi k hk
      obtain rfl : i = 0 := by omega
      cases hk
      unfold Constraint.Within LinearForm.Within Constraint.Holds
      decide
  have hSound : ¬ straySystem.LacksConstant [3] ∧ ¬ straySystem.LacksField [3] ∧
      ¬ straySystem.LacksWire [3] :=
    ⟨fun h => absurd h.wires (by decide), fun h => absurd h.prime (by decide),
      fun h => absurd h.constant (by decide)⟩
  exact ⟨(checkConstraints_ends hRead hLoad [3]).1.mpr hSound,
    (checkConstraints_ends hRead hLoad [8]).2.1.mpr (.inr hStray)⟩

/-- A check need not end in one of the two ways that it is there for: a file that can be read, and
has no wires, makes it stumble over a witness without values. -/
theorem check_stumbles :
    ¬ ∀ (file : String) (bytes : List UInt8) (system : ConstraintSystem) (s s' : Session)
      (witness : List Int), ConstraintSystem.read file bytes = .ok system →
      loadConstraints s = .ok system s' →
      checkConstraints witness s = .ok () s' ∨
        ∃ fault, checkConstraints witness s = .error (.circuit (.constraint fault)) s' := by
  intro h
  let c : Container := ⟨1, [(1, emptySystem.toConstraintHeader.encode), (2, [])]⟩
  have hRead : ConstraintSystem.read "m.r1cs" (c.encode constraintMagic) = .ok emptySystem := by
    apply Except.eq_ok_of_toOption
    decide +kernel
  have hEnd := h "m.r1cs" _ emptySystem (sessionOf emptySystem) (sessionOf emptySystem) [] hRead
    (loadConstraints_of_some rfl)
  have hStumbles : checkConstraints [] (sessionOf emptySystem) =
      .error (.index (.outOfRange "list")) (sessionOf emptySystem) := rfl
  rw [hStumbles] at hEnd
  rcases hEnd with hEnd | ⟨_, hEnd⟩ <;> cases hEnd

end Session

end CircuitBench
