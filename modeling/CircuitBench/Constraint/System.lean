import CircuitBench.Error

/-!
# Rank-one constraint systems

A circuit compiles to constraints over wires.  A linear form gives coefficients to wires; a
constraint holds three of them, and says of the values on the wires that the first form times the
second is the third.  Wire zero always carries one; the outputs come next, then the public inputs,
then the private ones.

A linear form names a wire once.  Giving a wire a second coefficient replaces the first.

## Main results

* `get?_put_self`, `get?_put_of_ne` : a linear form has the coefficient that was given last.
* `wires_put_of_mem` : giving a wire another coefficient keeps every wire at its place.
-/

namespace CircuitBench

/-- A linear form: its wires, each with its coefficient, in the order in which they were first
given. -/
abbrev LinearForm := List (Int × Int)

namespace LinearForm

/-- Gives a wire a coefficient. -/
def put (wire coefficient : Int) : LinearForm → LinearForm
  | [] => [(wire, coefficient)]
  | (w, k) :: rest =>
    if w = wire then (w, coefficient) :: rest else (w, k) :: put wire coefficient rest

/-- The coefficient of a wire. -/
def get? (wire : Int) : LinearForm → Option Int
  | [] => none
  | (w, k) :: rest => if w = wire then some k else get? wire rest

/-- The linear form that gives coefficients in order. -/
def ofTerms (terms : List (Int × Int)) : LinearForm :=
  terms.foldl (fun f t => f.put t.1 t.2) []

/-- The wires of a linear form in order. -/
def wires (f : LinearForm) : List Int :=
  f.map Prod.fst

theorem get?_put_self (f : LinearForm) (wire k : Int) : get? wire (put wire k f) = some k := by
  induction f with
  | nil => simp [put, get?]
  | cons t rest ih =>
    by_cases h : t.1 = wire
    · simp [put, get?, h]
    · simp [put, get?, h, ih]

theorem get?_put_of_ne (f : LinearForm) {wire wire' : Int} (h : wire' ≠ wire) (k : Int) :
    get? wire' (put wire k f) = get? wire' f := by
  induction f with
  | nil => simp [put, get?, Ne.symm h]
  | cons t rest ih =>
    by_cases hw : t.1 = wire
    · subst hw
      simp [put, get?, Ne.symm h]
    · by_cases hw' : t.1 = wire'
      · subst hw'
        simp [put, get?, h]
      · simp [put, get?, hw, hw', ih]

theorem wires_put_of_mem (f : LinearForm) {wire : Int} (h : wire ∈ f.wires) (k : Int) :
    (put wire k f).wires = f.wires := by
  induction f with
  | nil => simp [wires] at h
  | cons t rest ih =>
    by_cases hw : t.1 = wire
    · simp [put, wires, hw]
    · have hmem : wire ∈ wires rest := by
        rcases List.mem_cons.1 h with rfl | h
        · exact absurd rfl hw
        · exact h
      have := ih hmem
      simp only [wires] at this ⊢
      simp [put, hw, this]

theorem length_put_le (f : LinearForm) (wire k : Int) :
    (put wire k f).length ≤ f.length + 1 := by
  induction f with
  | nil => exact Nat.le_refl _
  | cons t rest ih =>
    rw [put]
    split
    · exact Nat.le_succ _
    · exact Nat.succ_le_succ ih

theorem put_of_not_mem (f : LinearForm) {wire : Int} (h : wire ∉ f.wires) (k : Int) :
    put wire k f = f ++ [(wire, k)] := by
  induction f with
  | nil => rfl
  | cons t rest ih =>
    have hw : t.1 ≠ wire := fun heq => h (by simp [wires, heq])
    have hmem : wire ∉ wires rest := fun hm => h (by simp only [wires] at hm ⊢; simp [hm])
    simp [put, hw, ih hmem]

end LinearForm

/-- A constraint: `a * b = c`. -/
structure Constraint where
  a : LinearForm := []
  b : LinearForm := []
  c : LinearForm := []
deriving DecidableEq, Repr

/-- The three linear forms of a constraint in order. -/
def Constraint.forms (k : Constraint) : List LinearForm :=
  [k.a, k.b, k.c]

theorem Constraint.length_flatten_forms (k : Constraint) :
    k.forms.flatten.length = k.a.length + k.b.length + k.c.length := by
  simp [forms, Nat.add_assoc]

/-- What a constraint file says of its circuit: the prime of the field and the bytes of a field
element, how many wires, outputs, inputs and labels there are, and how many constraints. -/
structure ConstraintHeader where
  prime : Nat
  elementSize : Nat
  wires : Nat
  outputs : Nat
  publicInputs : Nat
  privateInputs : Nat
  labels : Nat
  constraintCount : Nat
deriving DecidableEq, Repr

/-- A constraint system: the header and the constraints of a file. -/
structure ConstraintSystem extends ConstraintHeader where
  constraints : List Constraint
deriving DecidableEq, Repr

/-! ## Input wires -/

/-- The counts that place the inputs among the wires, as far as they are known. -/
structure WireCounts where
  outputs : Option Int := none
  publicInputs : Option Int := none
  privateInputs : Option Int := none

/-- The half-open range of the wires that carry inputs, the public ones first.  Each count is asked
for in turn, and one that is not known is named. -/
def WireCounts.inputRange (counts : WireCounts) : Except Error (Int × Int) := do
  let outputs ← known "n_outputs" counts.outputs
  let publicInputs ← known "n_pub_inputs" counts.publicInputs
  let privateInputs ← known "n_prv_inputs" counts.privateInputs
  return (1 + outputs, 1 + outputs + publicInputs + privateInputs)
where
  /-- A count that must be known. -/
  known (name : String) : Option Int → Except Error Int
    | some n => .ok n
    | none => .error (.missingKey name)

/-- The counts of a header. -/
def ConstraintHeader.counts (h : ConstraintHeader) : WireCounts :=
  ⟨some h.outputs, some h.publicInputs, some h.privateInputs⟩

/-- The first wire that carries an input. -/
def ConstraintHeader.firstInput (h : ConstraintHeader) : Int :=
  1 + h.outputs

/-- The wire after the last one that carries an input. -/
def ConstraintHeader.endInput (h : ConstraintHeader) : Int :=
  1 + h.outputs + h.publicInputs + h.privateInputs

theorem ConstraintHeader.inputRange_counts (h : ConstraintHeader) :
    h.counts.inputRange = .ok (h.firstInput, h.endInput) := rfl

end CircuitBench
