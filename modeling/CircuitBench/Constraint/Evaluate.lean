import CircuitBench.Constraint.System
import CircuitBench.Field.Element
import CircuitBench.Bytes.Cursor

/-!
# Evaluating constraints

A witness gives a value to each wire.  A linear form evaluates to the residue of the sum of its
coefficients times the values; a constraint to the residue of the first form times the second less
the third, which is zero when the constraint holds.  The violations of a witness are the indices of
the constraints that do not evaluate to zero.

## Main results

* `evaluate_ok` : on a witness that has all its wires, a linear form evaluates to a residue.
* `violationsFrom_nil_of_holds` : constraints that all hold have no violations.
-/

namespace CircuitBench

open CircuitBench.Field

/-- The sum of coefficient times value over the terms of a linear form. -/
def LinearForm.weightedSum (witness : List Int) : LinearForm → Except Error Int
  | [] => .ok 0
  | (wire, coefficient) :: rest => do
    let value ← atIndex witness wire
    let more ← weightedSum witness rest
    return coefficient * value + more

/-- The value of a linear form on a witness. -/
def LinearForm.evaluate (f : LinearForm) (witness : List Int) (prime : Int) : Except Error Int := do
  let sum ← f.weightedSum witness
  residue sum prime

/-- The value of a constraint on a witness: zero when the constraint holds. -/
def Constraint.evaluate (k : Constraint) (witness : List Int) (prime : Int) : Except Error Int := do
  let a ← k.a.evaluate witness prime
  let b ← k.b.evaluate witness prime
  let c ← k.c.evaluate witness prime
  residue (a * b - c) prime

/-- The indices, from `index` on, of the constraints that a witness violates, given that `found`
violations came before.  A limit other than zero ends the search when as many have been found. -/
def violationsFrom (witness : List Int) (prime limit : Int) (index found : Nat) :
    List Constraint → Except Error (List Nat)
  | [] => .ok []
  | k :: rest => do
    let value ← k.evaluate witness prime
    if value = 0 then violationsFrom witness prime limit (index + 1) found rest
    else if limit ≠ 0 ∧ limit ≤ found + 1 then return [index]
    else
      let more ← violationsFrom witness prime limit (index + 1) (found + 1) rest
      return index :: more

/-- The indices of the constraints that a witness violates, at most a limit of them unless that is
zero. -/
def violations (constraints : List Constraint) (witness : List Int) (prime limit : Int) :
    Except Error (List Nat) :=
  violationsFrom witness prime limit 0 0 constraints

/-- A system of which the prime may not be known. -/
structure PartialSystem where
  prime : Option Int := none
  constraints : List Constraint := []

/-- The violations of a system whose prime must be known. -/
def PartialSystem.violations (s : PartialSystem) (witness : List Int) (limit : Int) :
    Except Error (List Nat) :=
  match s.prime with
  | some prime => CircuitBench.violations s.constraints witness prime limit
  | none => .error (.missingKey "prime")

/-! ## Laws -/

theorem LinearForm.evaluate_ok {f : LinearForm} {witness : List Int} {prime sum : Int}
    (hsum : f.weightedSum witness = .ok sum) (hprime : prime ≠ 0) :
    f.evaluate witness prime = .ok (sum.fmod prime) := by
  simp only [LinearForm.evaluate, hsum]
  exact residue_ok hprime

theorem Constraint.evaluate_ok {k : Constraint} {witness : List Int} {prime a b c : Int}
    (ha : k.a.evaluate witness prime = .ok a) (hb : k.b.evaluate witness prime = .ok b)
    (hc : k.c.evaluate witness prime = .ok c) (hprime : prime ≠ 0) :
    k.evaluate witness prime = .ok ((a * b - c).fmod prime) := by
  simp only [Constraint.evaluate, ha, hb, hc]
  exact residue_ok hprime

theorem violationsFrom_nil_of_holds (witness : List Int) (prime limit : Int) (index found : Nat)
    (constraints : List Constraint) (h : ∀ k ∈ constraints, k.evaluate witness prime = .ok 0) :
    violationsFrom witness prime limit index found constraints = .ok [] := by
  induction constraints generalizing index with
  | nil => rfl
  | cons k rest ih =>
    rw [violationsFrom, h k (by simp)]
    exact ih (index + 1) fun k' hk' => h k' (by simp [hk'])

end CircuitBench
