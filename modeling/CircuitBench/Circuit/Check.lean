import CircuitBench.Constraint.Evaluate
import CircuitBench.Constraint.Support
import CircuitBench.Symbol.Table

/-!
# Checking a witness

A witness satisfies a constraint system when it has a value for every wire, carries one on wire
zero, and violates no constraint.  The check reports the first of these that fails, and of the
constraints the first that is violated, with the number of its terms and the names of its wires.

## Main results

* `checkWitness_ok` : a witness that meets the three conditions passes.
-/

namespace CircuitBench

open CircuitBench.Field

/-- The names of the wires of a constraint.  Without a symbol table, wires are named by their
numbers. -/
def wireNames (symbols : Option SymbolTable) (wires : List Int) : List String :=
  wires.map fun wire => (symbols.getD []).wireName wire

/-- The report of a violated constraint. -/
def violation (symbols : Option SymbolTable) (index : Nat) (k : Constraint) : ConstraintFault :=
  .violated index k.nonzeroCount (wireNames symbols k.support)

/-- Reports the first violation of a list, if there is one. -/
def reportViolation (system : ConstraintSystem) (symbols : Option SymbolTable) :
    List Nat → Except Error Unit
  | [] => .ok ()
  | index :: _ =>
    match system.constraints[index]? with
    | some k => .error (.circuit (.constraint (violation symbols index k)))
    | none => .error (.index (.outOfRange "list"))

/-- Checks that a witness satisfies a constraint system. -/
def checkWitness (system : ConstraintSystem) (symbols : Option SymbolTable) (witness : List Int) :
    Except Error Unit :=
  if witness.length < system.wires then
    .error (.circuit (.constraint (.tooShort witness.length system.wires)))
  else do
    let constant ← atIndex witness 0
    let one ← residue constant system.prime
    if one ≠ 1 then .error (.circuit (.constraint .constantWire))
    else
      let found ← violations system.constraints witness system.prime 1
      reportViolation system symbols found

/-! ## Laws -/

theorem checkWitness_ok (system : ConstraintSystem) (symbols : Option SymbolTable)
    (witness : List Int) {constant : Int} (hlen : system.wires ≤ witness.length)
    (hzero : atIndex witness 0 = .ok constant) (hone : residue constant system.prime = .ok 1)
    (h : ∀ k ∈ system.constraints, k.evaluate witness system.prime = .ok 0) :
    checkWitness system symbols witness = .ok () := by
  rw [checkWitness, if_neg (by omega)]
  simp only [bind, Except.bind, hzero, hone, ne_eq, not_true_eq_false, if_false, violations,
    violationsFrom_nil_of_holds witness system.prime 1 0 0 system.constraints h]
  rfl

end CircuitBench
