import CircuitBench.Circuit.Check
import CircuitBench.Circuit.Outputs
import CircuitBench.Value.Entry

/-!
# Witnesses of loosely typed values

A witness may be handed over as a value of any kind.  Its length and its entries are then those of
the value, and constraints are evaluated by the arithmetic on values, in the order in which the
terms are listed: each term adds a multiple of an entry to the sum so far.

On a list of integers all this comes to what is done with a witness of integers.

## Main results

* `checkValues_integers` : a list of integers is checked like the witness that it is.
-/

namespace CircuitBench

/-! ## Evaluating -/

/-- Adds the terms of a linear form to a sum. -/
def LinearForm.addTerms (witness : Value) (sum : Value) : LinearForm → Except Error Value
  | [] => .ok sum
  | (wire, coefficient) :: rest => do
    let value ← witness.entry wire
    let more ← sum.addMultiple coefficient value
    addTerms witness more rest

/-- What is left of a value by division by another. -/
def Value.residue (v prime : Value) : Except Error Value :=
  v.perform .remainder prime

/-- The value of a linear form on a witness. -/
def LinearForm.evaluateOn (f : LinearForm) (witness prime : Value) : Except Error Value := do
  let sum ← f.addTerms witness (.int 0)
  sum.residue prime

/-- The value of a constraint on a witness. -/
def Constraint.evaluateOn (k : Constraint) (witness prime : Value) : Except Error Value := do
  let a ← k.a.evaluateOn witness prime
  let b ← k.b.evaluateOn witness prime
  let c ← k.c.evaluateOn witness prime
  let product ← a.perform .product b
  let difference ← product.perform .difference c
  difference.residue prime

/-- The indices, from `index` on, of the constraints that a witness violates, given that `found`
violations came before.  A limit other than zero ends the search when as many have been found. -/
def violationsOn (witness prime : Value) (limit : Int) (index found : Nat) :
    List Constraint → Except Error (List Nat)
  | [] => .ok []
  | k :: rest => do
    let value ← k.evaluateOn witness prime
    if ← value.same (.int 0) then violationsOn witness prime limit (index + 1) found rest
    else if limit ≠ 0 ∧ limit ≤ found + 1 then return [index]
    else
      let more ← violationsOn witness prime limit (index + 1) (found + 1) rest
      return index :: more

/-! ## Checking -/

/-- Checks that a witness satisfies a constraint system. -/
def checkValues (system : ConstraintSystem) (symbols : Option SymbolTable) (witness : Value) :
    Except Error Unit := do
  let length ← witness.size
  if length < system.wires then .error (.circuit (.constraint (.tooShort length system.wires)))
  else
    let constant ← witness.entry 0
    let prime := Value.int system.prime
    let one ← constant.residue prime
    if ← one.same (.int 1) then
      let found ← violationsOn witness prime 1 0 0 system.constraints
      reportViolation system symbols found
    else .error (.circuit (.constraint .constantWire))

/-! ## Comparing -/

/-- Fails with a difference from what was expected, or because one of the numbers is too long to
print. -/
def differFrom (signal : String) (expected : Int) (got : Value) : Except Error Unit := do
  let _ ← Value.integerText expected
  let text ← got.inlineText
  .error (.expectation (.differsFrom signal expected text))

/-- Expects a signal of a witness to have the value that a leaf stands for. -/
def expectLeafOf (symbols : SymbolTable) (prime : Int) (witness : Value) (leaf : String × Value) :
    Except Error Unit :=
  match symbols.get? leaf.1 with
  | none => .error (.expectation (.notInWitness leaf.1))
  | some s =>
    if s.wire < 0 then .error (.expectation (.notInWitness leaf.1))
    else do
      let value ← witness.entry s.wire
      let got ← value.residue (.int prime)
      let expected ← Field.ofValue leaf.2 prime
      if ← got.same (.int expected) then return () else differFrom leaf.1 expected got

/-- Expects a witness to have the values of a table from signal names to values, entry by entry. -/
def expectAllOf (symbols : SymbolTable) (prime : Int) (witness : Value) :
    List (Value × Value) → Except Error Unit
  | [] => .ok ()
  | (key, value) :: rest => do
    let name ← Signal.qualifyValue key
    (Signal.flatten name value).forM (expectLeafOf symbols prime witness)
    expectAllOf symbols prime witness rest

/-- Expects a witness to have the values of an assignment. -/
def checkOutputValues (symbols : SymbolTable) (prime : Int) (witness expected : Value) :
    Except Error Unit := do
  let entries ← expected.items
  expectAllOf symbols prime witness entries

/-! ## Agreement -/

/-- A witness of integers as a value. -/
def Value.ofIntegers (witness : List Int) : Value :=
  .list (witness.map .int)

theorem memberAt_map {α β : Type} (f : α → β) (xs : List α) (index : Int) (fault : IndexFault) :
    memberAt (xs.map f) index fault = (memberAt xs index fault).map f := by
  simp only [memberAt, List.length_map, List.getElem?_map]
  generalize (if index < 0 then index + (xs.length : Int) else index) = place
  by_cases h : place < 0
  · rw [if_pos h, if_pos h]
    rfl
  · rw [if_neg h, if_neg h]
    cases xs[place.toNat]? <;> rfl

theorem entry_ofIntegers (witness : List Int) (index : Int) :
    (Value.ofIntegers witness).entry index = (atIndex witness index).map Value.int :=
  memberAt_map Value.int witness index _

theorem addMultiple_int (sum factor n : Int) :
    Value.addMultiple (.int sum) factor (.int n) = .ok (.int (sum + factor * n)) := rfl

theorem residue_int (n prime : Int) :
    (Value.int n).residue (.int prime) = (Field.residue n prime).map Value.int := rfl

theorem same_int (m n : Int) : (Value.int m).same (.int n) = .ok (m == n) := by
  have h : (Ord.compare m n == Ordering.eq) = (m == n) := by
    rw [Bool.eq_iff_iff]
    simp
  simp [Value.same, Value.text?, Value.comparand?, Comparand.compare, Except.map, h]

theorem addTerms_ofIntegers (witness : List Int) (sum : Int) (f : LinearForm) :
    f.addTerms (.ofIntegers witness) (.int sum) =
      (f.weightedSum witness).map fun more => Value.int (sum + more) := by
  induction f generalizing sum with
  | nil => simp [LinearForm.addTerms, LinearForm.weightedSum, Except.map]
  | cons t rest ih =>
    obtain ⟨wire, coefficient⟩ := t
    simp only [LinearForm.addTerms, LinearForm.weightedSum, entry_ofIntegers]
    cases atIndex witness wire with
    | error e => rfl
    | ok value =>
      simp only [Except.map, bind, Except.bind, addMultiple_int, ih]
      cases LinearForm.weightedSum witness rest with
      | error e => rfl
      | ok more => simp [pure, Except.pure, Int.add_assoc]

theorem evaluateOn_ofIntegers (f : LinearForm) (witness : List Int) (prime : Int) :
    f.evaluateOn (.ofIntegers witness) (.int prime) = (f.evaluate witness prime).map Value.int := by
  simp only [LinearForm.evaluateOn, LinearForm.evaluate, addTerms_ofIntegers]
  cases f.weightedSum witness with
  | error e => rfl
  | ok sum => simp [Except.map, bind, Except.bind, residue_int]

theorem constraintOn_ofIntegers (k : Constraint) (witness : List Int) (prime : Int) :
    k.evaluateOn (.ofIntegers witness) (.int prime) = (k.evaluate witness prime).map Value.int := by
  simp only [Constraint.evaluateOn, Constraint.evaluate, evaluateOn_ofIntegers]
  cases k.a.evaluate witness prime with
  | error e => rfl
  | ok a =>
    cases k.b.evaluate witness prime with
    | error e => rfl
    | ok b =>
      cases k.c.evaluate witness prime with
      | error e => rfl
      | ok c => rfl

theorem violationsOn_ofIntegers (witness : List Int) (prime limit : Int) (index found : Nat)
    (constraints : List Constraint) :
    violationsOn (.ofIntegers witness) (.int prime) limit index found constraints =
      violationsFrom witness prime limit index found constraints := by
  induction constraints generalizing index found with
  | nil => rfl
  | cons k rest ih =>
    simp only [violationsOn, violationsFrom, constraintOn_ofIntegers]
    cases k.evaluate witness prime with
    | error e => rfl
    | ok value =>
      simp only [Except.map, bind, Except.bind, same_int, ih, beq_iff_eq]

theorem checkValues_integers (system : ConstraintSystem) (symbols : Option SymbolTable)
    (witness : List Int) :
    checkValues system symbols (.ofIntegers witness) = checkWitness system symbols witness := by
  have hsize : (Value.ofIntegers witness).size = .ok witness.length := by
    simp [Value.ofIntegers, Value.size]
  simp only [checkValues, checkWitness, hsize, entry_ofIntegers, bind, Except.bind]
  split
  · rfl
  · cases atIndex witness 0 with
    | error e => rfl
    | ok constant =>
      simp only [Except.map, residue_int]
      cases Field.residue constant system.prime with
      | error e => rfl
      | ok one =>
        simp only [same_int, violations, violationsOn_ofIntegers, beq_iff_eq, ne_eq, ite_not]

end CircuitBench
