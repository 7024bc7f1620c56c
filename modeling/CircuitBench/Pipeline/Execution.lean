import CircuitBench.Value.Access

/-!
# Executing a circuit

Executing a circuit takes three steps: the witness is computed under the strict check, it is checked
against the constraints, and the symbols are read.  A step waits for the one before, and a step that
fails ends the execution with its failure.

The steps are those of any circuit that has the three operations, and the summary of a witness asks
for a fourth one that a circuit may lack.  What an operation gives may be there at once or have to
be waited for, which makes no difference to the execution.

## Main results

* `settle_now`, `settle_later` : waiting for a reply gives what the reply holds.
* `execute_of_witness_error` : without a witness, nothing else is done.
-/

namespace CircuitBench

/-! ## Replies -/

/-- What an operation gives: a result that is there at once, or one that has to be waited for. -/
inductive Reply (α : Type)
  | now (result : Except Error α)
  | later (result : Except Error α)

/-- The result of a reply, once it is there. -/
def Reply.settle {α : Type} : Reply α → Except Error α
  | now result => result
  | later result => result

/-! ## Circuits -/

/-- What can be done with a circuit. -/
structure CircuitOperations (σ ω : Type) where
  calculateWitness : Value → Bool → EStateM Error σ ω
  checkConstraints : ω → EStateM Error σ Unit
  loadSymbols : EStateM Error σ Unit

/-- Executes a circuit on inputs and gives the witness. -/
def CircuitOperations.execute {σ ω : Type} (circuit : CircuitOperations σ ω) (inputs : Value) :
    EStateM Error σ ω := do
  let witness ← circuit.calculateWitness inputs true
  circuit.checkConstraints witness
  circuit.loadSymbols
  return witness

/-! ## Summaries -/

/-- The line above a summary. -/
def summaryHead : String := "=== Witness Summary ==="

/-- The line below a summary. -/
def summaryFoot : String := "======================="

/-- The line for a value of a witness that has no names. -/
def valueLine (index : Nat) (v : Value) : Except Error String :=
  v.inlineText.map fun text => "  [" ++ toString index ++ "] " ++ text

/-- Prints the values of a witness, numbered from `index`. -/
def printValues {σ : Type} (printLine : String → EStateM Error σ Unit) (index : Nat) :
    List Value → EStateM Error σ Unit
  | [] => return ()
  | v :: vs =>
    match valueLine index v with
    | .error e => throw e
    | .ok line => do
      printLine line
      printValues printLine (index + 1) vs

/-- Prints the summary of a witness: the listing of a circuit that has one, or else the values. -/
def printSummary {σ : Type} (printLine : String → EStateM Error σ Unit)
    (listing : Option (EStateM Error σ Value)) (witness : Value) : EStateM Error σ Unit := do
  printLine summaryHead
  match listing with
  | some list =>
    let v ← list
    match v.plainText with
    | .ok text => printLine text
    | .error e => throw e
  | none =>
    match witness.members with
    | .ok values => printValues printLine 0 values
    | .error e => throw e
  printLine summaryFoot

/-! ## Laws -/

theorem settle_now {α : Type} (result : Except Error α) : (Reply.now result).settle = result := rfl

theorem settle_later {α : Type} (result : Except Error α) :
    (Reply.later result).settle = result := rfl

theorem CircuitOperations.execute_of_witness_error {σ ω : Type} (circuit : CircuitOperations σ ω)
    (inputs : Value) {s s' : σ} {e : Error}
    (h : circuit.calculateWitness inputs true s = .error e s') :
    circuit.execute inputs s = .error e s' := by
  simp only [execute, bind, EStateM.bind, h]

end CircuitBench
