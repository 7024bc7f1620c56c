import CircuitBench.Pipeline.Execution

/-!
# Rehearsals

A rehearsal puts a script in the place of a circuit or a builder: each operation gives the reply
that the script holds for it, and what it was asked is recorded.  It shows what executing a circuit
asks of it, and in which order, without any circuit.

## Main results

* `perform_calls` : what is asked is recorded, whatever the reply.
-/

namespace CircuitBench

/-- What has been asked, operation by operation with its arguments, and what has been printed. -/
structure Rehearsal where
  calls : List (String × List Value) := []
  printed : String := ""

/-- The replies that a circuit gives in a rehearsal.  A circuit may lack the listing of its
signals. -/
structure Script where
  calculateWitness : Reply Value
  checkConstraints : Reply Value
  loadSymbols : Reply Value
  listing : Option (Reply Value) := none

namespace Rehearsal

/-- Prints a text on a line of its own. -/
def printLine (text : String) : EStateM Error Rehearsal Unit :=
  modify fun r => { r with printed := r.printed ++ text ++ "\n" }

/-- Asks for an operation, which is recorded, and gives its reply. -/
def perform (operation : String) (arguments : List Value) (reply : Reply Value) :
    EStateM Error Rehearsal Value := fun r =>
  let asked := { r with calls := r.calls ++ [(operation, arguments)] }
  match reply.settle with
  | .ok v => .ok v asked
  | .error e => .error e asked

/-- The operations of a scripted circuit. -/
def operations (script : Script) : CircuitOperations Rehearsal Value where
  calculateWitness inputs strict :=
    perform "calculate_witness" [inputs, .bool strict] script.calculateWitness
  checkConstraints witness := do
    let _ ← perform "check_constraints" [witness] script.checkConstraints
    return ()
  loadSymbols := do
    let _ ← perform "load_symbols" [] script.loadSymbols
    return ()

/-- Executes a scripted circuit. -/
def execute (script : Script) (inputs : Value) : EStateM Error Rehearsal Value :=
  (operations script).execute inputs

/-- Prints the summary of a witness of a scripted circuit. -/
def summarize (listing : Option (Reply Value)) (witness : Value) : EStateM Error Rehearsal Unit :=
  printSummary printLine (listing.map (perform "get_decorated_output" [witness])) witness

theorem perform_calls (operation : String) (arguments : List Value) (reply : Reply Value)
    (r : Rehearsal) :
    (match perform operation arguments reply r with
      | .ok _ r' => r'.calls
      | .error _ r' => r'.calls) = r.calls ++ [(operation, arguments)] := by
  unfold perform
  cases reply.settle <;> rfl

end Rehearsal

end CircuitBench
