import CircuitBench.Signal.Name

/-!
# Symbol tables

The compiler numbers the signals of a circuit.  A symbol table tells, for each signal name, the
label it was given, the wire that carries it, and the component it belongs to.  A signal that the
compiler has removed has a negative wire.

A table keeps its signals in the order in which they were first listed.

## Main results

* `get?_put_self`, `get?_put_of_ne` : a table answers with what was listed last.
* `names_put_of_mem` : listing a name again keeps every name at its place.
-/

namespace CircuitBench

/-- What is known of a signal: its label, the wire that carries it, and its component. -/
structure Symbol where
  label : Int
  wire : Int
  component : Int
deriving DecidableEq, Repr

/-- The signals of a circuit by name, in the order in which they were first listed. -/
abbrev SymbolTable := List (String × Symbol)

namespace SymbolTable

/-- Lists a signal: at its place if its name is there already, at the end otherwise. -/
def put (name : String) (symbol : Symbol) : SymbolTable → SymbolTable
  | [] => [(name, symbol)]
  | (n, s) :: rest => if n = name then (n, symbol) :: rest else (n, s) :: put name symbol rest

/-- What is known of the signal with a name. -/
def get? (name : String) : SymbolTable → Option Symbol
  | [] => none
  | (n, s) :: rest => if n = name then some s else get? name rest

/-- The table of signals listed in order. -/
def ofList (signals : List (String × Symbol)) : SymbolTable :=
  signals.foldl (fun t s => t.put s.1 s.2) []

/-- The names of a table in order. -/
def names (t : SymbolTable) : List String :=
  t.map Prod.fst

/-! ## Input signals -/

/-- The order of signals by wire, then by name. -/
def wireOrder (a b : Int × String) : Bool :=
  a.1 < b.1 || (a.1 == b.1 && Text.comesNoLater a.2 b.2)

/-- Whether a wire lies in the half-open range from `first` to `last`. -/
def inRange (first last wire : Int) : Bool :=
  first ≤ wire && wire < last

/-- The wires and names of the main component's own signals on the wires from `first` up to
`last`. -/
def ownSignals (t : SymbolTable) (first last : Int) : List (Int × String) :=
  (t.filter fun s => inRange first last s.2.wire && Signal.isOwn s.1).map fun s => (s.2.wire, s.1)

/-- The names of the main component's own signals on the wires from `first` up to `last`, in the
order of their wires. -/
def inputSignals (t : SymbolTable) (first last : Int) : List String :=
  ((t.ownSignals first last).mergeSort wireOrder).map Prod.snd

/-! ## Names of wires -/

/-- The name of a wire: that of the first signal on it, or the wire's number after a `w`. -/
def wireName (t : SymbolTable) (wire : Int) : String :=
  match t.find? fun s => s.2.wire == wire with
  | some s => s.1
  | none => "w" ++ toString wire

/-! ## Laws -/

theorem get?_put_self (t : SymbolTable) (name : String) (s : Symbol) :
    get? name (put name s t) = some s := by
  induction t with
  | nil => simp [put, get?]
  | cons e rest ih =>
    by_cases h : e.1 = name
    · simp [put, get?, h]
    · simp [put, get?, h, ih]

theorem get?_put_of_ne (t : SymbolTable) {name name' : String} (h : name' ≠ name) (s : Symbol) :
    get? name' (put name s t) = get? name' t := by
  induction t with
  | nil => simp [put, get?, Ne.symm h]
  | cons e rest ih =>
    by_cases hn : e.1 = name
    · subst hn
      simp [put, get?, Ne.symm h]
    · by_cases hn' : e.1 = name'
      · subst hn'
        simp [put, get?, h]
      · simp [put, get?, hn, hn', ih]

theorem names_put_of_mem (t : SymbolTable) {name : String} (h : name ∈ t.names) (s : Symbol) :
    (put name s t).names = t.names := by
  induction t with
  | nil => simp [names] at h
  | cons e rest ih =>
    by_cases hn : e.1 = name
    · simp [put, names, hn]
    · have hmem : name ∈ names rest := by
        rcases List.mem_cons.1 h with rfl | h
        · exact absurd rfl hn
        · exact h
      have := ih hmem
      simp only [names] at this ⊢
      simp [put, hn, this]

theorem names_put_of_not_mem (t : SymbolTable) {name : String} (h : name ∉ t.names) (s : Symbol) :
    put name s t = t ++ [(name, s)] := by
  induction t with
  | nil => rfl
  | cons e rest ih =>
    have hn : e.1 ≠ name := fun heq => h (by simp [names, heq])
    have hmem : name ∉ names rest := fun hm => h (by simp only [names] at hm ⊢; simp [hm])
    simp [put, hn, ih hmem]

end SymbolTable

end CircuitBench
