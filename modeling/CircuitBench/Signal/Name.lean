import CircuitBench.Error

/-!
# Signal names

A signal of a compiled circuit has a dotted name that starts with the name of the main component,
`main`.  Callers may leave that first part away.  The elements of an array signal carry their
indices in brackets after the name.

## Main results

* `qualify_idem` : qualifying a name twice is the same as once.
* `baseChars_append` : the indices after a name without brackets are not part of its base name.
-/

namespace CircuitBench.Signal

/-- The name of the main component, and the dot after it. -/
def mainDot : List Char := ['m', 'a', 'i', 'n', '.']

/-- The name of the main component. -/
def mainName : List Char := ['m', 'a', 'i', 'n']

/-- A signal name with the main component in front, if it is not there already. -/
def qualifyChars (name : List Char) : List Char :=
  if mainDot.isPrefixOf name ∨ name = mainName then name else mainDot ++ name

/-- A signal name with the main component in front, if it is not there already. -/
def qualify (name : String) : String :=
  String.ofList (qualifyChars name.toList)

/-- The name of an array signal without the indices of an element: all up to the first bracket. -/
def baseChars (name : List Char) : List Char :=
  name.takeWhile (· != '[')

/-- The name of an array signal without the indices of an element. -/
def baseName (name : String) : String :=
  String.ofList (baseChars name.toList)

/-- The number of dots in a name: one for a signal of a component that has no component around
it. -/
def depth (name : List Char) : Nat :=
  name.count '.'

/-- Whether a name is that of a signal of the main component itself. -/
def isOwn (name : String) : Bool :=
  depth name.toList == 1 && mainDot.isPrefixOf name.toList

/-- The name of one element of an array signal. -/
def element (name : String) (index : Nat) : String :=
  name ++ "[" ++ toString index ++ "]"

/-! ## Names given as values -/

/-- The qualified name for a key of an input assignment, which must be a text. -/
def qualifyValue : Value → Except Error String
  | .text s => .ok (qualify s)
  | .textCell s => .ok (qualify s)
  | .bytes _ => .error (.type .bytesStart)
  | v => .error (.noAttribute v.fullKindName "startswith")

/-! ## Laws -/

theorem qualifyChars_of_qualified {name : List Char}
    (h : mainDot.isPrefixOf name ∨ name = mainName) : qualifyChars name = name :=
  if_pos h

theorem qualified_qualifyChars (name : List Char) :
    mainDot.isPrefixOf (qualifyChars name) ∨ qualifyChars name = mainName := by
  by_cases h : mainDot.isPrefixOf name ∨ name = mainName
  · rwa [qualifyChars_of_qualified h]
  · refine .inl ?_
    rw [qualifyChars, if_neg h, List.isPrefixOf_iff_prefix]
    exact List.prefix_append mainDot name

theorem qualifyChars_idem (name : List Char) :
    qualifyChars (qualifyChars name) = qualifyChars name :=
  qualifyChars_of_qualified (qualified_qualifyChars name)

theorem qualify_idem (name : String) : qualify (qualify name) = qualify name := by
  simp [qualify, qualifyChars_idem]

theorem baseChars_append (name more : List Char) (h : '[' ∉ name) :
    baseChars (name ++ '[' :: more) = name := by
  unfold baseChars
  rw [List.takeWhile_append_of_pos]
  · simp
  · intro c hc
    simp only [bne_iff_ne, ne_eq]
    rintro rfl
    exact h hc

end CircuitBench.Signal
