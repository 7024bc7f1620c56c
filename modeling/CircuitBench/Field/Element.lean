import CircuitBench.Value.Access
import CircuitBench.Value.Arithmetic

/-!
# Field elements

The signals of a circuit take values in a prime field.  An input leaf stands for a field element: a
truth value for zero or one, a number for its residue, a text for the residue of the integer literal
it spells.  A literal with the mark of base sixteen after its minus signs is read in that base,
every other in base ten.

Residues have the sign of the modulus, so that with a positive one they lie between zero and the
modulus.  A modulus of zero has no residues.  A modulus may also be given as a value of any kind;
the residue is then what dividing by that value leaves.

## Main results

* `residue_ok` : with a modulus other than zero, a residue is that of flooring division.
* `ofValue_int` : an integer stands for its residue.
* `ofValueBy_int` : a modulus given as a value stands for itself.
* `encode_list` : a list is encoded item by item.
-/

namespace CircuitBench.Field

open Number Text

/-- The residue of an integer. -/
def residue (n modulus : Int) : Except Error Int :=
  if modulus = 0 then .error .moduloByZero else .ok (n.fmod modulus)

/-- Whether a literal carries the mark of base sixteen, after any number of minus signs. -/
def isHexLiteral (s : List Char) : Bool :=
  match s.dropWhile (· == '-') with
  | z :: x :: _ => z == '0' && (x == 'x' || x == 'X')
  | _ => false

/-- The integer that a text of an input assignment spells. -/
def readText (s : String) : Except Error Int :=
  let body := trim s.toList
  Value.readLiteral (if isHexLiteral body then 16 else 10) body (quoted (String.ofList body))

/-- The integer that a floating-point leaf stands for, shown as given when it is not an integer. -/
def integralPart (x : Binary) (shownValue : String) : Except Error Int :=
  if x.isIntegral then Value.truncated x else .error (.value (.fractional shownValue))

/-- The integer that a leaf of an input assignment stands for. -/
def leafInteger : Value → Except Error Int
  | .text s => readText s
  | .textCell s => readText s
  | .float x => integralPart x (x.text .double)
  | .floatCell .double x => integralPart x ("np.float64(" ++ x.text .double ++ ")")
  | v => v.toInteger

/-- The field element that a leaf of an input assignment stands for.  Truth values are not
reduced. -/
def ofValue (v : Value) (prime : Int) : Except Error Int :=
  match v with
  | .bool b => .ok b.toNat
  | v => do
    let n ← leafInteger v
    residue n prime

/-- The field element that a leaf stands for, where the modulus is a value of any kind. -/
def ofValueBy (v modulus : Value) : Except Error Value :=
  match v with
  | .bool b => .ok (.int b.toNat)
  | v => do
    let n ← leafInteger v
    Value.perform .remainder (.int n) modulus

/-! ## Encoding for the witness generator -/

mutual

/-- An input value with each leaf replaced by its encoding. -/
def encodeLeaves (leaf : Value → Except Error Value) : Value → Except Error Value
  | .list items => do return .list (← encodeEach leaf items)
  | .tuple items => do return .list (← encodeEach leaf items)
  | .array _ content => encodeLeaves leaf content
  | v => leaf v

/-- Several input values in order, with each leaf replaced by its encoding. -/
def encodeEach (leaf : Value → Except Error Value) : List Value → Except Error (List Value)
  | [] => .ok []
  | v :: vs => do
    let w ← encodeLeaves leaf v
    let ws ← encodeEach leaf vs
    return w :: ws

end

/-- The decimal text of the field element that a leaf stands for. -/
def leafText (prime : Int) (v : Value) : Except Error Value := do
  let n ← ofValue v prime
  return .text (← Value.integerText n)

/-- An input value with each leaf replaced by the decimal text of its field element. -/
def encode (prime : Int) (v : Value) : Except Error Value :=
  encodeLeaves (leafText prime) v

/-- An input value with each leaf replaced by the text of its field element, where the modulus is a
value of any kind. -/
def encodeBy (modulus v : Value) : Except Error Value :=
  encodeLeaves (fun leaf => do return .text (← (← ofValueBy leaf modulus).plainText)) v

/-! ## Laws -/

theorem residue_ok {n modulus : Int} (h : modulus ≠ 0) :
    residue n modulus = .ok (n.fmod modulus) := by
  simp [residue, h]

theorem ofValue_int (n prime : Int) : ofValue (.int n) prime = residue n prime := rfl

theorem ofValueBy_int (v : Value) (prime : Int) :
    ofValueBy v (.int prime) = (ofValue v prime).map Value.int := by
  have h (n : Int) :
      Value.perform .remainder (.int n) (.int prime) = (residue n prime).map Value.int := rfl
  unfold ofValueBy ofValue
  split
  · rfl
  · simp only [h]
    cases leafInteger v <;> rfl

theorem encode_list (prime : Int) (items : List Value) :
    encode prime (.list items) = (encodeEach (leafText prime) items).map Value.list := by
  rw [encode, encodeLeaves]
  cases encodeEach (leafText prime) items <;> rfl

end CircuitBench.Field
