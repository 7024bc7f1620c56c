import CircuitBench.Error

/-!
# What a loosely typed value can be used for

A value may be asked for its truth, for its members, for an integer, and for the entries of a table.
Each question has an answer for some kinds of values and an error for the others; this module is the
one place that decides it.

## Main results

* `members_list` : the members of a list are its items.
* `entries_table` : a table has the entries it holds.
-/

namespace CircuitBench.Value

open Number Text

/-! ## Truth -/

mutual

/-- The number of cells of an array's content. -/
def cellCount : Value → Nat
  | list items => cellCounts items
  | _ => 1

/-- The number of cells of several array contents. -/
def cellCounts : List Value → Nat
  | [] => 0
  | v :: vs => cellCount v + cellCounts vs

end

/-- Whether a value counts as true: numbers but zero, and containers that hold something.  An array
counts as its only cell does. -/
def truth : Value → Except Error Bool
  | null => .ok false
  | bool b => .ok b
  | int n => .ok (n != 0)
  | float x => .ok !x.isZero
  | text s => .ok !s.isEmpty
  | textCell s => .ok !s.isEmpty
  | bytes bs => .ok !bs.isEmpty
  | list items => .ok !items.isEmpty
  | tuple items => .ok !items.isEmpty
  | set items => .ok !items.isEmpty
  | table entries => .ok !entries.isEmpty
  | object => .ok true
  | boolCell b => .ok b
  | integerCell _ n => .ok (n != 0)
  | floatCell _ x => .ok !x.isZero
  | array _ content =>
    match cellCount content with
    | 0 => .error (.value (.ambiguousTruth true))
    | 1 => .ok (onlyCell content)
    | _ => .error (.value (.ambiguousTruth false))
where
  /-- The truth of the only cell of an array's content. -/
  onlyCell : Value → Bool
    | list items => onlyCells items
    | bool b => b
    | int n => n != 0
    | float x => !x.isZero
    | _ => true
  /-- The truth of the only cell among several array contents. -/
  onlyCells : List Value → Bool
    | [] => false
    | v :: vs => if cellCount v = 0 then onlyCells vs else onlyCell v

/-! ## Members -/

/-- One part of an array along its first dimension. -/
def subArray (kind : CellKind) : Value → Value
  | list items => array kind (list items)
  | v => cell kind v

/-- The characters of a text, each as a text. -/
def characters (s : String) : List Value :=
  s.toList.map fun c => text (String.ofList [c])

/-- The members of a value in order: the characters of a text, the keys of a table, the parts of an
array along its first dimension. -/
def members : Value → Except Error (List Value)
  | text s => .ok (characters s)
  | textCell s => .ok (characters s)
  | bytes bs => .ok (bs.map fun b => int b.toNat)
  | list items => .ok items
  | tuple items => .ok items
  | set items => .ok items
  | table entries => .ok (entries.map Prod.fst)
  | array kind (list items) => .ok (items.map (subArray kind))
  | array _ _ => .error (.type .noDimensions)
  | v => .error (.type (.notIterable v.fullKindName))

theorem members_list (items : List Value) : members (list items) = .ok items := rfl

/-! ## Integers -/

/-- A byte as a character of a number literal.  Bytes beyond ASCII belong to no literal. -/
def literalChar (b : UInt8) : Char :=
  if b < 0x80 then Char.ofNat b.toNat else Char.ofNat 0xFFFD

/-- Reads an integer literal, which is quoted in the report of a failure. -/
def readLiteral (base : Nat) (s : List Char) (quotedLiteral : String) : Except Error Int :=
  match readInteger base s with
  | .ok n => .ok n
  | .error fault => .error (.value (.literal fault quotedLiteral))

/-- A floating-point number without its fractional part. -/
def truncated (x : Binary) : Except Error Int :=
  match x with
  | .nan => .error (.value .undefinedNumber)
  | .infinite _ => .error (.overflow .infinite)
  | .finite negative m e => .ok (signed negative (Binary.wholePart m e))

/-- The integer that a value stands for: an integer literal is read, and a fractional part is
dropped. -/
def toInteger : Value → Except Error Int
  | bool b => .ok b.toNat
  | int n => .ok n
  | float x => truncated x
  | text s => readLiteral 10 s.toList (quoted s)
  | textCell s => readLiteral 10 s.toList (((textCell s).quotedText?).getD s)
  | bytes bs => readLiteral 10 (bs.map literalChar) (quotedBytes (bs.take shownLimit))
  | boolCell b => .ok b.toNat
  | integerCell _ n => .ok n
  | floatCell _ x => truncated x
  | array _ (list _) => .error (.type .manyDimensions)
  | array _ (bool b) => .ok b.toNat
  | array _ (int n) => .ok n
  | array _ (float x) => truncated x
  | v => .error (.type (.notInteger v.fullKindName))

/-! ## Texts -/

/-- The plain text of a value, or the error that an integer in it is too long to print. -/
def plainText (v : Value) : Except Error String :=
  match v.plainText? with
  | some s => .ok s
  | none => .error (.value .digitsToPrint)

/-- The text of a value that is set into other text, or the error that an integer in it is too long
to print. -/
def inlineText (v : Value) : Except Error String :=
  match v.inlineText? with
  | some s => .ok s
  | none => .error (.value .digitsToPrint)

/-- The decimal text of an integer, or the error that it is too long to print. -/
def integerText (n : Int) : Except Error String :=
  match printInteger? n with
  | some s => .ok s
  | none => .error (.value .digitsToPrint)

/-! ## Tables -/

/-- The entry that the member number `index` of a sequence stands for: a sequence of a key and a
value. -/
def pairAt (index : Nat) (v : Value) : Except Error (Value × Value) :=
  match v.members with
  | .error _ => .error (.type (.notPair index))
  | .ok [k, w] =>
    match k.unhashable? with
    | some kind => .error (.type (.unhashable kind))
    | none => .ok (k, w)
  | .ok items => .error (.value (.pairLength index items.length))

/-- The entries that a sequence of pairs stands for, numbered from `index`. -/
def pairsFrom (index : Nat) : List Value → Except Error (List (Value × Value))
  | [] => .ok []
  | v :: vs => do
    let pair ← pairAt index v
    let more ← pairsFrom (index + 1) vs
    return pair :: more

/-- The entries of a value that is a table, or a sequence of pairs. -/
def entries : Value → Except Error (List (Value × Value))
  | table es => .ok es
  | v => do
    let items ← v.members
    pairsFrom 0 items

theorem entries_table (es : List (Value × Value)) : entries (table es) = .ok es := rfl

/-- The entries of a value that must be a table, to be gone through as pairs. -/
def items : Value → Except Error (List (Value × Value))
  | table es => .ok es
  | v => .error (.noAttribute v.fullKindName "items")

/-- The table that a value must be, to be asked for single keys. -/
def record : Value → Except Error Table
  | table es => .ok es
  | v => .error (.noAttribute v.fullKindName "get")

/-- A value, or another one in place of a value that counts as false. -/
def orElse (v other : Value) : Except Error Value := do
  if ← v.truth then return v else return other

end CircuitBench.Value

namespace CircuitBench.Table

/-- Puts all entries of a value into a table. -/
def update (base : Table) (v : Value) : Except Error Table := do
  let es ← v.entries
  return base.merge es

end CircuitBench.Table
