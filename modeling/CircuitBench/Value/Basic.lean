import CircuitBench.Number.Binary

/-!
# Loosely typed values

Input assignments, template parameters, options and configuration files hold values whose kind is
not fixed beforehand: numbers, texts, lists, tables from keys to values, and the arrays and array
cells of numeric code. `Value` is the one type for all of them.  What a kind of value may be used
for is decided by the functions on it, and a use that a kind does not allow is an error that names
the kind.

A text may also come from array code, where it is a cell of a kind of its own; it is used like any
other text, and only shown differently.

A numeric array is held as the nested lists of plain numbers that it lists as, together with the
kind of its cells.  An array without dimensions holds a single number.

## Main results

* `Table.get?_insert_self`, `Table.get?_insert_of_ne` : a table answers with what was put last.
* `Table.keys_insert_of_mem` : putting a key that is present keeps every key at its place.
-/

namespace CircuitBench

open Number

/-! ## Kinds of array cells -/

/-- The integer kinds of an array cell. -/
inductive IntegerCell
  | int8
  | int16
  | int32
  | int64
  | uint8
  | uint16
  | uint32
  | uint64
deriving DecidableEq, Repr

/-- The floating-point kinds of an array cell. -/
inductive FloatCell
  | half
  | single
  | double
deriving DecidableEq, Repr

/-- The kinds of an array cell. -/
inductive CellKind
  | truth
  | integer (kind : IntegerCell)
  | floating (kind : FloatCell)
deriving DecidableEq, Repr

/-- The name of an integer kind. -/
def IntegerCell.name : IntegerCell → String
  | int8 => "int8"
  | int16 => "int16"
  | int32 => "int32"
  | int64 => "int64"
  | uint8 => "uint8"
  | uint16 => "uint16"
  | uint32 => "uint32"
  | uint64 => "uint64"

/-- The name of a floating-point kind. -/
def FloatCell.name : FloatCell → String
  | half => "float16"
  | single => "float32"
  | double => "float64"

/-- The format that the numbers of a floating-point kind are in. -/
def FloatCell.format : FloatCell → Format
  | half => .half
  | single => .single
  | double => .double

/-- The name of a kind of array cell. -/
def CellKind.name : CellKind → String
  | truth => "bool"
  | integer kind => kind.name
  | floating kind => kind.name

/-- All kinds of array cells. -/
def CellKind.all : List CellKind :=
  [.truth, .integer .int8, .integer .int16, .integer .int32, .integer .int64, .integer .uint8,
    .integer .uint16, .integer .uint32, .integer .uint64, .floating .half, .floating .single,
    .floating .double]

/-- The kind of array cell that has a name. -/
def CellKind.ofName? (name : String) : Option CellKind :=
  CellKind.all.find? fun kind => kind.name == name

/-! ## Values -/

/-- A loosely typed value. -/
inductive Value
  | null
  | bool (b : Bool)
  | int (n : Int)
  | float (x : Binary)
  | text (s : String)
  | textCell (s : String)
  | bytes (bs : List UInt8)
  | list (items : List Value)
  | tuple (items : List Value)
  | set (items : List Value)
  | table (entries : List (Value × Value))
  | object
  | boolCell (b : Bool)
  | integerCell (kind : IntegerCell) (n : Int)
  | floatCell (kind : FloatCell) (x : Binary)
  | array (kind : CellKind) (content : Value)
deriving Repr, Inhabited

namespace Value

/-- The name of a value's kind, as messages give it. -/
def kindName : Value → String
  | null => "NoneType"
  | bool _ => "bool"
  | int _ => "int"
  | float _ => "float"
  | text _ => "str"
  | textCell _ => "str_"
  | bytes _ => "bytes"
  | list _ => "list"
  | tuple _ => "tuple"
  | set _ => "set"
  | table _ => "dict"
  | object => "object"
  | boolCell _ => "bool"
  | integerCell k _ => k.name
  | floatCell k _ => k.name
  | array _ _ => "ndarray"

/-- Whether a value belongs to array code: an array or a cell of one. -/
def isOfArrays : Value → Bool
  | textCell _ => true
  | boolCell _ => true
  | integerCell _ _ => true
  | floatCell _ _ => true
  | array _ _ => true
  | _ => false

/-- The name of a value's kind together with the family that the kinds of array code belong to. -/
def fullKindName (v : Value) : String :=
  if v.isOfArrays then "numpy." ++ v.kindName else v.kindName

/-- The text that a value is, if it is one. -/
def text? : Value → Option String
  | text s => some s
  | textCell s => some s
  | _ => none

/-- A plain number as an array of a kind lists it: an integer array drops the fraction, a
floating-point array keeps what its format can hold, and an array of truth values whether the number
differs from zero. -/
def fit : CellKind → Value → Value
  | .floating k, int n => float ((Binary.ofInt k.format n).round .double)
  | .floating k, bool b => float ((Binary.ofInt k.format b.toNat).round .double)
  | .floating k, float x => float ((x.round k.format).round .double)
  | .integer _, bool b => int b.toNat
  | .integer _, float x => int (x.truncate?.getD 0)
  | .truth, int n => bool (n != 0)
  | .truth, float x => bool !x.isZero
  | _, v => v

/-- A cell of an array, from the plain number that the array lists for it. -/
def cell : CellKind → Value → Value
  | .truth, bool b => boolCell b
  | .integer k, int n => integerCell k n
  | .floating k, float x => floatCell k (x.round k.format)
  | kind, v => array kind v

/-! ## Sameness of keys -/

/-- The exact integer value of a number that has one and that a table does not tell apart from
others of the same value. -/
def integral? : Value → Option Int
  | bool b => some b.toNat
  | int n => some n
  | boolCell b => some b.toNat
  | integerCell _ n => some n
  | float x => if x.isIntegral then x.truncate? else none
  | floatCell _ x => if x.isIntegral then x.truncate? else none
  | _ => none

mutual

/-- Whether two values are the same key of a table.  Numbers are compared by value, whatever their
kind; an opaque value is the same as no other. -/
def sameKey : Value → Value → Bool
  | null, null => true
  | text s, text t => s == t
  | text s, textCell t => s == t
  | textCell s, text t => s == t
  | textCell s, textCell t => s == t
  | bytes s, bytes t => s == t
  | tuple xs, tuple ys => sameKeys xs ys
  | float x, float y => sameNumber x y
  | floatCell _ x, floatCell _ y => sameNumber x y
  | float x, floatCell _ y => sameNumber x y
  | floatCell _ x, float y => sameNumber x y
  | x, y =>
    match x.integral?, y.integral? with
    | some m, some n => m == n
    | _, _ => false
where
  /-- Equality of two floating-point numbers by value; the undefined number differs from all. -/
  sameNumber (x y : Binary) : Bool :=
    x.compare? y == some .eq

/-- Whether two lists of values agree place by place as keys. -/
def sameKeys : List Value → List Value → Bool
  | [], [] => true
  | x :: xs, y :: ys => sameKey x y && sameKeys xs ys
  | _, _ => false

end

/-- Whether a value may be a key: not a container that can change, nor one that holds such a
container. -/
def unhashable? : Value → Option String
  | list _ => some "list"
  | set _ => some "set"
  | table _ => some "dict"
  | array _ _ => some "numpy.ndarray"
  | tuple items => firstUnhashable items
  | _ => none
where
  /-- The kind of the first value of a list that may not be a key. -/
  firstUnhashable : List Value → Option String
    | [] => none
    | v :: vs => (unhashable? v).or (firstUnhashable vs)

end Value

/-! ## Tables -/

/-- The entries of a table, in the order in which their keys were first put. -/
abbrev Table := List (Value × Value)

namespace Table

/-- Puts a value under a key: at the key's place if it is there already, at the end otherwise. -/
def insert (key value : Value) : Table → Table
  | [] => [(key, value)]
  | (k, v) :: rest => if k.sameKey key then (k, value) :: rest else (k, v) :: insert key value rest

/-- Puts all entries of a second table into a first, in order. -/
def merge (base more : Table) : Table :=
  more.foldl (fun t e => t.insert e.1 e.2) base

/-- A table with the given entries put in order. -/
def ofEntries (entries : List (Value × Value)) : Table :=
  merge [] entries

/-- The value under a key that is a text. -/
def get? (key : String) : Table → Option Value
  | [] => none
  | (k, v) :: rest => if k.sameKey (.text key) then some v else get? key rest

/-- The value under a text key, or a given value when the key is not there. -/
def getD (t : Table) (key : String) (default : Value) : Value :=
  (t.get? key).getD default

/-- Puts a value under a text key. -/
def put (t : Table) (key : String) (value : Value) : Table :=
  t.insert (.text key) value

/-- The keys of a table in order. -/
def keys (t : Table) : List Value :=
  t.map Prod.fst

theorem sameKey_text (s t : String) : (Value.text s).sameKey (.text t) = (s == t) := by
  simp [Value.sameKey]

theorem sameKey_text_iff (k : Value) (s : String) :
    k.sameKey (.text s) = true ↔ k.text? = some s := by
  cases k <;> simp [Value.sameKey, Value.integral?, Value.text?]

theorem get?_insert_self (t : Table) (key : String) (v : Value) :
    get? key (insert (.text key) v t) = some v := by
  induction t with
  | nil => simp [insert, get?, sameKey_text]
  | cons e rest ih =>
    obtain ⟨k, w⟩ := e
    by_cases h : k.sameKey (.text key)
    · simp [insert, get?, h]
    · simp [insert, get?, h, ih]

theorem get?_insert_of_ne (t : Table) {key key' : String} (h : key' ≠ key) (v : Value) :
    get? key' (insert (.text key) v t) = get? key' t := by
  have hne : (Value.text key).sameKey (.text key') = false := by
    simp [sameKey_text, Ne.symm h]
  induction t with
  | nil => simp [insert, get?, hne]
  | cons e rest ih =>
    obtain ⟨k, w⟩ := e
    by_cases hk : k.sameKey (.text key)
    · have hk' : k.sameKey (.text key') = false := by
        rw [Bool.eq_false_iff, ne_eq, sameKey_text_iff, (sameKey_text_iff k key).1 hk]
        simpa using Ne.symm h
      simp [insert, get?, hk, hk']
    · by_cases hk' : k.sameKey (.text key')
      · simp [insert, get?, hk, hk']
      · simp [insert, get?, hk, hk', ih]

theorem keys_insert_of_mem (t : Table) (key v : Value) (h : ∃ k ∈ t.keys, k.sameKey key = true) :
    (insert key v t).keys = t.keys := by
  induction t with
  | nil => simp [keys] at h
  | cons e rest ih =>
    obtain ⟨k, w⟩ := e
    by_cases hk : k.sameKey key
    · simp [insert, keys, hk]
    · obtain ⟨k', hmem, hsame⟩ := h
      have hmem' : k' ∈ keys rest := by
        rcases List.mem_cons.1 hmem with rfl | hmem
        · exact absurd hsame hk
        · exact hmem
      have := ih ⟨k', hmem', hsame⟩
      simp only [keys] at this ⊢
      simp [insert, hk, this]

end Table

end CircuitBench
