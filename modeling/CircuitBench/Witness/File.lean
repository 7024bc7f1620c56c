import CircuitBench.Constraint.File

/-!
# Witness files

A witness file is a container with the magic word `wtns`.  Its section of kind one gives the bytes
of a field element, the prime, and the number of values; its section of kind two the values one
after another.

Field elements that are listed are decoded in words of eight bytes, so that their size must be a
multiple of eight; a single one may have any size.  The words of a listing are laid out in rows, a
row for each element, and a row is joined into one number from its last word on.  A listing may
leave either its size or its count open by a negative number, and then takes the words up to the end
of the buffer.

## Main results

* `joinWords_wordsFrom` : the words of some bytes join into the number that the bytes stand for.
* `elementsFrom_encode` : the encoded values are read back in order.
* `fieldElements_encode` : so they are by the decoder, whatever follows them.
* `openFieldElements_ofNat` : a size and a count that are not negative leave nothing open.
-/

namespace CircuitBench

/-- The magic word of a witness file. -/
def witnessMagic : String := "wtns"

/-! ## Words -/

/-- The bytes of a word. -/
def wordSize : Nat := 8

/-- The bits of a word. -/
def wordBits : Nat := 64

/-- A number of words from the front of a buffer, each as a number. -/
def wordsFrom : Nat → List UInt8 → List Nat
  | 0, _ => []
  | count + 1, bytes =>
    LittleEndian.toNat (bytes.take wordSize) :: wordsFrom count (bytes.drop wordSize)

/-- The number that words stand for, the first of them being the least significant.  It is built
from the last word on: what there is moves up by a word, and the next word takes the place below. -/
def joinWords (words : List Nat) : Nat :=
  words.reverse.foldl (fun n word => n <<< wordBits ||| word) 0

/-- A number of rows of words. -/
def rowsFrom (columns : Nat) : Nat → List Nat → List (List Nat)
  | 0, _ => []
  | rows + 1, words => words.take columns :: rowsFrom columns rows (words.drop columns)

/-! ## Field elements -/

/-- A number of field elements from the front of a buffer, where the size of one is a number of
words. -/
def elementsFrom (size count : Nat) (bytes : List UInt8) : List Nat :=
  let columns := size / wordSize
  (rowsFrom columns count (wordsFrom (count * columns) bytes)).map joinWords

/-- A number of field elements from an offset on. -/
def fieldElements (buffer : List UInt8) (size count : Nat) (offset : Int) :
    Except Error (List Nat) :=
  if size % 8 ≠ 0 then .error (.format (.elementSize size))
  else if (buffer.length : Int) < offset + size * count then
    .error (.format (.elementsShort count size))
  else if offset < 0 then .error (.value (.offsetOutside buffer.length))
  else .ok (elementsFrom size count (buffer.drop offset.toNat))

/-- The text of a table's shape, where a negative number of columns stands for an open one.  A
negative number of rows is left out. -/
def shapeText (rows columns : Int) : String :=
  if rows < 0 then "(" ++ toString columns ++ ")"
  else "(" ++ toString rows ++ "," ++ (if columns < 0 then "newaxis" else toString columns) ++ ")"

/-- The number of parts that a number of words falls into when each takes `share` of them, for a
table of the given shape in which that number was left open. -/
def inferred (words share : Nat) (rows columns : Int) : Except Error Nat :=
  if share = 0 ∨ words % share ≠ 0 then
    .error (.value (.unevenShape words (shapeText rows columns)))
  else .ok (words / share)

/-- Why a table is too large to be made: by a dimension, or by all cells of eight bytes together. -/
def tableFault? (rows columns : Int) : Option ValueFault :=
  if sizeLimit < rows ∨ sizeLimit < columns then some .tooLongDimension
  else if sizeLimit < 8 * max rows 1 * max columns 1 then some .tooManyCells
  else none

/-- The field elements of a table of words with a number of rows and columns, either of which may be
open. -/
def tableElements (rest : List UInt8) (rows columns : Int) : Except Error (List Nat) :=
  let words := if columns * rows = 0 then 0 else rest.length / 8
  if 0 ≤ rows ∧ 0 ≤ columns then .ok (elementsFrom (8 * columns.toNat) rows.toNat rest)
  else if rows < 0 ∧ columns < 0 then .error (.value .twoOpenNumbers)
  else if rows < 0 then
    (inferred words columns.toNat rows columns).map fun n => elementsFrom (8 * columns.toNat) n rest
  else (inferred words rows.toNat rows columns).map fun n => elementsFrom (8 * n) rows.toNat rest

/-- A number of field elements from an offset on, of which the size in bytes or the number may be
negative: that one is then open, and follows from the other and from the words of eight bytes up to
the end of the buffer. -/
def openFieldElements (buffer : List UInt8) (size count offset : Int) : Except Error (List Nat) :=
  let rest := buffer.drop offset.toNat
  if size % 8 ≠ 0 then .error (.format (.elementSize size))
  else if (buffer.length : Int) < offset + size * count then
    .error (.format (.elementsShort count size))
  else if !(isSize (count * (size / 8)) && isSize offset) then .error (.overflow .integerToSize)
  else if offset < 0 ∨ (buffer.length : Int) < offset then
    .error (.value (.offsetOutside buffer.length))
  else if size * count < 0 ∧ rest.length % 8 ≠ 0 then .error (.value .brokenWord)
  else
    match tableFault? count (size / 8) with
    | some fault => .error (.value fault)
    | none => tableElements rest count (size / 8)

/-! ## Files -/

/-- A witness: the prime of its field and the value of each wire. -/
structure WitnessFile where
  prime : Nat
  values : List Nat
deriving DecidableEq, Repr

/-- Reads the section that says how the values are stored: the bytes of a field element, the prime,
and the number of values. -/
def WitnessFile.parseHeader (buffer : List UInt8) : Except ShortRead (Nat × Nat × Nat) := do
  let (size, c) ← (Cursor.start buffer).word
  let (prime, c) := c.element size
  let (count, _) ← c.word
  return (size, prime, count)

/-- Reads a witness file.  The file is named in the report of a failure. -/
def WitnessFile.read (file : String) (bytes : List UInt8) : Except Error WitnessFile :=
  match Container.parse bytes witnessMagic file with
  | .error fault => .error (.format fault)
  | .ok container =>
    match container.firstPayload headerKind file with
    | .error fault => .error (.format fault)
    | .ok headerBytes =>
      match WitnessFile.parseHeader headerBytes with
      | .error short => .error (.shortRead short)
      | .ok (size, prime, count) =>
        match container.firstPayload dataKind file with
        | .error fault => .error (.format fault)
        | .ok body =>
          match fieldElements body size count 0 with
          | .error e => .error e
          | .ok values => .ok ⟨prime, values⟩

/-! ## Writing -/

/-- The bytes of the section that says how the values are stored. -/
def encodeWitnessHeader (size prime count : Nat) : List UInt8 :=
  LittleEndian.ofNat 4 size ++ LittleEndian.ofNat size prime ++ LittleEndian.ofNat 4 count

/-- The bytes of the section that holds the values. -/
def encodeElements (size : Nat) (values : List Nat) : List UInt8 :=
  values.flatMap (LittleEndian.ofNat size)

/-! ## Laws -/

theorem wordsFrom_add (m n : Nat) (bytes : List UInt8) :
    wordsFrom (m + n) bytes = wordsFrom m bytes ++ wordsFrom n (bytes.drop (wordSize * m)) := by
  induction m generalizing bytes with
  | zero => simp [wordsFrom]
  | succ m ih =>
    rw [Nat.add_right_comm, wordsFrom, wordsFrom, ih, List.cons_append, List.drop_drop,
      Nat.mul_succ, Nat.add_comm (wordSize * m)]

theorem length_wordsFrom (count : Nat) (bytes : List UInt8) :
    (wordsFrom count bytes).length = count := by
  induction count generalizing bytes with
  | zero => rfl
  | succ count ih => rw [wordsFrom, List.length_cons, ih]

theorem joinWords_cons {word : Nat} (h : word < LittleEndian.capacity wordSize) (words : List Nat) :
    joinWords (word :: words) = word + LittleEndian.capacity wordSize * joinWords words := by
  have hcapacity : LittleEndian.capacity wordSize = 2 ^ wordBits := rfl
  rw [hcapacity] at h ⊢
  simp only [joinWords, List.reverse_cons, List.foldl_append, List.foldl_cons, List.foldl_nil]
  rw [← Nat.shiftLeft_add_eq_or_of_lt h, Nat.shiftLeft_eq, Nat.mul_comm, Nat.add_comm]

theorem joinWords_wordsFrom (count : Nat) (bytes : List UInt8) :
    joinWords (wordsFrom count bytes) = LittleEndian.toNat (bytes.take (wordSize * count)) := by
  induction count generalizing bytes with
  | zero => rfl
  | succ count ih =>
    have hlen : (bytes.take wordSize).length ≤ wordSize := by
      rw [List.length_take]
      omega
    have hword : LittleEndian.toNat (bytes.take wordSize) < LittleEndian.capacity wordSize :=
      Nat.lt_of_lt_of_le (LittleEndian.toNat_lt _) (LittleEndian.capacity_le hlen)
    rw [wordsFrom, joinWords_cons hword, ih, Nat.mul_succ, Nat.add_comm (wordSize * count),
      List.take_add, LittleEndian.toNat_append]
    by_cases hshort : bytes.length < wordSize
    · -- a word that is cut short has nothing behind it
      rw [List.drop_eq_nil_of_le (by omega), List.take_nil, LittleEndian.toNat, Nat.mul_zero,
        Nat.mul_zero]
    · rw [List.length_take, Nat.min_eq_left (by omega)]

theorem elementsFrom_zero (size : Nat) (bytes : List UInt8) : elementsFrom size 0 bytes = [] := rfl

theorem elementsFrom_succ {size : Nat} (hsize : size % 8 = 0) (count : Nat) (bytes : List UInt8) :
    elementsFrom size (count + 1) bytes =
      LittleEndian.toNat (bytes.take size) :: elementsFrom size count (bytes.drop size) := by
  have hwidth : wordSize * (size / wordSize) = size := by
    unfold wordSize
    omega
  have hrow := length_wordsFrom (size / wordSize) bytes
  simp only [elementsFrom]
  rw [Nat.succ_mul, Nat.add_comm (count * _), wordsFrom_add, rowsFrom, List.take_left' hrow,
    List.drop_left' hrow, List.map_cons, joinWords_wordsFrom, hwidth]

theorem length_encodeElements (size : Nat) (values : List Nat) :
    (encodeElements size values).length = size * values.length := by
  induction values with
  | nil => rfl
  | cons v more ih =>
    simp only [encodeElements, List.flatMap_cons, List.length_append, LittleEndian.length_ofNat,
      List.length_cons, Nat.mul_succ] at ih ⊢
    omega

theorem elementsFrom_encode (size : Nat) (hsize : size % 8 = 0) (values : List Nat)
    (h : ∀ v ∈ values, v < LittleEndian.capacity size) (rest : List UInt8) :
    elementsFrom size values.length (encodeElements size values ++ rest) = values := by
  induction values with
  | nil => rfl
  | cons v more ih =>
    have hv : LittleEndian.toNat (LittleEndian.ofNat size v) = v :=
      LittleEndian.toNat_ofNat_of_lt (h v (by simp))
    have hsplit : encodeElements size (v :: more) ++ rest =
        LittleEndian.ofNat size v ++ (encodeElements size more ++ rest) := by
      simp [encodeElements]
    rw [List.length_cons, elementsFrom_succ hsize, hsplit,
      List.take_left' (LittleEndian.length_ofNat size v),
      List.drop_left' (LittleEndian.length_ofNat size v), hv, ih fun v' hv' => h v' (by simp [hv'])]

theorem openFieldElements_ofNat (buffer : List UInt8) (size count : Nat) (offset : Int)
    (hreach : isSize (count * (size / 8 : Int)) = true) (hoffset : isSize offset = true)
    (htable : tableFault? count (size / 8 : Int) = none) :
    openFieldElements buffer size count offset = fieldElements buffer size count offset := by
  have hmod : ((size : Int) % 8 ≠ 0) ↔ (size % 8 ≠ 0) := by omega
  have hprod : 0 ≤ (size : Int) * count :=
    Int.mul_nonneg (Int.natCast_nonneg _) (Int.natCast_nonneg _)
  have hcolumns : 0 ≤ (size : Int) / 8 := by omega
  have hrows : 0 ≤ (count : Int) := Int.natCast_nonneg _
  have hneg : ¬ ((size : Int) * count < 0) := by omega
  unfold openFieldElements fieldElements
  by_cases hsize : size % 8 ≠ 0
  · rw [if_pos (hmod.2 hsize), if_pos hsize]
  · rw [if_neg fun h => hsize (hmod.1 h), if_neg hsize]
    by_cases hend : (buffer.length : Int) < offset + size * count
    · rw [if_pos hend, if_pos hend]
    · have hlen : offset < 0 ∨ (buffer.length : Int) < offset ↔ offset < 0 := by omega
      have hwidth : 8 * ((size : Int) / 8).toNat = size := by omega
      simp only [hend, hreach, hoffset, hlen, hneg, htable, tableElements, hrows, hcolumns, hwidth,
        if_false, false_and, and_self, if_true, Bool.and_self, Bool.not_true, Bool.false_eq_true,
        Int.toNat_natCast]

theorem fieldElements_encode (size : Nat) (hsize : size % 8 = 0) (values : List Nat)
    (h : ∀ v ∈ values, v < LittleEndian.capacity size) (rest : List UInt8) :
    fieldElements (encodeElements size values ++ rest) size values.length 0 = .ok values := by
  have hlen :
      ¬ (((encodeElements size values ++ rest).length : Int) < 0 + size * values.length) := by
    rw [List.length_append, length_encodeElements]
    push_cast
    omega
  simp only [fieldElements, hsize, ne_eq, not_true_eq_false, if_false, hlen, Int.lt_irrefl,
    Int.toNat_zero, List.drop_zero]
  rw [elementsFrom_encode size hsize values h rest]

end CircuitBench
