import CircuitBench.Bytes.LittleEndian
import CircuitBench.Error

/-!
# Reading bytes in order

The binary readers go through a buffer from front to back.  A cursor is the place they have come to:
the bytes that are left, and the offset reached, which may lie past the end when a field element at
the end of a buffer is cut short.  A number of fixed width must be there in full; a field element is
what is left of it.

Parts of a buffer can also be taken by bounds, of which a negative one counts from the end.

## Main results

* `number_append` : a number is read from the bytes in front, and the cursor stands behind them.
* `number_short` : a number that is cut short is an error that gives the place.
-/

namespace CircuitBench

/-- A place in a buffer of `length` bytes: the offset reached and the bytes that are left. -/
structure Cursor where
  length : Nat
  offset : Nat
  rest : List UInt8

namespace Cursor

/-- The start of a buffer. -/
def start (buffer : List UInt8) : Cursor :=
  ⟨buffer.length, 0, buffer⟩

/-- Goes on by a number of bytes, beyond the end if there are fewer. -/
def skip (c : Cursor) (count : Nat) : Cursor :=
  ⟨c.length, c.offset + count, c.rest.drop count⟩

/-- Whether at least a number of bytes is left. -/
def has (c : Cursor) (count : Nat) : Bool :=
  (c.rest.take count).length == count

/-- The number of `width` bytes at the cursor, read as part of a record of `size` bytes that must be
there in full. -/
def number (c : Cursor) (width size : Nat) : Except ShortRead (Nat × Cursor) :=
  if c.has size then .ok (LittleEndian.toNat (c.rest.take width), c.skip width)
  else .error ⟨size, c.offset, c.length⟩

/-- The number of four bytes at the cursor. -/
def word (c : Cursor) : Except ShortRead (Nat × Cursor) :=
  c.number 4 4

/-- The field element of `width` bytes at the cursor, of which those past the end are zero. -/
def element (c : Cursor) (width : Nat) : Nat × Cursor :=
  (LittleEndian.toNat (c.rest.take width), c.skip width)

theorem has_iff (c : Cursor) (count : Nat) : c.has count = true ↔ count ≤ c.rest.length := by
  simp only [has, List.length_take, beq_iff_eq]
  omega

theorem number_append (length offset : Nat) (front rest : List UInt8) :
    (Cursor.mk length offset (front ++ rest)).number front.length front.length =
      .ok (LittleEndian.toNat front, ⟨length, offset + front.length, rest⟩) := by
  simp [number, has, skip]

theorem number_short (c : Cursor) (width size : Nat) (h : c.rest.length < size) :
    c.number width size = .error ⟨size, c.offset, c.length⟩ := by
  have : c.has size = false := by
    rw [Bool.eq_false_iff, ne_eq, has_iff]
    omega
  simp [number, this]

end Cursor

/-! ## Parts by bounds -/

/-- A bound of a part of a sequence of `length` members: a negative one counts from the end, and one
beyond the end is the end. -/
def clampBound (length : Nat) (bound : Int) : Nat :=
  if bound < 0 then (bound + length).toNat else min bound.toNat length

/-- The part of a sequence from one bound up to another. -/
def slice {α : Type} (xs : List α) (start stop : Int) : List α :=
  let first := clampBound xs.length start
  (xs.take (clampBound xs.length stop)).drop first

/-! ## Numbers by offset -/

/-- The greatest size or offset. -/
def sizeLimit : Int := 9223372036854775807

/-- Whether a number can be a size or an offset. -/
def isSize (n : Int) : Bool :=
  decide (-sizeLimit - 1 ≤ n ∧ n ≤ sizeLimit)

/-- The fault of an index beyond a sequence, unless the index cannot even be one. -/
def indexFault (index : Int) (fault : IndexFault) : Error :=
  .index (if isSize index then fault else .beyondWord)

/-- The member of a sequence at an index, of which a negative one counts from the end, or else a
fault. -/
def memberAt {α : Type} (xs : List α) (index : Int) (fault : IndexFault) : Except Error α :=
  let place := if index < 0 then index + xs.length else index
  if place < 0 then .error (indexFault index fault)
  else
    match xs[place.toNat]? with
    | some x => .ok x
    | none => .error (indexFault index fault)

/-- The member of a list at an index, of which a negative one counts from the end. -/
def atIndex {α : Type} (xs : List α) (index : Int) : Except Error α :=
  memberAt xs index (.outOfRange "list")

/-- The field element of which the bytes start at an offset.  Bytes beyond the end count as zero,
and a negative bound is taken from the end. -/
def fieldElement (buffer : List UInt8) (size offset : Int) : Nat :=
  LittleEndian.toNat (slice buffer offset (offset + size))

/-! ## Laws -/

theorem isSize_iff (n : Int) :
    isSize n = true ↔ -9223372036854775808 ≤ n ∧ n ≤ 9223372036854775807 := by
  rw [isSize, decide_eq_true_iff, sizeLimit]
  omega

theorem isSize_ofNat {n : Nat} (h : n ≤ 9223372036854775807) : isSize n = true :=
  (isSize_iff n).mpr (by omega)

theorem atIndex_ofNat {α : Type} (xs : List α) (i : Nat) (h : i < xs.length) :
    atIndex xs i = .ok xs[i] := by
  have h0 : ¬ ((i : Int) < 0) := by omega
  simp [atIndex, memberAt, h0, h]

end CircuitBench
