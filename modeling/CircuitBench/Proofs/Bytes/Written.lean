import CircuitBench.Bytes.Cursor
import Mathlib.Algebra.Order.Ring.Nat

/-!
# Written numbers

Every record of the binary files is a sequence of numbers of known widths, each with its least
significant byte first.  A number that fits its width and the bytes that it is written as determine
each other.  For a cursor that stands in front of a written number this gives one law a field, in
both directions: what is written there comes out and the cursor stands behind it, and what came out
is what was written there.

## Main results

* `ofNat_toNat_take` : the bytes in front are the written form of the number that is read from them.
* `number_ofNat`, `element_ofNat` : a written number is read back, and the cursor stands behind it.
* `number_eq_ok` : a number that was read had its whole record in front of the cursor.
-/

namespace CircuitBench

/-! ## Numbers of fixed width -/

namespace LittleEndian

/-- The bytes in front are the written form of the number that is read from them. -/
theorem ofNat_toNat_take {bytes : List UInt8} {width : Nat} (h : width ≤ bytes.length) :
    ofNat width (toNat (bytes.take width)) = bytes.take width := by
  have hLen : (bytes.take width).length = width := by
    rw [List.length_take]
    omega
  have hBack := ofNat_toNat (bytes.take width)
  rwa [hLen] at hBack

/-- A number that is read from the bytes in front fits their width. -/
theorem toNat_take_lt {bytes : List UInt8} {width : Nat} (h : width ≤ bytes.length) :
    toNat (bytes.take width) < capacity width := by
  have hLen : (bytes.take width).length = width := by
    rw [List.length_take]
    omega
  have hLt := toNat_lt (bytes.take width)
  rwa [hLen] at hLt

/-- Eight bits a byte: what fits a width is what is below a power of two. -/
theorem capacity_eq (width : Nat) : capacity width = 2 ^ (8 * width) := by
  induction width with
  | zero => rfl
  | succ width ih =>
      rw [capacity, ih, Nat.mul_succ, pow_add, Nat.mul_comm]
      rfl

end LittleEndian

/-! ## Written numbers in front of a cursor -/

namespace Cursor

variable (length offset : Nat)

/-- A written number is read from the bytes in front, if the record that it belongs to is all
there. -/
theorem number_ofNat {width size n : Nat} (hn : n < LittleEndian.capacity width)
    (rest : List UInt8) (hRoom : size ≤ width + rest.length) :
    (Cursor.mk length offset (LittleEndian.ofNat width n ++ rest)).number width size =
      .ok (n, ⟨length, offset + width, rest⟩) := by
  have hHas : (Cursor.mk length offset (LittleEndian.ofNat width n ++ rest)).has size = true := by
    rw [has_iff, List.length_append, LittleEndian.length_ofNat]
    exact hRoom
  rw [number, if_pos hHas, skip, List.take_left' (LittleEndian.length_ofNat width n),
    List.drop_left' (LittleEndian.length_ofNat width n), LittleEndian.toNat_ofNat_of_lt hn]

/-- A written word is read from the bytes in front. -/
theorem word_ofNat {n : Nat} (hn : n < LittleEndian.capacity 4) (rest : List UInt8) :
    (Cursor.mk length offset (LittleEndian.ofNat 4 n ++ rest)).word =
      .ok (n, ⟨length, offset + 4, rest⟩) :=
  number_ofNat length offset hn rest (by omega)

/-- A written field element is read from the bytes in front. -/
theorem element_ofNat {width n : Nat} (hn : n < LittleEndian.capacity width) (rest : List UInt8) :
    (Cursor.mk length offset (LittleEndian.ofNat width n ++ rest)).element width =
      (n, ⟨length, offset + width, rest⟩) := by
  rw [element, skip, List.take_left' (LittleEndian.length_ofNat width n),
    List.drop_left' (LittleEndian.length_ofNat width n), LittleEndian.toNat_ofNat_of_lt hn]

/-- A number that was read had its whole record in front of the cursor, which then stands behind the
number. -/
theorem number_eq_ok {c c' : Cursor} {width size n : Nat} (h : c.number width size = .ok (n, c')) :
    size ≤ c.rest.length ∧ n = LittleEndian.toNat (c.rest.take width) ∧ c' = c.skip width := by
  rw [number] at h
  split at h
  · rename_i hHas
    rw [has_iff] at hHas
    cases h
    exact ⟨hHas, rfl, rfl⟩
  · cases h

end Cursor

end CircuitBench
