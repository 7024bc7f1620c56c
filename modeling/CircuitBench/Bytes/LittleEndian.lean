/-!
# Little-endian numbers

The binary files of the compiler and the witness generator store every number with its least
significant byte first: counts and kinds in four or eight bytes, field elements in as many bytes as
the file says.

## Main results

* `toNat_ofNat` : a number that fits its width is read back.
* `ofNat_toNat` : bytes are what their number is written as.
* `toNat_append` : bytes in front are worth less than bytes behind.
-/

namespace CircuitBench.LittleEndian

/-- The number that bytes stand for, the first byte being the least significant. -/
def toNat : List UInt8 → Nat
  | [] => 0
  | b :: rest => b.toNat + 256 * toNat rest

/-- How many numbers a width tells apart: those below it can be written in so many bytes. -/
def capacity : Nat → Nat
  | 0 => 1
  | width + 1 => 256 * capacity width

/-- The `width` low bytes of a number, the least significant first. -/
def ofNat : Nat → Nat → List UInt8
  | 0, _ => []
  | width + 1, n => UInt8.ofNat (n % 256) :: ofNat width (n / 256)

@[simp] theorem length_ofNat (width n : Nat) : (ofNat width n).length = width := by
  induction width generalizing n with
  | zero => rfl
  | succ width ih => simp [ofNat, ih]

theorem toNat_lt (bs : List UInt8) : toNat bs < capacity bs.length := by
  induction bs with
  | nil => simp [toNat, capacity]
  | cons b rest ih =>
    have hb : b.toNat < 256 := b.toNat_lt
    simp only [toNat, List.length_cons, capacity]
    omega

theorem capacity_le {width width' : Nat} (h : width ≤ width') :
    capacity width ≤ capacity width' := by
  induction h with
  | refl => exact Nat.le_refl _
  | step _ ih =>
    rw [capacity]
    omega

theorem toNat_ofNat (width n : Nat) : toNat (ofNat width n) = n % capacity width := by
  induction width generalizing n with
  | zero => simp [toNat, ofNat, capacity, Nat.mod_one]
  | succ width ih =>
    rw [ofNat, toNat, ih, capacity, Nat.mod_mul]
    simp

theorem toNat_ofNat_of_lt {width n : Nat} (h : n < capacity width) : toNat (ofNat width n) = n := by
  rw [toNat_ofNat, Nat.mod_eq_of_lt h]

theorem ofNat_toNat (bs : List UInt8) : ofNat bs.length (toNat bs) = bs := by
  induction bs with
  | nil => rfl
  | cons b rest ih =>
    have hb : b.toNat < 256 := b.toNat_lt
    simp only [List.length_cons, ofNat, toNat]
    rw [Nat.add_mul_mod_self_left, Nat.mod_eq_of_lt hb, Nat.add_mul_div_left _ _ (by decide),
      Nat.div_eq_of_lt hb, Nat.zero_add, ih]
    simp

theorem toNat_append (a b : List UInt8) :
    toNat (a ++ b) = toNat a + capacity a.length * toNat b := by
  induction a with
  | nil => simp [toNat, capacity]
  | cons x a ih =>
    simp only [List.cons_append, toNat, ih, List.length_cons, capacity]
    rw [Nat.mul_add, Nat.mul_assoc, Nat.add_assoc]

end CircuitBench.LittleEndian
