import CircuitBench.Proofs.Witness.RoundTrip

/-!
# Listed field elements and single ones

Field elements that stand one after another are decoded by a table of words: the words of eight
bytes are laid out in rows, a row for each element, and each row is joined into a number.  A single
field element is decoded from its bytes.  The two decoders agree place by place, wherever the
listing starts, so that a listing is no more than a short form for single elements in a row.

What is checked before is the size of an element, which has to be a number of words, and the end of
the listing, which has to lie in the buffer.  That is all for a listing that has any bytes.  One
without bytes has the shape of a table all the same, of rows without words or of words without rows,
and a shape can be too large for a table to be made even then.

## Main results

* `fieldElement_ofNat` : a single element is the number of the bytes from its offset on.
* `getElem?_elementsFrom` : the elements of a listing are those at the multiples of their size.
* `tableFault?_eq_none_iff` : which tables can be made.
* `openFieldElements_exact` : when a listing is decoded, and what it is decoded to.
* `wide_table_refused` : a table without rows may be too large.
-/

namespace CircuitBench

/-! ## Places -/

/-- A part of a sequence by natural bounds is what stands from the first bound on. -/
theorem slice_ofNat {α : Type} (xs : List α) (start count : Nat) :
    slice xs start (start + count) = (xs.drop start).take count := by
  have hStart : clampBound xs.length start = min start xs.length := by
    rw [clampBound, if_neg (by omega), Int.toNat_natCast]
  have hStop : clampBound xs.length (start + count) = min (start + count) xs.length := by
    rw [clampBound, if_neg (by omega), ← Int.natCast_add, Int.toNat_natCast]
  have hFront : xs.take (min (start + count) xs.length) = xs.take (start + count) := by
    rw [List.take_eq_take_iff]
    omega
  rw [slice, hStart, hStop, hFront]
  by_cases hInside : start ≤ xs.length
  · rw [Nat.min_eq_left hInside, List.drop_take, Nat.add_sub_cancel_left]
  · have hNone : (xs.take (start + count)).length ≤ min start xs.length := by
      rw [List.length_take]
      omega
    rw [List.drop_of_length_le hNone, List.drop_of_length_le (by omega : xs.length ≤ start),
      List.take_nil]

/-- A single element is the number of the bytes from its offset on. -/
theorem fieldElement_ofNat (buffer : List UInt8) (size offset : Nat) :
    fieldElement buffer size offset = LittleEndian.toNat ((buffer.drop offset).take size) := by
  rw [fieldElement, slice_ofNat]

/-- The elements of a listing are the numbers of the bytes at the multiples of their size. -/
theorem getElem?_elementsFrom {size count i : Nat} (hWords : size % 8 = 0) (hi : i < count)
    (bytes : List UInt8) :
    (elementsFrom size count bytes)[i]? =
      some (LittleEndian.toNat ((bytes.drop (i * size)).take size)) := by
  induction count generalizing bytes i with
  | zero => omega
  | succ count ih =>
      rw [elementsFrom_succ hWords]
      cases i with
      | zero => rw [Nat.zero_mul, List.drop_zero, List.getElem?_cons_zero]
      | succ i =>
          rw [List.getElem?_cons_succ, ih (by omega), List.drop_drop, Nat.succ_mul,
            Nat.add_comm size]

/-! ## Tables -/

/-- Whether a table of so many elements of a size can be made: its bytes are within the greatest
size, where a row and a word are counted even if there are none. -/
def TableFits (size count : Nat) : Prop :=
  max count 1 * max size 8 < 2 ^ 63

/-- A table of words can be made if its shape is small enough, and otherwise there is a fault. -/
theorem tableFault?_eq_none_iff {size count : Nat} (hWords : 8 ∣ size) :
    tableFault? count (size / 8 : Int) = none ↔ TableFits size count := by
  obtain ⟨columns, rfl⟩ := hWords
  have hColumns : ((8 * columns : Nat) : Int) / 8 = columns := by omega
  have hSize : max (8 * columns) 8 = 8 * max columns 1 := by omega
  have hMax : ∀ n : Nat, max (n : Int) 1 = (max n 1 : Nat) := by omega
  have hCells : 8 * max (count : Int) 1 * max (columns : Int) 1 =
      ((8 * (max count 1 * max columns 1) : Nat) : Int) := by
    rw [hMax, hMax, Int.mul_assoc, Int.natCast_mul, Int.natCast_mul]
    rfl
  -- neither dimension is more than the number of cells
  have hRowsLe : count ≤ max count 1 * max columns 1 :=
    Nat.le_trans (Nat.le_max_left _ _) (Nat.le_mul_of_pos_right _ (by omega))
  have hColumnsLe : columns ≤ max count 1 * max columns 1 :=
    Nat.le_trans (Nat.le_max_left _ _) (Nat.le_mul_of_pos_left _ (by omega))
  rw [tableFault?, hColumns, hCells, TableFits, hSize,
    Nat.mul_left_comm (max count 1) 8]
  generalize max count 1 * max columns 1 = cells at hRowsLe hColumnsLe ⊢
  unfold sizeLimit
  split
  · exact iff_of_false (Option.some_ne_none _) (by omega)
  · split
    · exact iff_of_false (Option.some_ne_none _) (by omega)
    · exact iff_of_true rfl (by omega)

/-- A listing that has bytes and ends in a buffer has a table that can be made. -/
theorem tableFits_of_reach {size count length : Nat} (hWords : 8 ∣ size) (hBytes : size * count ≠ 0)
    (hReach : size * count ≤ length) (hLength : length < 2 ^ 63) : TableFits size count := by
  have hSize : size ≠ 0 := fun h => hBytes (by rw [h, Nat.zero_mul])
  have hCount : count ≠ 0 := fun h => hBytes (by rw [h, Nat.mul_zero])
  have hRows : max count 1 = count := by omega
  have hRow : max size 8 = size := by omega
  rw [TableFits, hRows, hRow, Nat.mul_comm]
  omega

/-! ## Listings -/

section Listing

variable {buffer : List UInt8} {size count offset : Nat}

/-- A size that is no number of words is refused as such, and so is a listing that ends behind the
buffer. -/
theorem openFieldElements_refused (h : ¬ (8 ∣ size ∧ offset + size * count ≤ buffer.length)) :
    ∃ fault, openFieldElements buffer size count offset = .error (.format fault) := by
  rw [openFieldElements]
  by_cases hWords : (size : Int) % 8 ≠ 0
  · exact ⟨_, if_pos hWords⟩
  · have hShort : (buffer.length : Int) < offset + size * count := by
      have hDvd : 8 ∣ size := by omega
      have hBehind : buffer.length < offset + size * count := by
        rw [← Nat.not_le]
        exact fun hReach => h ⟨hDvd, hReach⟩
      exact_mod_cast hBehind
    rw [if_neg hWords, if_pos hShort]
    exact ⟨_, rfl⟩

/-- The numbers that a listing in a buffer is cut out by are sizes. -/
theorem isSize_of_reach (hBuffer : buffer.length < 2 ^ 63)
    (hReach : offset + size * count ≤ buffer.length) :
    isSize (count * (size / 8 : Int)) = true ∧ isSize (offset : Int) = true := by
  have hWords : count * (size / 8) ≤ size * count := by
    rw [Nat.mul_comm size]
    exact Nat.mul_le_mul_left count (Nat.div_le_self size 8)
  have hCount : (count : Int) * (size / 8 : Int) = (count * (size / 8) : Nat) := by
    rw [Int.natCast_mul, Int.natCast_ediv]
    rfl
  rw [hCount]
  exact ⟨isSize_ofNat (by omega), isSize_ofNat (by omega)⟩

/-- A listing in a buffer is decoded if its table can be made. -/
theorem openFieldElements_of_fits (hBuffer : buffer.length < 2 ^ 63) (hWords : 8 ∣ size)
    (hReach : offset + size * count ≤ buffer.length) (hFits : TableFits size count) :
    openFieldElements buffer size count offset =
      .ok (elementsFrom size count (buffer.drop offset)) := by
  obtain ⟨hTableSize, hOffsetSize⟩ := isSize_of_reach hBuffer hReach
  have hTable := (tableFault?_eq_none_iff hWords).mpr hFits
  have hEnd : ¬ (buffer.length : Int) < offset + size * count := by
    rw [Int.not_lt]
    exact_mod_cast hReach
  rw [openFieldElements_ofNat buffer size count offset hTableSize hOffsetSize hTable, fieldElements,
    if_neg (not_not.mpr (Nat.mod_eq_zero_of_dvd hWords)), if_neg hEnd, if_neg (by omega),
    Int.toNat_natCast]

/-- A listing in a buffer fails over its table if that cannot be made. -/
theorem openFieldElements_of_not_fits (hBuffer : buffer.length < 2 ^ 63) (hWords : 8 ∣ size)
    (hReach : offset + size * count ≤ buffer.length) (hNot : ¬ TableFits size count) :
    ∃ fault, openFieldElements buffer size count offset = .error (.value fault) := by
  obtain ⟨hTableSize, hOffsetSize⟩ := isSize_of_reach hBuffer hReach
  have hSizes : ¬ (!(isSize (count * (size / 8 : Int)) && isSize (offset : Int))) = true := by
    rw [hTableSize, hOffsetSize]
    decide
  have hEnd : ¬ (buffer.length : Int) < offset + size * count := by
    rw [Int.not_lt]
    exact_mod_cast hReach
  have hInside : ¬ ((offset : Int) < 0 ∨ (buffer.length : Int) < offset) := by omega
  have hBytes : ¬ ((size : Int) * count < 0 ∧ (buffer.drop offset).length % 8 ≠ 0) := by
    rw [← Int.natCast_mul]
    omega
  obtain ⟨fault, hTable⟩ := Option.ne_none_iff_exists'.mp
    fun hNone => hNot ((tableFault?_eq_none_iff hWords).mp hNone)
  refine ⟨fault, ?_⟩
  rw [openFieldElements, if_neg (by omega), if_neg hEnd, if_neg hSizes, if_neg hInside]
  simp only [Int.toNat_natCast, hBytes, if_false, hTable]

end Listing

/-- When a listing of field elements is decoded, and to what.  It is decoded exactly if the size of
an element is a number of words, the listing ends in the buffer, and its table can be made.  What
fails the first two is reported as a fault of the format, and the last fails only for listings
without bytes.  What comes out are so many numbers, each the one that a single element decodes to at
its place, which is the number of the bytes that stand there. -/
theorem openFieldElements_exact {buffer : List UInt8} (hBuffer : buffer.length < 2 ^ 63)
    (size count offset : Nat) :
    ((∃ values, openFieldElements buffer size count offset = .ok values) ↔
      8 ∣ size ∧ offset + size * count ≤ buffer.length ∧ TableFits size count) ∧
    (¬ (8 ∣ size ∧ offset + size * count ≤ buffer.length) →
      ∃ fault, openFieldElements buffer size count offset = .error (.format fault)) ∧
    (8 ∣ size → offset + size * count ≤ buffer.length → ¬ TableFits size count →
      size * count = 0 ∧
        ∃ fault, openFieldElements buffer size count offset = .error (.value fault)) ∧
    ∀ values, openFieldElements buffer size count offset = .ok values →
      values.length = count ∧ ∀ i < count,
        values[i]? = some (fieldElement buffer size (offset + i * size : Nat)) ∧
        fieldElement buffer size (offset + i * size : Nat) =
          LittleEndian.toNat ((buffer.drop (offset + i * size)).take size) := by
  have hDecoded : ∀ values, openFieldElements buffer size count offset = .ok values →
      (8 ∣ size ∧ offset + size * count ≤ buffer.length ∧ TableFits size count) ∧
        values = elementsFrom size count (buffer.drop offset) := by
    intro values hValues
    by_cases hStands : 8 ∣ size ∧ offset + size * count ≤ buffer.length
    · by_cases hFits : TableFits size count
      · rw [openFieldElements_of_fits hBuffer hStands.1 hStands.2 hFits] at hValues
        exact ⟨⟨hStands.1, hStands.2, hFits⟩, (Except.ok.inj hValues).symm⟩
      · obtain ⟨fault, hFault⟩ := openFieldElements_of_not_fits hBuffer hStands.1 hStands.2 hFits
        rw [hFault] at hValues
        cases hValues
    · obtain ⟨fault, hFault⟩ := openFieldElements_refused hStands
      rw [hFault] at hValues
      cases hValues
  refine ⟨⟨?_, ?_⟩, openFieldElements_refused, ?_, ?_⟩
  · rintro ⟨values, hValues⟩
    exact (hDecoded values hValues).1
  · rintro ⟨hWords, hReach, hFits⟩
    exact ⟨_, openFieldElements_of_fits hBuffer hWords hReach hFits⟩
  · intro hWords hReach hNot
    refine ⟨?_, openFieldElements_of_not_fits hBuffer hWords hReach hNot⟩
    by_contra hBytes
    exact hNot (tableFits_of_reach hWords hBytes (by omega : size * count ≤ buffer.length) hBuffer)
  · intro values hValues
    obtain ⟨⟨hWords, -, -⟩, rfl⟩ := hDecoded values hValues
    refine ⟨length_elementsFrom size count _, fun i hi => ?_⟩
    have hElement := fieldElement_ofNat buffer size (offset + i * size)
    rw [getElem?_elementsFrom (Nat.mod_eq_zero_of_dvd hWords) hi, List.drop_drop, hElement]
    exact ⟨rfl, rfl⟩

/-- Two elements of two words from an odd offset on. -/
theorem openFieldElements_exact_odd :
    let buffer : List UInt8 := [255, 5, 0, 0, 0, 0, 0, 0, 0, 1, 0, 0, 0, 0, 0, 0, 0,
      9, 0, 0, 0, 0, 0, 0, 0, 0, 0, 0, 0, 0, 0, 0, 128, 7]
    ∃ values, openFieldElements buffer 16 2 1 = .ok values ∧
      values = [2 ^ 64 + 5, 2 ^ 127 + 9] := by
  intro buffer
  obtain ⟨hOk, -, -, hValues⟩ :=
    openFieldElements_exact (by decide : buffer.length < 2 ^ 63) 16 2 1
  obtain ⟨values, hFound⟩ := hOk.mpr ⟨by decide, by decide, by unfold TableFits; decide⟩
  refine ⟨values, hFound, ?_⟩
  obtain ⟨hLength, hEach⟩ := hValues values hFound
  apply List.ext_getElem?
  intro i
  match i with
  | 0 => rw [(hEach 0 (by decide)).1, (hEach 0 (by decide)).2]; rfl
  | 1 => rw [(hEach 1 (by decide)).1, (hEach 1 (by decide)).2]; rfl
  | n + 2 => rw [List.getElem?_eq_none (by omega)]; rfl

/-- A listing may fail although the size of an element is a number of words and the listing ends in
the buffer: a table without rows can have words that are too many. -/
theorem wide_table_refused :
    ¬ ∀ (buffer : List UInt8) (size count offset : Nat),
      (∃ values, openFieldElements buffer size count offset = .ok values) ↔
        8 ∣ size ∧ offset + size * count ≤ buffer.length := by
  intro h
  let buffer : List UInt8 := [0, 1, 2, 3, 4, 5, 6, 7]
  obtain ⟨values, hValues⟩ := (h buffer (2 ^ 63) 0 0).mpr ⟨by decide, by decide⟩
  have hFault : openFieldElements buffer (2 ^ 63 : Nat) (0 : Nat) (0 : Nat) =
      .error (.value .tooManyCells) := rfl
  rw [hFault] at hValues
  cases hValues

end CircuitBench
