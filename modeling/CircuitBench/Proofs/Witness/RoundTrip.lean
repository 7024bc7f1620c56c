import CircuitBench.Proofs.Container.Language
import CircuitBench.Witness.File

/-!
# Reading back a written witness file

The values of a witness stand one after another in words of eight bytes, and the prime of their
field stands in the other section by itself.  Both directions are needed: what was written comes
out, and what came out is what stood there.  The second is what rules out a reader that takes a
shorter or a longer piece for a value, since then the written form of the values would be another
one.

## Main results

* `encodeElements_elementsFrom` : the values that come out are what stood in front.
* `read_eq_ok_iff_isWritten` : a witness is read exactly from the files that it is written to.
-/

namespace CircuitBench

/-! ## Values -/

/-- There are as many values as were asked for. -/
theorem length_elementsFrom (size count : Nat) (bytes : List UInt8) :
    (elementsFrom size count bytes).length = count := by
  have hRows : ∀ (columns rows : Nat) (words : List Nat),
      (rowsFrom columns rows words).length = rows := by
    intro columns rows
    induction rows with
    | zero => exact fun _ => rfl
    | succ rows ih => exact fun words => by rw [rowsFrom, List.length_cons, ih]
  rw [elementsFrom, List.length_map, hRows]

/-- The values that come out are what stood in front. -/
theorem encodeElements_elementsFrom {size count : Nat} {bytes : List UInt8} (hWords : size % 8 = 0)
    (h : size * count ≤ bytes.length) :
    encodeElements size (elementsFrom size count bytes) = bytes.take (size * count) := by
  induction count generalizing bytes with
  | zero => simp [elementsFrom_zero, encodeElements]
  | succ count ih =>
      rw [Nat.mul_succ] at h
      have hFirst : size ≤ bytes.length := by omega
      have hRest : size * count ≤ (bytes.drop size).length := by
        rw [List.length_drop]
        omega
      have hMore := ih hRest
      rw [encodeElements] at hMore ⊢
      rw [elementsFrom_succ hWords, List.flatMap_cons, LittleEndian.ofNat_toNat_take hFirst, hMore,
        Nat.mul_succ, Nat.add_comm (size * count), List.take_add]

/-- The values that come out fit the bytes that each of them stood in. -/
theorem lt_of_mem_elementsFrom {size count : Nat} {bytes : List UInt8} (hWords : size % 8 = 0)
    (h : size * count ≤ bytes.length) {v : Nat} (hv : v ∈ elementsFrom size count bytes) :
    v < LittleEndian.capacity size := by
  induction count generalizing bytes with
  | zero => cases hv
  | succ count ih =>
      rw [Nat.mul_succ] at h
      rw [elementsFrom_succ hWords, List.mem_cons] at hv
      rcases hv with rfl | hv
      · exact LittleEndian.toNat_take_lt (by omega)
      · have hRest : size * count ≤ (bytes.drop size).length := by
          rw [List.length_drop]
          omega
        exact ih hRest hv

/-- Values that were decoded from the start of a buffer stood there in full, in whole words. -/
theorem fieldElements_eq_ok {buffer : List UInt8} {size count : Nat} {values : List Nat}
    (h : fieldElements buffer size count 0 = .ok values) :
    size % 8 = 0 ∧ size * count ≤ buffer.length ∧ values = elementsFrom size count buffer := by
  rw [fieldElements] at h
  split at h
  · cases h
  · rename_i hWords
    split at h
    · cases h
    · rename_i hShort
      split at h
      · cases h
      · cases h
        have hReach : ((size * count : Nat) : Int) ≤ buffer.length := by
          push_cast
          omega
        exact ⟨not_not.mp hWords, by exact_mod_cast hReach, by simp⟩

/-! ## Headers -/

namespace WitnessFile

/-- Whether every number of a witness file fits its field, when a value takes so many bytes. -/
structure Fits (size : Nat) (w : WitnessFile) : Prop where
  width : size < 2 ^ 32
  words : 8 ∣ size
  prime : w.prime < 2 ^ (8 * size)
  count : w.values.length < 2 ^ 32
  values : ∀ v ∈ w.values, v < 2 ^ (8 * size)

/-- The section that says how the values are stored is read back from its written form. -/
theorem parseHeader_encode_append {size prime count : Nat} (hSize : size < 2 ^ 32)
    (hPrime : prime < 2 ^ (8 * size)) (hCount : count < 2 ^ 32) (rest : List UInt8) :
    parseHeader (encodeWitnessHeader size prime count ++ rest) = .ok (size, prime, count) := by
  rw [show 2 ^ 32 = LittleEndian.capacity 4 from (LittleEndian.capacity_eq 4).symm] at hSize hCount
  rw [← LittleEndian.capacity_eq] at hPrime
  simp only [parseHeader, encodeWitnessHeader, Cursor.start, List.append_assoc]
  rw [Cursor.word_ofNat _ _ hSize]
  simp only [bind, Except.bind]
  rw [Cursor.element_ofNat _ _ hPrime]
  dsimp only
  rw [Cursor.word_ofNat _ _ hCount]
  rfl

/-- What was read of how the values are stored stood there in full. -/
theorem encode_of_parseHeader {buffer : List UInt8} {size prime count : Nat}
    (h : parseHeader buffer = .ok (size, prime, count)) :
    size < 2 ^ 32 ∧ prime < 2 ^ (8 * size) ∧ count < 2 ^ 32 ∧
      ∃ rest, buffer = encodeWitnessHeader size prime count ++ rest := by
  simp only [parseHeader, bind, Except.bind] at h
  split at h
  · cases h
  · rename_i first hFirst
    obtain ⟨n, c⟩ := first
    obtain ⟨hRoom, rfl, rfl⟩ := Cursor.number_eq_ok hFirst
    dsimp only [Cursor.element] at h
    split at h
    · cases h
    · rename_i last hLast
      obtain ⟨m, c⟩ := last
      obtain ⟨hLastRoom, rfl, rfl⟩ := Cursor.number_eq_ok hLast
      cases h
      simp only [Cursor.start, Cursor.skip] at hRoom hLastRoom ⊢
      have hSizeLt := LittleEndian.toNat_take_lt hRoom
      have hSizeBytes := LittleEndian.ofNat_toNat_take hRoom
      generalize LittleEndian.toNat (buffer.take 4) = size at hLastRoom hSizeLt hSizeBytes ⊢
      -- the count behind it is there, so the prime is there in full
      have hPrimeRoom : size ≤ (buffer.drop 4).length := by
        rw [List.length_drop] at hLastRoom
        omega
      have hCountLt := LittleEndian.toNat_take_lt hLastRoom
      have hPrimeLt := LittleEndian.toNat_take_lt hPrimeRoom
      rw [LittleEndian.capacity_eq] at hSizeLt hCountLt hPrimeLt
      refine ⟨hSizeLt, hPrimeLt, hCountLt, ((buffer.drop 4).drop size).drop 4, ?_⟩
      rw [encodeWitnessHeader, hSizeBytes, LittleEndian.ofNat_toNat_take hPrimeRoom,
        LittleEndian.ofNat_toNat_take hLastRoom, List.append_assoc, List.append_assoc,
        List.take_append_drop, List.take_append_drop, List.take_append_drop]

/-! ## Files -/

/-- Whether a file is a container in which the first section of kind one starts with the written
header of a witness, and the first of kind two with its written values.  Anything may follow in
either section and behind the container, and other sections may stand anywhere. -/
def IsWritten (bytes : List UInt8) (w : WitnessFile) : Prop :=
  ∃ (c : Container) (size : Nat) (headerRest bodyRest tail : List UInt8),
    c.Fits ∧ w.Fits size ∧ bytes = c.encode witnessMagic ++ tail ∧
    c.IsFirst 1 (encodeWitnessHeader size w.prime w.values.length ++ headerRest) ∧
    c.IsFirst 2 (encodeElements size w.values ++ bodyRest)

/-- A written witness is read back. -/
theorem read_of_isWritten (file : String) {bytes : List UInt8} {w : WitnessFile}
    (h : IsWritten bytes w) : read file bytes = .ok w := by
  obtain ⟨c, size, headerRest, bodyRest, tail, hc, hw, rfl, hHeader, hBody⟩ := h
  have hMagic : (Text.Utf8.encode witnessMagic).length = 4 := rfl
  have hParse := Container.parse_encode_append hMagic file hc tail
  have hHeaderPayload := (c.firstPayload_eq_ok_iff 1 file _).mpr hHeader
  have hBodyPayload := (c.firstPayload_eq_ok_iff 2 file _).mpr hBody
  have hValues : ∀ v ∈ w.values, v < LittleEndian.capacity size := by
    intro v hv
    rw [LittleEndian.capacity_eq]
    exact hw.values v hv
  simp only [read, hParse, headerKind, dataKind]
  rw [show (1 : Int) = ((1 : Nat) : Int) from rfl, hHeaderPayload]
  dsimp only
  rw [parseHeader_encode_append hw.width hw.prime hw.count]
  dsimp only
  rw [show (2 : Int) = ((2 : Nat) : Int) from rfl, hBodyPayload]
  dsimp only
  rw [fieldElements_encode size (Nat.mod_eq_zero_of_dvd hw.words) w.values hValues bodyRest]

/-- What is read as a witness is a written one. -/
theorem isWritten_of_read {file : String} {bytes : List UInt8} {w : WitnessFile}
    (h : read file bytes = .ok w) : IsWritten bytes w := by
  rw [read] at h
  split at h
  · cases h
  · rename_i c hParse
    obtain ⟨hc, tail, hTail⟩ := Container.encode_of_parse hParse
    split at h
    · cases h
    · rename_i header hHeader
      split at h
      · cases h
      · rename_i size prime count hParseHeader
        obtain ⟨hSize, hPrime, hCount, headerRest, rfl⟩ := encode_of_parseHeader hParseHeader
        split at h
        · cases h
        · rename_i body hBody
          split at h
          · cases h
          · rename_i values hValues
            cases h
            obtain ⟨hWords, hReach, rfl⟩ := fieldElements_eq_ok hValues
            have hLen := length_elementsFrom size count body
            have hBodySplit : encodeElements size (elementsFrom size count body) ++
                body.drop (size * count) = body := by
              rw [encodeElements_elementsFrom hWords hReach, List.take_append_drop]
            refine ⟨c, size, headerRest, body.drop (size * count), tail, hc,
              ⟨hSize, Nat.dvd_of_mod_eq_zero hWords, hPrime, by rw [hLen]; exact hCount, ?_⟩,
              hTail, ?_, ?_⟩
            · intro v hv
              rw [← LittleEndian.capacity_eq]
              exact lt_of_mem_elementsFrom hWords hReach hv
            · rw [hLen]
              exact (c.firstPayload_eq_ok_iff 1 file _).mp hHeader
            · rw [hBodySplit]
              exact (c.firstPayload_eq_ok_iff 2 file _).mp hBody

/-- Reading a witness file and writing one are inverse to each other: a witness is read exactly from
the files that it is written to. -/
theorem read_eq_ok_iff_isWritten (file : String) (bytes : List UInt8) (w : WitnessFile) :
    read file bytes = .ok w ↔ IsWritten bytes w :=
  ⟨isWritten_of_read, read_of_isWritten file⟩

end WitnessFile

end CircuitBench
