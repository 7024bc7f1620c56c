import CircuitBench.Text.Utf8

/-!
# Text read back from its bytes

The bytes of a character take the decoder from between characters back to between characters, with
that character as the one unit that is completed on the way.  The ranges in which the decoder wants
a second byte to lie leave out overlong forms, surrogates and numbers beyond the last code point; a
character is neither of these, so its second byte lies in the range that its first byte asks for.

## Main results

* `unitsFrom_encodeChar` : the bytes of a character are read as that character.
* `decode?_encode` : the bytes of a text are read as that text.
-/

namespace CircuitBench.Text.Utf8

/-! ## Single bytes -/

theorem toNat_byte {n : Nat} (h : n < 0x100) : (UInt8.ofNat n).toNat = n := by
  rw [UInt8.toNat_ofNat']
  exact Nat.mod_eq_of_lt h

/-- A first byte that begins a longer character. -/
theorem unitsFrom_begin {n : Nat} {p : Pending} (hByte : n < 0x100) (h : start n = .part p)
    (rest : List UInt8) : unitsFrom none (UInt8.ofNat n :: rest) = unitsFrom (some p) rest := by
  rw [unitsFrom, feed, toNat_byte hByte, feedFirst, h]
  rfl

/-- A byte in the middle of a character. -/
theorem unitsFrom_between {p : Pending} {tail : Nat} (hTail : tail < 0x40)
    (hRange : p.least ≤ tail + 0x80 ∧ tail + 0x80 ≤ p.greatest) (hOwed : 1 < p.owed)
    (rest : List UInt8) :
    unitsFrom (some p) (UInt8.ofNat (tail + 0x80) :: rest) =
      unitsFrom (some ⟨p.owed - 1, p.code * 64 + tail, 0x80, 0xBF⟩) rest := by
  have hByte : (UInt8.ofNat (tail + 0x80)).toNat = tail + 0x80 := toNat_byte (by omega)
  rw [unitsFrom, feed, hByte, if_pos hRange]
  simp only [if_neg (Nat.not_le.mpr hOwed), Nat.add_sub_cancel]
  rfl

/-- The last byte of a character. -/
theorem unitsFrom_last {p : Pending} {tail : Nat} (hTail : tail < 0x40)
    (hRange : p.least ≤ tail + 0x80 ∧ tail + 0x80 ≤ p.greatest) (hOwed : p.owed ≤ 1)
    (rest : List UInt8) :
    unitsFrom (some p) (UInt8.ofNat (tail + 0x80) :: rest) =
      some (Char.ofNat (p.code * 64 + tail)) :: unitsFrom none rest := by
  have hByte : (UInt8.ofNat (tail + 0x80)).toNat = tail + 0x80 := toNat_byte (by omega)
  rw [unitsFrom, feed, hByte, if_pos hRange]
  simp only [if_pos hOwed, Nat.add_sub_cancel]
  rfl

/-! ## First bytes -/

theorem start_two {v : Nat} (h : 0x80 ≤ v) (hEnd : v ≤ 0x7FF) :
    start (v / 64 + 192) = .part ⟨1, v / 64, 0x80, 0xBF⟩ := by
  rw [start, if_neg (by omega), if_neg (by omega), if_pos (by omega)]
  rw [show v / 64 + 192 - 0xC0 = v / 64 by omega]

/-- A character of three bytes is neither overlong nor a surrogate. -/
theorem start_three {v : Nat} (h : 0x800 ≤ v) (hEnd : v ≤ 0xFFFF)
    (hWhole : v < 0xD800 ∨ 0xDFFF < v) :
    ∃ least greatest, start (v / 4096 + 224) = .part ⟨2, v / 4096, least, greatest⟩ ∧
      least ≤ v / 64 % 64 + 0x80 ∧ v / 64 % 64 + 0x80 ≤ greatest := by
  rw [start, if_neg (by omega), if_neg (by omega), if_neg (by omega)]
  by_cases hFirst : v / 4096 = 0
  · refine ⟨0xA0, 0xBF, ?_, by omega, by omega⟩
    rw [if_pos (by omega), hFirst]
  · rw [if_neg (by omega)]
    by_cases hSurrogates : v / 4096 = 0xD
    · refine ⟨0x80, 0x9F, ?_, by omega, by omega⟩
      rw [if_pos (by omega), hSurrogates]
    · refine ⟨0x80, 0xBF, ?_, by omega, by omega⟩
      rw [if_neg (by omega), if_pos (by omega), show v / 4096 + 224 - 0xE0 = v / 4096 by omega]

/-- A character of four bytes is neither overlong nor beyond the last code point. -/
theorem start_four {v : Nat} (h : 0x10000 ≤ v) (hEnd : v < 0x110000) :
    ∃ least greatest, start (v / 262144 + 240) = .part ⟨3, v / 262144, least, greatest⟩ ∧
      least ≤ v / 4096 % 64 + 0x80 ∧ v / 4096 % 64 + 0x80 ≤ greatest := by
  rw [start, if_neg (by omega), if_neg (by omega), if_neg (by omega), if_neg (by omega),
    if_neg (by omega), if_neg (by omega)]
  by_cases hFirst : v / 262144 = 0
  · refine ⟨0x90, 0xBF, ?_, by omega, by omega⟩
    rw [if_pos (by omega), hFirst]
  · rw [if_neg (by omega)]
    by_cases hLast : v / 262144 = 4
    · refine ⟨0x80, 0x8F, ?_, by omega, by omega⟩
      rw [if_neg (by omega), if_pos (by omega), hLast]
    · refine ⟨0x80, 0xBF, ?_, by omega, by omega⟩
      rw [if_pos (by omega), show v / 262144 + 240 - 0xF0 = v / 262144 by omega]

/-! ## Characters and texts -/

/-- The bytes of a character are read as that character, whatever comes behind them. -/
theorem unitsFrom_encodeChar (c : Char) (rest : List UInt8) :
    unitsFrom none (String.utf8EncodeChar c ++ rest) = some c :: unitsFrom none rest := by
  have hValid : c.toNat < 0xD800 ∨ 0xDFFF < c.toNat ∧ c.toNat < 0x110000 := c.valid
  have hChar : Char.ofNat c.toNat = c := Char.ofNat_toNat c
  rw [String.utf8EncodeChar, show c.val.toNat = c.toNat from rfl]
  generalize c.toNat = v at hValid hChar
  by_cases hOne : v ≤ 127
  · rw [if_pos hOne, List.singleton_append, unitsFrom, feed, toNat_byte (by omega), feedFirst,
      start, if_pos (by omega)]
    show some (Char.ofNat v) :: unitsFrom none rest = _
    rw [hChar]
  rw [if_neg hOne]
  by_cases hTwo : v ≤ 2047
  · rw [if_pos hTwo, List.cons_append, List.singleton_append, Nat.mod_eq_of_lt (by omega),
      unitsFrom_begin (by omega) (start_two (by omega) hTwo),
      unitsFrom_last (by omega) (by dsimp only; omega) (Nat.le_refl 1),
      show v / 64 * 64 + v % 64 = v by omega, hChar]
  rw [if_neg hTwo]
  by_cases hThree : v ≤ 65535
  · obtain ⟨least, greatest, hStart, hLeast, hGreatest⟩ :=
      start_three (by omega) hThree (by omega)
    rw [if_pos hThree, List.cons_append, List.cons_append, List.singleton_append,
      Nat.mod_eq_of_lt (by omega), unitsFrom_begin (by omega) hStart,
      unitsFrom_between (by omega) ⟨hLeast, hGreatest⟩ (by dsimp only; omega),
      unitsFrom_last (by omega) (by dsimp only; omega) (Nat.le_refl 1),
      show (v / 4096 * 64 + v / 64 % 64) * 64 + v % 64 = v by omega, hChar]
  · obtain ⟨least, greatest, hStart, hLeast, hGreatest⟩ :=
      start_four (v := v) (by omega) (by omega)
    rw [if_neg hThree, List.cons_append, List.cons_append, List.cons_append,
      List.singleton_append, Nat.mod_eq_of_lt (by omega), unitsFrom_begin (by omega) hStart,
      unitsFrom_between (by omega) ⟨hLeast, hGreatest⟩ (by dsimp only; omega),
      unitsFrom_between (by omega) (by dsimp only; omega) (by dsimp only; omega),
      unitsFrom_last (by omega) (by dsimp only; omega) (Nat.le_refl 1),
      show ((v / 262144 * 64 + v / 4096 % 64) * 64 + v / 64 % 64) * 64 + v % 64 = v by omega,
      hChar]

theorem units_encode (s : List Char) :
    units (s.flatMap String.utf8EncodeChar) = s.map some := by
  unfold units
  induction s with
  | nil => rfl
  | cons c rest ih => rw [List.flatMap_cons, unitsFrom_encodeChar, ih, List.map_cons]

/-- The bytes of a text are read as that text. -/
theorem decode?_encode (text : String) : decode? (encode text) = some text := by
  rw [decode?, encode, units_encode, whole?_map_some, Option.map_some, String.ofList_toList]

end CircuitBench.Text.Utf8
