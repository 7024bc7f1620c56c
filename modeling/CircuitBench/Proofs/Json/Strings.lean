import CircuitBench.Json.Reader
import CircuitBench.Json.Writer
import CircuitBench.Proofs.Text.Order

/-!
# Strings read back

A string is written code point by code point, and each of them is read on its own: a character that
stands for itself, the letter of a short escape, or the digits of a code unit.  Where strings are
kept to ASCII, a code point beyond sixteen bits is read as the two halves of a surrogate pair; as no
other code point of the text is half of a pair, the halves that are put together afterwards are
those that were taken apart.

## Main results

* `readCodes_plainCode`, `readCodes_asciiCode` : a code point is read from what is written for it.
* `readString_stringText` : a text without halves is read from its string, in every style.
* `isHalf_of_mem_stringText` : that string holds no half either.
-/

namespace CircuitBench.Json

open Text

/-! ## Digits of a code unit -/

theorem hexValue?_digitChar {d : Nat} (h : d < 16) : hexValue? d.digitChar = some d := by
  have hAll : ∀ d < 16, hexValue? (Nat.digitChar d) = some d := by decide
  exact hAll d h

/-- A code unit is written with four digits. -/
theorem hexDigits_four {n : Nat} (h : n < 0x10000) :
    hexDigits 4 n = [(n / 4096).digitChar, (n / 256 % 16).digitChar, (n / 16 % 16).digitChar,
      (n % 16).digitChar] := by
  have hZero : Nat.digitChar 0 = '0' := rfl
  unfold hexDigits
  by_cases hOne : n < 16
  · rw [Nat.toDigits_of_lt_base hOne, show n / 4096 = 0 by omega, show n / 256 % 16 = 0 by omega,
      show n / 16 % 16 = 0 by omega, Nat.mod_eq_of_lt hOne, hZero]
    rfl
  rw [Nat.toDigits_of_base_le (by decide) (by omega)]
  by_cases hTwo : n < 256
  · rw [Nat.toDigits_of_lt_base (show n / 16 < 16 by omega), show n / 4096 = 0 by omega,
      show n / 256 % 16 = 0 by omega, show n / 16 % 16 = n / 16 by omega, hZero]
    rfl
  rw [Nat.toDigits_of_base_le (by decide) (show 16 ≤ n / 16 by omega), Nat.div_div_eq_div_mul]
  by_cases hThree : n < 4096
  · rw [Nat.toDigits_of_lt_base (show n / (16 * 16) < 16 by omega), show n / 4096 = 0 by omega,
      show n / 256 % 16 = n / (16 * 16) by omega, hZero]
    rfl
  · rw [Nat.toDigits_of_base_le (by decide) (show 16 ≤ n / (16 * 16) by omega),
      Nat.div_div_eq_div_mul, Nat.toDigits_of_lt_base (show n / (16 * 16 * 16) < 16 by omega)]
    rfl

theorem codeUnit?_digits {n : Nat} (h : n < 0x10000) :
    codeUnit? (n / 4096).digitChar (n / 256 % 16).digitChar (n / 16 % 16).digitChar
      (n % 16).digitChar = some n := by
  have hWorth : n / 4096 * 4096 + n / 256 % 16 * 256 + n / 16 % 16 * 16 + n % 16 = n := by omega
  simp only [codeUnit?, bind, Option.bind, hexValue?_digitChar (show n / 4096 < 16 by omega),
    hexValue?_digitChar (show n / 256 % 16 < 16 by omega),
    hexValue?_digitChar (show n / 16 % 16 < 16 by omega),
    hexValue?_digitChar (show n % 16 < 16 by omega)]
  exact congrArg some hWorth

/-! ## Reading code points -/

/-- A reading with a code point in front. -/
def withCode (n : Nat) (reading : Reading (List Nat)) : Reading (List Nat) :=
  reading.map fun p => (n :: p.1, p.2)

theorem withCode_ok (n : Nat) (ns : List Nat) (rest : List Char) :
    withCode n (.ok (ns, rest)) = .ok (n :: ns, rest) := rfl

/-- A character that stands for itself. -/
theorem readCodes_char {c : Char} (hQuote : c ≠ doubleQuote) (hSlash : c ≠ backslash)
    (hControl : ¬ c.toNat < 0x20) (rest : List Char) :
    readCodes (c :: rest) = withCode c.toNat (readCodes rest) := by
  rw [readCodes.eq_def]
  simp only [if_neg hQuote, if_neg hSlash, if_neg hControl]
  cases readCodes rest <;> rfl

/-- The letter of a short escape. -/
theorem readCodes_letter {letter x : Char} (hLetter : letter ≠ 'u')
    (h : escapedChar? letter = some x) (rest : List Char) :
    readCodes (backslash :: letter :: rest) = withCode x.toNat (readCodes rest) := by
  rw [readCodes.eq_def]
  simp only [if_neg (show backslash ≠ doubleQuote by decide), if_true]
  split
  · rename_i hNone
    cases hNone
  · rename_i hUnit
    exact absurd (List.cons.inj hUnit).1 hLetter
  · rename_i hSplit
    cases hSplit
    rw [h]
    cases readCodes rest <;> rfl

/-- The digits of a code unit. -/
theorem readCodes_unitEscape {n : Nat} (h : n < 0x10000) (rest : List Char) :
    readCodes (unitEscape n ++ rest) = withCode n (readCodes rest) := by
  rw [unitEscape, hexDigits_four h, List.cons_append, List.cons_append, readCodes.eq_def]
  simp only [if_neg (show backslash ≠ doubleQuote by decide), if_true, List.cons_append,
    List.nil_append, codeUnit?_digits h]
  cases readCodes rest <;> rfl

/-- A code point that is written by a letter is read from it. -/
theorem readCodes_escapeLetter {n : Nat} {letter : Char} (h : escapeLetter? n = some letter)
    (rest : List Char) :
    readCodes ([backslash, letter] ++ rest) = withCode n (readCodes rest) := by
  have hLetter : letter ≠ 'u' ∧ ∃ x, escapedChar? letter = some x ∧ x.toNat = n := by
    unfold escapeLetter? at h
    repeat' split at h
    all_goals cases h
    all_goals
      subst n
      exact ⟨by decide, _, rfl, by decide⟩
  obtain ⟨hUnit, x, hChar, hCode⟩ := hLetter
  rw [List.cons_append, List.singleton_append, readCodes_letter hUnit hChar, hCode]

/-- The code points that are read from what is written for one: itself, or the halves of its
surrogate pair where strings are kept to ASCII. -/
def spelledCodes (asciiOnly : Bool) (n : Nat) : List Nat :=
  if asciiOnly = true ∧ 0x10000 ≤ n then
    [0xD800 + (n - 0x10000) / 0x400, 0xDC00 + (n - 0x10000) % 0x400]
  else [n]

/-- A reading with code points in front. -/
def withCodes (ns : List Nat) (reading : Reading (List Nat)) : Reading (List Nat) :=
  ns.foldr withCode reading

theorem withCodes_ok (ns ms : List Nat) (rest : List Char) :
    withCodes ns (.ok (ms, rest)) = .ok (ns ++ ms, rest) := by
  induction ns with
  | nil => rfl
  | cons n ns ih =>
      show withCode n (withCodes ns (.ok (ms, rest))) = _
      rw [ih, withCode_ok, List.cons_append]

/-- A character that needs no escape stands for itself. -/
theorem readCodes_unescaped {c : Char} (hLetter : escapeLetter? c.toNat = none)
    (hControl : ¬ c.toNat < 0x20) (rest : List Char) :
    readCodes (Char.ofNat c.toNat :: rest) = withCode c.toNat (readCodes rest) := by
  have hQuote : c ≠ doubleQuote := by
    rintro rfl
    cases hLetter
  have hSlash : c ≠ backslash := by
    rintro rfl
    cases hLetter
  rw [Char.ofNat_toNat, readCodes_char hQuote hSlash hControl]

theorem readCodes_plainCode (c : Char) (rest : List Char) :
    readCodes (plainCode c.toNat ++ rest) = withCode c.toNat (readCodes rest) := by
  unfold plainCode
  cases hLetter : escapeLetter? c.toNat with
  | some letter => exact readCodes_escapeLetter hLetter rest
  | none =>
      by_cases hControl : c.toNat < 0x20
      · rw [if_pos hControl]
        exact readCodes_unitEscape (by omega) rest
      · rw [if_neg hControl]
        exact readCodes_unescaped hLetter hControl rest

/-- No character beyond ASCII has a short escape. -/
theorem lt_of_escapeLetter? {n : Nat} {letter : Char} (h : escapeLetter? n = some letter) :
    n < 0x80 := by
  unfold escapeLetter? at h
  repeat' split at h
  all_goals first
    | omega
    | cases h

theorem readCodes_asciiCode (c : Char) (rest : List Char) :
    readCodes (asciiCode c.toNat ++ rest) =
      withCodes (spelledCodes true c.toNat) (readCodes rest) := by
  have hValid : c.toNat < 0xD800 ∨ 0xDFFF < c.toNat ∧ c.toNat < 0x110000 := c.valid
  unfold asciiCode spelledCodes
  cases hLetter : escapeLetter? c.toNat with
  | some letter =>
      have hShort := lt_of_escapeLetter? hLetter
      rw [if_neg (show ¬ (true = true ∧ 0x10000 ≤ c.toNat) by omega)]
      exact readCodes_escapeLetter hLetter rest
  | none =>
      dsimp only
      by_cases hPrintable : 0x20 ≤ c.toNat ∧ c.toNat < 0x7F
      · rw [if_pos hPrintable, if_neg (show ¬ (true = true ∧ 0x10000 ≤ c.toNat) by omega)]
        exact readCodes_unescaped hLetter (by omega) rest
      rw [if_neg hPrintable]
      by_cases hUnit : c.toNat < 0x10000
      · rw [if_pos hUnit, if_neg (show ¬ (true = true ∧ 0x10000 ≤ c.toNat) by omega)]
        exact readCodes_unitEscape hUnit rest
      · rw [if_neg hUnit, if_pos ⟨rfl, by omega⟩, List.append_assoc,
          readCodes_unitEscape (by omega), readCodes_unitEscape (by omega)]
        rfl

/-! ## Surrogate pairs -/

/-- A code point that is no surrogate is left alone. -/
theorem joinSurrogates_cons {n : Nat} (h : isSurrogate n = false) (ns : List Nat) :
    joinSurrogates (n :: ns) = n :: joinSurrogates ns := by
  have hHigh : isHighSurrogate n = false := by
    unfold isSurrogate at h
    unfold isHighSurrogate
    rw [Bool.and_eq_false_iff, decide_eq_false_iff_not, decide_eq_false_iff_not] at h ⊢
    omega
  cases ns with
  | nil => rfl
  | cons m ms => rw [joinSurrogates, hHigh, Bool.false_and, if_neg Bool.false_ne_true]

/-- The halves of a pair are put together again. -/
theorem joinSurrogates_pair {n : Nat} (h : 0x10000 ≤ n) (hEnd : n < 0x110000) (ns : List Nat) :
    joinSurrogates ((0xD800 + (n - 0x10000) / 0x400) :: (0xDC00 + (n - 0x10000) % 0x400) :: ns) =
      n :: joinSurrogates ns := by
  have hHigh : isHighSurrogate (0xD800 + (n - 0x10000) / 0x400) = true := by
    unfold isHighSurrogate
    rw [Bool.and_eq_true, decide_eq_true_eq, decide_eq_true_eq]
    omega
  have hLow : isLowSurrogate (0xDC00 + (n - 0x10000) % 0x400) = true := by
    unfold isLowSurrogate
    rw [Bool.and_eq_true, decide_eq_true_eq, decide_eq_true_eq]
    omega
  have hCode : 0x10000 + (0xD800 + (n - 0x10000) / 0x400 - 0xD800) * 0x400 +
      (0xDC00 + (n - 0x10000) % 0x400 - 0xDC00) = n := by
    omega
  rw [joinSurrogates, hHigh, hLow, Bool.and_true, if_pos rfl, hCode]

/-- The characters of a text are put together again from what is read of each. -/
theorem joinSurrogates_spelledCodes (asciiOnly : Bool) (s : List Char) :
    joinSurrogates ((s.map Char.toNat).flatMap (spelledCodes asciiOnly)) = s.map Char.toNat := by
  induction s with
  | nil => rfl
  | cons c rest ih =>
      have hValid : c.toNat < 0xD800 ∨ 0xDFFF < c.toNat ∧ c.toNat < 0x110000 := c.valid
      rw [List.map_cons, List.flatMap_cons, spelledCodes]
      split
      · rename_i hPair
        rw [List.cons_append, List.singleton_append, joinSurrogates_pair hPair.2 (by omega), ih]
      · rw [List.singleton_append, joinSurrogates_cons (isSurrogate_toNat c), ih]

/-- Characters that stand for themselves are found again by their code points. -/
theorem ofCodes_toNat (s : List Char) : ofCodes (s.map Char.toNat) = String.ofList s := by
  unfold ofCodes
  congr 1
  rw [List.map_map]
  refine (List.map_congr_left fun c _ => ?_).trans (List.map_id s)
  show charOfCode c.toNat = c
  rw [charOfCode, isSurrogate_toNat, if_neg Bool.false_ne_true, Char.ofNat_toNat]

/-! ## Strings -/

/-- How a style writes a code point. -/
def codeText (asciiOnly : Bool) : Nat → List Char :=
  if asciiOnly then asciiCode else plainCode

theorem readCodes_codeText (asciiOnly : Bool) (c : Char) (rest : List Char) :
    readCodes (codeText asciiOnly c.toNat ++ rest) =
      withCodes (spelledCodes asciiOnly c.toNat) (readCodes rest) := by
  cases asciiOnly with
  | false =>
      rw [spelledCodes, if_neg (by simp)]
      exact readCodes_plainCode c rest
  | true => exact readCodes_asciiCode c rest

/-- The code points of a string are read up to its closing quote. -/
theorem readCodes_text (asciiOnly : Bool) (s rest : List Char) :
    readCodes ((s.map Char.toNat).flatMap (codeText asciiOnly) ++ doubleQuote :: rest) =
      .ok ((s.map Char.toNat).flatMap (spelledCodes asciiOnly), rest) := by
  induction s with
  | nil =>
      rw [List.map_nil, List.flatMap_nil, List.nil_append, readCodes.eq_def]
      simp only [if_true, List.flatMap_nil]
  | cons c s ih =>
      rw [List.map_cons, List.flatMap_cons, List.flatMap_cons, List.append_assoc,
        readCodes_codeText, ih, withCodes_ok]

/-- A text without halves is read from its string. -/
theorem readString_stringText {style : Style} {s : String} (h : hasHalf s = false)
    (rest : List Char) :
    ∃ body, stringText style (codes s) = doubleQuote :: body ∧
      readString (body ++ rest) = .ok (.text s, rest) := by
  refine ⟨(codes s).flatMap (codeText style.asciiOnly) ++ [doubleQuote], rfl, ?_⟩
  rw [List.append_assoc, List.singleton_append, codes_of_whole h, readString, readCodes_text]
  dsimp only
  rw [joinSurrogates_spelledCodes, ofCodes_toNat, String.ofList_toList]

/-! ## Characters of a string -/

theorem isHalf_of_ascii {c : Char} (h : c.toNat < 0x80) : isHalf c = false := by
  rw [← Bool.not_eq_true, isHalf_iff, standInDistance]
  omega

/-- What stands in an escape is ASCII. -/
theorem ascii_of_mem_unitEscape {n : Nat} (hUnit : n < 0x10000) {c : Char}
    (h : c ∈ unitEscape n) : c.toNat < 0x80 := by
  have hDigit : ∀ d < 16, (Nat.digitChar d).toNat < 0x80 := by decide
  rw [unitEscape, hexDigits_four hUnit] at h
  simp only [List.mem_cons, List.not_mem_nil, or_false] at h
  rcases h with rfl | rfl | rfl | rfl | rfl | rfl
  · decide
  · decide
  · exact hDigit _ (by omega)
  · exact hDigit _ (by omega)
  · exact hDigit _ (by omega)
  · exact hDigit _ (by omega)

theorem ascii_of_escapeLetter? {n : Nat} {letter : Char} (h : escapeLetter? n = some letter) :
    letter.toNat < 0x80 := by
  unfold escapeLetter? at h
  repeat' split at h
  all_goals cases h
  all_goals decide

/-- A character that is no half is written without halves. -/
theorem isHalf_of_mem_codeText {asciiOnly : Bool} {c : Char} (hWhole : isHalf c = false) {d : Char}
    (h : d ∈ codeText asciiOnly c.toNat) : isHalf d = false := by
  have hValid : c.toNat < 0xD800 ∨ 0xDFFF < c.toNat ∧ c.toNat < 0x110000 := c.valid
  have hEscape : ∀ letter, escapeLetter? c.toNat = some letter → d ∈ [backslash, letter] →
      isHalf d = false := by
    intro letter hLetter hMem
    simp only [List.mem_cons, List.not_mem_nil, or_false] at hMem
    rcases hMem with rfl | rfl
    · decide
    · exact isHalf_of_ascii (ascii_of_escapeLetter? hLetter)
  have hUnit : ∀ n < 0x10000, d ∈ unitEscape n → isHalf d = false :=
    fun n hn hMem => isHalf_of_ascii (ascii_of_mem_unitEscape hn hMem)
  have hSelf : d ∈ [Char.ofNat c.toNat] → isHalf d = false := by
    intro hMem
    rw [List.mem_singleton, Char.ofNat_toNat] at hMem
    rw [hMem, hWhole]
  cases asciiOnly with
  | false =>
      change d ∈ plainCode c.toNat at h
      unfold plainCode at h
      split at h
      · exact hEscape _ ‹_› h
      · split at h
        · exact hUnit _ (by omega) h
        · exact hSelf h
  | true =>
      change d ∈ asciiCode c.toNat at h
      unfold asciiCode at h
      split at h
      · exact hEscape _ ‹_› h
      · split at h
        · exact hSelf h
        · split at h
          · exact hUnit _ ‹_› h
          · rcases List.mem_append.mp h with h | h
            · exact hUnit _ (by omega) h
            · exact hUnit _ (by omega) h

/-- The string of a text without halves holds none. -/
theorem isHalf_of_mem_stringText {style : Style} {s : String} (hWhole : hasHalf s = false) {c : Char}
    (h : c ∈ stringText style (codes s)) : isHalf c = false := by
  change c ∈ doubleQuote :: (codes s).flatMap (codeText style.asciiOnly) ++ [doubleQuote] at h
  rw [codes_of_whole hWhole, List.cons_append, List.mem_cons, List.mem_append,
    List.mem_singleton, List.mem_flatMap] at h
  rcases h with rfl | ⟨n, hn, h⟩ | rfl
  · decide
  · obtain ⟨d, hd, rfl⟩ := List.mem_map.mp hn
    have hMember : isHalf d = false := by
      rw [hasHalf, List.any_eq_false] at hWhole
      exact Bool.eq_false_iff.mpr (hWhole d hd)
    exact isHalf_of_mem_codeText hMember h
  · decide

end CircuitBench.Json
