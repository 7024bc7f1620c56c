import CircuitBench.Number.Literal

/-!
# Digits read off a text

An integer literal is a sign, a mark for the base and a run of digits.  The reader takes them off one
after the other, and what it makes of the run is the same in every base: a text of digits is taken
up to its end, and is worth what its digits are worth, a letter in either case.  The numeral of a
number in a base of sixteen or less is worth the number, with or without zeros in front.

## Main results

* `digitValue?_toLower` : a letter is worth the same in either case.
* `scanFrom_digits` : a run of digits is taken up to its end.
* `ofDigits_toDigits` : a numeral is worth its number.
* `readInteger_digits` : a sign, a mark and digits are read as what the digits are worth.
-/

namespace CircuitBench.Number

open Text

/-! ## Values of digits -/

/-- An upper case letter stands before the lower case one. -/
theorem toNat_toLower {c : Char} (h : 0x41 ≤ c.toNat ∧ c.toNat ≤ 0x5A) :
    c.toLower.toNat = c.toNat + 0x20 := by
  have hRange : c.val ≥ 'A'.val ∧ c.val ≤ 'Z'.val := h
  have hLower : c.toLower = _ := dif_pos hRange
  rw [hLower]
  show (c.val + 32).toNat = c.toNat + 32
  rw [UInt32.toNat_add]
  show (c.toNat + 32) % 2 ^ 32 = c.toNat + 32
  omega

/-- Only upper case letters have a lower case. -/
theorem toLower_eq_self {c : Char} (h : ¬ (0x41 ≤ c.toNat ∧ c.toNat ≤ 0x5A)) : c.toLower = c := by
  have hRange : ¬ (c.val ≥ 'A'.val ∧ c.val ≤ 'Z'.val) := h
  exact dif_neg hRange

/-- A letter is worth the same in either case. -/
theorem digitValue?_toLower (base : Nat) (c : Char) :
    digitValue? base c.toLower = digitValue? base c := by
  by_cases hUpper : 0x41 ≤ c.toNat ∧ c.toNat ≤ 0x5A
  · have hCode := toNat_toLower hUpper
    have hNone : decimalDigit? c = none := by
      rw [decimalDigit?, if_pos (by omega), if_neg (by omega)]
    have hNone' : decimalDigit? c.toLower = none := by
      rw [decimalDigit?, hCode, if_pos (by omega), if_neg (by omega)]
    have hLetter : letterDigit? c = some (c.toNat - 0x41 + 10) := by
      rw [letterDigit?, if_neg (by omega), if_pos (by omega)]
    have hLetter' : letterDigit? c.toLower = some (c.toNat - 0x41 + 10) := by
      rw [letterDigit?, hCode, if_pos (by omega)]
      congr 1
    rw [digitValue?, digitValue?, hNone, hNone', hLetter, hLetter']
  · rw [toLower_eq_self hUpper]

theorem digitValue?_digitChar {base d : Nat} (hBase : base ≤ 16) (h : d < base) :
    digitValue? base d.digitChar = some d := by
  have hAll : ∀ d < 16, (decimalDigit? d.digitChar).or (letterDigit? d.digitChar) = some d := by
    decide
  unfold digitValue?
  rw [hAll d (by omega)]
  exact if_pos h

/-- The values that the characters of a text have as digits of a base. -/
def valuesIn (base : Nat) (s : List Char) : List Nat :=
  s.map fun c => (digitValue? base c).getD 0

/-- The case of letters does not matter for the values of digits. -/
theorem valuesIn_map_toLower (base : Nat) (s : List Char) :
    valuesIn base (s.map Char.toLower) = valuesIn base s := by
  rw [valuesIn, valuesIn, List.map_map]
  refine List.map_congr_left fun c _ => ?_
  rw [Function.comp_apply, digitValue?_toLower]

/-! ## Numerals -/

/-- A numeral is made of the digits below its base. -/
theorem digit_of_mem_toDigits {base : Nat} (hLow : 1 < base) {n : Nat} {c : Char}
    (h : c ∈ Nat.toDigits base n) : ∃ d < base, c = d.digitChar := by
  induction n using Nat.strongRecOn with
  | ind n ih =>
      by_cases hShort : n < base
      · rw [Nat.toDigits_of_lt_base hShort, List.mem_singleton] at h
        exact ⟨n, hShort, h⟩
      · rw [Nat.toDigits_of_base_le hLow (by omega), List.mem_append, List.mem_singleton] at h
        rcases h with hFront | hLast
        · exact ih (n / base) (Nat.div_lt_self (by omega) hLow) hFront
        · exact ⟨n % base, Nat.mod_lt n (by omega), hLast⟩

theorem isSome_digitValue?_of_mem_toDigits {base : Nat} (hLow : 1 < base) (hHigh : base ≤ 16)
    {n : Nat} {c : Char} (h : c ∈ Nat.toDigits base n) : (digitValue? base c).isSome = true := by
  obtain ⟨d, hd, rfl⟩ := digit_of_mem_toDigits hLow h
  rw [digitValue?_digitChar hHigh hd]
  rfl

/-- The numeral of a number in a base is worth the number. -/
theorem ofDigits_toDigits {base : Nat} (hLow : 1 < base) (hHigh : base ≤ 16) (n : Nat) :
    ofDigits base (valuesIn base (Nat.toDigits base n)) = n := by
  induction n using Nat.strongRecOn with
  | ind n ih =>
      by_cases hShort : n < base
      · rw [Nat.toDigits_of_lt_base hShort, valuesIn, List.map_singleton,
          digitValue?_digitChar hHigh hShort]
        show base * 0 + n = n
        omega
      · have hLast : n % base < base := Nat.mod_lt n (by omega)
        have hFront := ih (n / base) (Nat.div_lt_self (by omega) hLow)
        rw [valuesIn] at hFront
        rw [Nat.toDigits_of_base_le hLow (by omega), valuesIn, List.map_append,
          List.map_singleton, digitValue?_digitChar hHigh hLast, Option.getD_some,
          ofDigits_append_singleton, hFront]
        exact Nat.div_add_mod n base

/-- Zeros in front of a numeral do not change what it is worth. -/
theorem ofDigits_zeros (base count : Nat) (digits : List Nat) :
    ofDigits base (List.replicate count 0 ++ digits) = ofDigits base digits := by
  induction count with
  | zero => rfl
  | succ count ih =>
      rw [List.replicate_succ, List.cons_append, ← ih]
      rfl

/-! ## Reading -/

/-- Digits are taken off a text up to its end. -/
theorem scanFrom_digits {base : Nat} {s : List Char}
    (h : ∀ c ∈ s, (digitValue? base c).isSome = true) (afterDigit : Bool) :
    scanFrom base afterDigit s = some (valuesIn base s, []) := by
  induction s generalizing afterDigit with
  | nil => rfl
  | cons c rest ih =>
      obtain ⟨d, hd⟩ := Option.isSome_iff_exists.mp (h c List.mem_cons_self)
      have hRest := ih (fun c' hc' => h c' (List.mem_cons_of_mem c hc')) true
      rw [scanFrom, hd]
      simp only [hRest, Option.map_some, valuesIn, List.map_cons, hd, Option.getD_some]

/-- A text with a minus in front, or as it is. -/
def withMinus (negative : Bool) (s : List Char) : List Char :=
  if negative then '-' :: s else s

/-- Whether a text starts with one of the ASCII digits. -/
def StartsWithAscii (s : List Char) : Prop :=
  ∃ c rest, s = c :: rest ∧ 0x30 ≤ c.toNat ∧ c.toNat ≤ 0x39

/-- The sign is taken off a literal, and nothing but the sign. -/
theorem splitSign_withMinus {s : List Char} (h : StartsWithAscii s) (negative : Bool) :
    splitSign ((withMinus negative s).dropWhile isPadding) = (negative, s) := by
  obtain ⟨c, rest, rfl, hLow, hHigh⟩ := h
  cases negative with
  | true => rfl
  | false =>
      have hVisible : IsVisible c := ⟨by omega, by omega⟩
      have hPadding : isPadding c = false := by
        rw [isPadding, isBlank_of_isVisible hVisible, Bool.false_and]
      show splitSign ((c :: rest).dropWhile isPadding) = (false, c :: rest)
      rw [List.dropWhile_cons_of_neg (by simp [hPadding])]
      unfold splitSign
      split
      · rename_i hPlus
        cases hPlus
        exact absurd hLow (by decide)
      · rename_i hMinus
        cases hMinus
        exact absurd hLow (by decide)
      · rfl

/-- A sign, a mark for the base and digits are read as what the digits are worth. -/
theorem readInteger_digits {base : Nat} {body s : List Char} (hBody : StartsWithAscii body)
    (hMark : (if base = 16 then dropHexMark body else body) = s) (hSome : s ≠ [])
    (hDigits : ∀ c ∈ s, (digitValue? base c).isSome = true)
    (hShort : base = 10 → s.length ≤ digitLimit) (negative : Bool) :
    readInteger base (withMinus negative body) =
      .ok (signed negative (ofDigits base (valuesIn base s))) := by
  have hScan : scanDigits base s = some (valuesIn base s, []) := scanFrom_digits hDigits false
  have hAny : (valuesIn base s).isEmpty = false := by
    rw [List.isEmpty_eq_false_iff, valuesIn]
    exact mt List.map_eq_nil_iff.mp hSome
  have hCount : ¬ (base = 10 ∧ digitLimit < (valuesIn base s).length) := by
    rintro ⟨hTen, hLong⟩
    rw [valuesIn, List.length_map] at hLong
    have hLength := hShort hTen
    omega
  rw [readInteger, splitSign_withMinus hBody]
  simp only [hMark, hScan, hAny, hCount, Bool.false_eq_true, if_false, List.all_nil, if_true]

end CircuitBench.Number
