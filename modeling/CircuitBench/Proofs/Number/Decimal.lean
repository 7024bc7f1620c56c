import CircuitBench.Proofs.Number.Digits

/-!
# Decimal numerals read back

The numeral of a natural number has at least one digit and nothing but ASCII digits, starts with a
zero only if the number is zero, and is worth the number.  So a reader of integer literals takes all
of it and gives the number, as long as it has no more digits than are read.

## Main results

* `ofDigits_numeral` : a numeral is worth its number.
* `printInteger?_eq` : which integers are printed, and as what.
* `readInteger_decimal` : the decimal text of an integer is read as the integer.
* `readInteger_numeral` : the numeral of a number is read as the number.
-/

namespace CircuitBench.Number

open Text

/-! ## Numerals -/

/-- The digits of the numeral of a natural number. -/
def numeral (n : Nat) : List Char :=
  Nat.toDigits 10 n

theorem toList_toString (n : Nat) : (toString n).toList = numeral n := by
  rw [Nat.toString_eq_ofList_toDigits, String.toList_ofList]
  rfl

theorem numeral_ne_nil (n : Nat) : numeral n ≠ [] :=
  Nat.toDigits_ne_nil

theorem digit_of_mem_numeral {n : Nat} {c : Char} (h : c ∈ numeral n) :
    0x30 ≤ c.toNat ∧ c.toNat ≤ 0x39 := by
  have hDigit := Nat.isDigit_of_mem_toDigits (by decide) (by decide) h
  rw [Char.isDigit, Bool.and_eq_true, decide_eq_true_eq, decide_eq_true_eq] at hDigit
  exact hDigit

/-- An integer is written as the numeral of its magnitude, with a minus in front of it if it is
negative. -/
theorem toList_toString_int (n : Int) :
    (toString n).toList = if n < 0 then '-' :: numeral n.natAbs else numeral n.natAbs := by
  cases n with
  | ofNat k =>
      have hNatural : ¬ Int.ofNat k < 0 := Int.not_lt.mpr (Int.natCast_nonneg k)
      rw [if_neg hNatural]
      exact toList_toString k
  | negSucc k =>
      rw [if_pos (Int.negSucc_lt_zero k)]
      show ("-" ++ toString (k + 1)).toList = _
      rw [String.toList_append, toList_toString]
      rfl

/-- A numeral is that of a tenth of the number and one more digit, unless it is a single digit. -/
theorem numeral_eq (n : Nat) :
    numeral n = if n < 10 then [n.digitChar] else numeral (n / 10) ++ [(n % 10).digitChar] := by
  unfold numeral
  split
  · rename_i hShort
    exact Nat.toDigits_of_lt_base hShort
  · rename_i hLong
    exact Nat.toDigits_of_base_le (by decide) (by omega)

/-- A numeral starts with a zero only if the number is zero. -/
theorem numeral_zero_cons {n : Nat} {rest : List Char} (h : numeral n = '0' :: rest) : n = 0 := by
  induction n using Nat.strongRecOn generalizing rest with
  | ind n ih =>
      rw [numeral_eq] at h
      split at h
      · rename_i hShort
        have hFirst : n.digitChar = '0' := (List.cons.inj h).1
        have hCode := congrArg Char.toNat hFirst
        rw [Nat.toNat_digitChar_of_lt_ten hShort, show '0'.toNat = 48 from rfl] at hCode
        omega
      · cases hTenth : numeral (n / 10) with
        | nil => exact absurd hTenth (numeral_ne_nil _)
        | cons c front =>
            rw [hTenth, List.cons_append] at h
            rw [(List.cons.inj h).1] at hTenth
            have hZero := ih (n / 10) (by omega) hTenth
            omega

/-- The values of the digits of a numeral. -/
def numeralValues (n : Nat) : List Nat :=
  (numeral n).map fun c => c.toNat - 0x30

/-- A numeral is worth its number. -/
theorem ofDigits_numeral (n : Nat) : ofDigits 10 (numeralValues n) = n := by
  rw [ofDigits, numeralValues, List.foldl_map]
  have h : Nat.ofDigitChars 10 (numeral n) 0 = n := Nat.ofDigitChars_ten_toDigits
  rwa [Nat.ofDigitChars_eq_foldl] at h

/-! ## Printing -/

/-- A number below a power of ten has no more digits than the exponent says. -/
theorem length_numeral_le {n limit : Nat} (hLimit : 0 < limit) (h : n < Nat.pow 10 limit) :
    (numeral n).length ≤ limit :=
  (Nat.length_toDigits_le_iff (by decide) hLimit).mpr h

/-- An integer is printed unless the numeral of its magnitude is too long. -/
theorem printInteger?_eq (n : Int) :
    printInteger? n =
      if (numeral n.natAbs).length ≤ digitLimit then some (toString n) else none := by
  have hLength : (toString n.natAbs).length = (numeral n.natAbs).length := by
    rw [← String.length_toList, toList_toString]
  rw [printInteger?, hLength]
  by_cases hShort : (numeral n.natAbs).length ≤ digitLimit
  · rw [if_pos hShort, if_neg (Nat.not_lt.mpr hShort)]
  · rw [if_neg hShort, if_pos (Nat.not_le.mp hShort)]

/-- A number whose numeral is not too long is printed as that numeral. -/
theorem printInteger?_ofNat {n : Nat} (h : (numeral n).length ≤ digitLimit) :
    printInteger? n = some (toString n) := by
  rw [printInteger?_eq, Int.natAbs_natCast, if_pos h]
  rfl

/-- What an integer is printed as, if it is printed. -/
theorem printInteger?_eq_some {n : Int} {s : String} (h : printInteger? n = some s) :
    s = toString n ∧ (numeral n.natAbs).length ≤ digitLimit := by
  rw [printInteger?_eq] at h
  split at h
  · rename_i hShort
    cases h
    exact ⟨rfl, hShort⟩
  · cases h

/-! ## Reading -/

theorem startsWithAscii_numeral (n : Nat) : StartsWithAscii (numeral n) := by
  obtain ⟨c, rest, hFirst⟩ := List.exists_cons_of_ne_nil (numeral_ne_nil n)
  have hMem : c ∈ numeral n := by
    rw [hFirst]
    exact List.mem_cons_self
  exact ⟨c, rest, hFirst, digit_of_mem_numeral hMem⟩

/-- A numeral, with or without a minus in front, is read as the number with that sign. -/
theorem readInteger_decimal {n : Nat} (h : (numeral n).length ≤ digitLimit) (negative : Bool) :
    readInteger 10 (withMinus negative (numeral n)) = .ok (signed negative n) := by
  have hWorth : ofDigits 10 (valuesIn 10 (numeral n)) = n :=
    ofDigits_toDigits (by decide) (by decide) n
  have hDigits : ∀ c ∈ numeral n, (digitValue? 10 c).isSome = true :=
    fun c hc => isSome_digitValue?_of_mem_toDigits (by decide) (by decide) hc
  rw [readInteger_digits (startsWithAscii_numeral n) (if_neg (by decide)) (numeral_ne_nil n) hDigits
    (fun _ => h), hWorth]

/-- The numeral of a number is read as the number. -/
theorem readInteger_numeral {n : Nat} (h : (numeral n).length ≤ digitLimit) :
    readInteger 10 (numeral n) = .ok n :=
  readInteger_decimal h false

end CircuitBench.Number
