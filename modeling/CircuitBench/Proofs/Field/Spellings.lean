import CircuitBench.Proofs.Field.Encoding

/-!
# Spellings of an integer

An input leaf may be an integer, a cell of an integer array, or a text: the decimal text of an
integer, or its hexadecimal text with the mark of base sixteen behind an optional minus.  The base
is found on the text without its minus signs, the number is read from the text with them, and white
space around the text is taken away before both.  All of these spell the same field element, the
residue of the integer, and the decimal text of a residue spells the residue again.

## Main results

* `readText_literal` : a literal is read as the integer that it is the text of.
* `ofValue_spellings` : all spellings of an integer stand for its residue.
-/

namespace CircuitBench.Field

open Number Text

/-! ## Literals -/

/-- Whether a text is a literal of an integer: its decimal text, if that is not too long to be read,
or a hexadecimal one, with letters in either case and any number of zeros in front. -/
inductive IsLiteral (n : Int) : List Char → Prop
  | decimal (h : (numeral n.natAbs).length ≤ digitLimit) : IsLiteral n (toString n).toList
  | hexadecimal {negative : Bool} {m zeros : Nat} {x : Char} {digits : List Char}
      (hValue : n = signed negative m) (hMark : x = 'x' ∨ x = 'X')
      (hDigits : digits.map Char.toLower = Nat.toDigits 16 m) :
      IsLiteral n (withMinus negative ('0' :: x :: (List.replicate zeros '0' ++ digits)))

/-- Whether a leaf spells an integer. -/
inductive IsSpelling (n : Int) : Value → Prop
  | integer : IsSpelling n (.int n)
  | cell (kind : IntegerCell) : IsSpelling n (.integerCell kind n)
  | text {before literal after : List Char} (hBefore : ∀ c ∈ before, isBlank c = true)
      (hLiteral : IsLiteral n literal) (hAfter : ∀ c ∈ after, isBlank c = true) :
      IsSpelling n (.text (String.ofList (before ++ literal ++ after)))
  | textCell {before literal after : List Char} (hBefore : ∀ c ∈ before, isBlank c = true)
      (hLiteral : IsLiteral n literal) (hAfter : ∀ c ∈ after, isBlank c = true) :
      IsSpelling n (.textCell (String.ofList (before ++ literal ++ after)))

/-- The decimal text of an integer is the numeral of its magnitude with the sign. -/
theorem toList_toString_signed (n : Int) :
    (toString n).toList = withMinus (decide (n < 0)) (numeral n.natAbs) := by
  rw [toList_toString_int, withMinus]
  simp only [decide_eq_true_eq]

theorem signed_natAbs (n : Int) : signed (decide (n < 0)) n.natAbs = n := by
  unfold signed
  split
  · rename_i h
    rw [decide_eq_true_eq] at h
    omega
  · rename_i h
    rw [decide_eq_true_eq] at h
    omega

theorem isHexLiteral_withMinus (negative : Bool) (s : List Char) :
    isHexLiteral (withMinus negative s) = isHexLiteral s := by
  cases negative with
  | true => rfl
  | false => rfl

/-! ### Hexadecimal digits -/

section Hexadecimal

variable {m zeros : Nat} {digits : List Char}

theorem isSome_digitValue?_of_lower (h : digits.map Char.toLower = Nat.toDigits 16 m) :
    ∀ c ∈ List.replicate zeros '0' ++ digits, (digitValue? 16 c).isSome = true := by
  intro c hc
  rcases List.mem_append.mp hc with hZero | hDigit
  · rw [List.eq_of_mem_replicate hZero]
    rfl
  · have hLower : c.toLower ∈ Nat.toDigits 16 m := by
      rw [← h]
      exact List.mem_map_of_mem hDigit
    rw [← digitValue?_toLower]
    exact isSome_digitValue?_of_mem_toDigits (by decide) (by decide) hLower

/-- Hexadecimal digits are worth the number, in either case and behind zeros. -/
theorem ofDigits_hexadecimal (h : digits.map Char.toLower = Nat.toDigits 16 m) :
    ofDigits 16 (valuesIn 16 (List.replicate zeros '0' ++ digits)) = m := by
  have hZeros : valuesIn 16 (List.replicate zeros '0') = List.replicate zeros 0 := by
    rw [valuesIn, List.map_replicate]
    rfl
  have hDigits : valuesIn 16 digits = valuesIn 16 (Nat.toDigits 16 m) := by
    rw [← valuesIn_map_toLower, h]
  rw [valuesIn, List.map_append, ← valuesIn, ← valuesIn, hZeros, hDigits, ofDigits_zeros]
  exact ofDigits_toDigits (by decide) (by decide) m

theorem isVisible_of_lower {c : Char} (h : c.toLower ∈ Nat.toDigits 16 m) : IsVisible c := by
  obtain ⟨d, hd, hLower⟩ := digit_of_mem_toDigits (by decide) h
  have hAll : ∀ d < 16, 0x21 ≤ d.digitChar.toNat ∧ d.digitChar.toNat ≤ 0x7E := by decide
  by_cases hUpper : 0x41 ≤ c.toNat ∧ c.toNat ≤ 0x5A
  · exact ⟨by omega, by omega⟩
  · rw [toLower_eq_self hUpper] at hLower
    rw [hLower]
    exact hAll d hd

/-- What stands behind the mark of base sixteen is left when the mark is taken off. -/
theorem dropHexMark_digits {x : Char} (hMark : x = 'x' ∨ x = 'X') {s : List Char}
    (h : ∀ c ∈ s, (digitValue? 16 c).isSome = true) : dropHexMark ('0' :: x :: s) = s := by
  have hZero : decimalDigit? '0' = some 0 ∧ (x = 'x' ∨ x = 'X') := ⟨rfl, hMark⟩
  rw [dropHexMark, if_pos hZero]
  rintro more rfl
  have hUnderscore := h '_' List.mem_cons_self
  exact absurd hUnderscore (by decide)

end Hexadecimal

/-! ## Reading -/

/-- The mark of base sixteen is found behind a minus. -/
theorem isHexLiteral_marked {x : Char} (hMark : x = 'x' ∨ x = 'X') (negative : Bool)
    (s : List Char) : isHexLiteral (withMinus negative ('0' :: x :: s)) = true := by
  rw [isHexLiteral_withMinus]
  rcases hMark with rfl | rfl
  · rfl
  · rfl

/-- What a literal looks like to the reader: visible characters, the base that its beginning shows,
and the integer that it is read as in that base. -/
structure ReadAs (n : Int) (s : List Char) : Prop where
  nonempty : s ≠ []
  visible : ∀ c ∈ s, IsVisible c
  value : readInteger (if isHexLiteral s = true then 16 else 10) s = .ok n

theorem visible_withMinus {s : List Char} (h : ∀ c ∈ s, IsVisible c) (negative : Bool) :
    ∀ c ∈ withMinus negative s, IsVisible c := by
  cases negative with
  | false => exact h
  | true => exact List.forall_mem_cons.mpr ⟨⟨by decide, by decide⟩, h⟩

theorem withMinus_ne_nil {s : List Char} (h : s ≠ []) (negative : Bool) :
    withMinus negative s ≠ [] := by
  cases negative with
  | false => exact h
  | true => exact List.cons_ne_nil _ _

/-- A literal is read as the integer that it is the text of. -/
theorem readAs_of_isLiteral {n : Int} {s : List Char} (h : IsLiteral n s) : ReadAs n s := by
  cases h with
  | decimal hShort =>
      rw [toList_toString_signed]
      have hVisible : ∀ c ∈ numeral n.natAbs, IsVisible c := fun c hc => isVisible_of_mem_numeral hc
      refine ⟨withMinus_ne_nil (numeral_ne_nil _) _, visible_withMinus hVisible _, ?_⟩
      rw [isHexLiteral_withMinus, isHexLiteral_numeral, if_neg Bool.false_ne_true,
        readInteger_decimal hShort, signed_natAbs]
  | @hexadecimal negative m zeros x digits hValue hMark hDigits =>
      have hSome : ∀ c ∈ List.replicate zeros '0' ++ digits, (digitValue? 16 c).isSome = true :=
        isSome_digitValue?_of_lower hDigits
      have hWorth : ofDigits 16 (valuesIn 16 (List.replicate zeros '0' ++ digits)) = m :=
        ofDigits_hexadecimal hDigits
      have hVisible : ∀ c ∈ '0' :: x :: (List.replicate zeros '0' ++ digits), IsVisible c := by
        intro c hc
        rcases List.mem_cons.mp hc with rfl | hc
        · exact ⟨by decide, by decide⟩
        rcases List.mem_cons.mp hc with rfl | hc
        · rcases hMark with rfl | rfl
          · exact ⟨by decide, by decide⟩
          · exact ⟨by decide, by decide⟩
        rcases List.mem_append.mp hc with hZero | hDigit
        · rw [List.eq_of_mem_replicate hZero]
          exact ⟨by decide, by decide⟩
        · refine isVisible_of_lower (m := m) ?_
          rw [← hDigits]
          exact List.mem_map_of_mem hDigit
      have hNumeral : List.replicate zeros '0' ++ digits ≠ [] := by
        intro hNone
        rw [(List.append_eq_nil_iff.mp hNone).2, List.map_nil] at hDigits
        exact Nat.toDigits_ne_nil hDigits.symm
      have hStarts : StartsWithAscii ('0' :: x :: (List.replicate zeros '0' ++ digits)) :=
        ⟨'0', _, rfl, by decide, by decide⟩
      refine ⟨withMinus_ne_nil (List.cons_ne_nil _ _) _, visible_withMinus hVisible _, ?_⟩
      have hTaken : (if 16 = 16 then dropHexMark ('0' :: x :: (List.replicate zeros '0' ++ digits))
          else '0' :: x :: (List.replicate zeros '0' ++ digits)) =
          List.replicate zeros '0' ++ digits := by
        rw [if_pos rfl, dropHexMark_digits hMark hSome]
      have hRead := readInteger_digits hStarts hTaken hNumeral hSome
        (fun hTen => absurd hTen (by decide)) negative
      rw [isHexLiteral_marked hMark, if_pos rfl, hRead, hWorth, hValue]

/-- A text with a literal in it and white space around is read as the integer of the literal. -/
theorem readText_literal {n : Int} {before literal after : List Char}
    (hBefore : ∀ c ∈ before, isBlank c = true) (hLiteral : IsLiteral n literal)
    (hAfter : ∀ c ∈ after, isBlank c = true) :
    readText (String.ofList (before ++ literal ++ after)) = .ok n := by
  obtain ⟨hSome, hVisible, hValue⟩ := readAs_of_isLiteral hLiteral
  rw [readText, String.toList_ofList, trim_around hBefore hAfter hSome hVisible, Value.readLiteral,
    hValue]

theorem leafInteger_spelling {n : Int} {v : Value} (h : IsSpelling n v) : leafInteger v = .ok n := by
  cases h with
  | integer => rfl
  | cell kind => rfl
  | text hBefore hLiteral hAfter =>
      rw [leafInteger]
      exact readText_literal hBefore hLiteral hAfter
  | textCell hBefore hLiteral hAfter =>
      rw [leafInteger]
      exact readText_literal hBefore hLiteral hAfter

/-! ## All spellings -/

/-- All spellings of an integer stand for its residue, which lies between zero and the modulus; and
the decimal text of what a leaf stands for, if it is not too long, stands for the same. -/
theorem ofValue_spellings {prime : Nat} (hPrime : 2 ≤ prime) :
    (∀ (n : Int) (v : Value), IsSpelling n v →
      ofValue v prime = .ok (n % prime) ∧ 0 ≤ n % prime ∧ n % prime < prime) ∧
    (∀ (v : Value) (r : Int), ofValue v prime = .ok r → (numeral r.natAbs).length ≤ digitLimit →
      Value.integerText r = .ok (toString r) ∧ ofValue (.text (toString r)) prime = .ok r) := by
  constructor
  · intro n v h
    have hPlain : ∀ b, v ≠ .bool b := by
      rintro b rfl
      cases h
    refine ⟨(ofValue_eq_ok hPrime hPlain _).mpr ⟨n, leafInteger_spelling h, rfl⟩, ?_, ?_⟩
    · exact Int.emod_nonneg n (by omega)
    · exact Int.emod_lt_of_pos n (by omega)
  · intro v r h hShort
    obtain ⟨k, hk, rfl⟩ := ofValue_range hPrime h
    rw [Int.natAbs_natCast] at hShort
    refine ⟨?_, ofValue_numeral hk hShort⟩
    rw [Value.integerText, printInteger?_ofNat hShort]
    rfl

/-- Modulo 7, the number -31 and its texts stand for 4, and so does the text of 4. -/
theorem ofValue_spellings_minus :
    2 ≤ 7 ∧ IsSpelling (-31) (.text "\u2003-0X01f\n") ∧ IsSpelling (-31) (.text " -31") ∧
      ofValue (.text "\u2003-0X01f\n") (7 : Nat) = .ok 4 ∧
      ofValue (.text " -31") (7 : Nat) = .ok 4 ∧
      ofValue (.integerCell .int8 (-31)) (7 : Nat) = .ok 4 ∧
      Value.integerText 4 = .ok (toString 4) ∧
      ofValue (.text (toString 4)) (7 : Nat) = .ok 4 := by
  have hPrime : 2 ≤ 7 := by decide
  have hMarked : IsLiteral (-31)
      (withMinus true ('0' :: 'X' :: (List.replicate 1 '0' ++ ['1', 'f']))) :=
    .hexadecimal (show (-31 : Int) = signed true 31 from rfl) (.inr rfl) rfl
  have hDecimal : IsLiteral (-31) (toString (-31 : Int)).toList := .decimal (by decide)
  have hSpaced : ∀ c ∈ ['\u2003'], isBlank c = true := List.forall_mem_singleton.mpr rfl
  have hEnded : ∀ c ∈ ['\n'], isBlank c = true := List.forall_mem_singleton.mpr rfl
  have hFirst : IsSpelling (-31) (.text "\u2003-0X01f\n") := .text hSpaced hMarked hEnded
  have hSecond : IsSpelling (-31) (.text " -31") :=
    .text (List.forall_mem_singleton.mpr (show isBlank ' ' = true from rfl)) hDecimal nofun
  obtain ⟨hSpelled, hAgain⟩ := ofValue_spellings hPrime
  have hFour := (hSpelled _ _ hSecond).1
  obtain ⟨hText, hRead⟩ := hAgain _ _ hFour (by decide)
  exact ⟨hPrime, hFirst, hSecond, (hSpelled _ _ hFirst).1, hFour, (hSpelled _ _ (.cell .int8)).1,
    hText, hRead⟩

end CircuitBench.Field
