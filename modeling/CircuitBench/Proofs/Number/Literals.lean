import CircuitBench.Number.Literal

/-!
# The decimal literals of integers

Which texts are decimal literals is a small grammar: white space, one sign or none, a run of decimal
digits of any scripts with single underscores between them, and white space.  A run may not have more
digits than the limit.  The reader accepts these texts and no others, and makes of each the integer
that its digits are worth.

## Main results

* `scanFrom_run` : a run of digits is taken off a text as far as it goes.
* `exists_run_of_scanFrom` : nothing but a run of digits is taken off a text.
* `readInteger_eq_ok_iff` : a text is read as an integer exactly when it is a literal of it.
-/

namespace CircuitBench.Number

open Text

/-! ## The grammar -/

/-- What may follow a digit inside a run, with the values of its digits: further digits, each with an
underscore in front or without. -/
inductive IsRunTail (base : Nat) : List Char → List Nat → Prop
  | nil : IsRunTail base [] []
  | digit {c : Char} {d : Nat} {s : List Char} {ds : List Nat}
      (hDigit : digitValue? base c = some d) (hTail : IsRunTail base s ds) :
      IsRunTail base (c :: s) (d :: ds)
  | underscore {c : Char} {d : Nat} {s : List Char} {ds : List Nat}
      (hDigit : digitValue? base c = some d) (hTail : IsRunTail base s ds) :
      IsRunTail base ('_' :: c :: s) (d :: ds)

/-- A run of digits, with their values: it starts with a digit. -/
inductive IsRun (base : Nat) : List Char → List Nat → Prop
  | digit {c : Char} {d : Nat} {s : List Char} {ds : List Nat}
      (hDigit : digitValue? base c = some d) (hTail : IsRunTail base s ds) :
      IsRun base (c :: s) (d :: ds)

/-- The signs that may stand in front of a run: whether one means a minus, and how it is spelled. -/
inductive IsSign : Bool → List Char → Prop
  | none : IsSign false []
  | plus : IsSign false ['+']
  | minus : IsSign true ['-']

/-- A text is a decimal literal of an integer: a sign and a run of digits that is not too long, with
white space around them. -/
inductive IsDecimalLiteral : Int → List Char → Prop
  | spelled {negative : Bool} {before sign run after : List Char} {digits : List Nat}
      (hBefore : ∀ c ∈ before, isPadding c = true) (hSign : IsSign negative sign)
      (hRun : IsRun 10 run digits) (hShort : digits.length ≤ digitLimit)
      (hAfter : ∀ c ∈ after, isPadding c = true) :
      IsDecimalLiteral (signed negative (ofDigits 10 digits)) (before ++ (sign ++ (run ++ after)))

/-! ## Runs of digits -/

section Runs

variable {base : Nat}

theorem digitValue?_underscore (base : Nat) : digitValue? base '_' = none := rfl

/-- Whether a run of digits ends in front of a text. -/
def EndsRun (base : Nat) (rest : List Char) : Prop :=
  ∀ c ∈ rest.head?, digitValue? base c = none ∧ c ≠ '_'

theorem scanFrom_of_endsRun {rest : List Char} (h : EndsRun base rest) (afterDigit : Bool) :
    scanFrom base afterDigit rest = some ([], rest) := by
  cases rest with
  | nil => rfl
  | cons c rest =>
      obtain ⟨hDigit, hUnderscore⟩ := h c rfl
      rw [scanFrom, hDigit]
      exact if_neg hUnderscore

/-- After a digit, the rest of a run is taken off a text. -/
theorem scanFrom_runTail {s rest : List Char} {digits : List Nat} (h : IsRunTail base s digits)
    (hEnd : EndsRun base rest) : scanFrom base true (s ++ rest) = some (digits, rest) := by
  induction h with
  | nil => exact scanFrom_of_endsRun hEnd true
  | digit hDigit hTail ih =>
      rw [List.cons_append, scanFrom, hDigit]
      simp only [ih, Option.map_some]
  | @underscore c d s ds hDigit hTail ih =>
      have hStarts : (true && startsWithDigit base (c :: (s ++ rest))) = true := by
        rw [Bool.true_and, startsWithDigit, hDigit]
        rfl
      rw [List.cons_append, List.cons_append, scanFrom, digitValue?_underscore]
      simp only [if_true, if_pos hStarts]
      rw [scanFrom, hDigit]
      simp only [ih, Option.map_some]

/-- A run of digits is taken off a text as far as it goes. -/
theorem scanFrom_run {s rest : List Char} {digits : List Nat} (h : IsRun base s digits)
    (hEnd : EndsRun base rest) (afterDigit : Bool) :
    scanFrom base afterDigit (s ++ rest) = some (digits, rest) := by
  obtain ⟨hDigit, hTail⟩ := h
  rw [List.cons_append, scanFrom, hDigit]
  simp only [scanFrom_runTail hTail hEnd, Option.map_some]

/-- Behind an underscore, a run goes on as it would start. -/
theorem IsRun.afterUnderscore {s : List Char} {digits : List Nat} (h : IsRun base s digits) :
    IsRunTail base ('_' :: s) digits := by
  obtain ⟨hDigit, hTail⟩ := h
  exact .underscore hDigit hTail

theorem ne_nil_of_startsWithDigit {s rest : List Char} {digits : List Nat} {afterDigit : Bool}
    (hStarts : startsWithDigit base s = true)
    (h : scanFrom base afterDigit s = some (digits, rest)) : digits ≠ [] := by
  cases s with
  | nil => cases hStarts
  | cons c s =>
      obtain ⟨d, hDigit⟩ := Option.isSome_iff_exists.mp hStarts
      rw [scanFrom] at h
      simp only [hDigit] at h
      obtain ⟨⟨ds, r⟩, -, hPair⟩ := Option.map_eq_some_iff.mp h
      cases hPair
      exact List.cons_ne_nil d ds

/-- What is taken off a text is a run of digits, or nothing; after a digit it is the rest of a
run. -/
theorem exists_run_of_scanFrom {s rest : List Char} {digits : List Nat} {afterDigit : Bool}
    (h : scanFrom base afterDigit s = some (digits, rest)) :
    ∃ front, s = front ++ rest ∧ (digits ≠ [] → afterDigit = false → IsRun base front digits) ∧
      (afterDigit = true → IsRunTail base front digits) := by
  induction s generalizing afterDigit digits with
  | nil =>
      cases h
      exact ⟨[], rfl, fun hSome => absurd rfl hSome, fun _ => .nil⟩
  | cons c s ih =>
      rw [scanFrom] at h
      cases hDigit : digitValue? base c with
      | some d =>
          simp only [hDigit] at h
          obtain ⟨⟨ds, r⟩, hScan, hPair⟩ := Option.map_eq_some_iff.mp h
          cases hPair
          obtain ⟨front, rfl, -, hTail⟩ := ih hScan
          have hTail := hTail rfl
          exact ⟨c :: front, rfl, fun _ _ => .digit hDigit hTail, fun _ => .digit hDigit hTail⟩
      | none =>
          simp only [hDigit] at h
          split at h
          · rename_i hUnderscore
            subst hUnderscore
            split at h
            · rename_i hMore
              obtain ⟨rfl, hStarts⟩ := Bool.and_eq_true_iff.mp hMore
              obtain ⟨front, hSplit, hRun, -⟩ := ih h
              have hRun := hRun (ne_nil_of_startsWithDigit hStarts h) rfl
              exact ⟨'_' :: front, by rw [hSplit, List.cons_append], (fun _ hFirst => nomatch hFirst),
                fun _ => hRun.afterUnderscore⟩
            · cases h
          · cases h
            exact ⟨[], rfl, fun hSome => absurd rfl hSome, fun _ => .nil⟩

end Runs

/-! ## White space and signs -/

/-- The code points of white space. -/
def blankCodes : List Nat :=
  [0x09, 0x0A, 0x0B, 0x0C, 0x0D, 0x1C, 0x1D, 0x1E, 0x1F, 0x20, 0x85, 0xA0, 0x1680, 0x2000, 0x2001,
    0x2002, 0x2003, 0x2004, 0x2005, 0x2006, 0x2007, 0x2008, 0x2009, 0x200A, 0x2028, 0x2029, 0x202F,
    0x205F, 0x3000]

theorem mem_blankCodes {c : Char} (h : isBlank c = true) : c.toNat ∈ blankCodes := by
  simp only [isBlank, Bool.or_eq_true, Bool.and_eq_true, decide_eq_true_eq, beq_iff_eq] at h
  simp only [blankCodes, List.mem_cons, List.not_mem_nil, or_false]
  omega

/-- White space is no digit. -/
theorem digitValue?_of_isBlank {c : Char} (h : isBlank c = true) : digitValue? 10 c = none := by
  have hApart : ∀ n ∈ blankCodes, ¬(0x30 ≤ n ∧ n ≤ 0x39) ∧ ¬(0x61 ≤ n ∧ n ≤ 0x7A) ∧
      ¬(0x41 ≤ n ∧ n ≤ 0x5A) ∧ ∀ z ∈ decimalZeros, ¬(z ≤ n ∧ n < z + 10) := by
    decide +kernel
  obtain ⟨hAscii, hLower, hUpper, hZeros⟩ := hApart _ (mem_blankCodes h)
  have hFind : decimalZeros.find? (fun z => decide (z ≤ c.toNat ∧ c.toNat < z + 10)) = none :=
    List.find?_eq_none.mpr fun z hz => by simpa using hZeros z hz
  have hDecimal : decimalDigit? c = none := by
    simp only [decimalDigit?, if_neg hAscii, hFind, Option.map_none, ite_self]
  have hLetter : letterDigit? c = none := by
    rw [letterDigit?, if_neg hLower, if_neg hUpper]
  rw [digitValue?, hDecimal, hLetter]
  rfl

/-- White space around a number ends a run of digits. -/
theorem endsRun_of_padding {after : List Char} (h : ∀ c ∈ after, isPadding c = true) :
    EndsRun 10 after := by
  intro c hc
  have hPadding := h c (List.mem_of_mem_head? hc)
  have hBlank : isBlank c = true := (Bool.and_eq_true_iff.mp hPadding).1
  refine ⟨digitValue?_of_isBlank hBlank, ?_⟩
  rintro rfl
  exact absurd hBlank (by decide)

/-- A run of digits starts with neither white space nor a sign. -/
theorem IsRun.start {s : List Char} {digits : List Nat} (h : IsRun 10 s digits) :
    ∃ c rest, s = c :: rest ∧ isPadding c = false ∧ c ≠ '+' ∧ c ≠ '-' := by
  obtain ⟨hDigit, -⟩ := h
  rename_i c d rest ds
  refine ⟨c, rest, rfl, ?_, ?_, ?_⟩
  · rw [← Bool.not_eq_true]
    intro hPadding
    have hBlank : isBlank c = true := (Bool.and_eq_true_iff.mp hPadding).1
    rw [digitValue?_of_isBlank hBlank] at hDigit
    cases hDigit
  · rintro rfl
    cases hDigit
  · rintro rfl
    cases hDigit

/-- The white space and the sign in front of a run of digits are taken off. -/
theorem splitSign_spelled {negative : Bool} {before sign run : List Char} {digits : List Nat}
    (hBefore : ∀ c ∈ before, isPadding c = true) (hSign : IsSign negative sign)
    (hRun : IsRun 10 run digits) (after : List Char) :
    splitSign ((before ++ (sign ++ (run ++ after))).dropWhile isPadding) =
      (negative, run ++ after) := by
  obtain ⟨c, rest, rfl, hPadding, hPlus, hMinus⟩ := hRun.start
  rw [List.dropWhile_append_of_pos hBefore]
  cases hSign with
  | none =>
      rw [List.nil_append, List.cons_append, List.dropWhile_cons_of_neg (by simp [hPadding]),
        splitSign]
      · exact fun rest' hFirst => hPlus (List.cons.inj hFirst).1
      · exact fun rest' hFirst => hMinus (List.cons.inj hFirst).1
  | plus => rfl
  | minus => rfl

/-- What is left behind a sign had that sign in front. -/
theorem exists_sign {s body : List Char} {negative : Bool} (h : splitSign s = (negative, body)) :
    ∃ sign, IsSign negative sign ∧ s = sign ++ body := by
  unfold splitSign at h
  split at h
  · cases h
    exact ⟨['+'], .plus, rfl⟩
  · cases h
    exact ⟨['-'], .minus, rfl⟩
  · cases h
    exact ⟨[], .none, rfl⟩

/-! ## Reading -/

/-- A text is read as an integer exactly when it is a decimal literal of it. -/
theorem readInteger_eq_ok_iff (s : List Char) (n : Int) :
    readInteger 10 s = .ok n ↔ IsDecimalLiteral n s := by
  constructor
  · intro h
    obtain ⟨negative, body, hSplit⟩ : ∃ negative body,
      splitSign (s.dropWhile isPadding) = (negative, body) := ⟨_, _, rfl⟩
    have hTen : ¬(10 = 16) := by decide
    simp only [readInteger, hSplit, if_neg hTen] at h
    cases hScan : scanDigits 10 body with
    | none => simp only [hScan] at h; cases h
    | some scanned =>
        obtain ⟨digits, after⟩ := scanned
        simp only [hScan] at h
        split at h
        · cases h
        rename_i hSome
        split at h
        · cases h
        rename_i hLong
        split at h
        · rename_i hAfter
          cases h
          obtain ⟨sign, hSign, hFront⟩ := exists_sign hSplit
          obtain ⟨run, rfl, hRun, -⟩ := exists_run_of_scanFrom hScan
          have hDigits : digits ≠ [] := fun hNil => hSome (List.isEmpty_iff.mpr hNil)
          have hShort : digits.length ≤ digitLimit :=
            Nat.le_of_not_lt fun hLonger => hLong ⟨trivial, hLonger⟩
          have hBefore : ∀ c ∈ s.takeWhile isPadding, isPadding c = true :=
            List.all_eq_true.mp List.all_takeWhile
          rw [← List.takeWhile_append_dropWhile (p := isPadding) (l := s), hFront]
          exact .spelled hBefore hSign (hRun hDigits rfl) hShort (List.all_eq_true.mp hAfter)
        · cases h
  · rintro ⟨hBefore, hSign, hRun, hShort, hAfter⟩
    rename_i digits
    have hScan := scanFrom_run hRun (endsRun_of_padding hAfter) false
    have hSome : digits.isEmpty = false := by
      cases hRun
      rfl
    have hTen : ¬(10 = 16) := by decide
    rw [readInteger, splitSign_spelled hBefore hSign hRun]
    simp only [if_neg hTen, scanDigits, hScan, hSome, true_and, if_neg (Nat.not_lt.mpr hShort),
      Bool.false_eq_true, if_false, List.all_eq_true.mpr hAfter, if_true]

end CircuitBench.Number
