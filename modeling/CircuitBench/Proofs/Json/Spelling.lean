import CircuitBench.Proofs.Json.Strings
import CircuitBench.Proofs.Number.Decimal

/-!
# Texts that spell values

A text spells a value if the reader takes just that text off the front of what it is given, and
makes that value of it, whatever stands behind the text that can stand behind a value: nothing,
white space, a separator or a closing bracket.  The reader needs as much fuel as the text is long,
and as many levels of nesting as the value has.

A value without parts is spelled by what it is written as.

## Main results

* `spells_null`, `spells_bool` : words spell their values.
* `spells_int` : an integer is spelled by what it is printed as.
* `spells_text` : a text without halves is spelled by its string.
-/

namespace CircuitBench.Json

open Number Text

/-! ## Borders -/

/-- The characters that can stand behind a value. -/
def closers : List Char :=
  [' ', '\t', '\n', '\r', ',', ']', '\x7d']

/-- Whether a value is complete in front of a text. -/
def EndsValue (rest : List Char) : Prop :=
  ∀ c, rest.head? = some c → c ∈ closers

theorem endsValue_nil : EndsValue [] := by
  intro c h
  cases h

theorem endsValue_cons {c : Char} (h : c ∈ closers) (rest : List Char) : EndsValue (c :: rest) := by
  intro d hd
  cases hd
  exact h

/-- Whether a text is white space. -/
def AllBlank (s : List Char) : Prop :=
  ∀ c ∈ s, isBlank c = true

theorem mem_closers_of_isBlank {c : Char} (h : isBlank c = true) : c ∈ closers := by
  unfold isBlank at h
  simp only [Bool.or_eq_true, beq_iff_eq] at h
  rcases h with ((rfl | rfl) | rfl) | rfl <;> decide

theorem isHalf_of_isBlank {c : Char} (h : isBlank c = true) : isHalf c = false := by
  unfold isBlank at h
  simp only [Bool.or_eq_true, beq_iff_eq] at h
  rcases h with ((rfl | rfl) | rfl) | rfl <;> decide

/-- White space in front of a border. -/
theorem endsValue_append {gap : List Char} (hGap : AllBlank gap) {rest : List Char}
    (h : EndsValue rest) : EndsValue (gap ++ rest) := by
  cases gap with
  | nil => exact h
  | cons c gap => exact endsValue_cons (mem_closers_of_isBlank (hGap c List.mem_cons_self)) _

theorem skipBlank_append {gap : List Char} (hGap : AllBlank gap) (s : List Char) :
    skipBlank (gap ++ s) = skipBlank s := by
  induction gap with
  | nil => rfl
  | cons c gap ih =>
      rw [List.cons_append, skipBlank, List.dropWhile_cons_of_pos (hGap c List.mem_cons_self)]
      exact ih fun d hd => hGap d (List.mem_cons_of_mem c hd)

/-! ## Spelling -/

/-- Whether a text spells a value that is nested to so many levels. -/
structure Spells (levels : Nat) (v : Value) (s : List Char) : Prop where
  starts : ∃ c rest, s = c :: rest ∧ isBlank c = false ∧ c ≠ ']' ∧ c ≠ '\x7d'
  whole : ∀ c ∈ s, isHalf c = false
  reads : ∀ {fuel depth : Nat} {rest : List Char}, s.length ≤ fuel → levels ≤ depth →
    EndsValue rest → readValue fuel depth (s ++ rest) = .ok (v, rest)

namespace Spells

variable {levels : Nat} {v : Value} {s : List Char}

/-- More levels may be allowed. -/
theorem mono (h : Spells levels v s) {more : Nat} (hMore : levels ≤ more) : Spells more v s :=
  ⟨h.starts, h.whole, fun hFuel hDepth => h.reads hFuel (Nat.le_trans hMore hDepth)⟩

/-- A text that spells a value has no white space in front. -/
theorem skipBlank_append (h : Spells levels v s) (rest : List Char) :
    skipBlank (s ++ rest) = s ++ rest := by
  obtain ⟨c, body, rfl, hBlank, -, -⟩ := h.starts
  exact skipBlank_of_not_blank hBlank _

end Spells

/-! ## Words -/

/-- What starts like neither a string nor a container is read as a word, if it is one. -/
theorem readValue_word {fuel depth : Nat} {c : Char} {rest r : List Char} {v : Value}
    (hQuote : c ≠ doubleQuote) (hList : c ≠ '[') (hTable : c ≠ '\x7b')
    (h : readWord? (c :: rest) = some (v, r)) :
    readValue (fuel + 1) depth (c :: rest) = .ok (v, r) := by
  unfold readValue
  rw [if_neg hQuote, if_neg hList, if_neg hTable, h]

/-- What starts like nothing else is read as a number. -/
theorem readValue_number {fuel depth : Nat} {c : Char} {rest : List Char}
    (hQuote : c ≠ doubleQuote) (hList : c ≠ '[') (hTable : c ≠ '\x7b')
    (h : readWord? (c :: rest) = none) :
    readValue (fuel + 1) depth (c :: rest) = readNumber (c :: rest) := by
  unfold readValue
  rw [if_neg hQuote, if_neg hList, if_neg hTable, h]

/-- A word of the given table that is read wherever it stands in front spells its value. -/
theorem spells_word {c : Char} {body : List Char} {v : Value}
    (hStart : isBlank c = false ∧ c ≠ ']' ∧ c ≠ '\x7d' ∧ c ≠ doubleQuote ∧ c ≠ '[' ∧ c ≠ '\x7b')
    (hWhole : (c :: body).any isHalf = false)
    (h : ∀ rest, readWord? (c :: body ++ rest) = some (v, rest)) : Spells 0 v (c :: body) := by
  obtain ⟨hBlank, hBracket, hBrace, hQuote, hList, hTable⟩ := hStart
  have hEach : ∀ d ∈ c :: body, isHalf d = false := by
    intro d hd
    rw [← Bool.not_eq_true]
    exact List.any_eq_false.mp hWhole d hd
  refine ⟨⟨c, body, rfl, hBlank, hBracket, hBrace⟩, hEach, ?_⟩
  intro fuel depth rest hFuel _ _
  cases fuel with
  | zero => cases hFuel
  | succ fuel => exact readValue_word hQuote hList hTable (h rest)

theorem spells_null : Spells 0 .null "null".toList :=
  spells_word (by decide) (by decide) fun _ => rfl

theorem spells_bool (b : Bool) : Spells 0 (.bool b) (truthWord b).toList := by
  cases b with
  | false => exact spells_word (by decide) (by decide) fun _ => rfl
  | true => exact spells_word (by decide) (by decide) fun _ => rfl

/-! ## Numbers -/

theorem isDigit_of_mem_numeral {n : Nat} {c : Char} (h : c ∈ numeral n) : isDigit c = true := by
  have hDigit := digit_of_mem_numeral h
  rw [isDigit, Bool.and_eq_true, decide_eq_true_eq, decide_eq_true_eq]
  exact hDigit

/-- What stands behind a value goes on with no number. -/
theorem not_number_of_mem_closers {c : Char} (h : c ∈ closers) :
    isDigit c = false ∧ c ≠ '.' ∧ ¬ (c = 'e' ∨ c = 'E') := by
  simp only [closers, List.mem_cons, List.not_mem_nil, or_false] at h
  rcases h with rfl | rfl | rfl | rfl | rfl | rfl | rfl <;> decide

theorem splitFraction_of_endsValue {rest : List Char} (h : EndsValue rest) :
    splitFraction rest = (none, rest) := by
  unfold splitFraction
  split
  · exact absurd rfl (not_number_of_mem_closers (h '.' rfl)).2.1
  · rfl

theorem splitExponent_of_endsValue {rest : List Char} (h : EndsValue rest) :
    splitExponent rest = (none, rest) := by
  cases rest with
  | nil => rfl
  | cons c rest => rw [splitExponent, if_neg (not_number_of_mem_closers (h c rfl)).2.2]

/-- The digits of a numeral are taken off a text, and no more. -/
theorem splitInteger_numeral (n : Nat) {rest : List Char} (h : EndsValue rest) :
    splitInteger (numeral n ++ rest) = (numeral n, rest) := by
  have hStop : rest.takeWhile isDigit = [] ∧ rest.dropWhile isDigit = rest := by
    cases rest with
    | nil => exact ⟨rfl, rfl⟩
    | cons c rest =>
        have hOther : ¬ isDigit c = true := by
          rw [(not_number_of_mem_closers (h c rfl)).1]
          exact Bool.false_ne_true
        exact ⟨List.takeWhile_cons_of_neg hOther, List.dropWhile_cons_of_neg hOther⟩
  have hDigits : ∀ c ∈ numeral n, isDigit c = true := fun c hc => isDigit_of_mem_numeral hc
  unfold splitInteger
  split
  · rename_i more hZero
    obtain ⟨c, digits, hNumeral⟩ := List.exists_cons_of_ne_nil (numeral_ne_nil n)
    rw [hNumeral, List.cons_append] at hZero
    rw [(List.cons.inj hZero).1] at hNumeral
    -- only the number zero starts with a zero, and its numeral has no more digits
    have hSingle : numeral n = ['0'] := by
      rw [numeral_zero_cons hNumeral]
      rfl
    rw [hSingle] at hNumeral
    rw [hSingle, ← (List.cons.inj hZero).2, ← (List.cons.inj hNumeral).2, List.nil_append]
  · rw [List.takeWhile_append_of_pos hDigits, List.dropWhile_append_of_pos hDigits, hStop.1,
      hStop.2, List.append_nil]

/-- A numeral that is not too long is read as its number, with a sign in front or without one. -/
theorem readNumber_numeral {n : Nat} (hShort : (numeral n).length ≤ digitLimit) {rest : List Char}
    (h : EndsValue rest) :
    readNumber (numeral n ++ rest) = .ok (.int n, rest) ∧
      readNumber ('-' :: numeral n ++ rest) = .ok (.int (-n), rest) := by
  have hSome : (numeral n).isEmpty = false := by
    rw [List.isEmpty_eq_false_iff]
    exact numeral_ne_nil n
  have hCount : ¬ digitLimit < (numeral n).length := Nat.not_lt.mpr hShort
  have hWorth : ofDigits 10 (digitValues (numeral n)) = n := ofDigits_numeral n
  have hParts := splitInteger_numeral n h
  constructor
  · unfold readNumber
    split
    · rename_i hSign
      split at hSign
      · rename_i digits hMinus
        obtain ⟨c, more, hNumeral⟩ := List.exists_cons_of_ne_nil (numeral_ne_nil n)
        have hDigit : isDigit c = true :=
          isDigit_of_mem_numeral (n := n) (by rw [hNumeral]; exact List.mem_cons_self)
        rw [hNumeral, List.cons_append] at hMinus
        rw [(List.cons.inj hMinus).1] at hDigit
        cases hDigit
      · cases hSign
        simp only [hParts, hSome, splitFraction_of_endsValue h, splitExponent_of_endsValue h,
          hCount, hWorth, Option.isNone_none, and_self, if_true, if_false, Bool.false_eq_true]
        rfl
  · rw [List.cons_append, readNumber]
    simp only [hParts, hSome, splitFraction_of_endsValue h, splitExponent_of_endsValue h,
      hCount, hWorth, Option.isNone_none, and_self, if_true, if_false, Bool.false_eq_true]
    rfl

/-- A text that starts like none of the words is no word. -/
theorem readWord?_eq_none {s : List Char} (h : ∀ w ∈ words, ¬ w.1.toList <+: s) :
    readWord? s = none := by
  rw [readWord?, List.findSome?_eq_none_iff]
  intro w hw
  rw [afterWord?, if_neg (by rw [List.isPrefixOf_iff_prefix]; exact h w hw)]
  rfl

/-- No word starts with a digit. -/
theorem readWord?_of_digit {c : Char} (h : isDigit c = true) (rest : List Char) :
    readWord? (c :: rest) = none := by
  have hStarts : ∀ w ∈ words, w.1.toList.head?.map isDigit = some false := by decide
  refine readWord?_eq_none fun w hw hPrefix => ?_
  have hFirst := hStarts w hw
  obtain ⟨more, hMore⟩ := hPrefix
  cases hWord : w.1.toList with
  | nil =>
      rw [hWord] at hFirst
      cases hFirst
  | cons d word =>
      rw [hWord, List.head?_cons, Option.map_some] at hFirst
      rw [hWord, List.cons_append] at hMore
      rw [(List.cons.inj hMore).1, h] at hFirst
      cases hFirst

/-- No word has a digit behind a minus. -/
theorem readWord?_minus {c : Char} (h : isDigit c = true) (rest : List Char) :
    readWord? ('-' :: c :: rest) = none := by
  have hSecond : ∀ w ∈ words, ¬ w.1.toList <+: ['-'] ∧
      (w.1.toList.head? = some '-' → w.1.toList.tail.head?.map isDigit = some false) := by
    decide
  refine readWord?_eq_none fun w hw hPrefix => ?_
  obtain ⟨hLong, hDigit⟩ := hSecond w hw
  obtain ⟨more, hMore⟩ := hPrefix
  cases hWord : w.1.toList with
  | nil =>
      rw [hWord] at hLong
      exact hLong (List.nil_prefix)
  | cons d word =>
      rw [hWord, List.cons_append] at hMore
      obtain ⟨rfl, hRest⟩ := List.cons.inj hMore
      rw [hWord] at hDigit
      have hFirst := hDigit rfl
      cases word with
      | nil => cases hFirst
      | cons e word =>
          rw [List.tail_cons, List.head?_cons, Option.map_some] at hFirst
          rw [List.cons_append] at hRest
          rw [(List.cons.inj hRest).1, h] at hFirst
          cases hFirst

/-- A digit or a minus starts nothing but a number. -/
theorem starts_number {c : Char} (h : isDigit c = true ∨ c = '-') :
    (isBlank c = false ∧ c ≠ ']' ∧ c ≠ '\x7d') ∧ c ≠ doubleQuote ∧ c ≠ '[' ∧ c ≠ '\x7b' := by
  have hOther : ∀ d, isDigit d = false ∧ d ≠ '-' → c ≠ d := by
    rintro d ⟨hDigit, hMinus⟩ rfl
    rcases h with h | h
    · rw [hDigit] at h
      cases h
    · exact hMinus h
  have hBlank : isBlank c = false := by
    unfold isBlank
    simp only [Bool.or_eq_false_iff, beq_eq_false_iff_ne]
    exact ⟨⟨⟨hOther _ (by decide), hOther _ (by decide)⟩, hOther _ (by decide)⟩,
      hOther _ (by decide)⟩
  exact ⟨⟨hBlank, hOther _ (by decide), hOther _ (by decide)⟩, hOther _ (by decide),
    hOther _ (by decide), hOther _ (by decide)⟩

/-- A number is spelled by its numeral. -/
theorem spells_number {c : Char} {body : List Char} {n : Int} (hStart : isDigit c = true ∨ c = '-')
    (hAscii : ∀ d ∈ c :: body, d.toNat < 0x80)
    (hWord : ∀ rest, readWord? (c :: body ++ rest) = none)
    (h : ∀ rest, EndsValue rest → readNumber (c :: body ++ rest) = .ok (.int n, rest)) :
    Spells 0 (.int n) (c :: body) := by
  obtain ⟨hPlain, hQuote, hList, hTable⟩ := starts_number hStart
  refine ⟨⟨c, body, rfl, hPlain⟩, fun d hd => isHalf_of_ascii (hAscii d hd), ?_⟩
  intro fuel depth rest hFuel _ hEnds
  cases fuel with
  | zero => cases hFuel
  | succ fuel =>
      exact (readValue_number hQuote hList hTable (hWord rest)).trans (h rest hEnds)

/-- An integer is spelled by what it is printed as. -/
theorem spells_int {n : Int} {s : String} (h : printInteger? n = some s) :
    Spells 0 (.int n) s.toList := by
  obtain ⟨rfl, hShort⟩ := printInteger?_eq_some h
  obtain ⟨c, digits, hNumeral⟩ := List.exists_cons_of_ne_nil (numeral_ne_nil n.natAbs)
  have hDigits : ∀ d ∈ c :: digits, d.toNat < 0x80 := by
    intro d hd
    have hDigit := digit_of_mem_numeral (n := n.natAbs) (by rw [hNumeral]; exact hd)
    omega
  have hFirst : isDigit c = true :=
    isDigit_of_mem_numeral (n := n.natAbs) (by rw [hNumeral]; exact List.mem_cons_self)
  rw [toList_toString_int, hNumeral]
  split
  · rename_i hNegative
    have hValue : (-(n.natAbs : Int)) = n := by omega
    refine spells_number (.inr rfl) ?_ (fun rest => readWord?_minus hFirst _) ?_
    · intro d hd
      rcases List.mem_cons.mp hd with rfl | hd
      · decide
      · exact hDigits d hd
    · intro rest hEnds
      rw [← hNumeral, (readNumber_numeral hShort hEnds).2, hValue]
  · rename_i hNatural
    have hValue : (n.natAbs : Int) = n := by omega
    refine spells_number (.inl hFirst) hDigits (fun rest => readWord?_of_digit hFirst _) ?_
    intro rest hEnds
    rw [← hNumeral, (readNumber_numeral hShort hEnds).1, hValue]

/-! ## Texts -/

/-- A text without halves is spelled by its string. -/
theorem spells_text {style : Style} {s : String} (h : hasHalf s = false) :
    Spells 0 (.text s) (stringText style (codes s)) := by
  refine ⟨⟨doubleQuote, _, rfl, by decide, by decide, by decide⟩,
    fun c hc => isHalf_of_mem_stringText h hc, ?_⟩
  intro fuel depth rest hFuel _ _
  obtain ⟨body, hText, hRead⟩ : ∃ body, stringText style (codes s) = doubleQuote :: body ∧
      readString (body ++ rest) = .ok (.text s, rest) := readString_stringText h rest
  rw [hText] at hFuel ⊢
  cases fuel with
  | zero => cases hFuel
  | succ fuel =>
      rw [List.cons_append]
      unfold readValue
      rw [if_pos rfl, hRead]

end CircuitBench.Json
