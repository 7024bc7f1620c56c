/-!
# White space

Symbol files, integer literals and tool messages are all read and shown with the white space around
them taken away, and each of them has to agree on what white space is.  This module fixes the class
once: the characters with the Unicode property `White_Space`, and the four separators `U+001C` to
`U+001F`, which text tools treat alike.

Text is handled as a list of characters, so that everything said about it is said by recursion on
that list.

## Main results

* `trimEnd_append_blank` : white space at the end of a text does not show in `trimEnd`.
* `trim_nil_iff` : a text is trimmed to nothing exactly when all of it is white space.
* `trim_around` : of visible text, the white space around it is taken away and nothing else.
-/

namespace CircuitBench.Text

/-! ## The class -/

/-- A white space character: a Unicode `White_Space` character, or one of the separators `U+001C` to
`U+001F`. -/
def isBlank (c : Char) : Bool :=
  let n := c.toNat
  (0x09 ≤ n && n ≤ 0x0D) || (0x1C ≤ n && n ≤ 0x20) || n == 0x85 || n == 0xA0 || n == 0x1680 ||
    (0x2000 ≤ n && n ≤ 0x200A) || n == 0x2028 || n == 0x2029 || n == 0x202F || n == 0x205F ||
    n == 0x3000

/-- A separator control character, `U+001C` to `U+001F`: blank in running text, but not beside a
number. -/
def isSeparator (c : Char) : Bool :=
  0x1C ≤ c.toNat && c.toNat ≤ 0x1F

/-! ## Trimming -/

/-- A text without the white space at its start. -/
def trimStart (s : List Char) : List Char :=
  s.dropWhile isBlank

/-- A text without the white space at its end. -/
def trimEnd (s : List Char) : List Char :=
  (s.reverse.dropWhile isBlank).reverse

/-- A text without the white space around it. -/
def trim (s : List Char) : List Char :=
  trimEnd (trimStart s)

/-- The white space around a string taken away. -/
def trimString (s : String) : String :=
  String.ofList (trim s.toList)

/-- The white space at the end of a string taken away. -/
def trimEndString (s : String) : String :=
  String.ofList (trimEnd s.toList)

theorem trimEnd_append_blank (s : List Char) {c : Char} (h : isBlank c = true) :
    trimEnd (s ++ [c]) = trimEnd s := by
  simp [trimEnd, h]

theorem trimEnd_append_of_not_blank (s : List Char) {c : Char} (h : isBlank c = false) :
    trimEnd (s ++ [c]) = s ++ [c] := by
  simp [trimEnd, h]

theorem trimStart_cons_of_not_blank (s : List Char) {c : Char} (h : isBlank c = false) :
    trimStart (c :: s) = c :: s := by
  simp [trimStart, h]

theorem dropWhile_eq_nil_iff_all (p : Char → Bool) (s : List Char) :
    s.dropWhile p = [] ↔ ∀ c ∈ s, p c = true := by
  induction s with
  | nil => simp
  | cons c s ih => by_cases h : p c <;> simp [h, ih]

theorem trim_nil_iff (s : List Char) : trim s = [] ↔ ∀ c ∈ s, isBlank c = true := by
  constructor
  · intro h c hc
    have hall : ∀ d ∈ trimStart s, isBlank d = true := by
      have h' : (trimStart s).reverse.dropWhile isBlank = [] := by
        simpa [trim, trimEnd] using h
      intro d hd
      exact (dropWhile_eq_nil_iff_all _ _).1 h' d (by simpa using hd)
    have hsplit : s.takeWhile isBlank ++ trimStart s = s := List.takeWhile_append_dropWhile
    rw [← hsplit] at hc
    rcases List.mem_append.1 hc with hc | hc
    · exact List.all_eq_true.1 (List.all_takeWhile) c hc
    · exact hall c hc
  · intro h
    have hs : trimStart s = [] := (dropWhile_eq_nil_iff_all _ _).2 h
    simp [trim, hs, trimEnd]

/-! ## Visible text -/

/-- Whether a character is one of the visible ASCII characters. -/
def IsVisible (c : Char) : Prop :=
  0x21 ≤ c.toNat ∧ c.toNat ≤ 0x7E

theorem isBlank_of_isVisible {c : Char} (h : IsVisible c) : isBlank c = false := by
  obtain ⟨hLow, hHigh⟩ := h
  unfold isBlank
  simp only [Bool.or_eq_false_iff, Bool.and_eq_false_iff, decide_eq_false_iff_not,
    beq_eq_false_iff_ne]
  omega

theorem dropWhile_eq_self {p : Char → Bool} {s : List Char} (h : ∀ c ∈ s, p c = false) :
    s.dropWhile p = s := by
  cases s with
  | nil => rfl
  | cons c rest =>
      have hFirst := h c List.mem_cons_self
      exact List.dropWhile_cons_of_neg (by rw [hFirst]; exact Bool.false_ne_true)

/-- Of visible text, the white space around it is taken away and nothing else. -/
theorem trim_around {before s after : List Char} (hBefore : ∀ c ∈ before, isBlank c = true)
    (hAfter : ∀ c ∈ after, isBlank c = true) (hSome : s ≠ []) (h : ∀ c ∈ s, IsVisible c) :
    trim (before ++ s ++ after) = s := by
  obtain ⟨first, rest, rfl⟩ := List.exists_cons_of_ne_nil hSome
  have hFirst : isBlank first = false := isBlank_of_isVisible (h first List.mem_cons_self)
  have hKept : ∀ c ∈ (first :: rest).reverse, isBlank c = false :=
    fun c hc => isBlank_of_isVisible (h c (List.mem_reverse.mp hc))
  have hStart : trimStart (before ++ (first :: rest) ++ after) = (first :: rest) ++ after := by
    rw [trimStart, List.append_assoc, List.dropWhile_append_of_pos hBefore, List.cons_append,
      List.dropWhile_cons_of_neg (by simp [hFirst])]
  rw [trim, hStart, trimEnd, List.reverse_append,
    List.dropWhile_append_of_pos fun c hc => hAfter c (List.mem_reverse.mp hc),
    dropWhile_eq_self hKept, List.reverse_reverse]

end CircuitBench.Text
