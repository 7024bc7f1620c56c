/-!
# Halves of surrogate pairs

Formats with code units of sixteen bits spell a code point beyond them by a pair of surrogates, and
so can spell one half of a pair.  A half is no character, and no encoding of characters can carry
it; but a text that holds one can still be compared, shown and refused.  In a text a half is kept as
a stand-in, a character of the thirteenth plane, where nothing is assigned, at a fixed distance from
the half.  So these 2048 characters cannot stand for themselves in a text: a text in which one of
them is meant is set aside, and wherever texts are asked to hold no half, they hold none of these
characters either.

Texts are ordered by the code points that their characters stand for.

## Main results

* `codeOf_charOfCode` : the character of half of a pair stands for it.
* `codes_of_whole` : in a text without halves, every character stands for itself.
-/

namespace CircuitBench.Text

/-! ## Characters -/

/-- The first half of a surrogate pair. -/
def isHighSurrogate (n : Nat) : Bool := 0xD800 ≤ n && n ≤ 0xDBFF

/-- The second half of a surrogate pair. -/
def isLowSurrogate (n : Nat) : Bool := 0xDC00 ≤ n && n ≤ 0xDFFF

/-- Half of a surrogate pair. -/
def isSurrogate (n : Nat) : Bool := 0xD800 ≤ n && n ≤ 0xDFFF

/-- How far a stand-in lies from the half it stands for. -/
def standInDistance : Nat := 0xD0000

/-- The character for a code point: the stand-in, for half of a pair. -/
def charOfCode (n : Nat) : Char :=
  Char.ofNat (if isSurrogate n then n + standInDistance else n)

/-- Whether a character stands in for half of a pair. -/
def isHalf (c : Char) : Bool :=
  isSurrogate (c.toNat - standInDistance)

/-- The code point that a character stands for. -/
def codeOf (c : Char) : Nat :=
  if isHalf c then c.toNat - standInDistance else c.toNat

/-! ## Texts -/

/-- The code points of a text. -/
def codes (s : String) : List Nat :=
  s.toList.map codeOf

/-- The text with given code points. -/
def ofCodes (ns : List Nat) : String :=
  String.ofList (ns.map charOfCode)

/-- Whether a text holds half of a pair. -/
def hasHalf (s : String) : Bool :=
  s.toList.any isHalf

/-- Whether one text comes before another. -/
def comesBefore (s t : String) : Bool :=
  decide (codes s < codes t)

/-- Whether one text comes before another or is the same. -/
def comesNoLater (s t : String) : Bool :=
  !comesBefore t s

/-! ## Laws -/

theorem codeOf_charOfCode {n : Nat} (h : isSurrogate n = true) : codeOf (charOfCode n) = n := by
  have hn : 0xD800 ≤ n ∧ n ≤ 0xDFFF := by simpa [isSurrogate] using h
  have hvalid : (n + standInDistance).isValidChar := by
    right
    simp only [standInDistance]
    omega
  have hto : (charOfCode n).toNat = n + standInDistance := by
    unfold charOfCode Char.ofNat
    rw [if_pos h, dif_pos hvalid]
    rfl
  simp [codeOf, isHalf, hto, h]

theorem codes_of_whole {s : String} (h : hasHalf s = false) :
    codes s = s.toList.map Char.toNat := by
  unfold codes
  refine List.map_congr_left fun c hc => ?_
  have hall : ¬ ∃ d ∈ s.toList, isHalf d = true := by
    simpa [hasHalf] using h
  have hcnot : isHalf c = false := by
    cases hd : isHalf c
    · rfl
    · exact absurd ⟨c, hc, hd⟩ hall
  simp [codeOf, hcnot]

theorem comesNoLater_refl (s : String) : comesNoLater s s = true := by
  simp [comesNoLater, comesBefore]

end CircuitBench.Text
