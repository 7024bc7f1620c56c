import CircuitBench.Text.Half

/-!
# Paths as bytes

A file system keeps names as bytes.  A path is handed to it in UTF-8; a byte that belongs to no
character is named by one of the second halves `U+DC80` to `U+DCFF`, and no other half of a
surrogate pair can be part of a path.  Names and whole paths are limited in length.

## Main results

* `canBeEncoded_of_whole` : a text without halves can be a path.
-/

namespace CircuitBench.Path

open Text

/-- Whether a character names a byte that belongs to no character. -/
def isStrayByte (c : Char) : Bool :=
  isHalf c && 0xDC80 ≤ codeOf c && codeOf c ≤ 0xDCFF

/-- Whether a text can be handed to the file system as a path. -/
def canBeEncoded (path : String) : Bool :=
  path.toList.all fun c => !isHalf c || isStrayByte c

/-- The number of bytes that a text takes in a path. -/
def byteCount (path : String) : Nat :=
  path.toList.foldl (fun count c => count + if isHalf c then 1 else c.utf8Size) 0

/-- The most bytes of a name. -/
def nameLimit : Nat := 255

/-- The most bytes of a path. -/
def pathLimit : Nat := 4095

theorem canBeEncoded_of_whole {path : String} (h : hasHalf path = false) :
    canBeEncoded path = true := by
  simp only [canBeEncoded, List.all_eq_true, Bool.or_eq_true, Bool.not_eq_eq_eq_not, Bool.not_true]
  intro c hc
  have hall : ∀ d ∈ path.toList, isHalf d = false := by
    simpa [hasHalf] using h
  exact .inl (hall c hc)

end CircuitBench.Path
