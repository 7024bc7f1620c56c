import CircuitBench.Error
import CircuitBench.Number.Literal
import CircuitBench.Text.Quoted

/-!
# Reading JSON

Configuration files, input assignments and the template parameters of the command line are JSON
texts.  The reader takes the standard grammar and, beyond it, the names of the undefined number and
the two infinities.  Integers are read exactly whatever their size, up to the digit limit; a number
with a point or an exponent is the nearest floating-point number of 64 bits.  Among equal keys of an
object the last one counts, at the place of the first.

A text may spell a character beyond sixteen bits as two escapes of a surrogate pair.  Half of a pair
that stands alone is kept by its stand-in.

Values may be nested to a limited depth; one that is nested deeper is refused where it goes too
deep, whatever comes after.  They are read with a measure of fuel that is the length of the text;
each level of nesting takes at least one character, so that it is never used up.

## Main results

* `skipBlank_of_not_blank` : what does not start with white space is left as it is.
* `joinSurrogates_of_plain` : code points that are no surrogates are left alone.
-/

namespace CircuitBench.Json

open Number Text

/-- Why a text is not read: it is not JSON, or it holds an integer with too many digits, or it is
nested too deep. -/
inductive ReadFault
  | malformed
  | tooManyDigits (count : Nat)
  | tooDeep (fault : DepthFault)
deriving DecidableEq, Repr

/-- What a reader of a part gives: the part and the rest of the text. -/
abbrev Reading (α : Type) := Except ReadFault (α × List Char)

/-! ## Tokens -/

/-- White space between tokens. -/
def isBlank (c : Char) : Bool :=
  c == ' ' || c == '\t' || c == '\n' || c == '\r'

/-- A text without the white space at its start. -/
def skipBlank (s : List Char) : List Char :=
  s.dropWhile isBlank

/-- The rest of a text after a word that it starts with. -/
def afterWord? (word : String) (s : List Char) : Option (List Char) :=
  if word.toList.isPrefixOf s then some (s.drop word.length) else none

/-! ## Strings -/

/-- The value of a hexadecimal digit. -/
def hexValue? (c : Char) : Option Nat :=
  if c.toNat < 0x80 then digitValue? 16 c else none

/-- The character that an escape letter stands for. -/
def escapedChar? (c : Char) : Option Char :=
  if c = doubleQuote then some doubleQuote
  else if c = backslash then some backslash
  else if c = '/' then some '/'
  else if c = 'b' then some (Char.ofNat 0x08)
  else if c = 'f' then some (Char.ofNat 0x0C)
  else if c = 'n' then some '\n'
  else if c = 'r' then some '\r'
  else if c = 't' then some '\t'
  else none

/-- The code unit that four hexadecimal digits stand for. -/
def codeUnit? (a b c d : Char) : Option Nat := do
  let a ← hexValue? a
  let b ← hexValue? b
  let c ← hexValue? c
  let d ← hexValue? d
  return a * 4096 + b * 256 + c * 16 + d

/-- Reads a string from after its opening quote: its code points, with surrogates as they are
spelled. -/
def readCodes : List Char → Reading (List Nat)
  | [] => .error .malformed
  | c :: rest =>
    if c = doubleQuote then .ok ([], rest)
    else if c = backslash then
      match rest with
      | [] => .error .malformed
      | 'u' :: h₁ :: h₂ :: h₃ :: h₄ :: more =>
        match codeUnit? h₁ h₂ h₃ h₄, readCodes more with
        | some n, .ok (ns, r) => .ok (n :: ns, r)
        | some _, .error e => .error e
        | none, _ => .error .malformed
      | e :: more =>
        match escapedChar? e, readCodes more with
        | some x, .ok (ns, r) => .ok (x.toNat :: ns, r)
        | some _, .error e => .error e
        | none, _ => .error .malformed
    else if c.toNat < 0x20 then .error .malformed
    else
      match readCodes rest with
      | .ok (ns, r) => .ok (c.toNat :: ns, r)
      | .error e => .error e

/-- Puts the code point of a surrogate pair in the place of its two halves. -/
def joinSurrogates : List Nat → List Nat
  | [] => []
  | [n] => [n]
  | n :: m :: rest =>
    if isHighSurrogate n && isLowSurrogate m then
      (0x10000 + (n - 0xD800) * 0x400 + (m - 0xDC00)) :: joinSurrogates rest
    else n :: joinSurrogates (m :: rest)

/-- Reads a string from after its opening quote. -/
def readString (s : List Char) : Reading Value :=
  match readCodes s with
  | .ok (codes, r) => .ok (.text (ofCodes (joinSurrogates codes)), r)
  | .error e => .error e

/-! ## Numbers -/

/-- An ASCII digit. -/
def isDigit (c : Char) : Bool :=
  0x30 ≤ c.toNat && c.toNat ≤ 0x39

/-- The values of ASCII digits. -/
def digitValues (s : List Char) : List Nat :=
  s.map fun c => c.toNat - 0x30

/-- Takes off the fraction of a number: a point and at least one digit. -/
def splitFraction (s : List Char) : Option (List Char) × List Char :=
  match s with
  | '.' :: d :: rest =>
    if isDigit d then (some (d :: rest.takeWhile isDigit), rest.dropWhile isDigit) else (none, s)
  | _ => (none, s)

/-- Takes off the exponent of a number: its letter, an optional sign, and at least one digit. -/
def splitExponent (s : List Char) : Option Int × List Char :=
  match s with
  | e :: rest =>
    if e = 'e' ∨ e = 'E' then
      let (negative, body) := splitSign rest
      let digits := body.takeWhile isDigit
      if digits.isEmpty then (none, s)
      else (some (signed negative (ofDigits 10 (digitValues digits))), body.dropWhile isDigit)
    else (none, s)
  | [] => (none, s)

/-- The integer part of a number: a zero, or digits that do not start with one. -/
def splitInteger (s : List Char) : List Char × List Char :=
  match s with
  | '0' :: rest => (['0'], rest)
  | _ => (s.takeWhile isDigit, s.dropWhile isDigit)

/-- Reads a number. -/
def readNumber (s : List Char) : Reading Value :=
  let (negative, body) := match s with
    | '-' :: rest => (true, rest)
    | _ => (false, s)
  let (whole, afterWhole) := splitInteger body
  if whole.isEmpty then .error .malformed
  else
    let (fraction, afterFraction) := splitFraction afterWhole
    let (exponent, rest) := splitExponent afterFraction
    if fraction.isNone ∧ exponent.isNone then
      if digitLimit < whole.length then .error (.tooManyDigits whole.length)
      else .ok (.int (signed negative (ofDigits 10 (digitValues whole))), rest)
    else
      let digits := whole ++ fraction.getD []
      let scale := exponent.getD 0 - ((fraction.getD []).length : Int)
      .ok (.float (Binary.ofDecimal .double negative (ofDigits 10 (digitValues digits)) scale), rest)

/-- The values that are written as words. -/
def words : List (String × Value) := [
  ("null", .null),
  ("true", .bool true),
  ("false", .bool false),
  ("NaN", .float .nan),
  ("Infinity", .float (.infinite false)),
  ("-Infinity", .float (.infinite true))]

/-- Reads a word, if the text starts with one. -/
def readWord? (s : List Char) : Option (Value × List Char) :=
  words.findSome? fun w => (afterWord? w.1 s).map fun rest => (w.2, rest)

/-! ## Values -/

/-- The most levels that values may be nested in each other. -/
def depthLimit : Nat := 988

mutual

/-- Reads a value, in which others may be nested to a depth. -/
def readValue : Nat → Nat → List Char → Reading Value
  | 0, _, _ => .error .malformed
  | _, _, [] => .error .malformed
  | fuel + 1, depth, c :: rest =>
    if c = doubleQuote then readString rest
    else if c = '[' then
      match depth, skipBlank rest with
      | 0, _ => .error (.tooDeep .array)
      | _, ']' :: r => .ok (.list [], r)
      | depth + 1, r =>
        match readItems fuel depth r with
        | .ok (items, r) => .ok (.list items, r)
        | .error e => .error e
    else if c = '\x7b' then
      match depth, skipBlank rest with
      | 0, _ => .error (.tooDeep .object)
      | _, '\x7d' :: r => .ok (.table [], r)
      | depth + 1, r =>
        match readEntries fuel depth [] r with
        | .ok (entries, r) => .ok (.table entries, r)
        | .error e => .error e
    else
      match readWord? (c :: rest) with
      | some reading => .ok reading
      | none => readNumber (c :: rest)

/-- Reads the items of an array from the first one on, and its closing bracket. -/
def readItems : Nat → Nat → List Char → Reading (List Value)
  | 0, _, _ => .error .malformed
  | fuel + 1, depth, s =>
    match readValue fuel depth s with
    | .error e => .error e
    | .ok (item, r) =>
      match skipBlank r with
      | ']' :: r => .ok ([item], r)
      | ',' :: r =>
        match readItems fuel depth (skipBlank r) with
        | .ok (items, r) => .ok (item :: items, r)
        | .error e => .error e
      | _ => .error .malformed

/-- Reads the entries of an object from the first one on into a table, and its closing brace. -/
def readEntries : Nat → Nat → Table → List Char → Reading Table
  | 0, _, _, _ => .error .malformed
  | _, _, _, [] => .error .malformed
  | fuel + 1, depth, t, c :: s =>
    if c = doubleQuote then
      match readString s with
      | .error e => .error e
      | .ok (key, r) =>
        match skipBlank r with
        | ':' :: r =>
          match readValue fuel depth (skipBlank r) with
          | .error e => .error e
          | .ok (value, r) =>
            let t := t.insert key value
            match skipBlank r with
            | '\x7d' :: r => .ok (t, r)
            | ',' :: r => readEntries fuel depth t (skipBlank r)
            | _ => .error .malformed
        | _ => .error .malformed
    else .error .malformed

end

/-- Reads a text that is one value with white space around it. -/
def read (s : List Char) : Except ReadFault Value :=
  match readValue (s.length + 1) depthLimit (skipBlank s) with
  | .error e => .error e
  | .ok (v, r) => if (skipBlank r).isEmpty then .ok v else .error .malformed

/-! ## Laws -/

theorem skipBlank_of_not_blank {c : Char} (h : isBlank c = false) (s : List Char) :
    skipBlank (c :: s) = c :: s := by
  simp [skipBlank, h]

theorem joinSurrogates_of_plain (codes : List Nat) (h : ∀ n ∈ codes, isSurrogate n = false) :
    joinSurrogates codes = codes := by
  fun_induction joinSurrogates codes with
  | case1 => rfl
  | case2 => rfl
  | case3 n m rest hpair ih =>
    have hn := h n (by simp)
    simp only [isHighSurrogate, isSurrogate, Bool.and_eq_true, decide_eq_true_eq,
      Bool.and_eq_false_iff, decide_eq_false_iff_not] at hpair hn
    omega
  | case4 n m rest _ ih => rw [ih fun k hk => h k (by simp [List.mem_cons.1 hk])]

end CircuitBench.Json
