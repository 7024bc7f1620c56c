import CircuitBench.Text.Half
import CircuitBench.Text.Printable

/-!
# Quoted text

Messages show a text or a byte string as it would be written in a list of values: between quotes,
with the characters that cannot be shown escaped.  The quotes are single, or double when the text
holds a single quote and no double one.  Escaped are the backslash, the quote in use, tab, line feed
and carriage return by a letter, and each character that is not printable by the hexadecimal digits
of its code point, two, four or eight of them.

## Main results

* `quoteFor_of_plain` : a text without quotes stands between single quotes.
* `escape_printable` : a printable character that is neither a backslash nor the quote is shown as
  it is.
-/

namespace CircuitBench.Text

/-- The digit characters of a number in base sixteen, at least `width` of them, in lower case. -/
def hexDigits (width n : Nat) : List Char :=
  let digits := Nat.toDigits 16 n
  List.replicate (width - digits.length) '0' ++ digits

/-- The single quote. -/
def singleQuote : Char := Char.ofNat 0x27

/-- The double quote. -/
def doubleQuote : Char := Char.ofNat 0x22

/-- The backslash. -/
def backslash : Char := Char.ofNat 0x5C

/-- The quote that a text stands in: single, unless it holds a single quote and no double one. -/
def quoteFor (codes : List Nat) : Char :=
  if codes.contains 0x27 && !codes.contains 0x22 then doubleQuote else singleQuote

/-- The letter that follows the backslash for a character with a short escape of its own. -/
def shortEscape? (quote : Char) (n : Nat) : Option Char :=
  if n = 0x5C then some backslash
  else if n = quote.toNat then some quote
  else if n = 0x09 then some 't'
  else if n = 0x0A then some 'n'
  else if n = 0x0D then some 'r'
  else none

/-- The escape of a code point by its hexadecimal digits, as few as two, four or eight hold it. -/
def hexEscape (n : Nat) : List Char :=
  if n < 0x100 then backslash :: 'x' :: hexDigits 2 n
  else if n < 0x10000 then backslash :: 'u' :: hexDigits 4 n
  else backslash :: 'U' :: hexDigits 8 n

/-- One code point inside quotes. -/
def escape (quote : Char) (n : Nat) : List Char :=
  match shortEscape? quote n with
  | some letter => [backslash, letter]
  | none => if isPrintableCode n then [Char.ofNat n] else hexEscape n

/-- A text, given by its code points, between quotes. -/
def quotedCodes (codes : List Nat) : List Char :=
  let quote := quoteFor codes
  quote :: codes.flatMap (escape quote) ++ [quote]

/-- A string between quotes. -/
def quoted (s : String) : String :=
  String.ofList (quotedCodes (codes s))

/-- One byte inside quotes.  Bytes beyond ASCII are never shown as characters. -/
def escapeByte (quote : Char) (n : Nat) : List Char :=
  match shortEscape? quote n with
  | some letter => [backslash, letter]
  | none => if 0x20 ≤ n ∧ n < 0x7F then [Char.ofNat n] else hexEscape n

/-- A byte string between quotes, marked by the letter `b`. -/
def quotedBytes (bytes : List UInt8) : String :=
  let codes := bytes.map UInt8.toNat
  let quote := quoteFor codes
  String.ofList ('b' :: quote :: codes.flatMap (escapeByte quote) ++ [quote])

/-- The most characters of a quoted text, or bytes of a byte string, that a message about a number
shows. -/
def shownLimit : Nat := 200

/-- A quoted text cut to what a message about a number shows. -/
def shown (quotedText : String) : String :=
  String.ofList (quotedText.toList.take shownLimit)

theorem quoteFor_of_plain {codes : List Nat} (h : 0x27 ∉ codes) : quoteFor codes = singleQuote := by
  simp [quoteFor, h]

theorem escape_printable {quote : Char} {n : Nat} (hshort : shortEscape? quote n = none)
    (hprint : isPrintableCode n = true) : escape quote n = [Char.ofNat n] := by
  simp [escape, hshort, hprint]

end CircuitBench.Text
