import CircuitBench.Text.Half

/-!
# UTF-8

Files and tool output are bytes; what is read from them is text.  A byte sequence is decoded into
units: a character for each well-formed sequence, and a gap for each maximal part of a sequence that
breaks off.  A file must decode without gaps; in the output of a tool each gap is shown as `U+FFFD`.

The decoder reads one byte at a time.  Between two bytes of a character it remembers how many bytes
are still owed, the code point so far, and the range that the next byte must lie in; the range is
narrower after the first bytes `E0`, `ED`, `F0` and `F4`, which excludes overlong forms, surrogates
and code points beyond `U+10FFFF`.  A byte that does not fit ends the sequence with a gap and is
read again as the start of the next one.

## Main results

* `units_ascii` : bytes below `0x80` are the characters of those codes.
* `soundFrom_le` : a malformed part shows at a byte, or at the end.
-/

namespace CircuitBench.Text.Utf8

/-- A character that has begun: how many bytes are owed, the code point read so far, and the least
and greatest byte that may come next. -/
structure Pending where
  owed : Nat
  code : Nat
  least : Nat
  greatest : Nat

/-- What a byte means at the start of a character. -/
inductive Start
  | whole (code : Nat)
  | part (pending : Pending)
  | broken

/-- The meaning of a first byte. -/
def start (b : Nat) : Start :=
  if b < 0x80 then .whole b
  else if b < 0xC2 then .broken
  else if b < 0xE0 then .part ⟨1, b - 0xC0, 0x80, 0xBF⟩
  else if b = 0xE0 then .part ⟨2, 0, 0xA0, 0xBF⟩
  else if b = 0xED then .part ⟨2, 0xD, 0x80, 0x9F⟩
  else if b < 0xF0 then .part ⟨2, b - 0xE0, 0x80, 0xBF⟩
  else if b = 0xF0 then .part ⟨3, 0, 0x90, 0xBF⟩
  else if b < 0xF4 then .part ⟨3, b - 0xF0, 0x80, 0xBF⟩
  else if b = 0xF4 then .part ⟨3, 4, 0x80, 0x8F⟩
  else .broken

/-- What a byte completes that comes between characters, and the character it leaves begun. -/
def feedFirst (b : Nat) : List (Option Char) × Option Pending :=
  match start b with
  | .whole code => ([some (Char.ofNat code)], none)
  | .part pending => ([], some pending)
  | .broken => ([none], none)

/-- What the next byte completes, and the character it leaves begun. -/
def feed : Option Pending → Nat → List (Option Char) × Option Pending
  | none, b => feedFirst b
  | some p, b =>
    if p.least ≤ b ∧ b ≤ p.greatest then
      let code := p.code * 64 + (b - 0x80)
      if p.owed ≤ 1 then ([some (Char.ofNat code)], none)
      else ([], some ⟨p.owed - 1, code, 0x80, 0xBF⟩)
    else
      let (completed, pending) := feedFirst b
      (none :: completed, pending)

/-- The units of a byte sequence, from between characters or inside one. -/
def unitsFrom : Option Pending → List UInt8 → List (Option Char)
  | none, [] => []
  | some _, [] => [none]
  | p, b :: rest => (feed p b.toNat).1 ++ unitsFrom (feed p b.toNat).2 rest

/-- The units of a byte sequence: `none` stands for a malformed part. -/
def units (bytes : List UInt8) : List (Option Char) :=
  unitsFrom none bytes

/-- All characters of a list of units, if none of them is a gap. -/
def whole? : List (Option Char) → Option (List Char)
  | [] => some []
  | some c :: rest => (whole? rest).map (c :: ·)
  | none :: _ => none

/-- The text of a byte sequence, or nothing when a part of it is malformed. -/
def decode? (bytes : List UInt8) : Option String :=
  (whole? (units bytes)).map String.ofList

/-- How many bytes come before the one that shows a malformed part.  A part that only the end of the
bytes cuts short shows behind the last. -/
def soundFrom : Option Pending → List UInt8 → Nat
  | _, [] => 0
  | p, b :: rest =>
    if none ∈ (feed p b.toNat).1 then 0 else soundFrom (feed p b.toNat).2 rest + 1

/-- The characters that are known when bytes are decoded in blocks of one size and a block turns out
to be malformed: those complete in the blocks before it, or all of them where the end of the bytes
cuts a character short. -/
def knownInBlocks (size : Nat) (bytes : List UInt8) : List Char :=
  let sound := soundFrom none bytes
  let known := if sound < bytes.length then sound / size * size else sound
  (units (bytes.take known)).filterMap id

/-- The text of a byte sequence, with `U+FFFD` for each malformed part. -/
def decodeLossy (bytes : List UInt8) : String :=
  String.ofList ((units bytes).map fun unit => unit.getD (Char.ofNat 0xFFFD))

/-- The bytes of a text. -/
def encode (text : String) : List UInt8 :=
  text.toList.flatMap String.utf8EncodeChar

/-- The bytes of a text, or nothing when it holds half of a surrogate pair. -/
def encode? (text : String) : Option (List UInt8) :=
  if hasHalf text then none else some (encode text)

theorem units_ascii (bytes : List UInt8) (h : ∀ b ∈ bytes, b.toNat < 0x80) :
    units bytes = bytes.map fun b => some (Char.ofNat b.toNat) := by
  unfold units
  induction bytes with
  | nil => rfl
  | cons b rest ih =>
    have hb : b.toNat < 0x80 := h b (by simp)
    simp [unitsFrom, feed, feedFirst, start, hb, ih fun c hc => h c (by simp [hc])]

theorem soundFrom_le (p : Option Pending) (bytes : List UInt8) :
    soundFrom p bytes ≤ bytes.length := by
  induction bytes generalizing p with
  | nil => simp [soundFrom]
  | cons b rest ih =>
    have := ih (feed p b.toNat).2
    simp only [soundFrom, List.length_cons]
    split <;> omega

theorem whole?_map_some (s : List Char) : whole? (s.map some) = some s := by
  induction s with
  | nil => rfl
  | cons c s ih => simp [whole?, ih]

end CircuitBench.Text.Utf8
