import CircuitBench.Bytes.Cursor
import CircuitBench.Text.Utf8

/-!
# Section containers

The compiler and the witness generator write the same kind of file: a magic word of four bytes, a
version, the number of sections, and then the sections.  A section is a kind, a size, and a payload
of that size.  A kind may occur more than once, and bytes after the last section mean nothing.

`parse` takes a file apart and `encode` puts one together.  `table` keeps the payloads by kind.

## Main results

* `parseSections_encode` : the encoded sections are read back, whatever follows them.
-/

namespace CircuitBench

open Text

/-- A container: its version, and its sections in file order, each with its kind. -/
structure Container where
  version : Nat
  sections : List (Nat × List UInt8)
deriving DecidableEq, Repr

/-- Payloads by kind: every kind that occurs, once, with all its payloads. -/
abbrev SectionTable := List (Nat × List (List UInt8))

/-- Puts a payload behind the others of its kind.  A kind that has none yet comes last. -/
def SectionTable.add (kind : Nat) (payload : List UInt8) : SectionTable → SectionTable
  | [] => [(kind, [payload])]
  | (k, payloads) :: rest =>
    if k = kind then (k, payloads ++ [payload]) :: rest
    else (k, payloads) :: add kind payload rest

namespace Container

/-- The size of what stands before a payload: a kind in four bytes and a size in eight. -/
def sectionHeaderSize : Nat := 12

/-- The size of what stands before the sections. -/
def headerSize : Nat := 12

/-- Reads a number of sections at a cursor. -/
def parseSections (file : String) : Nat → Cursor → Except FormatFault (List (Nat × List UInt8))
  | 0, _ => .ok []
  | count + 1, c =>
    if c.has sectionHeaderSize then
      let kind := LittleEndian.toNat (c.rest.take 4)
      let size := LittleEndian.toNat ((c.rest.drop 4).take 8)
      let body := c.skip sectionHeaderSize
      if body.has size then
        match parseSections file count (body.skip size) with
        | .ok more => .ok ((kind, body.rest.take size) :: more)
        | .error fault => .error fault
      else .error (.sectionOverrun file kind)
    else .error (.sectionHeader file c.offset)

/-- Takes a file apart.  The file is named in the report of a failure. -/
def parse (data : List UInt8) (magic file : String) : Except FormatFault Container :=
  if data.length < headerSize ∨ data.take 4 ≠ Utf8.encode magic then
    .error (.notContainer file magic)
  else
    let version := LittleEndian.toNat ((data.drop 4).take 4)
    let count := LittleEndian.toNat ((data.drop 8).take 4)
    match parseSections file count ((Cursor.start data).skip headerSize) with
    | .ok sections => .ok ⟨version, sections⟩
    | .error fault => .error fault

/-- The payloads of the sections of a kind, in file order. -/
def payloads (c : Container) (kind : Int) : List (List UInt8) :=
  c.sections.filterMap fun s => if (s.1 : Int) = kind then some s.2 else none

/-- The payload of the first section of a kind. -/
def firstPayload (c : Container) (kind : Int) (file : String) : Except FormatFault (List UInt8) :=
  match c.payloads kind with
  | payload :: _ => .ok payload
  | [] => .error (.sectionMissing file kind)

/-- The payloads of a container by kind, put in section after section. -/
def table (c : Container) : SectionTable :=
  c.sections.foldl (fun table s => table.add s.1 s.2) []

/-! ## Writing -/

/-- A section as bytes. -/
def encodeSection (s : Nat × List UInt8) : List UInt8 :=
  LittleEndian.ofNat 4 s.1 ++ LittleEndian.ofNat 8 s.2.length ++ s.2

/-- A container as bytes. -/
def encode (magic : String) (c : Container) : List UInt8 :=
  Utf8.encode magic ++ LittleEndian.ofNat 4 c.version ++ LittleEndian.ofNat 4 c.sections.length ++
    c.sections.flatMap encodeSection

/-- Whether a section can be written: its kind and its size fit their fields. -/
def Writable (s : Nat × List UInt8) : Prop :=
  s.1 < LittleEndian.capacity 4 ∧ s.2.length < LittleEndian.capacity 8

theorem parseSections_encode (file : String) (sections : List (Nat × List UInt8))
    (h : ∀ s ∈ sections, Writable s) (length offset : Nat) (tail : List UInt8) :
    parseSections file sections.length ⟨length, offset, sections.flatMap encodeSection ++ tail⟩ =
      .ok sections := by
  induction sections generalizing offset with
  | nil => rfl
  | cons s more ih =>
    obtain ⟨hk, hl⟩ := h s (by simp)
    have hkind : LittleEndian.toNat (LittleEndian.ofNat 4 s.1) = s.1 :=
      LittleEndian.toNat_ofNat_of_lt (by simpa using hk)
    have hsize : LittleEndian.toNat (LittleEndian.ofNat 8 s.2.length) = s.2.length :=
      LittleEndian.toNat_ofNat_of_lt (by simpa using hl)
    let bytes := (s :: more).flatMap encodeSection ++ tail
    have hbytes : bytes = LittleEndian.ofNat 4 s.1 ++ (LittleEndian.ofNat 8 s.2.length ++
        (s.2 ++ (more.flatMap encodeSection ++ tail))) := by
      simp [bytes, encodeSection, List.append_assoc]
    have hhas : (Cursor.mk length offset bytes).has sectionHeaderSize = true := by
      rw [Cursor.has_iff, hbytes]
      simp [sectionHeaderSize]
      omega
    have htake4 : bytes.take 4 = LittleEndian.ofNat 4 s.1 := by
      rw [hbytes, List.take_left' (LittleEndian.length_ofNat 4 s.1)]
    have hdrop4 : bytes.drop 4 = LittleEndian.ofNat 8 s.2.length ++
        (s.2 ++ (more.flatMap encodeSection ++ tail)) := by
      rw [hbytes, List.drop_left' (LittleEndian.length_ofNat 4 s.1)]
    have hdrop12 : bytes.drop sectionHeaderSize = s.2 ++ (more.flatMap encodeSection ++ tail) := by
      rw [show sectionHeaderSize = 4 + 8 from rfl, ← List.drop_drop, hdrop4,
        List.drop_left' (LittleEndian.length_ofNat 8 _)]
    have htake8 : (bytes.drop 4).take 8 = LittleEndian.ofNat 8 s.2.length := by
      rw [hdrop4, List.take_left' (LittleEndian.length_ofNat 8 _)]
    have hbody :
        ((Cursor.mk length offset bytes).skip sectionHeaderSize).has s.2.length = true := by
      rw [Cursor.has_iff, Cursor.skip, hdrop12]
      simp
    show parseSections file (more.length + 1) ⟨length, offset, bytes⟩ = _
    rw [parseSections, if_pos hhas]
    simp only [htake4, htake8, hkind, hsize]
    rw [if_pos hbody]
    simp only [Cursor.skip, hdrop12]
    rw [List.drop_left' rfl, List.take_left' rfl, ih fun s' hs' => h s' (by simp [hs'])]

end Container

end CircuitBench
