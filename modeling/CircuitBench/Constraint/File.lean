import CircuitBench.Constraint.System
import CircuitBench.Container.Basic

/-!
# Constraint files

A constraint file is a container with the magic word `r1cs`.  Its section of kind one is the header:
the bytes of a field element, the prime, and the counts.  Its section of kind two holds the
constraints one after another: for each of the three linear forms the number of terms, and for each
term a wire and a coefficient.

A constraint section that ends too early is a malformed file.  A header that ends too early is
reported as it is, as the read that failed.

## Main results

* `parseTerms_encode` : the encoded terms of a linear form are read back in order.
* `openConstraints_ofNat` : sizes that are not negative are read as they stand.
-/

namespace CircuitBench

/-- The magic word of a constraint file. -/
def constraintMagic : String := "r1cs"

/-- The kind of the header section. -/
def headerKind : Int := 1

/-- The kind of the section that holds the data: constraints, or witness values. -/
def dataKind : Int := 2

/-! ## The header -/

/-- Reads the header of a constraint file.  Counts that stand together are there together or not at
all. -/
def ConstraintHeader.parse (buffer : List UInt8) : Except ShortRead ConstraintHeader := do
  let (elementSize, c) ← (Cursor.start buffer).word
  let (prime, c) := c.element elementSize
  let (wires, c) ← c.number 4 16
  let (outputs, c) ← c.number 4 12
  let (publicInputs, c) ← c.number 4 8
  let (privateInputs, c) ← c.number 4 4
  let (labels, c) ← c.number 8 8
  let (constraintCount, _) ← c.number 4 4
  return ⟨prime, elementSize, wires, outputs, publicInputs, privateInputs, labels, constraintCount⟩

/-- The bytes of a header. -/
def ConstraintHeader.encode (h : ConstraintHeader) : List UInt8 :=
  LittleEndian.ofNat 4 h.elementSize ++ LittleEndian.ofNat h.elementSize h.prime ++
    LittleEndian.ofNat 4 h.wires ++ LittleEndian.ofNat 4 h.outputs ++
    LittleEndian.ofNat 4 h.publicInputs ++ LittleEndian.ofNat 4 h.privateInputs ++
    LittleEndian.ofNat 8 h.labels ++ LittleEndian.ofNat 4 h.constraintCount

/-! ## Constraints -/

/-- Reads a number of terms, wire and coefficient each, into a linear form. -/
def LinearForm.parseTerms (elementSize : Nat) :
    Nat → LinearForm → Cursor → Except ShortRead (LinearForm × Cursor)
  | 0, f, c => .ok (f, c)
  | count + 1, f, c =>
    match c.word with
    | .error short => .error short
    | .ok (wire, c) =>
      let (coefficient, c) := c.element elementSize
      parseTerms elementSize count (f.put wire coefficient) c

/-- Reads a linear form. -/
def LinearForm.parse (elementSize : Nat) (c : Cursor) : Except ShortRead (LinearForm × Cursor) :=
  match c.word with
  | .error short => .error short
  | .ok (count, c) => parseTerms elementSize count [] c

/-- Reads a constraint. -/
def Constraint.parse (elementSize : Nat) (cursor : Cursor) :
    Except ShortRead (Constraint × Cursor) := do
  let (a, cursor) ← LinearForm.parse elementSize cursor
  let (b, cursor) ← LinearForm.parse elementSize cursor
  let (c, cursor) ← LinearForm.parse elementSize cursor
  return (⟨a, b, c⟩, cursor)

/-- Reads a number of constraints. -/
def Constraint.parseMany (elementSize : Nat) : Nat → Cursor → Except ShortRead (List Constraint)
  | 0, _ => .ok []
  | count + 1, cursor => do
    let (k, cursor) ← Constraint.parse elementSize cursor
    let more ← parseMany elementSize count cursor
    return k :: more

/-- Reads the constraints of a section. -/
def parseConstraints (buffer : List UInt8) (elementSize count : Nat) :
    Except FormatFault (List Constraint) :=
  match Constraint.parseMany elementSize count (Cursor.start buffer) with
  | .ok constraints => .ok constraints
  | .error short => .error (.constraintsShort short)

/-! ## Sizes of any sign

Where the size of a field element is negative, a term steps back, and offsets may become negative;
they are then taken from the end of the buffer. -/

/-- The number of four bytes at an offset. -/
def wordAt (buffer : List UInt8) (offset : Int) : Except Error Nat :=
  if !isSize offset then .error (.overflow .integerToSize)
  else if offset < 0 ∧ 0 < offset + 4 then .error (.format (.constraintsAtEnd 4))
  else if offset + buffer.length < 0 then .error (.format (.constraintsBefore offset buffer.length))
  else
    let place := (if offset < 0 then offset + buffer.length else offset).toNat
    if buffer.length < place + 4 then .error (.format (.constraintsShort ⟨4, place, buffer.length⟩))
    else .ok (LittleEndian.toNat ((buffer.drop place).take 4))

/-- Reads a number of terms at an offset into a linear form. -/
def LinearForm.termsAt (buffer : List UInt8) (elementSize : Int) :
    Nat → LinearForm → Int → Except Error (LinearForm × Int)
  | 0, f, offset => .ok (f, offset)
  | count + 1, f, offset =>
    match wordAt buffer offset with
    | .error e => .error e
    | .ok wire =>
      termsAt buffer elementSize count (f.put wire (fieldElement buffer elementSize (offset + 4)))
        (offset + 4 + elementSize)

/-- Reads a linear form at an offset. -/
def LinearForm.readAt (buffer : List UInt8) (elementSize offset : Int) :
    Except Error (LinearForm × Int) :=
  match wordAt buffer offset with
  | .error e => .error e
  | .ok count => termsAt buffer elementSize count [] (offset + 4)

/-- Reads a number of constraints at an offset. -/
def Constraint.manyAt (buffer : List UInt8) (elementSize : Int) :
    Nat → Int → Except Error (List Constraint)
  | 0, _ => .ok []
  | count + 1, offset => do
    let (a, offset) ← LinearForm.readAt buffer elementSize offset
    let (b, offset) ← LinearForm.readAt buffer elementSize offset
    let (c, offset) ← LinearForm.readAt buffer elementSize offset
    let more ← manyAt buffer elementSize count offset
    return ⟨a, b, c⟩ :: more

/-- Reads the constraints of a section whose sizes may have any sign.  A negative number of
constraints is none. -/
def openConstraints (buffer : List UInt8) (elementSize count : Int) :
    Except Error (List Constraint) :=
  if 0 ≤ elementSize ∧ 2 * elementSize < sizeLimit then
    (parseConstraints buffer elementSize.toNat count.toNat).mapError .format
  else Constraint.manyAt buffer elementSize count.toNat 0

/-! ## Writing -/

/-- The bytes of one term. -/
def encodeTerm (elementSize : Nat) (term : Nat × Nat) : List UInt8 :=
  LittleEndian.ofNat 4 term.1 ++ LittleEndian.ofNat elementSize term.2

/-- The bytes of a linear form, given by its terms. -/
def encodeForm (elementSize : Nat) (terms : List (Nat × Nat)) : List UInt8 :=
  LittleEndian.ofNat 4 terms.length ++ terms.flatMap (encodeTerm elementSize)

/-- The terms of the three linear forms of a constraint, as a file lists them. -/
structure ConstraintTerms where
  a : List (Nat × Nat)
  b : List (Nat × Nat)
  c : List (Nat × Nat)

/-- The bytes of a constraint. -/
def ConstraintTerms.encode (elementSize : Nat) (k : ConstraintTerms) : List UInt8 :=
  encodeForm elementSize k.a ++ encodeForm elementSize k.b ++ encodeForm elementSize k.c

/-! ## Files -/

/-- Reads a constraint file.  The file is named in the report of a failure. -/
def ConstraintSystem.read (file : String) (bytes : List UInt8) : Except Error ConstraintSystem :=
  match Container.parse bytes constraintMagic file with
  | .error fault => .error (.format fault)
  | .ok container =>
    match container.firstPayload headerKind file with
    | .error fault => .error (.format fault)
    | .ok headerBytes =>
      match ConstraintHeader.parse headerBytes with
      | .error short => .error (.shortRead short)
      | .ok header =>
        match container.firstPayload dataKind file with
        | .error fault => .error (.format fault)
        | .ok body =>
          match parseConstraints body header.elementSize header.constraintCount with
          | .error fault => .error (.format fault)
          | .ok constraints => .ok { header with constraints }

/-! ## Laws -/

/-- Whether a term can be written: its wire fits four bytes, and its coefficient a field element. -/
def WritableTerm (elementSize : Nat) (term : Nat × Nat) : Prop :=
  term.1 < LittleEndian.capacity 4 ∧ term.2 < LittleEndian.capacity elementSize

theorem openConstraints_ofNat (buffer : List UInt8) (elementSize count : Nat)
    (h : 2 * (elementSize : Int) < sizeLimit) :
    openConstraints buffer elementSize count =
      (parseConstraints buffer elementSize count).mapError .format := by
  have hsize : 0 ≤ (elementSize : Int) := Int.natCast_nonneg _
  rw [openConstraints, if_pos ⟨hsize, h⟩, Int.toNat_natCast, Int.toNat_natCast]

theorem parseTerms_encode (elementSize : Nat) (terms : List (Nat × Nat))
    (h : ∀ t ∈ terms, WritableTerm elementSize t) (f : LinearForm) (length offset : Nat)
    (rest : List UInt8) :
    LinearForm.parseTerms elementSize terms.length f
        ⟨length, offset, terms.flatMap (encodeTerm elementSize) ++ rest⟩ =
      .ok (terms.foldl (fun g t => g.put t.1 t.2) f,
        ⟨length, offset + (4 + elementSize) * terms.length, rest⟩) := by
  induction terms generalizing f offset with
  | nil => simp [LinearForm.parseTerms]
  | cons t more ih =>
    obtain ⟨hw, hk⟩ := h t (by simp)
    have hwire : LittleEndian.toNat (LittleEndian.ofNat 4 t.1) = t.1 :=
      LittleEndian.toNat_ofNat_of_lt (by simpa using hw)
    have hcoeff : LittleEndian.toNat (LittleEndian.ofNat elementSize t.2) = t.2 :=
      LittleEndian.toNat_ofNat_of_lt hk
    have hsplit : (t :: more).flatMap (encodeTerm elementSize) ++ rest =
        LittleEndian.ofNat 4 t.1 ++ (LittleEndian.ofNat elementSize t.2 ++
          (more.flatMap (encodeTerm elementSize) ++ rest)) := by
      simp [encodeTerm, List.append_assoc]
    have hword := Cursor.number_append length offset (LittleEndian.ofNat 4 t.1)
      (LittleEndian.ofNat elementSize t.2 ++ (more.flatMap (encodeTerm elementSize) ++ rest))
    rw [LittleEndian.length_ofNat, hwire] at hword
    rw [List.length_cons, LinearForm.parseTerms, hsplit, Cursor.word, hword]
    simp only [Cursor.element, Cursor.skip]
    rw [List.take_left' (LittleEndian.length_ofNat elementSize t.2),
      List.drop_left' (LittleEndian.length_ofNat elementSize t.2), hcoeff,
      ih fun t' ht' => h t' (by simp [ht'])]
    simp only [List.foldl_cons, Except.ok.injEq, Prod.mk.injEq, Cursor.mk.injEq, true_and, and_true]
    rw [Nat.mul_succ]
    omega

end CircuitBench
