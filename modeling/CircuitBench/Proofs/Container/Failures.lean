import CircuitBench.Proofs.Bench.Preserved
import CircuitBench.Proofs.Container.Table
import CircuitBench.Witness.File

/-!
# How reading a binary file fails

Constraint files and witness files are read alike: the container is taken apart, a header is read
from its first section of kind one, and what the header announces from its first section of kind
two.  Whatever is wrong with the container or with the second section is reported as a malformed
file.  A header is read without such a guard, and where it ends too early the failed read comes out
as it is.

A header states the size of a field element in its first four bytes, holds one element, and numbers
of fixed width besides.  So it is cut short exactly if it has fewer than four bytes, or fewer than
its own first number asks for; there is no other way for a read to fail but as a malformed file.

## Main results

* `ConstraintHeader.exists_parse_iff`, `WitnessFile.exists_parseHeader_iff` : a header is read
  exactly if it is not cut short.
* `readTwoSections_eq_ok` : the parts of a file that was read.
* `read_failures` : reading either kind of file ends well, or in a malformed file, or, exactly if
  the header is cut short, in the read that failed.
* `read_failure_not_format` : not every failure is reported as a malformed file.
-/

namespace CircuitBench

/-! ## Steps that may fail -/

namespace Cursor

theorem length_skip (c : Cursor) (count : Nat) :
    (c.skip count).rest.length = c.rest.length - count :=
  List.length_drop

/-- A sequence that starts with a number ends well if the record of the number is all there and the
rest of the sequence ends well. -/
theorem exists_number_bind {α : Type} {c : Cursor} {width size : Nat}
    {next : Nat × Cursor → Except ShortRead α} (hRoom : size ≤ c.rest.length)
    (hNext : ∃ a, next (LittleEndian.toNat (c.rest.take width), c.skip width) = .ok a) :
    ∃ a, (c.number width size >>= next) = .ok a := by
  have hHas : c.has size = true := (c.has_iff size).mpr hRoom
  obtain ⟨a, ha⟩ := hNext
  refine ⟨a, ?_⟩
  rw [number, if_pos hHas]
  exact ha

end Cursor

/-! ## Headers -/

/-- Whether a header is cut short that holds `fixed` bytes besides a field element, four of which
come first and say how many bytes the element takes. -/
def IsCutShort (fixed : Nat) (header : List UInt8) : Prop :=
  header.length < 4 ∨ header.length < fixed + LittleEndian.toNat (header.take 4)

/-- A constraint header that was read states the size of its field element in its first four bytes,
and has room for that element, six numbers of four bytes and one of eight. -/
theorem ConstraintHeader.room_of_parse {buffer : List UInt8} {h : ConstraintHeader}
    (hParse : ConstraintHeader.parse buffer = .ok h) :
    h.elementSize = LittleEndian.toNat (buffer.take 4) ∧ 32 + h.elementSize ≤ buffer.length := by
  obtain ⟨⟨size, c⟩, hSize, hParse⟩ := except_bind_eq_ok hParse
  obtain ⟨hRoom, rfl, rfl⟩ := Cursor.number_eq_ok hSize
  dsimp only [Cursor.element] at hParse
  obtain ⟨⟨wires, c⟩, hWires, hParse⟩ := except_bind_eq_ok hParse
  obtain ⟨-, rfl, rfl⟩ := Cursor.number_eq_ok hWires
  obtain ⟨⟨outputs, c⟩, hOutputs, hParse⟩ := except_bind_eq_ok hParse
  obtain ⟨-, rfl, rfl⟩ := Cursor.number_eq_ok hOutputs
  obtain ⟨⟨publics, c⟩, hPublics, hParse⟩ := except_bind_eq_ok hParse
  obtain ⟨-, rfl, rfl⟩ := Cursor.number_eq_ok hPublics
  obtain ⟨⟨privates, c⟩, hPrivates, hParse⟩ := except_bind_eq_ok hParse
  obtain ⟨-, rfl, rfl⟩ := Cursor.number_eq_ok hPrivates
  obtain ⟨⟨labels, c⟩, hLabels, hParse⟩ := except_bind_eq_ok hParse
  obtain ⟨-, rfl, rfl⟩ := Cursor.number_eq_ok hLabels
  obtain ⟨⟨count, c⟩, hCount, hParse⟩ := except_bind_eq_ok hParse
  -- the last number lies behind all others, so its room is room for all
  obtain ⟨hLast, -, -⟩ := Cursor.number_eq_ok hCount
  cases hParse
  refine ⟨rfl, ?_⟩
  simp only [Cursor.start, Cursor.skip, List.length_drop] at hRoom hLast ⊢
  omega

/-- A constraint header is read exactly if it is not cut short: besides the field element it holds
six numbers of four bytes and one of eight. -/
theorem ConstraintHeader.exists_parse_iff (buffer : List UInt8) :
    (∃ h, ConstraintHeader.parse buffer = .ok h) ↔ ¬ IsCutShort 32 buffer := by
  constructor
  · rintro ⟨h, hParse⟩
    obtain ⟨hSize, hRoom⟩ := ConstraintHeader.room_of_parse hParse
    rw [hSize] at hRoom
    unfold IsCutShort
    omega
  · intro hWhole
    unfold IsCutShort at hWhole
    refine Cursor.exists_number_bind (by simp only [Cursor.start]; omega) ?_
    -- what is left behind the field element is room for all the counts
    refine Cursor.exists_number_bind (by simp only [Cursor.length_skip, Cursor.start]; omega) ?_
    refine Cursor.exists_number_bind (by simp only [Cursor.length_skip, Cursor.start]; omega) ?_
    refine Cursor.exists_number_bind (by simp only [Cursor.length_skip, Cursor.start]; omega) ?_
    refine Cursor.exists_number_bind (by simp only [Cursor.length_skip, Cursor.start]; omega) ?_
    refine Cursor.exists_number_bind (by simp only [Cursor.length_skip, Cursor.start]; omega) ?_
    refine Cursor.exists_number_bind (by simp only [Cursor.length_skip, Cursor.start]; omega) ?_
    exact ⟨_, rfl⟩

/-- The header of a witness file is read exactly if it is not cut short: besides the field element
it holds two numbers of four bytes. -/
theorem WitnessFile.exists_parseHeader_iff (buffer : List UInt8) :
    (∃ h, WitnessFile.parseHeader buffer = .ok h) ↔ ¬ IsCutShort 8 buffer := by
  constructor
  · rintro ⟨h, hParse⟩
    obtain ⟨⟨size, c⟩, hSize, hParse⟩ := except_bind_eq_ok hParse
    obtain ⟨hRoom, rfl, rfl⟩ := Cursor.number_eq_ok hSize
    dsimp only [Cursor.element] at hParse
    obtain ⟨⟨count, c⟩, hCount, hParse⟩ := except_bind_eq_ok hParse
    obtain ⟨hLast, -, -⟩ := Cursor.number_eq_ok hCount
    simp only [Cursor.start, Cursor.skip, List.length_drop] at hRoom hLast
    unfold IsCutShort
    omega
  · intro hWhole
    unfold IsCutShort at hWhole
    refine Cursor.exists_number_bind (by simp only [Cursor.start]; omega) ?_
    refine Cursor.exists_number_bind (by simp only [Cursor.length_skip, Cursor.start]; omega) ?_
    exact ⟨_, rfl⟩

/-! ## Files of two sections -/

/-- Reads a file of two sections: what its header announces is read from the section of the data. -/
def readTwoSections {η α : Type} (magic : String) (parseHeader : List UInt8 → Except ShortRead η)
    (parseBody : η → List UInt8 → Except Error α) (file : String) (bytes : List UInt8) :
    Except Error α :=
  match Container.parse bytes magic file with
  | .error fault => .error (.format fault)
  | .ok container =>
    match container.firstPayload headerKind file with
    | .error fault => .error (.format fault)
    | .ok headerBytes =>
      match parseHeader headerBytes with
      | .error short => .error (.shortRead short)
      | .ok header =>
        match container.firstPayload dataKind file with
        | .error fault => .error (.format fault)
        | .ok body => parseBody header body

/-- The parts of a file of two sections that was read. -/
theorem readTwoSections_eq_ok {η α : Type} {magic : String}
    {parseHeader : List UInt8 → Except ShortRead η} {parseBody : η → List UInt8 → Except Error α}
    {file : String} {bytes : List UInt8} {a : α}
    (h : readTwoSections magic parseHeader parseBody file bytes = .ok a) :
    ∃ c headerBytes header body, Container.parse bytes magic file = .ok c ∧
      c.firstPayload headerKind file = .ok headerBytes ∧ parseHeader headerBytes = .ok header ∧
      c.firstPayload dataKind file = .ok body ∧ parseBody header body = .ok a := by
  rw [readTwoSections] at h
  split at h
  · cases h
  · rename_i c hParse
    split at h
    · cases h
    · rename_i headerBytes hFirst
      split at h
      · cases h
      · rename_i header hHeader
        split at h
        · cases h
        · rename_i body hSecond
          exact ⟨c, headerBytes, header, body, hParse, hFirst, hHeader, hSecond, h⟩

/-- How reading a file of two sections may end: well, or in a malformed file, or in a read that
failed, which happens exactly if the file is a container whose header is cut short. -/
structure FailsAsStated {α : Type} (magic : String) (fixed : Nat) (bytes : List UInt8)
    (result : Except Error α) : Prop where
  families : ∀ e, result = .error e → e.isFormat = true ∨ ∃ short, e = .shortRead short
  short : (∃ short, result = .error (.shortRead short)) ↔
    ∃ (c : Container) (header : List UInt8),
      c.IsWrittenIn magic bytes ∧ c.IsFirst 1 header ∧ IsCutShort fixed header

section

variable {η α : Type} {magic : String} {parseHeader : List UInt8 → Except ShortRead η}
  {parseBody : η → List UInt8 → Except Error α}
  (hBody : ∀ h body e, parseBody h body = .error e → e.isFormat = true)

include hBody

/-- A failure is a malformed file, unless it is the failed read of the header that was found. -/
theorem readTwoSections_eq_error {file : String} {bytes : List UInt8} {e : Error}
    (h : readTwoSections magic parseHeader parseBody file bytes = .error e) :
    e.isFormat = true ∨ ∃ c header short, Container.parse bytes magic file = .ok c ∧
      c.firstPayload headerKind file = .ok header ∧ parseHeader header = .error short ∧
      e = .shortRead short := by
  rw [readTwoSections] at h
  split at h
  · cases h
    exact .inl rfl
  · rename_i c hParse
    split at h
    · cases h
      exact .inl rfl
    · rename_i header hFirst
      split at h
      · rename_i short hShort
        cases h
        exact .inr ⟨c, header, short, hParse, hFirst, hShort, rfl⟩
      · split at h
        · cases h
          exact .inl rfl
        · exact .inl (hBody _ _ e h)

/-- Reading a file of two sections ends as stated if its header can be read exactly when it is not
cut short. -/
theorem failsAsStated_readTwoSections (hMagic : IsMagic magic) {fixed : Nat}
    (hHeader : ∀ buffer, (∃ h, parseHeader buffer = .ok h) ↔ ¬ IsCutShort fixed buffer)
    (file : String) (bytes : List UInt8) :
    FailsAsStated magic fixed bytes (readTwoSections magic parseHeader parseBody file bytes) := by
  constructor
  · intro e h
    rcases readTwoSections_eq_error hBody h with hFormat | ⟨_, _, short, _, _, _, rfl⟩
    · exact .inl hFormat
    · exact .inr ⟨short, rfl⟩
  · constructor
    · rintro ⟨short, h⟩
      rcases readTwoSections_eq_error hBody h with
        hFormat | ⟨c, header, short', hParse, hFirst, hShort, -⟩
      · cases hFormat
      · refine ⟨c, header, (Container.parse_eq_ok_iff_isWrittenIn hMagic file bytes c).mp hParse,
          (c.firstPayload_eq_ok_iff 1 file header).mp hFirst, ?_⟩
        by_contra hWhole
        obtain ⟨h, hOk⟩ := (hHeader header).mpr hWhole
        rw [hOk] at hShort
        cases hShort
    · rintro ⟨c, header, hc, hFirst, hCut⟩
      have hParse := (Container.parse_eq_ok_iff_isWrittenIn hMagic file bytes c).mpr hc
      have hPayload : c.firstPayload headerKind file = .ok header :=
        (c.firstPayload_eq_ok_iff 1 file header).mpr hFirst
      cases hRead : parseHeader header with
      | error short => exact ⟨short, by simp only [readTwoSections, hParse, hPayload, hRead]⟩
      | ok h => exact absurd hCut ((hHeader header).mp ⟨h, hRead⟩)

end

/-! ## Constraint files and witness files -/

theorem isMagic_constraintMagic : IsMagic constraintMagic :=
  ⟨rfl, by simp [constraintMagic]⟩

theorem isMagic_witnessMagic : IsMagic witnessMagic :=
  ⟨rfl, by simp [witnessMagic]⟩

/-- What a constraint file holds behind its header. -/
def constraintsOf (header : ConstraintHeader) (body : List UInt8) :
    Except Error ConstraintSystem :=
  match parseConstraints body header.elementSize header.constraintCount with
  | .error fault => .error (.format fault)
  | .ok constraints => .ok { header with constraints }

/-- What a witness file holds behind its header. -/
private def valuesOf (header : Nat × Nat × Nat) (body : List UInt8) : Except Error WitnessFile :=
  match fieldElements body header.1 header.2.2 0 with
  | .error e => .error e
  | .ok values => .ok ⟨header.2.1, values⟩

/-- A constraint file is read as a file of two sections. -/
theorem constraintSystem_read_eq (file : String) (bytes : List UInt8) :
    ConstraintSystem.read file bytes =
      readTwoSections constraintMagic ConstraintHeader.parse constraintsOf file bytes := by
  unfold ConstraintSystem.read readTwoSections
  cases Container.parse bytes constraintMagic file with
  | error fault => rfl
  | ok c =>
      dsimp only
      cases c.firstPayload headerKind file with
      | error fault => rfl
      | ok header =>
          dsimp only
          cases ConstraintHeader.parse header with
          | error short => rfl
          | ok h => rfl

private theorem witnessFile_read_eq (file : String) (bytes : List UInt8) :
    WitnessFile.read file bytes =
      readTwoSections witnessMagic WitnessFile.parseHeader valuesOf file bytes := by
  unfold WitnessFile.read readTwoSections
  cases Container.parse bytes witnessMagic file with
  | error fault => rfl
  | ok c =>
      dsimp only
      cases c.firstPayload headerKind file with
      | error fault => rfl
      | ok header =>
          dsimp only
          cases WitnessFile.parseHeader header with
          | error short => rfl
          | ok h => rfl

/-- Constraints that cannot be read are a malformed file. -/
private theorem isFormat_of_constraintsOf (header : ConstraintHeader) (body : List UInt8) (e : Error)
    (h : constraintsOf header body = .error e) : e.isFormat = true := by
  rw [constraintsOf] at h
  split at h
  · cases h
    rfl
  · cases h

/-- Values that cannot be read from the start of a section are a malformed file. -/
private theorem isFormat_of_valuesOf (header : Nat × Nat × Nat) (body : List UInt8) (e : Error)
    (h : valuesOf header body = .error e) : e.isFormat = true := by
  rw [valuesOf, fieldElements] at h
  split at h
  · rename_i hValues
    split at hValues
    · cases hValues
      cases h
      rfl
    · split at hValues
      · cases hValues
        cases h
        rfl
      · split at hValues
        · rename_i hNegative
          exact absurd hNegative (by decide)
        · cases hValues
  · cases h

/-- Reading a binary file ends well, or in a malformed file, or in a read that failed; and in the
last exactly if its header section is there and cut short. -/
theorem read_failures (file : String) (bytes : List UInt8) :
    FailsAsStated constraintMagic 32 bytes (ConstraintSystem.read file bytes) ∧
      FailsAsStated witnessMagic 8 bytes (WitnessFile.read file bytes) := by
  constructor
  · rw [constraintSystem_read_eq]
    exact failsAsStated_readTwoSections isFormat_of_constraintsOf isMagic_constraintMagic
      ConstraintHeader.exists_parse_iff file bytes
  · rw [witnessFile_read_eq]
    exact failsAsStated_readTwoSections isFormat_of_valuesOf isMagic_witnessMagic
      WitnessFile.exists_parseHeader_iff file bytes

/-- Not every failure is reported as a malformed file: where the header section has no byte in it,
the failed read of its first number comes out. -/
theorem read_failure_not_format :
    ¬ ∀ (file : String) (bytes : List UInt8),
      (∀ e, ConstraintSystem.read file bytes = .error e → e.isFormat = true) ∧
        ∀ e, WitnessFile.read file bytes = .error e → e.isFormat = true := by
  intro h
  have hShort : ConstraintSystem.read "c.r1cs" (Container.encode constraintMagic ⟨1, [(1, [])]⟩) =
      .error (.shortRead ⟨4, 0, 0⟩) := rfl
  have hFormat := (h _ _).1 _ hShort
  exact Bool.false_ne_true hFormat

end CircuitBench
