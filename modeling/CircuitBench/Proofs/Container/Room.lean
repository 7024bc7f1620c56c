import CircuitBench.Proofs.Container.Failures
import CircuitBench.Proofs.Witness.RoundTrip

/-!
# What a binary file has room for

The counts of a binary file are its own word: how many constraints there are, how many terms a
linear form has, how many values a witness has.  What keeps a false count from making a reader
produce entries without end is that every entry takes bytes, which have to be there.

For constraints this is followed along the cursor.  The bytes that a reading spends are counted
against those that are left, and spending is closed under sequence: a reading that spends anything
starts with a number, so it finds a byte, and then nothing was missing before.  Hence only the last
coefficient of a section can be spent without being there.  What is kept of a form has at most as
many terms as were listed.

For witness values it is the size of an element that carries the bound, since the listing is
measured as a whole.  An element of no bytes takes no room, and the size of an element is the file's
own word as well.  It has to be a multiple of eight, which zero is.

## Main results

* `Cursor.Spends.trans` : what is spent on two ways in a row.
* `Constraint.parseMany_spends` : what is spent on constraints.
* `Container.room_of_isFirst` : two sections of different kinds have room in a file.
* `entries_have_room` : the entries that come out of a file are bounded by its length, unless they
  are values that take no bytes, of which a file of 44 bytes can have as many as it can state.
* `values_without_room` : so the values are not bounded in every file.
-/

namespace CircuitBench

/-! ## Bytes that are spent -/

namespace Cursor

/-- Whether the way from a cursor to another spends so many bytes of the buffer, of which at most
`spare` are missing at its end.  Nothing is spent where no byte is left. -/
structure Spends (spare count : Nat) (c c' : Cursor) : Prop where
  room : count ≤ c.rest.length + spare
  left : c'.rest.length ≤ c.rest.length - count
  start : 0 < count → 0 < c.rest.length

variable {spare count count' : Nat} {c c' c'' : Cursor}

theorem Spends.refl (spare : Nat) (c : Cursor) : Spends spare 0 c c :=
  ⟨Nat.zero_le _, Nat.le_refl _, fun h => absurd h (Nat.lt_irrefl 0)⟩

/-- What is spent on two ways in a row.  Bytes may be missing on the second way only, since it does
not start where none is left. -/
theorem Spends.trans (h : Spends spare count c c') (h' : Spends spare count' c' c'') :
    Spends spare (count + count') c c'' := by
  obtain ⟨hRoom, hLeft, hStart⟩ := h
  obtain ⟨hRoom', hLeft', hStart'⟩ := h'
  constructor
  · rcases Nat.eq_zero_or_pos count' with hNone | hSome
    · omega
    · have hByte := hStart' hSome
      omega
  · omega
  · intro hSpent
    rcases Nat.eq_zero_or_pos count with hNone | hSome
    · have hByte := hStart' (by omega)
      omega
    · exact hStart hSome

/-- What spends some bytes spends fewer. -/
theorem Spends.weaken (h : Spends spare count c c') (hLe : count' ≤ count) :
    Spends spare count' c c' := by
  obtain ⟨hRoom, hLeft, hStart⟩ := h
  exact ⟨by omega, by omega, fun hSome => hStart (by omega)⟩

/-- A number of four bytes spends them. -/
theorem word_spends {n : Nat} (h : c.word = .ok (n, c')) (spare : Nat) : Spends spare 4 c c' := by
  obtain ⟨hRoom, -, rfl⟩ := number_eq_ok h
  refine ⟨by omega, ?_, fun _ => by omega⟩
  rw [length_skip]

/-- A number of four bytes and an element behind it spend the bytes of both, and those of the
element need not be there. -/
theorem word_element_spends {n : Nat} (h : c.word = .ok (n, c')) (width : Nat) :
    Spends width (4 + width) c (c'.element width).2 := by
  obtain ⟨hRoom, -, rfl⟩ := number_eq_ok h
  refine ⟨by omega, ?_, fun _ => by omega⟩
  rw [element, length_skip, length_skip]
  omega

end Cursor

/-! ## Constraints -/

/-- The terms that are kept of constraints, those of all their linear forms. -/
def storedTerms (ks : List Constraint) : List (Int × Int) :=
  ks.flatMap fun k => k.forms.flatten

section Constraints

variable {elementSize : Nat} {c c' : Cursor}

/-- Terms spend the bytes of a wire and of a coefficient each, and at most as many of them are kept
as were listed. -/
theorem LinearForm.parseTerms_spends {count : Nat} {f g : LinearForm}
    (h : LinearForm.parseTerms elementSize count f c = .ok (g, c')) :
    c.Spends elementSize ((4 + elementSize) * count) c' ∧ g.length ≤ f.length + count := by
  induction count generalizing f c with
  | zero =>
      cases h
      exact ⟨Cursor.Spends.refl _ _, Nat.le_refl _⟩
  | succ count ih =>
      rw [LinearForm.parseTerms] at h
      split at h
      · cases h
      · rename_i wire behind hWire
        have hTerm := Cursor.word_element_spends hWire elementSize
        obtain ⟨hMore, hKept⟩ := ih h
        constructor
        · rw [Nat.mul_succ, Nat.add_comm]
          exact hTerm.trans hMore
        · refine Nat.le_trans hKept ?_
          rw [Nat.add_comm count, ← Nat.add_assoc]
          exact Nat.add_le_add_right (LinearForm.length_put_le f wire _) count

/-- A linear form spends the bytes of its number of terms and those of its terms. -/
theorem LinearForm.parse_spends {f : LinearForm}
    (h : LinearForm.parse elementSize c = .ok (f, c')) :
    c.Spends elementSize (4 + (4 + elementSize) * f.length) c' := by
  rw [LinearForm.parse] at h
  split at h
  · cases h
  · rename_i count behind hCount
    obtain ⟨hTerms, hKept⟩ := LinearForm.parseTerms_spends h
    rw [List.length_nil, Nat.zero_add] at hKept
    exact (Cursor.word_spends hCount elementSize).trans
      (hTerms.weaken (Nat.mul_le_mul_left _ hKept))

/-- A constraint spends the bytes of three linear forms. -/
theorem Constraint.parse_spends {k : Constraint}
    (h : Constraint.parse elementSize c = .ok (k, c')) :
    c.Spends elementSize (12 + (4 + elementSize) * k.forms.flatten.length) c' := by
  obtain ⟨⟨a, behindA⟩, hA, h⟩ := except_bind_eq_ok h
  obtain ⟨⟨b, behindB⟩, hB, h⟩ := except_bind_eq_ok h
  obtain ⟨⟨d, behindC⟩, hC, h⟩ := except_bind_eq_ok h
  cases h
  have hAll := ((LinearForm.parse_spends hA).trans (LinearForm.parse_spends hB)).trans
    (LinearForm.parse_spends hC)
  refine hAll.weaken ?_
  rw [Constraint.length_flatten_forms, Nat.mul_add, Nat.mul_add]
  dsimp only
  omega

/-- Constraints spend the bytes of three numbers each, and of a wire and a coefficient for each term
that is kept. -/
theorem Constraint.parseMany_spends {count : Nat} {ks : List Constraint}
    (h : Constraint.parseMany elementSize count c = .ok ks) :
    ∃ c', c.Spends elementSize (12 * ks.length + (4 + elementSize) * (storedTerms ks).length) c' := by
  induction count generalizing c ks with
  | zero =>
      cases h
      exact ⟨c, Cursor.Spends.refl _ _⟩
  | succ count ih =>
      obtain ⟨⟨k, behind⟩, hFirst, h⟩ := except_bind_eq_ok h
      obtain ⟨more, hMore, h⟩ := except_bind_eq_ok h
      cases h
      obtain ⟨c', hSpends⟩ := ih hMore
      refine ⟨c', ((Constraint.parse_spends hFirst).trans hSpends).weaken ?_⟩
      rw [storedTerms, List.flatMap_cons, ← storedTerms, List.length_append, List.length_cons,
        Nat.mul_add (4 + elementSize)]
      omega

/-- The constraints of a section have room in it, but for the bytes of a coefficient. -/
theorem parseConstraints_room {buffer : List UInt8} {count : Nat} {ks : List Constraint}
    (h : parseConstraints buffer elementSize count = .ok ks) :
    12 * ks.length + (4 + elementSize) * (storedTerms ks).length ≤ buffer.length + elementSize := by
  rw [parseConstraints] at h
  split at h
  · rename_i found hFound
    cases h
    obtain ⟨c', hSpends⟩ := Constraint.parseMany_spends hFound
    exact hSpends.room
  · cases h

end Constraints

/-! ## Sections -/

namespace Container

theorem length_encodeSection (s : Nat × List UInt8) :
    (encodeSection s).length = 12 + s.2.length := by
  rw [encodeSection, List.length_append, List.length_append, LittleEndian.length_ofNat,
    LittleEndian.length_ofNat]

/-- The bytes of a section are among those of all sections. -/
theorem room_of_mem {s : Nat × List UInt8} {sections : List (Nat × List UInt8)}
    (h : s ∈ sections) : 12 + s.2.length ≤ (sections.flatMap encodeSection).length := by
  obtain ⟨before, after, rfl⟩ := List.append_of_mem h
  rw [List.flatMap_append, List.flatMap_cons, List.length_append, List.length_append,
    length_encodeSection]
  omega

/-- Two sections of different kinds have room in a file, behind what comes before all sections. -/
theorem room_of_isFirst {magic : String} (hMagic : IsMagic magic) {c : Container}
    {kind kind' : Nat} (hKinds : kind ≠ kind') {payload payload' : List UInt8}
    (h : c.IsFirst kind payload) (h' : c.IsFirst kind' payload') :
    36 + payload.length + payload'.length ≤ (c.encode magic).length := by
  obtain ⟨before, after, hSections, -⟩ := h
  obtain ⟨before', after', hSections', -⟩ := h'
  have hOther : (kind', payload') ∈ before ++ after := by
    have hMem : (kind', payload') ∈ before ++ (kind, payload) :: after := by
      rw [← hSections, hSections']
      exact List.mem_append_right _ List.mem_cons_self
    rcases List.mem_append.mp hMem with hBefore | hBehind
    · exact List.mem_append_left _ hBefore
    · rcases List.mem_cons.mp hBehind with hSame | hAfter
      · exact absurd (congrArg Prod.fst hSame).symm hKinds
      · exact List.mem_append_right _ hAfter
  have hRoom : 12 + payload'.length ≤ ((before ++ after).flatMap encodeSection).length :=
    room_of_mem hOther
  rw [List.flatMap_append, List.length_append] at hRoom
  rw [encode, hSections, List.flatMap_append, List.flatMap_cons]
  simp only [List.length_append, hMagic.length_encode, LittleEndian.length_ofNat,
    length_encodeSection]
  omega

end Container

/-! ## Files -/

/-- Whether a file states a size for its field elements: it is a container, and the size is the
number in front of its first section of kind one. -/
def StatesSize (magic : String) (bytes : List UInt8) (size : Nat) : Prop :=
  ∃ (c : Container) (header : List UInt8), c.IsWrittenIn magic bytes ∧ c.IsFirst 1 header ∧
    size = LittleEndian.toNat (header.take 4)

/-- The constraints of a file have room in it. -/
theorem ConstraintSystem.read_room {file : String} {bytes : List UInt8} {s : ConstraintSystem}
    (h : ConstraintSystem.read file bytes = .ok s) :
    68 + 12 * s.constraints.length + (4 + s.elementSize) * (storedTerms s.constraints).length ≤
      bytes.length := by
  rw [constraintSystem_read_eq] at h
  obtain ⟨c, headerBytes, header, body, hParse, hFirst, hHeader, hSecond, hBody⟩ :=
    readTwoSections_eq_ok h
  obtain ⟨-, tail, rfl⟩ :=
    (Container.parse_eq_ok_iff_isWrittenIn isMagic_constraintMagic file bytes c).mp hParse
  have hIsHeader := (c.firstPayload_eq_ok_iff 1 file headerBytes).mp hFirst
  have hIsBody := (c.firstPayload_eq_ok_iff 2 file body).mp hSecond
  have hSections :=
    Container.room_of_isFirst isMagic_constraintMagic (by decide) hIsHeader hIsBody
  obtain ⟨-, hHeaderRoom⟩ := ConstraintHeader.room_of_parse hHeader
  rw [constraintsOf] at hBody
  split at hBody
  · cases hBody
  · rename_i ks hConstraints
    cases hBody
    have hBodyRoom := parseConstraints_room hConstraints
    rw [List.length_append]
    -- the coefficient that may be missing is as large as the prime, which is there
    show 68 + 12 * ks.length + (4 + header.elementSize) * (storedTerms ks).length ≤ _
    omega

/-- The values of a witness file have room in it, as far as they take any. -/
theorem WitnessFile.read_room {file : String} {bytes : List UInt8} {w : WitnessFile}
    (h : WitnessFile.read file bytes = .ok w) :
    ∃ size, StatesSize witnessMagic bytes size ∧ w.Fits size ∧
      44 + size * (w.values.length + 1) ≤ bytes.length := by
  obtain ⟨c, size, headerRest, bodyRest, tail, hc, hw, rfl, hHeader, hBody⟩ := isWritten_of_read h
  have hSections := Container.room_of_isFirst isMagic_witnessMagic (by decide) hHeader hBody
  have hWidth : size < LittleEndian.capacity 4 := by
    rw [LittleEndian.capacity_eq]
    exact hw.width
  refine ⟨size, ⟨c, _, ⟨hc, tail, rfl⟩, hHeader, ?_⟩, hw, ?_⟩
  · rw [encodeWitnessHeader, List.append_assoc, List.append_assoc,
      List.take_left' (LittleEndian.length_ofNat 4 size), LittleEndian.toNat_ofNat_of_lt hWidth]
  · simp only [encodeWitnessHeader, List.length_append, LittleEndian.length_ofNat,
      length_encodeElements] at hSections ⊢
    rw [Nat.mul_succ]
    omega

/-! ## Values that take no bytes -/

/-- Where an element takes no bytes, the prime and all values are zero. -/
theorem WitnessFile.eq_replicate_of_fits {w : WitnessFile} (h : w.Fits 0) :
    w = ⟨0, List.replicate w.values.length 0⟩ := by
  have hPrime : w.prime = 0 := Nat.lt_one_iff.mp h.prime
  have hValues : w.values = List.replicate w.values.length 0 :=
    List.eq_replicate_of_mem fun v hv => Nat.lt_one_iff.mp (h.values v hv)
  obtain ⟨prime, values⟩ := w
  exact congrArg₂ WitnessFile.mk hPrime hValues

/-- A witness file that states a number of values, and that each of them takes no bytes. -/
def hollowWitness (count : Nat) : Container :=
  ⟨2, [(1, encodeWitnessHeader 0 0 count), (2, [])]⟩

theorem fits_hollowWitness (count : Nat) : (hollowWitness count).Fits := by
  have hHeader : (encodeWitnessHeader 0 0 count).length = 8 := rfl
  refine ⟨(by decide : 2 < LittleEndian.capacity 4), (by decide : 2 < LittleEndian.capacity 4), ?_⟩
  intro s hs
  simp only [hollowWitness, List.mem_cons, List.not_mem_nil, or_false] at hs
  rcases hs with rfl | rfl
  · refine ⟨(by decide : 1 < LittleEndian.capacity 4), ?_⟩
    rw [hHeader]
    decide
  · exact ⟨by decide, by decide⟩

theorem isFirst_hollowWitness (count : Nat) :
    (hollowWitness count).IsFirst 1 (encodeWitnessHeader 0 0 count) ∧
      (hollowWitness count).IsFirst 2 [] := by
  refine ⟨⟨[], _, rfl, by simp⟩, ⟨[_], [], rfl, ?_⟩⟩
  intro s hs
  rw [List.mem_singleton] at hs
  subst hs
  exact (by decide : 1 ≠ 2)

/-- The size of an element is zero. -/
theorem statesSize_hollowWitness (count : Nat) :
    StatesSize witnessMagic ((hollowWitness count).encode witnessMagic) 0 := by
  refine ⟨_, _, ⟨fits_hollowWitness count, [], by rw [List.append_nil]⟩,
    (isFirst_hollowWitness count).1, ?_⟩
  rfl

/-- As many values come out as the file states, all of them zero. -/
theorem read_hollowWitness (file : String) {count : Nat} (hCount : count < 2 ^ 32) :
    WitnessFile.read file ((hollowWitness count).encode witnessMagic) =
      .ok ⟨0, List.replicate count 0⟩ := by
  have hNone : encodeElements 0 (List.replicate count 0) = [] := by
    apply List.eq_nil_of_length_eq_zero
    rw [length_encodeElements, Nat.zero_mul]
  apply WitnessFile.read_of_isWritten
  refine ⟨hollowWitness count, 0, [], [], [], fits_hollowWitness count, ?_, ?_, ?_, ?_⟩
  · refine ⟨by decide, by decide, Nat.one_pos, ?_, ?_⟩
    · rwa [List.length_replicate]
    · intro v hv
      rw [List.eq_of_mem_replicate hv]
      decide
  · rw [List.append_nil]
  · rw [List.append_nil, List.length_replicate]
    exact (isFirst_hollowWitness count).1
  · rw [List.append_nil]
    show (hollowWitness count).IsFirst 2 (encodeElements 0 (List.replicate count 0))
    rw [hNone]
    exact (isFirst_hollowWitness count).2

/-! ## Entries -/

/-- The entries that come out of a file have room in it.  A constraint takes the bytes of three
numbers, a term that is kept of it those of a wire and a coefficient, and a value those of an
element, so that there is at most one value to eight bytes unless the file states that an element
takes none.  Then the prime and all values are zero, and there is no bound: every number of values
that a count can state comes out of a file of 44 bytes. -/
theorem entries_have_room (file : String) :
    (∀ bytes s, ConstraintSystem.read file bytes = .ok s →
      12 * s.constraints.length + 4 * (storedTerms s.constraints).length ≤ bytes.length ∧
      68 + 12 * s.constraints.length + (4 + s.elementSize) * (storedTerms s.constraints).length ≤
        bytes.length) ∧
    (∀ bytes w, WitnessFile.read file bytes = .ok w →
      ∃ size, StatesSize witnessMagic bytes size ∧
        (size ≠ 0 → 8 * w.values.length ≤ bytes.length) ∧
        44 + size * (w.values.length + 1) ≤ bytes.length ∧
        (size = 0 → w = ⟨0, List.replicate w.values.length 0⟩)) ∧
    ∀ count < 2 ^ 32, ∃ bytes, bytes.length = 44 ∧ StatesSize witnessMagic bytes 0 ∧
      WitnessFile.read file bytes = .ok ⟨0, List.replicate count 0⟩ := by
  refine ⟨?_, ?_, ?_⟩
  · intro bytes s hRead
    have hRoom := ConstraintSystem.read_room hRead
    have hWires := Nat.mul_le_mul_right (storedTerms s.constraints).length
      (Nat.le_add_right 4 s.elementSize)
    exact ⟨by omega, hRoom⟩
  · intro bytes w hRead
    obtain ⟨size, hStates, hFits, hRoom⟩ := WitnessFile.read_room hRead
    refine ⟨size, hStates, ?_, hRoom, ?_⟩
    · intro hSize
      have hWord : 8 ≤ size := Nat.le_of_dvd (Nat.pos_of_ne_zero hSize) hFits.words
      have hValues := Nat.mul_le_mul_right (w.values.length + 1) hWord
      omega
    · rintro rfl
      exact WitnessFile.eq_replicate_of_fits hFits
  · intro count hCount
    exact ⟨(hollowWitness count).encode witnessMagic, rfl, statesSize_hollowWitness count,
      read_hollowWitness file hCount⟩

/-- Two files without a byte to spare.  The section of constraints ends before the last coefficient,
for which a zero is read; the values take two words each.  Behind them comes what a file of 44 bytes
can state at most. -/
theorem entries_have_room_full :
    let h : ConstraintHeader := ⟨7, 8, 2, 1, 0, 0, 2, 1⟩
    let k : ConstraintTerms := ⟨[(1, 2)], [(0, 1)], [(1, 5)]⟩
    let constraints := Container.encode constraintMagic
      ⟨1, [(1, h.encode), (2, (k.encode 8).take 40)]⟩
    let values := Container.encode witnessMagic
      ⟨2, [(1, encodeWitnessHeader 16 7 2), (2, encodeElements 16 [5, 18446744073709551617])]⟩
    (∃ s, ConstraintSystem.read "m.r1cs" constraints = .ok s ∧
      s.constraints = [⟨[(1, 2)], [(0, 1)], [(1, 0)]⟩] ∧ 12 * 1 + 4 * 3 ≤ constraints.length ∧
      68 + 12 * 1 + (4 + 8) * 3 ≤ constraints.length ∧ constraints.length = 116) ∧
    (∃ w size, WitnessFile.read "w.wtns" values = .ok w ∧ w.values = [5, 18446744073709551617] ∧
      size ≠ 0 ∧ 8 * 2 ≤ values.length ∧ 44 + size * 3 ≤ values.length ∧ values.length = 92) ∧
    ∃ bytes, bytes.length = 44 ∧
      WitnessFile.read "w.wtns" bytes = .ok ⟨0, List.replicate 4294967295 0⟩ := by
  intro h k constraints values
  obtain ⟨hConstraints, -, -⟩ := entries_have_room "m.r1cs"
  obtain ⟨-, hValues, hHollow⟩ := entries_have_room "w.wtns"
  refine ⟨?_, ?_, ?_⟩
  · have hRead : ConstraintSystem.read "m.r1cs" constraints =
        .ok ⟨h, [⟨[(1, 2)], [(0, 1)], [(1, 0)]⟩]⟩ :=
      Except.eq_ok_of_toOption (by decide +kernel)
    obtain ⟨hWires, hRoom⟩ := hConstraints _ _ hRead
    exact ⟨_, hRead, rfl, hWires, hRoom, rfl⟩
  · have hRead : WitnessFile.read "w.wtns" values = .ok ⟨7, [5, 18446744073709551617]⟩ :=
      Except.eq_ok_of_toOption (by decide +kernel)
    obtain ⟨size, -, hWords, hRoom, hZero⟩ := hValues _ _ hRead
    have hSize : size ≠ 0 := by
      rintro rfl
      have hSame := hZero rfl
      cases hSame
    exact ⟨_, size, hRead, rfl, hSize, hWords hSize, hRoom, rfl⟩
  · obtain ⟨bytes, hLength, -, hRead⟩ := hHollow 4294967295 (by decide)
    exact ⟨bytes, hLength, hRead⟩

/-- The values of a file are not bounded by its length as such: six of them come out of 44 bytes. -/
theorem values_without_room :
    ¬ ∀ (file : String) (bytes : List UInt8),
      (∀ w, WitnessFile.read file bytes = .ok w → 8 * w.values.length ≤ bytes.length) ∧
        ∀ s, ConstraintSystem.read file bytes = .ok s →
          12 * s.constraints.length + 4 * (storedTerms s.constraints).length ≤ bytes.length := by
  intro h
  have hRead := read_hollowWitness "w.wtns" (by decide : 6 < 2 ^ 32)
  have hBound := (h _ _).1 _ hRead
  exact absurd hBound (by decide)

end CircuitBench
