import CircuitBench.Container.Basic
import CircuitBench.Proofs.Bytes.Written

/-!
# The language of containers

A file is read as a container exactly when it is the written form of that container, with anything
at all behind it.  The reader goes by counts and sizes that the file itself states, so the proof
follows the cursor: whatever number of sections is asked for, the bytes that were passed are the
written form of the sections that came out, and a section is passed only if its whole payload is
there.

The written form fixes a field of four or eight bytes for each number, so it is unique only for
containers whose numbers fit their fields.  Those that were read from a file always do.

## Main results

* `parse_eq_ok_iff` : reading gives a container exactly on its written form, whatever follows.
* `firstPayload_eq_ok_iff` : the payload of a kind is that of the first section with it.
-/

namespace CircuitBench

namespace Container

/-- Whether every number of a container fits its field in the written form. -/
structure Fits (c : Container) : Prop where
  version : c.version < LittleEndian.capacity 4
  count : c.sections.length < LittleEndian.capacity 4
  sections : ∀ s ∈ c.sections, Writable s

/-- Whether a payload is that of the first section of a kind. -/
def IsFirst (c : Container) (kind : Nat) (payload : List UInt8) : Prop :=
  ∃ before after, c.sections = before ++ (kind, payload) :: after ∧ ∀ s ∈ before, s.1 ≠ kind

/-! ## Sections -/

/-- Bytes that start with a section in full start with its written form: twelve bytes for its kind
and its size, and as many for its payload as the size says. -/
private theorem encodeSection_append {bytes : List UInt8}
    (hHeader : sectionHeaderSize ≤ bytes.length) {size : Nat}
    (hSize : size = LittleEndian.toNat ((bytes.drop 4).take 8))
    (hBody : size ≤ (bytes.drop sectionHeaderSize).length) :
    Writable (LittleEndian.toNat (bytes.take 4), (bytes.drop sectionHeaderSize).take size) ∧
      encodeSection (LittleEndian.toNat (bytes.take 4), (bytes.drop sectionHeaderSize).take size) ++
        (bytes.drop sectionHeaderSize).drop size = bytes := by
  unfold sectionHeaderSize at hHeader
  have hKindRoom : 4 ≤ bytes.length := by omega
  have hSizeRoom : 8 ≤ (bytes.drop 4).length := by
    rw [List.length_drop]
    omega
  have hPayload : ((bytes.drop sectionHeaderSize).take size).length = size := by
    rw [List.length_take]
    omega
  have hBehind : bytes.drop sectionHeaderSize = (bytes.drop 4).drop 8 := by
    rw [List.drop_drop]
    rfl
  constructor
  · refine ⟨LittleEndian.toNat_take_lt hKindRoom, ?_⟩
    rw [hPayload, hSize]
    exact LittleEndian.toNat_take_lt hSizeRoom
  · have hSizeBytes : LittleEndian.ofNat 8 size = (bytes.drop 4).take 8 := by
      rw [hSize]
      exact LittleEndian.ofNat_toNat_take hSizeRoom
    rw [encodeSection, hPayload, LittleEndian.ofNat_toNat_take hKindRoom, hSizeBytes,
      List.append_assoc, List.take_append_drop, hBehind, List.append_assoc, List.take_append_drop,
      List.take_append_drop]

/-- The bytes that a cursor passes on its way through sections are their written form. -/
theorem encode_of_parseSections {file : String} {count : Nat} {c : Cursor}
    {sections : List (Nat × List UInt8)} (h : parseSections file count c = .ok sections) :
    sections.length = count ∧ (∀ s ∈ sections, Writable s) ∧
      ∃ tail, c.rest = sections.flatMap encodeSection ++ tail := by
  induction count generalizing c sections with
  | zero =>
      cases h
      exact ⟨rfl, by simp, c.rest, by simp⟩
  | succ count ih =>
      rw [parseSections] at h
      split at h
      · rename_i hHeader
        rw [Cursor.has_iff] at hHeader
        dsimp only at h
        split at h
        · rename_i hBody
          rw [Cursor.has_iff] at hBody
          split at h
          · rename_i more hMore
            cases h
            obtain ⟨hLen, hWritable, tail, hTail⟩ := ih hMore
            obtain ⟨hFirst, hSplit⟩ := encodeSection_append hHeader rfl hBody
            refine ⟨by simp [hLen], ?_, tail, ?_⟩
            · intro s hs
              rcases List.mem_cons.mp hs with rfl | hs
              · exact hFirst
              · exact hWritable s hs
            · rw [List.flatMap_cons, List.append_assoc, ← hTail]
              exact hSplit.symm
          · cases h
        · cases h
      · cases h

/-! ## Files -/

/-- A container is read back from its written form, whatever follows. -/
theorem parse_encode_append {magic : String} (hMagic : (Text.Utf8.encode magic).length = 4)
    (file : String) {c : Container} (hc : c.Fits) (tail : List UInt8) :
    parse (encode magic c ++ tail) magic file = .ok c := by
  let behind := c.sections.flatMap encodeSection ++ tail
  have hBytes : encode magic c ++ tail = Text.Utf8.encode magic ++
      (LittleEndian.ofNat 4 c.version ++ (LittleEndian.ofNat 4 c.sections.length ++ behind)) := by
    simp [encode, behind, List.append_assoc]
  have hTakeMagic : (encode magic c ++ tail).take 4 = Text.Utf8.encode magic := by
    rw [hBytes, List.take_left' hMagic]
  have hdrop4 : (encode magic c ++ tail).drop 4 =
      LittleEndian.ofNat 4 c.version ++ (LittleEndian.ofNat 4 c.sections.length ++ behind) := by
    rw [hBytes, List.drop_left' hMagic]
  have hdrop8 : (encode magic c ++ tail).drop 8 =
      LittleEndian.ofNat 4 c.sections.length ++ behind := by
    rw [show (8 : Nat) = 4 + 4 from rfl, ← List.drop_drop, hdrop4,
      List.drop_left' (LittleEndian.length_ofNat 4 _)]
  have hdrop12 : (encode magic c ++ tail).drop headerSize = behind := by
    rw [show headerSize = 8 + 4 from rfl, ← List.drop_drop, hdrop8,
      List.drop_left' (LittleEndian.length_ofNat 4 _)]
  have hLong : ¬ ((encode magic c ++ tail).length < headerSize) := by
    rw [hBytes]
    simp only [List.length_append, hMagic, LittleEndian.length_ofNat, headerSize]
    omega
  have hVersion : LittleEndian.toNat (((encode magic c ++ tail).drop 4).take 4) = c.version := by
    rw [hdrop4, List.take_left' (LittleEndian.length_ofNat 4 _),
      LittleEndian.toNat_ofNat_of_lt hc.version]
  have hCount : LittleEndian.toNat (((encode magic c ++ tail).drop 8).take 4) =
      c.sections.length := by
    rw [hdrop8, List.take_left' (LittleEndian.length_ofNat 4 _),
      LittleEndian.toNat_ofNat_of_lt hc.count]
  rw [parse, if_neg (by rw [hTakeMagic]; simpa using hLong)]
  simp only [hVersion, hCount, Cursor.start, Cursor.skip, hdrop12, behind]
  rw [parseSections_encode file c.sections hc.sections]

/-- A file that is read as a container is the written form of that container with something behind
it. -/
theorem encode_of_parse {data : List UInt8} {magic file : String} {c : Container}
    (h : parse data magic file = .ok c) :
    c.Fits ∧ ∃ tail, data = encode magic c ++ tail := by
  rw [parse] at h
  split at h
  · cases h
  · rename_i hHead
    obtain ⟨hLong, hMagic⟩ := not_or.mp hHead
    have hRoom : 12 ≤ data.length := by
      unfold headerSize at hLong
      omega
    rw [ne_eq, Classical.not_not] at hMagic
    dsimp only at h
    split at h
    · rename_i sections hSections
      cases h
      obtain ⟨hLen, hWritable, tail, hTail⟩ := encode_of_parseSections hSections
      have hVersionRoom : 4 ≤ (data.drop 4).length := by
        rw [List.length_drop]
        omega
      have hCountRoom : 4 ≤ (data.drop 8).length := by
        rw [List.length_drop]
        omega
      refine ⟨⟨LittleEndian.toNat_take_lt hVersionRoom, ?_, hWritable⟩, tail, ?_⟩
      · rw [hLen]
        exact LittleEndian.toNat_take_lt hCountRoom
      · have hdrop8 : (data.drop 4).drop 4 = data.drop 8 := by
          rw [List.drop_drop]
        have hdrop12 : (data.drop 8).drop 4 = ((Cursor.start data).skip headerSize).rest := by
          rw [List.drop_drop]
          rfl
        calc
          data = data.take 4 ++ ((data.drop 4).take 4 ++ ((data.drop 8).take 4 ++
              (data.drop 8).drop 4)) := by
            rw [List.take_append_drop, ← hdrop8, List.take_append_drop, List.take_append_drop]
          _ = encode magic ⟨_, sections⟩ ++ tail := by
            rw [hdrop12, hTail, encode, hLen, LittleEndian.ofNat_toNat_take hVersionRoom,
              LittleEndian.ofNat_toNat_take hCountRoom, hMagic]
            simp only [List.append_assoc]
    · cases h

/-- Reading gives a container exactly on its written form, whatever follows. -/
theorem parse_eq_ok_iff {magic : String} (hMagic : (Text.Utf8.encode magic).length = 4)
    (data : List UInt8) (file : String) (c : Container) :
    parse data magic file = .ok c ↔ c.Fits ∧ ∃ tail, data = encode magic c ++ tail := by
  constructor
  · exact encode_of_parse
  · rintro ⟨hc, tail, rfl⟩
    exact parse_encode_append hMagic file hc tail

/-! ## Sections of a kind -/

/-- The payload of a kind is that of the first section with it. -/
theorem firstPayload_eq_ok_iff (c : Container) (kind : Nat) (file : String) (payload : List UInt8) :
    c.firstPayload kind file = .ok payload ↔ c.IsFirst kind payload := by
  obtain ⟨version, sections⟩ := c
  simp only [firstPayload, payloads, IsFirst]
  induction sections with
  | nil => simp
  | cons s more ih =>
      by_cases hs : s.1 = kind
      · have hSection : (s.1 : Int) = kind := by exact_mod_cast hs
        simp only [List.filterMap_cons, hSection, if_true]
        constructor
        · intro h
          cases h
          exact ⟨[], more, by simp [← hs], by simp⟩
        · rintro ⟨before, after, hEq, hBefore⟩
          cases before with
          | nil =>
              cases hEq
              rfl
          | cons t before =>
              cases hEq
              exact absurd hs (hBefore s (by simp))
      · have hSection : ¬ ((s.1 : Int) = kind) := by exact_mod_cast hs
        simp only [List.filterMap_cons, hSection, if_false]
        rw [ih]
        constructor
        · rintro ⟨before, after, rfl, hBefore⟩
          refine ⟨s :: before, after, rfl, ?_⟩
          intro t ht
          rcases List.mem_cons.mp ht with rfl | ht
          · exact hs
          · exact hBefore t ht
        · rintro ⟨before, after, hEq, hBefore⟩
          cases before with
          | nil =>
              cases hEq
              exact absurd rfl hs
          | cons t before =>
              cases hEq
              exact ⟨before, after, rfl, fun u hu => hBefore u (by simp [hu])⟩

end Container

end CircuitBench
