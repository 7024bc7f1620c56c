import CircuitBench.Constraint.File
import CircuitBench.Proofs.Container.Language

/-!
# Reading back a written constraint file

One cursor goes through records of three sizes: counts, terms, and the header, whose own second
field is as wide as its first field says.  Each law below is about a cursor that stands in front of
a written record, and says that the record comes out and that the cursor then stands behind it; so
each one hands the cursor to the next, and no law needs to know what follows.

A linear form comes out as the list of its terms only if these name distinct wires: a wire that is
named twice keeps its first place and its last coefficient.

## Main results

* `parseMany_encode` : the written constraints of a section are read back, term by term.
* `read_written_constraints` : a constraint file is read back, whatever else its container holds.
-/

namespace CircuitBench

/-! ## Headers -/

/-- Whether every number of a header fits its field in the written form. -/
structure ConstraintHeader.Fits (h : ConstraintHeader) : Prop where
  elementSize : h.elementSize < 2 ^ 32
  prime : h.prime < 2 ^ (8 * h.elementSize)
  wires : h.wires < 2 ^ 32
  outputs : h.outputs < 2 ^ 32
  publicInputs : h.publicInputs < 2 ^ 32
  privateInputs : h.privateInputs < 2 ^ 32
  labels : h.labels < 2 ^ 64
  constraintCount : h.constraintCount < 2 ^ 32

theorem lt_word {n : Nat} (h : n < 2 ^ 32) : n < LittleEndian.capacity 4 := by
  rwa [LittleEndian.capacity_eq]

/-- A header is read back from its written form, whatever follows. -/
theorem ConstraintHeader.parse_encode_append {h : ConstraintHeader} (hh : h.Fits)
    (rest : List UInt8) : ConstraintHeader.parse (h.encode ++ rest) = .ok h := by
  have hPrime : h.prime < LittleEndian.capacity h.elementSize := by
    rw [LittleEndian.capacity_eq]
    exact hh.prime
  have hLabels : h.labels < LittleEndian.capacity 8 := by
    rw [LittleEndian.capacity_eq]
    exact hh.labels
  simp only [ConstraintHeader.parse, ConstraintHeader.encode, Cursor.start, List.append_assoc]
  rw [Cursor.word_ofNat _ _ (lt_word hh.elementSize)]
  simp only [bind, Except.bind]
  rw [Cursor.element_ofNat _ _ hPrime]
  dsimp only
  -- the four counts are read as one record, so the first of them asks for room for all
  rw [Cursor.number_ofNat _ _ (lt_word hh.wires) _ (by simp; omega)]
  dsimp only
  rw [Cursor.number_ofNat _ _ (lt_word hh.outputs) _ (by simp; omega)]
  dsimp only
  rw [Cursor.number_ofNat _ _ (lt_word hh.publicInputs) _ (by simp; omega)]
  dsimp only
  rw [Cursor.number_ofNat _ _ (lt_word hh.privateInputs) _ (by simp)]
  dsimp only
  rw [Cursor.number_ofNat _ _ hLabels _ (by simp)]
  dsimp only
  rw [Cursor.number_ofNat _ _ (lt_word hh.constraintCount) _ (by simp)]
  rfl

/-! ## Linear forms -/

/-- Whether a linear form can be written as a list of terms and be read back as that list. -/
structure TermsFit (elementSize : Nat) (terms : List (Nat × Nat)) : Prop where
  count : terms.length < 2 ^ 32
  wires : ∀ t ∈ terms, t.1 < 2 ^ 32
  coefficients : ∀ t ∈ terms, t.2 < 2 ^ (8 * elementSize)
  distinct : (terms.map Prod.fst).Nodup

/-- The linear form with given terms. -/
def LinearForm.ofList (terms : List (Nat × Nat)) : LinearForm :=
  terms.map fun t => ((t.1 : Int), (t.2 : Int))

/-- Terms on distinct wires that are new to a linear form are put behind its own. -/
theorem LinearForm.foldl_put {terms : List (Nat × Nat)} (hDistinct : (terms.map Prod.fst).Nodup)
    (f : LinearForm) (hNew : ∀ t ∈ terms, (t.1 : Int) ∉ f.wires) :
    terms.foldl (fun g t => g.put t.1 t.2) f = f ++ LinearForm.ofList terms := by
  induction terms generalizing f with
  | nil => simp [ofList]
  | cons t more ih =>
      obtain ⟨hFirst, hMore⟩ := List.nodup_cons.mp hDistinct
      rw [List.foldl_cons, put_of_not_mem f (hNew t (by simp)), ih hMore]
      · simp [ofList]
      · intro u hu hMem
        rw [wires, List.map_append, List.mem_append] at hMem
        rcases hMem with hMem | hMem
        · exact hNew u (by simp [hu]) hMem
        · have hCast : (u.1 : Int) = t.1 := by simpa using hMem
          have hSame : u.1 = t.1 := by exact_mod_cast hCast
          exact hFirst (hSame ▸ List.mem_map_of_mem hu)

/-- A linear form is read back from its written form, whatever follows. -/
theorem LinearForm.parse_encodeForm {elementSize : Nat} {terms : List (Nat × Nat)}
    (hTerms : TermsFit elementSize terms) (length offset : Nat) (rest : List UInt8) :
    LinearForm.parse elementSize ⟨length, offset, encodeForm elementSize terms ++ rest⟩ =
      .ok (LinearForm.ofList terms,
        ⟨length, offset + 4 + (4 + elementSize) * terms.length, rest⟩) := by
  have hWritable : ∀ t ∈ terms, WritableTerm elementSize t := by
    intro t ht
    refine ⟨lt_word (hTerms.wires t ht), ?_⟩
    rw [LittleEndian.capacity_eq]
    exact hTerms.coefficients t ht
  rw [LinearForm.parse, encodeForm, List.append_assoc,
    Cursor.word_ofNat _ _ (lt_word hTerms.count)]
  dsimp only
  rw [parseTerms_encode elementSize terms hWritable,
    LinearForm.foldl_put hTerms.distinct [] (by simp [wires])]
  rfl

/-! ## Constraints -/

namespace ConstraintTerms

/-- The lists of terms of the three linear forms of a constraint in order. -/
def forms (k : ConstraintTerms) : List (List (Nat × Nat)) :=
  [k.a, k.b, k.c]

/-- The constraint with given terms. -/
def toConstraint (k : ConstraintTerms) : Constraint :=
  ⟨LinearForm.ofList k.a, LinearForm.ofList k.b, LinearForm.ofList k.c⟩

/-- Whether all three linear forms of a constraint can be written and read back. -/
def Fits (elementSize : Nat) (k : ConstraintTerms) : Prop :=
  ∀ terms ∈ k.forms, TermsFit elementSize terms

end ConstraintTerms

/-- A constraint is read back from its written form, whatever follows. -/
theorem Constraint.parse_encode {elementSize : Nat} {k : ConstraintTerms}
    (hk : k.Fits elementSize) (length offset : Nat) (rest : List UInt8) :
    ∃ offset', Constraint.parse elementSize ⟨length, offset, k.encode elementSize ++ rest⟩ =
      .ok (k.toConstraint, ⟨length, offset', rest⟩) := by
  have ha := hk k.a (by simp [ConstraintTerms.forms])
  have hb := hk k.b (by simp [ConstraintTerms.forms])
  have hc := hk k.c (by simp [ConstraintTerms.forms])
  refine ⟨offset + 4 + (4 + elementSize) * k.a.length + 4 + (4 + elementSize) * k.b.length + 4 +
    (4 + elementSize) * k.c.length, ?_⟩
  simp only [Constraint.parse, ConstraintTerms.encode, List.append_assoc, bind, Except.bind]
  rw [LinearForm.parse_encodeForm ha]
  dsimp only
  rw [LinearForm.parse_encodeForm hb]
  dsimp only
  rw [LinearForm.parse_encodeForm hc]
  rfl

/-- The written constraints of a section are read back in order, whatever follows. -/
theorem parseMany_encode {elementSize : Nat} {ks : List ConstraintTerms}
    (hks : ∀ k ∈ ks, k.Fits elementSize) (length offset : Nat) (rest : List UInt8) :
    Constraint.parseMany elementSize ks.length
        ⟨length, offset, ks.flatMap (ConstraintTerms.encode elementSize) ++ rest⟩ =
      .ok (ks.map ConstraintTerms.toConstraint) := by
  induction ks generalizing offset with
  | nil => rfl
  | cons k more ih =>
      rw [List.flatMap_cons, List.append_assoc, List.length_cons, Constraint.parseMany]
      obtain ⟨offset', hParse⟩ := Constraint.parse_encode (hks k (by simp)) length offset
        (more.flatMap (ConstraintTerms.encode elementSize) ++ rest)
      simp only [bind, Except.bind, hParse]
      rw [ih fun k' hk' => hks k' (by simp [hk'])]
      rfl

/-! ## Files -/

/-- A constraint file is read back: the header and the constraints that the first sections of their
kinds start with, whatever else the sections and the container hold and whatever follows it. -/
theorem read_written_constraints (file : String) {h : ConstraintHeader} (hh : h.Fits)
    {ks : List ConstraintTerms} (hCount : h.constraintCount = ks.length)
    (hks : ∀ k ∈ ks, k.Fits h.elementSize) {c : Container} (hc : c.Fits)
    {headerRest bodyRest : List UInt8} (hHeader : c.IsFirst 1 (h.encode ++ headerRest))
    (hBody : c.IsFirst 2 (ks.flatMap (ConstraintTerms.encode h.elementSize) ++ bodyRest))
    (tail : List UInt8) :
    ConstraintSystem.read file (c.encode constraintMagic ++ tail) =
      .ok { h with constraints := ks.map ConstraintTerms.toConstraint } := by
  have hMagic : (Text.Utf8.encode constraintMagic).length = 4 := rfl
  have hParse := Container.parse_encode_append hMagic file hc tail
  have hHeaderPayload := (c.firstPayload_eq_ok_iff 1 file _).mpr hHeader
  have hBodyPayload := (c.firstPayload_eq_ok_iff 2 file _).mpr hBody
  simp only [ConstraintSystem.read, hParse, headerKind, dataKind]
  rw [show (1 : Int) = ((1 : Nat) : Int) from rfl, hHeaderPayload]
  dsimp only
  rw [ConstraintHeader.parse_encode_append hh]
  dsimp only
  rw [show (2 : Int) = ((2 : Nat) : Int) from rfl, hBodyPayload]
  dsimp only
  rw [parseConstraints, Cursor.start, hCount, parseMany_encode hks]

/-- A file whose sections stand in the wrong order, each kind twice or with bytes left over, and
whose field elements take three bytes: the first section of each kind is the one that counts.  The
first constraint has an empty linear form and one that names its wires backwards. -/
theorem read_shuffled_constraints :
    let h : ConstraintHeader := ⟨7, 3, 4, 1, 0, 2, 9, 2⟩
    let ks : List ConstraintTerms := [⟨[(3, 5), (0, 1)], [], [(2, 65536)]⟩, ⟨[], [], []⟩]
    let body := ks.flatMap (ConstraintTerms.encode 3) ++ [9]
    let c : Container := ⟨1, [(3, [1, 2]), (2, body), (1, h.encode ++ [7, 7]), (2, []), (1, [])]⟩
    ConstraintSystem.read "m.r1cs" (c.encode constraintMagic ++ [0, 1]) =
      .ok ⟨h, [⟨[(3, 5), (0, 1)], [], [(2, 65536)]⟩, ⟨[], [], []⟩]⟩ := by
  intro h ks body c
  have hh : h.Fits := by constructor <;> decide
  have hks : ∀ k ∈ ks, k.Fits h.elementSize := by
    intro k hk terms hTerms
    constructor <;> revert terms <;> revert k <;> decide
  have hc : c.Fits := by
    refine ⟨by decide, by decide, ?_⟩
    unfold Container.Writable
    decide
  have hHeader : c.IsFirst 1 (h.encode ++ [7, 7]) := ⟨[(3, [1, 2]), (2, body)], _, rfl, by decide⟩
  have hBody : c.IsFirst 2 body := ⟨[(3, [1, 2])], _, rfl, by decide⟩
  exact read_written_constraints "m.r1cs" hh rfl hks hc hHeader hBody [0, 1]

end CircuitBench
