import CircuitBench.Proofs.Bytes.Readers
import CircuitBench.Proofs.Constraint.RoundTrip

/-!
# Constraint sections that end too early

A constraint section is read number by number and coefficient by coefficient.  A number asks for all
its bytes, a coefficient does not.  As a rule a coefficient that is cut short is noticed when the
next number is asked for, which is then missing.  Behind the last coefficient of a section no number
is asked for.  So a section can spare the bytes of its last coefficient, if the last linear form has
a term, and nothing else; and where some of them are missing, zeros are read in their place.

Linear forms may name a wire more than once here.  What is read of one is the form that gives the
coefficients in order, so that a later one replaces an earlier one.

## Main results

* `reads_form`, `reads_constraint` : what a linear form and a constraint can spare.
* `parseConstraints_encode` : written constraints are read back, whatever follows them.
* `parseConstraints_front` : written constraints that are cut short are refused exactly if more is
  missing than they can spare, and are read with zeros in its place otherwise.
* `cut_coefficient_accepted` : not every cut is noticed.
-/

namespace CircuitBench

open Reader

/-! ## What is written and what is kept -/

/-- Whether every number of a list of terms fits its field in the written form. -/
structure TermsWritable (elementSize : Nat) (terms : List (Nat × Nat)) : Prop where
  count : terms.length < 2 ^ 32
  wires : ∀ t ∈ terms, t.1 < 2 ^ 32
  coefficients : ∀ t ∈ terms, t.2 < 2 ^ (8 * elementSize)

instance (elementSize : Nat) (terms : List (Nat × Nat)) :
    Decidable (TermsWritable elementSize terms) :=
  decidable_of_iff (terms.length < 2 ^ 32 ∧ (∀ t ∈ terms, t.1 < 2 ^ 32) ∧
      ∀ t ∈ terms, t.2 < 2 ^ (8 * elementSize))
    ⟨fun h => ⟨h.1, h.2.1, h.2.2⟩, fun h => ⟨h.count, h.wires, h.coefficients⟩⟩

/-- The linear form that is kept of a list of terms: they are given one after another. -/
def LinearForm.kept (terms : List (Nat × Nat)) : LinearForm :=
  LinearForm.ofTerms (LinearForm.ofList terms)

namespace ConstraintTerms

/-- Whether all three linear forms of a constraint can be written. -/
def Writable (elementSize : Nat) (k : ConstraintTerms) : Prop :=
  ∀ terms ∈ k.forms, TermsWritable elementSize terms

instance (elementSize : Nat) (k : ConstraintTerms) : Decidable (k.Writable elementSize) :=
  inferInstanceAs (Decidable (∀ terms ∈ k.forms, TermsWritable elementSize terms))

/-- The constraint that is kept of three lists of terms. -/
def kept (k : ConstraintTerms) : Constraint :=
  ⟨LinearForm.kept k.a, LinearForm.kept k.b, LinearForm.kept k.c⟩

/-- How many bytes of a written constraint may be missing at its end without being missed. -/
def spareBytes (elementSize : Nat) (k : ConstraintTerms) : Nat :=
  if k.c = [] then 0 else elementSize

end ConstraintTerms

/-- How many bytes of written constraints may be missing at their end without being missed: those of
the last coefficient, if the last linear form has one. -/
def spareBytes (elementSize : Nat) (ks : List ConstraintTerms) : Nat :=
  ofLast (ConstraintTerms.spareBytes elementSize) ks

/-! ## The readers of a section -/

/-- A step that reads a term. -/
def termReader (elementSize : Nat) : Reader (Nat × Nat) :=
  Reader.andThen Cursor.word fun wire => (elementReader elementSize).map fun k => (wire, k)

/-- A number of terms is read as a list, and then given to a linear form. -/
theorem parseTerms_eq (elementSize count : Nat) (f : LinearForm) (c : Cursor) :
    LinearForm.parseTerms elementSize count f c =
      Reader.map (fun terms => terms.foldl (fun g t => g.put t.1 t.2) f)
        ((termReader elementSize).many count) c := by
  induction count generalizing f c with
  | zero => rfl
  | succ count ih =>
      rw [LinearForm.parseTerms, Reader.map_apply, Reader.many_succ_apply]
      cases hWord : c.word with
      | error short =>
          have hTerm : termReader elementSize c = .error short := by
            rw [termReader, Reader.andThen, hWord]
            rfl
          rw [hTerm]
          rfl
      | ok p =>
          have hTerm : termReader elementSize c =
              .ok ((p.1, (p.2.element elementSize).1), (p.2.element elementSize).2) := by
            rw [termReader, Reader.andThen, hWord]
            rfl
          rw [hTerm]
          dsimp only
          rw [ih, Reader.map_apply]
          cases (termReader elementSize).many count (p.2.element elementSize).2 with
          | error short => rfl
          | ok q => rfl

/-- A linear form is read as a number of terms and the terms. -/
theorem form_parse_eq (elementSize : Nat) :
    LinearForm.parse elementSize = Reader.andThen Cursor.word fun count =>
      Reader.map LinearForm.kept ((termReader elementSize).many count) := by
  funext c
  rw [LinearForm.parse]
  simp only [Reader.andThen, bind, Except.bind]
  cases c.word with
  | error short => rfl
  | ok p =>
      dsimp only
      rw [parseTerms_eq, Reader.map_apply, Reader.map_apply]
      simp only [LinearForm.kept, LinearForm.ofTerms, LinearForm.ofList, List.foldl_map]

/-- A constraint is read as three linear forms. -/
theorem constraint_parse_eq (elementSize : Nat) :
    Constraint.parse elementSize = Reader.andThen (LinearForm.parse elementSize) fun a =>
      Reader.andThen (LinearForm.parse elementSize) fun b =>
        Reader.map (fun k => ⟨a, b, k⟩) (LinearForm.parse elementSize) := rfl

/-- Constraints are read one after another. -/
theorem parseMany_eq (elementSize count : Nat) (c : Cursor) :
    Constraint.parseMany elementSize count c =
      (Reader.many (Constraint.parse elementSize) count c).map Prod.fst := by
  induction count generalizing c with
  | zero => rfl
  | succ count ih =>
      rw [Constraint.parseMany, Reader.many_succ_apply]
      simp only [bind, Except.bind]
      cases Constraint.parse elementSize c with
      | error short => rfl
      | ok p =>
          dsimp only
          rw [ih]
          cases Reader.many (Constraint.parse elementSize) count p.2 with
          | error short => rfl
          | ok q => rfl

/-! ## What the readers can spare -/

/-- A written term can spare its coefficient. -/
theorem reads_term {elementSize : Nat} {t : Nat × Nat} (hWire : t.1 < 2 ^ 32)
    (hCoefficient : t.2 < 2 ^ (8 * elementSize)) :
    Reads (termReader elementSize) (encodeTerm elementSize t) t elementSize := by
  have hFits : t.2 < LittleEndian.capacity elementSize := by
    rwa [LittleEndian.capacity_eq]
  refine Reads.andThen (reads_word (lt_word hWire))
    ((reads_element hFits).map fun k => (t.1, k)) ?_ (.inl rfl)
  rw [LittleEndian.length_ofNat]

theorem length_encodeTerm (elementSize : Nat) (t : Nat × Nat) :
    (encodeTerm elementSize t).length = 4 + elementSize := by
  simp [encodeTerm]

/-- A term does not start with nothing. -/
theorem refuses_term_nil (elementSize : Nat) : Refuses (termReader elementSize) [] :=
  refuses_word_nil.andThen _

/-- A list of terms can spare the coefficient of the last. -/
theorem ofLast_terms (elementSize : Nat) (terms : List (Nat × Nat)) :
    ofLast (fun _ => elementSize) terms = if terms = [] then 0 else elementSize := by
  induction terms with
  | nil => rfl
  | cons t more ih =>
      cases more with
      | nil => rfl
      | cons u rest =>
          show ofLast (fun _ => elementSize) (u :: rest) = _
          rw [ih]
          rfl

/-- A written linear form can spare its last coefficient, if it has one. -/
theorem reads_form {elementSize : Nat} {terms : List (Nat × Nat)}
    (h : TermsWritable elementSize terms) :
    Reads (LinearForm.parse elementSize) (encodeForm elementSize terms) (LinearForm.kept terms)
      (if terms = [] then 0 else elementSize) := by
  have hTerms : Reads ((termReader elementSize).many terms.length)
      (terms.flatMap (encodeTerm elementSize)) (terms.map id) (ofLast (fun _ => elementSize) terms) :=
    Reads.many (fun t ht => reads_term (h.wires t ht) (h.coefficients t ht))
      (fun t => by rw [length_encodeTerm]; omega) (refuses_term_nil elementSize)
  have hSpare : ofLast (fun _ => elementSize) terms ≤
      (terms.flatMap (encodeTerm elementSize)).length :=
    ofLast_le (fun t => by rw [length_encodeTerm]; omega) terms
  rw [List.map_id] at hTerms
  rw [ofLast_terms] at hTerms hSpare
  rw [form_parse_eq]
  exact Reads.andThen (reads_word (lt_word h.count)) (hTerms.map _) hSpare (.inl rfl)

/-- A linear form does not start with nothing. -/
theorem refuses_form_nil (elementSize : Nat) : Refuses (LinearForm.parse elementSize) [] := by
  rw [form_parse_eq]
  exact refuses_word_nil.andThen _

/-- A written linear form with a term is longer than a coefficient. -/
theorem spare_le_length_encodeForm (elementSize : Nat) (terms : List (Nat × Nat)) :
    (if terms = [] then 0 else elementSize) ≤ (encodeForm elementSize terms).length := by
  cases terms with
  | nil => exact Nat.zero_le _
  | cons t more =>
      rw [encodeForm, List.flatMap_cons, List.length_append, List.length_append, length_encodeTerm,
        if_neg (List.cons_ne_nil t more)]
      omega

/-- A written constraint can spare the last coefficient of its third linear form. -/
theorem reads_constraint {elementSize : Nat} {k : ConstraintTerms} (hk : k.Writable elementSize) :
    Reads (Constraint.parse elementSize) (k.encode elementSize) k.kept
      (k.spareBytes elementSize) := by
  have ha := reads_form (hk k.a (by simp [ConstraintTerms.forms]))
  have hb := reads_form (hk k.b (by simp [ConstraintTerms.forms]))
  have hc := reads_form (hk k.c (by simp [ConstraintTerms.forms]))
  have hNil := refuses_form_nil elementSize
  have hSpare := spare_le_length_encodeForm elementSize k.c
  rw [constraint_parse_eq, ConstraintTerms.encode, List.append_assoc]
  -- each form but the last is followed by one that does not start with nothing
  refine Reads.andThen ha (Reads.andThen hb (hc.map _) hSpare (.inr fun _ => hNil.map _)) ?_
    (.inr fun _ => hNil.andThen _)
  rw [List.length_append]
  exact Nat.le_add_left_of_le hSpare

/-- A constraint does not start with nothing. -/
theorem refuses_constraint_nil (elementSize : Nat) :
    Refuses (Constraint.parse elementSize) [] := by
  rw [constraint_parse_eq]
  exact (refuses_form_nil elementSize).andThen _

/-- Written constraints can spare what the last of them can. -/
theorem reads_constraints {elementSize : Nat} {ks : List ConstraintTerms}
    (hks : ∀ k ∈ ks, k.Writable elementSize) :
    Reads (Reader.many (Constraint.parse elementSize) ks.length)
      (ks.flatMap (ConstraintTerms.encode elementSize)) (ks.map ConstraintTerms.kept)
      (spareBytes elementSize ks) := by
  refine Reads.many (fun k hk => reads_constraint (hks k hk)) ?_ (refuses_constraint_nil elementSize)
  intro k
  have hSpare := spare_le_length_encodeForm elementSize k.c
  rw [ConstraintTerms.encode, List.length_append]
  exact Nat.le_add_left_of_le hSpare

/-! ## Sections -/

/-- What a section gives is what the readers of its constraints give. -/
theorem parseConstraints_eq (buffer : List UInt8) (elementSize count : Nat) :
    parseConstraints buffer elementSize count =
      match Reader.many (Constraint.parse elementSize) count (Cursor.start buffer) with
      | .ok p => .ok p.1
      | .error short => .error (.constraintsShort short) := by
  rw [parseConstraints, parseMany_eq]
  cases Reader.many (Constraint.parse elementSize) count (Cursor.start buffer) with
  | error short => rfl
  | ok p => rfl

/-- Constraints are read from the start of a section. -/
theorem parseConstraints_of_takes {bytes : List UInt8} {elementSize count : Nat}
    {found : List Constraint}
    (h : Takes (Reader.many (Constraint.parse elementSize) count) bytes found) (rest : List UInt8) :
    parseConstraints (bytes ++ rest) elementSize count = .ok found := by
  obtain ⟨offset, hRead⟩ := h (bytes ++ rest).length 0 rest
  rw [parseConstraints_eq, Cursor.start, hRead]

section

variable {elementSize : Nat} {ks : List ConstraintTerms} (hks : ∀ k ∈ ks, k.Writable elementSize)

include hks

/-- Written constraints are read back, with the last coefficient that each form gives to a wire. -/
theorem parseConstraints_encode (rest : List UInt8) :
    parseConstraints (ks.flatMap (ConstraintTerms.encode elementSize) ++ rest) elementSize ks.length =
      .ok (ks.map ConstraintTerms.kept) :=
  parseConstraints_of_takes (reads_constraints hks).whole rest

/-- Written constraints that are cut short are refused exactly if more is missing than they can
spare, which is the last coefficient, if the last linear form has one.  Otherwise they are read, and
what is read is the same as if zeros stood in the place of the missing bytes. -/
theorem parseConstraints_front {front : List UInt8}
    (hFront : front <+: ks.flatMap (ConstraintTerms.encode elementSize)) :
    let bytes := ks.flatMap (ConstraintTerms.encode elementSize)
    ((∃ short, parseConstraints front elementSize ks.length = .error (.constraintsShort short)) ↔
        front.length + spareBytes elementSize ks < bytes.length) ∧
      (bytes.length ≤ front.length + spareBytes elementSize ks →
        ∃ found, parseConstraints front elementSize ks.length = .ok found ∧
          parseConstraints (zeroFilled bytes front) elementSize ks.length = .ok found) := by
  intro bytes
  have hReads := reads_constraints hks
  have hSpared : bytes.length ≤ front.length + spareBytes elementSize ks →
      ∃ found, parseConstraints front elementSize ks.length = .ok found ∧
        parseConstraints (zeroFilled bytes front) elementSize ks.length = .ok found := by
    intro hLen
    obtain ⟨found, hMakesDo, hFilled⟩ := hReads.spared front hFront hLen
    refine ⟨found, ?_, ?_⟩
    · obtain ⟨offset, hRead⟩ := hMakesDo front.length 0
      rw [parseConstraints_eq, Cursor.start, hRead]
    · have hWhole := parseConstraints_of_takes hFilled []
      rwa [List.append_nil] at hWhole
  refine ⟨⟨?_, ?_⟩, hSpared⟩
  · rintro ⟨short, hShort⟩
    by_contra hLen
    obtain ⟨found, hFound, -⟩ := hSpared (by omega)
    rw [hFound] at hShort
    cases hShort
  · intro hLen
    obtain ⟨short, hRead⟩ := hReads.short front hFront hLen front.length 0
    exact ⟨short, by rw [parseConstraints_eq, Cursor.start, hRead]⟩

end

/-- A section of one constraint with a single coefficient of eight bytes: without its last byte it
is read as if a zero stood there, and without the coefficient and a byte before it, it is refused. -/
theorem parseConstraints_front_coefficient :
    let ks : List ConstraintTerms := [⟨[], [], [(1, 18446744069414584320)]⟩]
    let bytes := ks.flatMap (ConstraintTerms.encode 8)
    (∃ found, parseConstraints (bytes.take 23) 8 1 = .ok found ∧
        parseConstraints (bytes.take 23 ++ [0]) 8 1 = .ok found) ∧
      ∃ short, parseConstraints (bytes.take 15) 8 1 = .error (.constraintsShort short) := by
  intro ks bytes
  have hks : ∀ k ∈ ks, k.Writable 8 := by decide
  constructor
  · exact (parseConstraints_front hks (List.take_prefix 23 bytes)).2 (by decide)
  · exact (parseConstraints_front hks (List.take_prefix 15 bytes)).1.mpr (by decide)

/-- Not every section that is cut short is refused. -/
theorem cut_coefficient_accepted :
    ¬ ∀ (elementSize : Nat) (ks : List ConstraintTerms) (front : List UInt8), 1 ≤ elementSize →
      (∀ k ∈ ks, k.Writable elementSize) →
      front <+: ks.flatMap (ConstraintTerms.encode elementSize) →
      front ≠ ks.flatMap (ConstraintTerms.encode elementSize) →
      ∃ fault, parseConstraints front elementSize ks.length = .error fault := by
  intro h
  let ks : List ConstraintTerms := [⟨[], [], [(1, 18446744069414584320)]⟩]
  let bytes := ks.flatMap (ConstraintTerms.encode 8)
  have hks : ∀ k ∈ ks, k.Writable 8 := by decide
  obtain ⟨fault, hFault⟩ := h 8 ks (bytes.take 23) (by decide) hks (List.take_prefix 23 bytes)
    (by decide)
  have hRead : parseConstraints (bytes.take 23) 8 1 = .ok [⟨[], [], [(1, 72057589742960640)]⟩] := by
    decide
  have hSame := hRead.symm.trans hFault
  cases hSame

end CircuitBench
