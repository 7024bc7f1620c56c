import CircuitBench.Proofs.Container.Language

/-!
# What a container holds

A file is taken apart by the counts and sizes that it states, and its payloads are then kept by
kind.  Two questions are left once it is known which files are read: whether the table of payloads
is the sections and nothing else, and what a file says when it is cut short or goes on.

For the table the invariant is about a single kind at a time.  A payload that is put in comes behind
those of its kind, and leaves every other kind alone; so after all sections a kind has its payloads
in file order.

A file that is cut short is refused because the written form determines the container: if the front
of a written form were read, its container would be read from the whole as well, hence be the same
one, and the front would be as long as the whole.

## Main results

* `isTableOf_table` : a table has the payloads of each kind in file order, and nothing else.
* `parse_append` : bytes behind a file that is read change nothing.
* `parse_front` : a written container that is cut short is refused.
* `parse_exact` : a file is read exactly if it is a written container, as that container, with all
  its payloads by kind.
-/

namespace CircuitBench

/-! ## Magic words -/

/-- Whether a text can be the magic word of a container: four characters of one byte each. -/
structure IsMagic (magic : String) : Prop where
  length : magic.toList.length = 4
  ascii : ∀ ch ∈ magic.toList, ch.toNat < 128

/-- A character of one byte is written as one byte. -/
private theorem length_utf8EncodeChar_ascii {ch : Char} (h : ch.toNat < 128) :
    (String.utf8EncodeChar ch).length = 1 := by
  have hSize : ch.utf8Size = 1 := by
    have hVal : ch.val ≤ 0x7f := by
      rw [UInt32.le_iff_toNat_le]
      show ch.toNat ≤ 127
      omega
    exact if_pos hVal
  rw [String.length_utf8EncodeChar, hSize]

/-- A magic word takes four bytes. -/
theorem IsMagic.length_encode {magic : String} (h : IsMagic magic) :
    (Text.Utf8.encode magic).length = 4 := by
  have hAll : ∀ chars : List Char, (∀ ch ∈ chars, ch.toNat < 128) →
      (chars.flatMap String.utf8EncodeChar).length = chars.length := by
    intro chars
    induction chars with
    | nil => exact fun _ => rfl
    | cons ch rest ih =>
        intro hAscii
        have hFirst := length_utf8EncodeChar_ascii (hAscii ch (by simp))
        have hRest := ih fun ch' hch' => hAscii ch' (by simp [hch'])
        rw [List.flatMap_cons, List.length_append, hFirst, hRest, List.length_cons]
        omega
  rw [Text.Utf8.encode, hAll magic.toList h.ascii]
  exact h.length

/-! ## Payloads by kind -/

namespace SectionTable

/-- The payloads of the sections of one kind, in file order. -/
def ofKind (kind : Nat) (sections : List (Nat × List UInt8)) : List (List UInt8) :=
  (sections.filter fun s => s.1 = kind).map Prod.snd

/-- Whether a table keeps the payloads of some sections by kind: a kind stands in it once, with its
payloads in file order, and a kind that does not occur does not stand in it. -/
structure IsTableOf (sections : List (Nat × List UInt8)) (table : SectionTable) : Prop where
  kinds : (table.map Prod.fst).Nodup
  payloads : ∀ kind, table.lookup kind =
    if ofKind kind sections = [] then none else some (ofKind kind sections)

theorem lookup_add_self (kind : Nat) (payload : List UInt8) (table : SectionTable) :
    (table.add kind payload).lookup kind = some ((table.lookup kind).getD [] ++ [payload]) := by
  induction table with
  | nil => simp [add]
  | cons entry rest ih =>
      obtain ⟨k, payloads⟩ := entry
      by_cases hk : k = kind
      · subst hk
        simp [add]
      · have hBeq : (kind == k) = false := by
          rw [beq_eq_false_iff_ne]
          exact Ne.symm hk
        simp only [add, if_neg hk, List.lookup_cons, hBeq]
        exact ih

theorem lookup_add_of_ne {kind kind' : Nat} (h : kind' ≠ kind) (payload : List UInt8)
    (table : SectionTable) : (table.add kind payload).lookup kind' = table.lookup kind' := by
  induction table with
  | nil =>
      have hBeq : (kind' == kind) = false := by
        rw [beq_eq_false_iff_ne]
        exact h
      simp [add, List.lookup_cons, hBeq]
  | cons entry rest ih =>
      obtain ⟨k, payloads⟩ := entry
      by_cases hk : k = kind
      · subst hk
        have hBeq : (kind' == k) = false := by
          rw [beq_eq_false_iff_ne]
          exact h
        simp [add, List.lookup_cons, hBeq]
      · simp only [add, if_neg hk, List.lookup_cons, ih]

/-- A kind that is put in stands in the table from then on, and no other is new. -/
theorem mem_kinds_add (kind kind' : Nat) (payload : List UInt8) (table : SectionTable) :
    kind' ∈ (table.add kind payload).map Prod.fst ↔
      kind' = kind ∨ kind' ∈ table.map Prod.fst := by
  induction table with
  | nil => simp [add]
  | cons entry rest ih =>
      obtain ⟨k, payloads⟩ := entry
      by_cases hk : k = kind
      · subst hk
        simp [add]
      · simp only [add, if_neg hk, List.map_cons, List.mem_cons, ih]
        exact or_left_comm

/-- No kind is put in twice. -/
theorem nodup_kinds_add (kind : Nat) (payload : List UInt8) {table : SectionTable}
    (h : (table.map Prod.fst).Nodup) : ((table.add kind payload).map Prod.fst).Nodup := by
  induction table with
  | nil => simp [add]
  | cons entry rest ih =>
      obtain ⟨k, payloads⟩ := entry
      obtain ⟨hFirst, hRest⟩ := List.nodup_cons.mp h
      by_cases hk : k = kind
      · subst hk
        simp only [add, if_pos]
        exact h
      · simp only [add, if_neg hk, List.map_cons, List.nodup_cons]
        refine ⟨?_, ih hRest⟩
        intro hMem
        rcases (mem_kinds_add kind k payload rest).mp hMem with hSame | hOld
        · exact hk hSame
        · exact hFirst hOld

/-- Sections that are put in come behind what a kind has already. -/
theorem lookup_foldl_add (kind : Nat) (sections : List (Nat × List UInt8)) (table : SectionTable) :
    (sections.foldl (fun t s => t.add s.1 s.2) table).lookup kind =
      if ofKind kind sections = [] then table.lookup kind
      else some ((table.lookup kind).getD [] ++ ofKind kind sections) := by
  induction sections generalizing table with
  | nil => simp [ofKind]
  | cons s more ih =>
      rw [List.foldl_cons, ih]
      by_cases hs : s.1 = kind
      · have hSplit : ofKind kind (s :: more) = s.2 :: ofKind kind more := by
          simp [ofKind, hs]
        rw [hSplit, hs, lookup_add_self, if_neg (List.cons_ne_nil _ _)]
        by_cases hMore : ofKind kind more = []
        · rw [if_pos hMore, hMore]
        · rw [if_neg hMore, Option.getD_some, List.append_assoc]
          rfl
      · have hSplit : ofKind kind (s :: more) = ofKind kind more := by
          simp [ofKind, hs]
        rw [hSplit, lookup_add_of_ne (Ne.symm hs)]

end SectionTable

namespace Container

open SectionTable

/-- The table of a container keeps its payloads by kind. -/
theorem isTableOf_table (c : Container) : IsTableOf c.sections c.table := by
  constructor
  · have hFold : ∀ (sections : List (Nat × List UInt8)) (table : SectionTable),
        (table.map Prod.fst).Nodup →
        ((sections.foldl (fun t s => t.add s.1 s.2) table).map Prod.fst).Nodup := by
      intro sections
      induction sections with
      | nil => exact fun _ h => h
      | cons s more ih => exact fun table h => ih _ (nodup_kinds_add s.1 s.2 h)
    exact hFold c.sections [] List.nodup_nil
  · intro kind
    rw [table, lookup_foldl_add]
    simp

/-! ## Cutting and continuing a file -/

/-- Whether bytes are the written form of a container with anything at all behind it: the magic word,
the version, the number of sections, and the sections, all of which fit their fields. -/
def IsWrittenIn (magic : String) (data : List UInt8) (c : Container) : Prop :=
  c.Fits ∧ ∃ tail, data = c.encode magic ++ tail

section

variable {magic : String} (hMagic : IsMagic magic) (file : String)

include hMagic

/-- A container is read exactly from its written form, whatever follows. -/
theorem parse_eq_ok_iff_isWrittenIn (data : List UInt8) (c : Container) :
    parse data magic file = .ok c ↔ c.IsWrittenIn magic data :=
  parse_eq_ok_iff hMagic.length_encode data file c

/-- Bytes behind a file that is read change nothing. -/
theorem parse_append {data : List UInt8} {c : Container} (h : parse data magic file = .ok c)
    (more : List UInt8) : parse (data ++ more) magic file = .ok c := by
  obtain ⟨hc, tail, rfl⟩ := (parse_eq_ok_iff_isWrittenIn hMagic file data c).mp h
  rw [List.append_assoc]
  exact parse_encode_append hMagic.length_encode file hc (tail ++ more)

/-- A written container that is cut short is refused. -/
theorem parse_front {c : Container} (hc : c.Fits) {front : List UInt8}
    (hFront : front <+: c.encode magic) (hCut : front ≠ c.encode magic) :
    ∃ fault, parse front magic file = .error fault := by
  cases hParse : parse front magic file with
  | error fault => exact ⟨fault, rfl⟩
  | ok found =>
      exfalso
      obtain ⟨more, hMore⟩ := hFront
      have hWhole : parse (c.encode magic) magic file = .ok found := by
        rw [← hMore]
        exact parse_append hMagic file hParse more
      have hBack : parse (c.encode magic) magic file = .ok c :=
        (parse_eq_ok_iff_isWrittenIn hMagic file _ c).mpr ⟨hc, [], by simp⟩
      have hSame : found = c := by
        rw [hWhole] at hBack
        exact Except.ok.inj hBack
      obtain ⟨_, tail, hTail⟩ := (parse_eq_ok_iff_isWrittenIn hMagic file front found).mp hParse
      -- what was cut off and what followed are both empty
      have hLen := congrArg List.length hMore
      have hLenFront := congrArg List.length hTail
      rw [List.length_append] at hLen hLenFront
      rw [hSame] at hLenFront
      have hNone : more = [] := List.eq_nil_of_length_eq_zero (by omega)
      apply hCut
      rw [← hMore, hNone, List.append_nil]

/-- A file is read exactly if it is a written container with anything behind it, and then as that
container, whose payloads are kept by kind and in file order; any other file is refused.  So a
written container that is cut short is refused, and going on behind a file that is read changes
nothing. -/
theorem parse_exact (data : List UInt8) :
    (∀ c, parse data magic file = .ok c ↔ c.IsWrittenIn magic data) ∧
      ((∃ fault, parse data magic file = .error fault) ↔
        ∀ c : Container, ¬ c.IsWrittenIn magic data) ∧
      (∀ c, parse data magic file = .ok c → IsTableOf c.sections c.table) ∧
      (∀ c, parse data magic file = .ok c →
        ∀ more, parse (data ++ more) magic file = .ok c) ∧
      ∀ c : Container, c.Fits → data <+: c.encode magic → data ≠ c.encode magic →
        ∃ fault, parse data magic file = .error fault := by
  have hRead := parse_eq_ok_iff_isWrittenIn hMagic file data
  refine ⟨hRead, ?_, fun c _ => isTableOf_table c, fun c h => parse_append hMagic file h,
    fun c hc => parse_front hMagic file hc⟩
  constructor
  · rintro ⟨fault, hFault⟩ c hc
    rw [(hRead c).mpr hc] at hFault
    cases hFault
  · intro hNone
    cases hParse : parse data magic file with
    | error fault => exact ⟨fault, rfl⟩
    | ok c => exact absurd ((hRead c).mp hParse) (hNone c)

end

/-- A file in which a kind comes twice and a payload is empty, with a byte behind it.  Cut behind
its second section it holds two whole ones, but it says that there are three. -/
theorem parse_repeated_kind :
    let c : Container := ⟨1, [(2, [7]), (1, []), (2, [8, 9])]⟩
    let bytes := c.encode "r1cs"
    IsMagic "r1cs" ∧ parse (bytes ++ [0]) "r1cs" "m.r1cs" = .ok c ∧
      c.table = [(2, [[7], [8, 9]]), (1, [[]])] ∧
      ∃ fault, parse (bytes.take 37) "r1cs" "m.r1cs" = .error fault := by
  intro c bytes
  have hMagic : IsMagic "r1cs" := ⟨rfl, by simp⟩
  have hc : c.Fits := by
    refine ⟨by decide, by decide, ?_⟩
    unfold Writable
    decide
  have hWhole := parse_exact hMagic "m.r1cs" (bytes ++ [0])
  have hCut := parse_exact hMagic "m.r1cs" (bytes.take 37)
  refine ⟨hMagic, (hWhole.1 c).mpr ⟨hc, [0], rfl⟩, rfl, ?_⟩
  exact hCut.2.2.2.2 c hc (List.take_prefix 37 bytes) (by decide)

end Container

end CircuitBench
