import CircuitBench.Proofs.Bytes.Written
import Mathlib.Data.List.Infix

/-!
# Readers and the bytes that they can spare

A binary file is read by steps that each read a value at a cursor and go on behind it.  A number of
fixed width asks for all its bytes.  A field element does not: it is whatever is left of it, and
bytes that are missing count as zeros.  So a reader that is given fewer bytes than the written form
of its value may refuse them or make do with them, and what it can spare says when.

A number can spare nothing, an element everything.  Of two readers in sequence only the second can
spare anything: if the first has to make do, nothing is left for the second to start with, and that
is refused by any reader that starts with a number.  For a list of readings this leaves the last.

## Main results

* `reads_word`, `reads_element` : what the two kinds of steps can spare.
* `Reads.andThen` : of two readers in sequence only the second can spare bytes.
* `Reads.many` : a list of readings can spare what its last one can.
-/

namespace CircuitBench

/-! ## Readers -/

/-- A step that reads a value at a cursor and goes on behind it. -/
abbrev Reader (α : Type) := Cursor → Except ShortRead (α × Cursor)

/-- A front of some bytes, with zeros for those that it lacks. -/
def zeroFilled (bytes front : List UInt8) : List UInt8 :=
  front ++ List.replicate (bytes.length - front.length) 0

namespace Reader

variable {α β ι : Type}

/-- A reader takes bytes for a value: it reads the value and stands behind them, whatever follows. -/
def Takes (read : Reader α) (bytes : List UInt8) (value : α) : Prop :=
  ∀ length offset rest, ∃ offset',
    read ⟨length, offset, bytes ++ rest⟩ = .ok (value, ⟨length, offset', rest⟩)

/-- A reader makes do with bytes: it reads a value, and no byte is left. -/
def MakesDo (read : Reader α) (bytes : List UInt8) (value : α) : Prop :=
  ∀ length offset, ∃ offset', read ⟨length, offset, bytes⟩ = .ok (value, ⟨length, offset', []⟩)

/-- A reader refuses bytes, wherever they stand. -/
def Refuses (read : Reader α) (bytes : List UInt8) : Prop :=
  ∀ length offset, ∃ short, read ⟨length, offset, bytes⟩ = .error short

/-- A reader reads a value from bytes of which it can spare so many at the end: it refuses a front
that lacks more, and makes do with one that does not, as if zeros stood there. -/
structure Reads (read : Reader α) (bytes : List UInt8) (value : α) (spare : Nat) : Prop where
  whole : Takes read bytes value
  short : ∀ front, front <+: bytes → front.length + spare < bytes.length → Refuses read front
  spared : ∀ front, front <+: bytes → bytes.length ≤ front.length + spare →
    ∃ found, MakesDo read front found ∧ Takes read (zeroFilled bytes front) found

theorem Takes.makesDo {read : Reader α} {bytes : List UInt8} {value : α}
    (h : Takes read bytes value) : MakesDo read bytes value := by
  intro length offset
  obtain ⟨offset', hRead⟩ := h length offset []
  rw [List.append_nil] at hRead
  exact ⟨offset', hRead⟩

/-- A reader that refuses every cut can spare nothing. -/
theorem Reads.of_refuses {read : Reader α} {bytes : List UInt8} {value : α}
    (hWhole : Takes read bytes value)
    (hShort : ∀ front, front <+: bytes → front.length < bytes.length → Refuses read front) :
    Reads read bytes value 0 := by
  refine ⟨hWhole, hShort, ?_⟩
  intro front hFront hLen
  have hSame : front = bytes := hFront.eq_of_length_le hLen
  subst hSame
  refine ⟨value, hWhole.makesDo, ?_⟩
  have hFilled : zeroFilled front front = front := by simp [zeroFilled]
  rw [hFilled]
  exact hWhole

/-! ## Readers in sequence -/

/-- Two steps, of which the second may depend on what the first has read. -/
def andThen (first : Reader α) (second : α → Reader β) : Reader β :=
  fun c => first c >>= fun p => second p.1 p.2

/-- A step of which the value is changed. -/
def map (f : α → β) (read : Reader α) : Reader β :=
  read.andThen fun a c => .ok (f a, c)

theorem map_apply (f : α → β) (read : Reader α) (c : Cursor) :
    read.map f c = (read c).map fun p => (f p.1, p.2) := by
  unfold Reader.map Reader.andThen
  cases read c with
  | error short => rfl
  | ok p => rfl

theorem Refuses.andThen {first : Reader α} {bytes : List UInt8} (h : Refuses first bytes)
    (second : α → Reader β) : Refuses (first.andThen second) bytes := by
  intro length offset
  obtain ⟨short, hRead⟩ := h length offset
  exact ⟨short, by rw [Reader.andThen, hRead]; rfl⟩

theorem Refuses.map {read : Reader α} {bytes : List UInt8} (f : α → β) (h : Refuses read bytes) :
    Refuses (read.map f) bytes :=
  h.andThen fun a c => .ok (f a, c)

theorem Takes.map {read : Reader α} {bytes : List UInt8} {value : α} (f : α → β)
    (h : Takes read bytes value) : Takes (read.map f) bytes (f value) := by
  intro length offset rest
  obtain ⟨offset', hRead⟩ := h length offset rest
  exact ⟨offset', by rw [Reader.map, Reader.andThen, hRead]; rfl⟩

theorem Takes.andThen {first : Reader α} {second : α → Reader β} {bytes more : List UInt8}
    {a : α} {b : β} (hFirst : Takes first bytes a) (hSecond : Takes (second a) more b) :
    Takes (first.andThen second) (bytes ++ more) b := by
  intro length offset rest
  obtain ⟨middle, hRead⟩ := hFirst length offset (more ++ rest)
  obtain ⟨offset', hMore⟩ := hSecond length middle rest
  refine ⟨offset', ?_⟩
  rw [List.append_assoc, Reader.andThen, hRead]
  exact hMore

/-- What the second step reads behind the bytes of the first, it reads when nothing follows. -/
theorem Takes.makesDo_andThen {first : Reader α} {second : α → Reader β} {bytes more : List UInt8}
    {a : α} {b : β} (hFirst : Takes first bytes a) (hSecond : MakesDo (second a) more b) :
    MakesDo (first.andThen second) (bytes ++ more) b := by
  intro length offset
  obtain ⟨middle, hRead⟩ := hFirst length offset more
  obtain ⟨offset', hMore⟩ := hSecond length middle
  exact ⟨offset', by rw [Reader.andThen, hRead]; exact hMore⟩

/-- What the second step refuses behind the bytes of the first is refused. -/
theorem Takes.refuses_andThen {first : Reader α} {second : α → Reader β} {bytes more : List UInt8}
    {a : α} (hFirst : Takes first bytes a) (hSecond : Refuses (second a) more) :
    Refuses (first.andThen second) (bytes ++ more) := by
  intro length offset
  obtain ⟨middle, hRead⟩ := hFirst length offset more
  obtain ⟨short, hMore⟩ := hSecond length middle
  exact ⟨short, by rw [Reader.andThen, hRead]; exact hMore⟩

/-- A first step that makes do leaves nothing for the second. -/
theorem MakesDo.refuses_andThen {first : Reader α} {second : α → Reader β} {bytes : List UInt8}
    {a : α} (hFirst : MakesDo first bytes a) (hSecond : Refuses (second a) []) :
    Refuses (first.andThen second) bytes := by
  intro length offset
  obtain ⟨middle, hRead⟩ := hFirst length offset
  obtain ⟨short, hMore⟩ := hSecond length middle
  exact ⟨short, by rw [Reader.andThen, hRead]; exact hMore⟩

theorem MakesDo.map {read : Reader α} {bytes : List UInt8} {value : α} (f : α → β)
    (h : MakesDo read bytes value) : MakesDo (read.map f) bytes (f value) := by
  intro length offset
  obtain ⟨offset', hRead⟩ := h length offset
  exact ⟨offset', by rw [Reader.map, Reader.andThen, hRead]; rfl⟩

theorem Reads.map {read : Reader α} {bytes : List UInt8} {value : α} {spare : Nat} (f : α → β)
    (h : Reads read bytes value spare) : Reads (read.map f) bytes (f value) spare := by
  refine ⟨h.whole.map f, ?_, ?_⟩
  · intro front hFront hLen
    exact (h.short front hFront hLen).map f
  · intro front hFront hLen
    obtain ⟨found, hMakesDo, hFilled⟩ := h.spared front hFront hLen
    exact ⟨f found, hMakesDo.map f, hFilled.map f⟩

/-- A front of two parts is a front of the first, or the first and a front of the second. -/
theorem front_cases {front bytes more : List UInt8} (h : front <+: bytes ++ more) :
    (front <+: bytes ∧ front.length < bytes.length) ∨
      ∃ behind, front = bytes ++ behind ∧ behind <+: more := by
  by_cases hLen : front.length < bytes.length
  · exact .inl ⟨List.prefix_of_prefix_length_le h (List.prefix_append bytes more) (by omega), hLen⟩
  · obtain ⟨behind, rfl⟩ := List.prefix_of_prefix_length_le (List.prefix_append bytes more) h
      (by omega)
    exact .inr ⟨behind, rfl, (List.prefix_append_right_inj bytes).mp h⟩

/-- Zeros behind bytes that are all there stand for what is missing of the rest. -/
theorem zeroFilled_append (bytes more behind : List UInt8) :
    zeroFilled (bytes ++ more) (bytes ++ behind) = bytes ++ zeroFilled more behind := by
  rw [zeroFilled, zeroFilled, List.length_append, List.length_append, Nat.add_sub_add_left,
    List.append_assoc]

/-- Of two readers only the second can spare bytes at the end.  The first may have bytes to spare
only if the second always finds something missing then. -/
theorem Reads.andThen {first : Reader α} {second : α → Reader β} {bytes more : List UInt8} {a : α}
    {b : β} {spare spare' : Nat} (hFirst : Reads first bytes a spare)
    (hSecond : Reads (second a) more b spare') (hSpare : spare' ≤ more.length)
    (hStart : spare = 0 ∨ ∀ found, Refuses (second found) []) :
    Reads (first.andThen second) (bytes ++ more) b spare' := by
  refine ⟨hFirst.whole.andThen hSecond.whole, ?_, ?_⟩
  · intro front hFront hLen
    rw [List.length_append] at hLen
    rcases front_cases hFront with ⟨hIn, hCut⟩ | ⟨behind, rfl, hBehind⟩
    · by_cases hRoom : front.length + spare < bytes.length
      · exact (hFirst.short front hIn hRoom).andThen second
      · -- the first reader makes do, so it had something to spare
        obtain ⟨found, hMakesDo, -⟩ := hFirst.spared front hIn (by omega)
        rcases hStart with hNone | hRefuses
        · omega
        · exact hMakesDo.refuses_andThen (hRefuses found)
    · rw [List.length_append] at hLen
      exact hFirst.whole.refuses_andThen (hSecond.short behind hBehind (by omega))
  · intro front hFront hLen
    rw [List.length_append] at hLen
    rcases front_cases hFront with ⟨-, hCut⟩ | ⟨behind, rfl, hBehind⟩
    · omega
    · rw [List.length_append] at hLen
      obtain ⟨found, hMakesDo, hFilled⟩ := hSecond.spared behind hBehind (by omega)
      refine ⟨found, hFirst.whole.makesDo_andThen hMakesDo, ?_⟩
      rw [zeroFilled_append]
      exact hFirst.whole.andThen hFilled

/-! ## A number of readings -/

/-- The same reading a number of times. -/
def many (item : Reader α) : Nat → Reader (List α)
  | 0 => fun c => .ok ([], c)
  | count + 1 => item.andThen fun a => (many item count).map (a :: ·)

theorem many_succ_apply (item : Reader α) (count : Nat) (c : Cursor) :
    item.many (count + 1) c =
      match item c with
      | .error short => .error short
      | .ok p => (item.many count p.2).map fun q => (p.1 :: q.1, q.2) := by
  rw [many, Reader.andThen]
  cases item c with
  | error short => rfl
  | ok p => exact map_apply _ _ _

/-- What a list of readings can spare: as much as its last one. -/
def ofLast (spare : ι → Nat) : List ι → Nat
  | [] => 0
  | [x] => spare x
  | _ :: y :: rest => ofLast spare (y :: rest)

variable {item : Reader α} {encode : ι → List UInt8} {value : ι → α} {spare : ι → Nat}

theorem ofLast_le (h : ∀ x, spare x ≤ (encode x).length) (xs : List ι) :
    ofLast spare xs ≤ (xs.flatMap encode).length := by
  induction xs with
  | nil => exact Nat.zero_le _
  | cons x more ih =>
      rw [List.flatMap_cons, List.length_append]
      cases more with
      | nil =>
          have hx := h x
          show spare x ≤ _
          omega
      | cons y rest =>
          show ofLast spare (y :: rest) ≤ _
          omega

/-- A list of readings can spare what its last one can, if a reading never starts with nothing. -/
theorem Reads.many {xs : List ι} (h : ∀ x ∈ xs, Reads item (encode x) (value x) (spare x))
    (hSpare : ∀ x, spare x ≤ (encode x).length) (hStart : Refuses item []) :
    Reads (item.many xs.length) (xs.flatMap encode) (xs.map value) (ofLast spare xs) := by
  induction xs with
  | nil =>
      refine Reads.of_refuses (fun length offset rest => ⟨offset, rfl⟩) ?_
      intro front _ hLen
      exact absurd hLen (Nat.not_lt_zero _)
  | cons x more ih =>
      have hx := h x (by simp)
      have hMore := ih fun y hy => h y (by simp [hy])
      cases more with
      | nil =>
          rw [List.flatMap_cons, List.flatMap_nil, List.append_nil]
          exact hx.map fun a => [a]
      | cons y rest =>
          rw [List.flatMap_cons]
          show Reads _ _ _ (ofLast spare (y :: rest))
          refine Reads.andThen hx (hMore.map (value x :: ·)) (ofLast_le hSpare _) (.inr ?_)
          intro found
          exact (hStart.andThen _).map _

end Reader

/-! ## Numbers and elements -/

open Reader

/-- A step that reads a field element. -/
def elementReader (width : Nat) : Reader Nat :=
  fun c => .ok (c.element width)

/-- Without a byte there is no number. -/
theorem refuses_word_nil : Refuses Cursor.word [] := by
  intro length offset
  exact ⟨_, Cursor.number_short _ 4 4 (Nat.zero_lt_succ 3)⟩

/-- A written number can spare nothing. -/
theorem reads_word {n : Nat} (hn : n < LittleEndian.capacity 4) :
    Reads Cursor.word (LittleEndian.ofNat 4 n) n 0 := by
  refine Reads.of_refuses ?_ ?_
  · intro length offset rest
    exact ⟨offset + 4, Cursor.word_ofNat length offset hn rest⟩
  · intro front _ hLen length offset
    rw [LittleEndian.length_ofNat] at hLen
    exact ⟨_, Cursor.number_short _ 4 4 hLen⟩

/-- An element is what its bytes stand for, whatever follows. -/
theorem takes_element (bytes : List UInt8) :
    Takes (elementReader bytes.length) bytes (LittleEndian.toNat bytes) := by
  intro length offset rest
  refine ⟨offset + bytes.length, ?_⟩
  rw [elementReader, Cursor.element, Cursor.skip, List.take_left' rfl, List.drop_left' rfl]

/-- Bytes of zero at the end add nothing to a number. -/
theorem toNat_append_zeros (bytes : List UInt8) (count : Nat) :
    LittleEndian.toNat (bytes ++ List.replicate count 0) = LittleEndian.toNat bytes := by
  have hZeros : LittleEndian.toNat (List.replicate count 0) = 0 := by
    induction count with
    | zero => rfl
    | succ count ih => rw [List.replicate_succ, LittleEndian.toNat, ih]; rfl
  rw [LittleEndian.toNat_append, hZeros, Nat.mul_zero, Nat.add_zero]

/-- A written element can spare all its bytes. -/
theorem reads_element {width n : Nat} (hn : n < LittleEndian.capacity width) :
    Reads (elementReader width) (LittleEndian.ofNat width n) n width := by
  have hWidth := LittleEndian.length_ofNat width n
  refine ⟨?_, ?_, ?_⟩
  · intro length offset rest
    exact ⟨offset + width, by rw [elementReader, Cursor.element_ofNat length offset hn rest]⟩
  · intro front _ hLen
    omega
  · intro front hFront _
    have hLe := hFront.length_le
    refine ⟨LittleEndian.toNat front, ?_, ?_⟩
    · have hTake : front.take width = front := List.take_of_length_le (by omega)
      have hDrop : front.drop width = [] := List.drop_of_length_le (by omega)
      intro length offset
      refine ⟨offset + width, ?_⟩
      rw [elementReader, Cursor.element, Cursor.skip]
      dsimp only
      rw [hTake, hDrop]
    · have hFilled : (zeroFilled (LittleEndian.ofNat width n) front).length = width := by
        rw [zeroFilled, List.length_append, List.length_replicate]
        omega
      have hTakes := takes_element (zeroFilled (LittleEndian.ofNat width n) front)
      rw [hFilled, zeroFilled, toNat_append_zeros] at hTakes
      exact hTakes

end CircuitBench
