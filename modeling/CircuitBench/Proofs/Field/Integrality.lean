import CircuitBench.Circuit.Outputs
import CircuitBench.Proofs.Bench.Preserved
import CircuitBench.Proofs.Field.Encoding
import CircuitBench.Proofs.Number.Rounding
import CircuitBench.Proofs.Signal.Flattened

/-!
# Numbers and the field elements that they stand for

A number has an exact value, whatever kind it is of, and stands for the residue of that value.  A
value that is no integer has no residue and is refused, and so is what has no value at all.

That holds of every kind but two.  A cell of a half or single format is not looked at as a
floating-point number is; it is made into an integer as it is, and its fraction is dropped.  The same
number in an array of such cells is listed as a plain number and refused.  So an array and the cells
of it, one by one, are accepted alike and give the same encoding exactly where no cell loses a
fraction; and an array is accepted only where its cells are.

## Main results

* `ofValue_number` : which numbers are accepted, and what they stand for.
* `leaves_of_encode`, `checkOutputs_accepts` : whoever takes a value asks for each leaf of it.
* `rational?_cell` : a cell has the value of the number that the array lists for it.
* `flatten_cells`, `encode_array_iff` : an array against its cells.
* `lists_fit` : what is put into an array is listed as its kind holds it.
* `numbers_exact` : what becomes of a number.
-/

namespace CircuitBench

open Number Signal

namespace Value

/-! ## Exact values -/

/-- Whether a value is a number: an integer or floating-point number, a truth value, or a cell of an
array. -/
def isNumber : Value → Bool
  | bool _ => true
  | int _ => true
  | float _ => true
  | boolCell _ => true
  | integerCell _ _ => true
  | floatCell _ _ => true
  | _ => false

/-- The exact value of a number, if it is finite. -/
def rational? : Value → Option ℚ
  | bool b => some b.toNat
  | int n => some n
  | float x => x.value?
  | boolCell b => some b.toNat
  | integerCell _ n => some n
  | floatCell _ x => x.value?
  | _ => none

/-- Whether a value is a cell of one of the formats with fewer bits than a plain number. -/
def isNarrow : Value → Bool
  | floatCell .half _ => true
  | floatCell .single _ => true
  | _ => false

/-- Whether a value is a cell that is made into an integer though it is none. -/
def LosesFraction (v : Value) : Prop :=
  v.isNarrow = true ∧ ∃ q, v.rational? = some q ∧ ∀ n : ℤ, q ≠ n

/-- A fraction is dropped from a finite number only. -/
theorem truncated_eq_ok (x : Binary) (n : Int) :
    truncated x = .ok n ↔ ∃ q, x.value? = some q ∧ n = towardZero q := by
  have hTruncate := x.truncate?_eq
  cases x with
  | infinite => simp [truncated, Binary.value?]
  | nan => simp [truncated, Binary.value?]
  | finite negative m e =>
      rw [Binary.truncate?, Binary.value?, Option.map_some, Option.some.injEq] at hTruncate
      simp only [truncated, Binary.value?, Except.ok.injEq, Option.some.injEq, exists_eq_left',
        hTruncate]
      exact eq_comm

/-- Whether a number is taken for an integer: for itself, or, if it is a narrow cell, for what is
left of it without its fraction. -/
def IsTakenFor (v : Value) (n : Int) : Prop :=
  ∃ q, v.rational? = some q ∧ n = towardZero q ∧ (v.isNarrow = true ∨ ∃ k : ℤ, q = k)

section TakenFor

variable {v : Value}

/-- What is an integer loses nothing. -/
theorem not_losesFraction {n : Int} (h : v.rational? = some (n : ℚ)) : ¬ v.LosesFraction := by
  rintro ⟨-, q, hq, hFraction⟩
  rw [h] at hq
  cases hq
  exact hFraction n rfl

/-- An integer is taken for itself. -/
theorem isTakenFor_integer {k : Int} (h : v.rational? = some (k : ℚ)) (n : Int) :
    v.IsTakenFor n ↔ n = k := by
  constructor
  · rintro ⟨q, hq, rfl, -⟩
    rw [h] at hq
    cases hq
    exact towardZero_intCast k
  · rintro rfl
    exact ⟨n, h, (towardZero_intCast n).symm, .inr ⟨n, rfl⟩⟩

theorem isTakenFor_wide (h : v.isNarrow = false) (n : Int) :
    (∃ q, v.rational? = some q ∧ n = towardZero q ∧ ∃ k : ℤ, q = k) ↔ v.IsTakenFor n := by
  simp [IsTakenFor, h]

theorem isTakenFor_narrow (h : v.isNarrow = true) (n : Int) :
    (∃ q, v.rational? = some q ∧ n = towardZero q) ↔ v.IsTakenFor n := by
  simp [IsTakenFor, h]

/-- A number is taken for itself, unless it loses its fraction. -/
theorem isTakenFor_iff (n : Int) :
    v.IsTakenFor n ↔ v.rational? = some (n : ℚ) ∨
      v.LosesFraction ∧ ∃ q, v.rational? = some q ∧ n = towardZero q := by
  constructor
  · rintro ⟨q, hq, rfl, hKind⟩
    by_cases hInteger : ∃ k : ℤ, q = k
    · obtain ⟨k, rfl⟩ := hInteger
      rw [towardZero_intCast]
      exact .inl hq
    · have hNarrow := hKind.resolve_right hInteger
      exact .inr ⟨⟨hNarrow, q, hq, fun k hk => hInteger ⟨k, hk⟩⟩, q, hq, rfl⟩
  · rintro (hq | ⟨⟨hNarrow, -⟩, q, hq, rfl⟩)
    · exact (isTakenFor_integer hq n).mpr rfl
    · exact ⟨q, hq, rfl, .inl hNarrow⟩

/-- A number that does not lose its fraction is taken for an integer exactly if it is one. -/
theorem isTakenFor_and_not_losesFraction (n : Int) :
    v.IsTakenFor n ∧ ¬ v.LosesFraction ↔ v.rational? = some (n : ℚ) := by
  rw [isTakenFor_iff]
  constructor
  · rintro ⟨hExact | ⟨hLoses, -⟩, hKeeps⟩
    · exact hExact
    · exact absurd hLoses hKeeps
  · intro h
    exact ⟨.inl h, not_losesFraction h⟩

end TakenFor

end Value

namespace Field

open Value

/-! ## Leaves -/

/-- A floating-point number is an integer if its exact value is. -/
theorem integralPart_eq_ok (x : Binary) (shown : String) (n : Int) :
    integralPart x shown = .ok n ↔
      ∃ q, x.value? = some q ∧ n = towardZero q ∧ ∃ k : ℤ, q = k := by
  unfold integralPart
  split
  · rename_i hIntegral
    obtain ⟨k, hk⟩ := x.isIntegral_iff.mp hIntegral
    rw [truncated_eq_ok]
    constructor
    · rintro ⟨q, hq, hn⟩
      rw [hk] at hq
      cases hq
      exact ⟨k, hk, hn, k, rfl⟩
    · rintro ⟨q, hq, hn, -⟩
      exact ⟨q, hq, hn⟩
  · rename_i hFraction
    constructor
    · nofun
    · rintro ⟨q, hq, -, k, rfl⟩
      exact absurd (x.isIntegral_iff.mpr ⟨k, hq⟩) hFraction

section Leaves

variable {prime : Nat}

/-- Which integer a number is taken for: itself, or itself without its fraction. -/
theorem leafInteger_number {v : Value} (hNumber : v.isNumber = true) (hPlain : ∀ b, v ≠ .bool b)
    (n : Int) : leafInteger v = .ok n ↔ v.IsTakenFor n := by
  have hInteger : ∀ k : Int, leafInteger v = .ok k → v.rational? = some (k : ℚ) →
      (leafInteger v = .ok n ↔ v.IsTakenFor n) := by
    intro k hLeaf hExact
    rw [hLeaf, Except.ok.injEq, isTakenFor_integer hExact]
    exact eq_comm
  cases v with
  | bool b => exact absurd rfl (hPlain b)
  | int k => exact hInteger k rfl rfl
  | boolCell b => exact hInteger b.toNat rfl rfl
  | integerCell kind k => exact hInteger k rfl rfl
  | float x =>
      rw [leafInteger, integralPart_eq_ok]
      exact isTakenFor_wide (v := .float x) rfl n
  | floatCell kind x =>
      cases kind with
      | double =>
          rw [leafInteger, integralPart_eq_ok]
          exact isTakenFor_wide (v := .floatCell .double x) rfl n
      | half =>
          exact (truncated_eq_ok x n).trans (isTakenFor_narrow (v := .floatCell .half x) rfl n)
      | single =>
          exact (truncated_eq_ok x n).trans (isTakenFor_narrow (v := .floatCell .single x) rfl n)
  | _ => cases hNumber

/-- Which numbers are accepted, and what they stand for. -/
theorem ofValue_number (hPrime : 2 ≤ prime) {v : Value} (hNumber : v.isNumber = true) (r : Int) :
    ofValue v prime = .ok r ↔ ∃ n, v.IsTakenFor n ∧ r = n % prime := by
  by_cases hBool : ∃ b, v = .bool b
  · obtain ⟨b, rfl⟩ := hBool
    have hSmall : (b.toNat : Int) % prime = b.toNat := by
      have hBit := Bool.toNat_le b
      exact Int.emod_eq_of_lt (by omega) (by omega)
    simp only [isTakenFor_integer (v := .bool b) (k := b.toNat) rfl, ofValue, Except.ok.injEq,
      exists_eq_left, hSmall]
    exact eq_comm
  · have hPlain : ∀ b, v ≠ .bool b := fun b h => hBool ⟨b, h⟩
    simp only [ofValue_eq_ok hPrime hPlain, leafInteger_number hNumber hPlain]

/-- A leaf is written as the numeral of the residue that it stands for. -/
theorem leafText_eq_ok (hPrime : 2 ≤ prime) {v w : Value} (h : leafText prime v = .ok w) :
    LeafEncoded prime v w := by
  obtain ⟨r, hValue, hMore⟩ := except_bind_eq_ok h
  obtain ⟨s, hText, hResult⟩ := except_bind_eq_ok hMore
  obtain ⟨k, hk, rfl⟩ := ofValue_range hPrime hValue
  cases hResult
  refine ⟨k, hk, hValue, ?_⟩
  unfold Value.integerText at hText
  split at hText
  · rename_i hPrint
    cases hText
    rw [(printInteger?_eq_some hPrint).1]
    rfl
  · cases hText

end Leaves

/-! ## Values with leaves -/

section Encoding

variable {prime : Nat}

mutual

/-- Who encodes a value encodes each leaf of it. -/
theorem leaves_of_encode (hPrime : 2 ≤ prime) {v w : Value}
    (h : encodeLeaves (leafText prime) v = .ok w) :
    List.Forall₂ (LeafEncoded prime) (leaves v) (leaves w) := by
  cases v with
  | list items =>
      rw [encodeLeaves] at h
      obtain ⟨ws, hEach, hResult⟩ := except_bind_eq_ok h
      cases hResult
      exact leavesOf_of_encodeEach hPrime hEach
  | tuple items =>
      rw [encodeLeaves] at h
      obtain ⟨ws, hEach, hResult⟩ := except_bind_eq_ok h
      cases hResult
      exact leavesOf_of_encodeEach hPrime hEach
  | array kind content =>
      rw [encodeLeaves] at h
      rw [leaves]
      exact leaves_of_encode hPrime h
  | _ =>
      obtain ⟨k, hk, hValue, rfl⟩ := leafText_eq_ok hPrime h
      exact .cons ⟨k, hk, hValue, rfl⟩ .nil

theorem leavesOf_of_encodeEach (hPrime : 2 ≤ prime) {vs ws : List Value}
    (h : encodeEach (leafText prime) vs = .ok ws) :
    List.Forall₂ (LeafEncoded prime) (leavesOf vs) (leavesOf ws) := by
  cases vs with
  | nil =>
      cases h
      exact .nil
  | cons v vs =>
      rw [encodeEach] at h
      obtain ⟨w, hFirst, hMore⟩ := except_bind_eq_ok h
      obtain ⟨ws', hRest, hResult⟩ := except_bind_eq_ok hMore
      cases hResult
      rw [leavesOf, leavesOf]
      exact List.rel_append (leaves_of_encode hPrime hFirst) (leavesOf_of_encodeEach hPrime hRest)

end

end Encoding

section Expecting

variable {symbols : SymbolTable} {prime : Int} {witness : List Int}

/-- A leaf that a witness is expected to have is accepted. -/
theorem expectLeaf_accepts {leaf : String × Value}
    (h : expectLeaf symbols prime witness leaf = .ok ()) : ∃ r, ofValue leaf.2 prime = .ok r := by
  unfold expectLeaf at h
  split at h
  · cases h
  split at h
  · cases h
  obtain ⟨value, -, hMore⟩ := except_bind_eq_ok h
  obtain ⟨got, -, hMore⟩ := except_bind_eq_ok hMore
  obtain ⟨expected, hExpected, -⟩ := except_bind_eq_ok hMore
  exact ⟨expected, hExpected⟩

theorem expectLeaves_accepts {signals : List (String × Value)}
    (h : expectLeaves symbols prime witness signals = .ok ()) :
    ∀ signal ∈ signals, ∃ r, ofValue signal.2 prime = .ok r := by
  induction signals with
  | nil => nofun
  | cons signal rest ih =>
      obtain ⟨⟨⟩, hFirst, hRest⟩ := except_bind_eq_ok h
      exact List.forall_mem_cons.mpr ⟨expectLeaf_accepts hFirst, ih hRest⟩

theorem expectAll_accepts {entries : List (Value × Value)}
    (h : expectAll symbols prime witness entries = .ok ()) :
    ∀ e ∈ entries, ∀ leaf ∈ leaves e.2, ∃ r, ofValue leaf prime = .ok r := by
  induction entries with
  | nil => nofun
  | cons e rest ih =>
      obtain ⟨name, -, hMore⟩ := except_bind_eq_ok h
      obtain ⟨⟨⟩, hFirst, hRest⟩ := except_bind_eq_ok hMore
      refine List.forall_mem_cons.mpr ⟨fun leaf hLeaf => ?_, ih hRest⟩
      rw [← map_snd_flatten name e.2] at hLeaf
      obtain ⟨signal, hSignal, rfl⟩ := List.mem_map.mp hLeaf
      exact expectLeaves_accepts hFirst signal hSignal

/-- Who expects a witness to have values expects it of each leaf. -/
theorem checkOutputs_accepts {expected : Value}
    (h : checkOutputs symbols prime witness expected = .ok ()) :
    ∃ entries, expected = .table entries ∧
      ∀ e ∈ entries, ∀ leaf ∈ leaves e.2, ∃ r, ofValue leaf prime = .ok r := by
  obtain ⟨entries, hItems, hAll⟩ := except_bind_eq_ok h
  cases expected with
  | table es =>
      cases hItems
      exact ⟨_, rfl, expectAll_accepts hAll⟩
  | _ => cases hItems

end Expecting

/-! ## Arrays and their cells -/

mutual

/-- Whether a value is what an array of a kind lists: nested lists of plain numbers that the kind
holds. -/
def Lists (kind : CellKind) : Value → Prop
  | .list items => ListEach kind items
  | .bool _ => kind = .truth
  | .int _ => ∃ k, kind = .integer k
  | .float x => ∃ k, kind = .floating k ∧ x.Fits k.format
  | _ => False

/-- Whether several values are what an array of a kind lists. -/
def ListEach (kind : CellKind) : List Value → Prop
  | [] => True
  | v :: vs => Lists kind v ∧ ListEach kind vs

end

mutual

/-- The cells of an array in place of the plain numbers that it lists. -/
def cells (kind : CellKind) : Value → Value
  | .list items => .list (cellsEach kind items)
  | v => Value.cell kind v

/-- The cells of several parts of an array. -/
def cellsEach (kind : CellKind) : List Value → List Value
  | [] => []
  | v :: vs => cells kind v :: cellsEach kind vs

end

/-- A cell has the value of the number that the array lists for it. -/
theorem rational?_cell {kind : CellKind} {v : Value} (h : Lists kind v) (hLeaf : isLeaf v = true) :
    (Value.cell kind v).rational? = v.rational? ∧ (Value.cell kind v).isNumber = true ∧
      v.isNumber = true ∧ v.isNarrow = false := by
  cases v with
  | bool b =>
      cases h
      exact ⟨rfl, rfl, rfl, rfl⟩
  | int n =>
      obtain ⟨k, rfl⟩ := h
      exact ⟨rfl, rfl, rfl, rfl⟩
  | float x =>
      obtain ⟨k, rfl, hFits⟩ := h
      exact ⟨Binary.value?_round hFits, rfl, rfl, rfl⟩
  | list items => cases hLeaf
  | _ => cases h

section Arrays

variable {prime : Nat} {kind : CellKind}

/-- A number that an array lists is accepted exactly if its cell is, without the loss of a
fraction. -/
theorem ofValue_cell (hPrime : 2 ≤ prime) {v : Value} (h : Lists kind v) (hLeaf : isLeaf v = true)
    (r : Int) : ofValue v prime = .ok r ↔
      ofValue (Value.cell kind v) prime = .ok r ∧ ¬ (Value.cell kind v).LosesFraction := by
  obtain ⟨hExact, hCell, hNumber, hWide⟩ := rational?_cell h hLeaf
  have hKeeps : ¬ v.LosesFraction := by
    rintro ⟨hNarrow, -⟩
    rw [hWide] at hNarrow
    cases hNarrow
  have hSame : ∀ n, v.IsTakenFor n ↔
      (Value.cell kind v).IsTakenFor n ∧ ¬ (Value.cell kind v).LosesFraction := by
    intro n
    rw [isTakenFor_and_not_losesFraction, hExact, ← isTakenFor_and_not_losesFraction]
    exact (and_iff_left hKeeps).symm
  rw [ofValue_number hPrime hNumber, ofValue_number hPrime hCell]
  simp only [hSame]
  constructor
  · rintro ⟨n, ⟨hTaken, hKept⟩, hr⟩
    exact ⟨⟨n, hTaken, hr⟩, hKept⟩
  · rintro ⟨⟨n, hTaken, hr⟩, hKept⟩
    exact ⟨n, ⟨hTaken, hKept⟩, hr⟩

theorem bind_eq_ok_iff {α β : Type} (x : Except Error α) (f : α → Except Error β) (b : β) :
    (x >>= f) = .ok b ↔ ∃ a, x = .ok a ∧ f a = .ok b := by
  constructor
  · exact except_bind_eq_ok
  · rintro ⟨a, rfl, h⟩
    exact h

/-- A list is encoded by encoding its items. -/
theorem encodeLeaves_list_eq_ok (leaf : Value → Except Error Value) (items : List Value)
    (w : Value) : encodeLeaves leaf (.list items) = .ok w ↔
      ∃ ws, encodeEach leaf items = .ok ws ∧ w = .list ws := by
  rw [encodeLeaves, bind_eq_ok_iff]
  refine exists_congr fun ws => and_congr_right fun _ => ?_
  constructor
  · intro h
    cases h
    rfl
  · rintro rfl
    rfl

theorem encodeEach_cons_eq_ok (leaf : Value → Except Error Value) (v : Value) (vs ws : List Value) :
    encodeEach leaf (v :: vs) = .ok ws ↔
      ∃ w ws', encodeLeaves leaf v = .ok w ∧ encodeEach leaf vs = .ok ws' ∧ ws = w :: ws' := by
  rw [encodeEach, bind_eq_ok_iff]
  refine exists_congr fun w => ?_
  rw [bind_eq_ok_iff]
  constructor
  · rintro ⟨hFirst, ws', hRest, hResult⟩
    cases hResult
    exact ⟨ws', hFirst, hRest, rfl⟩
  · rintro ⟨ws', hFirst, hRest, rfl⟩
    exact ⟨hFirst, ws', hRest, rfl⟩

/-- A number that an array lists is written exactly if its cell is, without the loss of a
fraction, and is written alike. -/
theorem leafText_cell (hPrime : 2 ≤ prime) {v : Value} (h : Lists kind v) (hLeaf : isLeaf v = true)
    (w : Value) : leafText prime v = .ok w ↔
      leafText prime (Value.cell kind v) = .ok w ∧ ¬ (Value.cell kind v).LosesFraction := by
  unfold leafText
  rw [bind_eq_ok_iff, bind_eq_ok_iff]
  simp only [ofValue_cell hPrime h hLeaf]
  constructor
  · rintro ⟨r, ⟨hValue, hKept⟩, hText⟩
    exact ⟨⟨r, hValue, hText⟩, hKept⟩
  · rintro ⟨⟨r, hValue, hText⟩, hKept⟩
    exact ⟨r, ⟨hValue, hKept⟩, hText⟩

/-- The cell for a plain number is a leaf. -/
theorem encode_cell (leaf : Value → Except Error Value) {v : Value} (h : Lists kind v)
    (hLeaf : isLeaf v = true) :
    cells kind v = Value.cell kind v ∧ leaves (Value.cell kind v) = [Value.cell kind v] ∧
      encodeLeaves leaf v = leaf v ∧
      encodeLeaves leaf (Value.cell kind v) = leaf (Value.cell kind v) := by
  cases v with
  | bool b =>
      cases h
      exact ⟨rfl, rfl, rfl, rfl⟩
  | int n =>
      obtain ⟨k, rfl⟩ := h
      exact ⟨rfl, rfl, rfl, rfl⟩
  | float x =>
      obtain ⟨k, rfl, -⟩ := h
      exact ⟨rfl, rfl, rfl, rfl⟩
  | list items => cases hLeaf
  | _ => cases h

/-- The content of an array against its cells, for a content without parts. -/
theorem encodeLeaves_cell (hPrime : 2 ≤ prime) {v : Value} (h : Lists kind v)
    (hLeaf : isLeaf v = true) (w : Value) :
    encodeLeaves (leafText prime) v = .ok w ↔
      encodeLeaves (leafText prime) (cells kind v) = .ok w ∧
        ∀ leaf ∈ leaves (cells kind v), ¬ leaf.LosesFraction := by
  obtain ⟨hCells, hLeaves, hPlain, hCell⟩ := encode_cell (leafText prime) h hLeaf
  rw [hCells, hLeaves, hPlain, hCell, List.forall_mem_singleton]
  exact leafText_cell hPrime h hLeaf w

mutual

/-- The content of an array is encoded exactly if its cells are, without the loss of a fraction, and
is encoded alike. -/
theorem encodeLeaves_cells (hPrime : 2 ≤ prime) {v : Value} (h : Lists kind v) (w : Value) :
    encodeLeaves (leafText prime) v = .ok w ↔
      encodeLeaves (leafText prime) (cells kind v) = .ok w ∧
        ∀ leaf ∈ leaves (cells kind v), ¬ leaf.LosesFraction := by
  cases v with
  | list items =>
      rw [cells, leaves, encodeLeaves_list_eq_ok, encodeLeaves_list_eq_ok]
      have hItems : ListEach kind items := h
      simp only [encodeEach_cells hPrime hItems]
      constructor
      · rintro ⟨ws, ⟨hEach, hKept⟩, hw⟩
        exact ⟨⟨ws, hEach, hw⟩, hKept⟩
      · rintro ⟨⟨ws, hEach, hw⟩, hKept⟩
        exact ⟨ws, ⟨hEach, hKept⟩, hw⟩
  | bool b => exact encodeLeaves_cell hPrime h rfl w
  | int n => exact encodeLeaves_cell hPrime h rfl w
  | float x => exact encodeLeaves_cell hPrime h rfl w
  | _ => cases h

theorem encodeEach_cells (hPrime : 2 ≤ prime) {vs : List Value} (h : ListEach kind vs)
    (ws : List Value) :
    encodeEach (leafText prime) vs = .ok ws ↔
      encodeEach (leafText prime) (cellsEach kind vs) = .ok ws ∧
        ∀ leaf ∈ leavesOf (cellsEach kind vs), ¬ leaf.LosesFraction := by
  cases vs with
  | nil => exact (and_iff_left (by nofun)).symm
  | cons v vs =>
      rw [cellsEach, leavesOf, encodeEach_cons_eq_ok, encodeEach_cons_eq_ok, List.forall_mem_append]
      simp only [encodeLeaves_cells hPrime h.1, encodeEach_cells hPrime h.2]
      constructor
      · rintro ⟨w, ws', ⟨hFirst, hKept⟩, ⟨hRest, hKept'⟩, hws⟩
        exact ⟨⟨w, ws', hFirst, hRest, hws⟩, hKept, hKept'⟩
      · rintro ⟨⟨w, ws', hFirst, hRest, hws⟩, hKept, hKept'⟩
        exact ⟨w, ws', ⟨hFirst, hKept⟩, ⟨hRest, hKept'⟩, hws⟩

end

/-- Whether two signals have one name, and the first stands for what the second does, unless the
second loses a fraction. -/
def KeepsSignal (prime : Nat) (plain cell : String × Value) : Prop :=
  plain.1 = cell.1 ∧ ∀ r, ofValue plain.2 prime = .ok r ↔
    ofValue cell.2 prime = .ok r ∧ ¬ cell.2.LosesFraction

/-- An array without parts sets the signal that its cell sets. -/
theorem flatten_cell (hPrime : 2 ≤ prime) {v : Value} (h : Lists kind v) (hLeaf : isLeaf v = true)
    (name : String) :
    List.Forall₂ (KeepsSignal prime) (flatten name v) (flatten name (cells kind v)) := by
  have hKeeps := ofValue_cell hPrime h hLeaf
  cases v with
  | bool b =>
      cases h
      exact .cons ⟨rfl, hKeeps⟩ .nil
  | int n =>
      obtain ⟨k, rfl⟩ := h
      exact .cons ⟨rfl, hKeeps⟩ .nil
  | float x =>
      obtain ⟨k, rfl, -⟩ := h
      exact .cons ⟨rfl, hKeeps⟩ .nil
  | list items => cases hLeaf
  | _ => cases h

mutual

/-- An array sets the signals that its cells set. -/
theorem flatten_cells (hPrime : 2 ≤ prime) {v : Value} (h : Lists kind v) (name : String) :
    List.Forall₂ (KeepsSignal prime) (flatten name v) (flatten name (cells kind v)) := by
  cases v with
  | list items =>
      rw [cells, flatten, flatten]
      exact flattenFrom_cellsEach hPrime h name 0
  | bool b => exact flatten_cell hPrime h rfl name
  | int n => exact flatten_cell hPrime h rfl name
  | float x => exact flatten_cell hPrime h rfl name
  | _ => cases h

theorem flattenFrom_cellsEach (hPrime : 2 ≤ prime) {vs : List Value} (h : ListEach kind vs)
    (name : String) (index : Nat) :
    List.Forall₂ (KeepsSignal prime) (flattenFrom name index vs)
      (flattenFrom name index (cellsEach kind vs)) := by
  cases vs with
  | nil => exact .nil
  | cons v vs =>
      rw [cellsEach, flattenFrom, flattenFrom]
      exact List.rel_append (flatten_cells hPrime h.1 (element name index))
        (flattenFrom_cellsEach hPrime h.2 name (index + 1))

end

/-- An array against its cells, one by one. -/
theorem encode_array_iff (hPrime : 2 ≤ prime) {content : Value} (h : Lists kind content)
    (w : Value) : encode prime (.array kind content) = .ok w ↔
      encode prime (cells kind content) = .ok w ∧
        ∀ leaf ∈ leaves (cells kind content), ¬ leaf.LosesFraction := by
  unfold encode
  rw [encodeLeaves]
  exact encodeLeaves_cells hPrime h w

end Arrays

/-- Every array format is one of the plain format's, with fewer bits and a smaller range. -/
theorem format_narrower (k : FloatCell) :
    k.format.leastExponent ≤ k.format.greatestExponent ∧
      k.format.precision ≤ Format.double.precision ∧
      Format.double.leastExponent ≤ k.format.leastExponent ∧
      k.format.greatestExponent ≤ Format.double.greatestExponent := by
  cases k <;> decide

/-- What is put into an array is listed as its kind holds it. -/
theorem lists_fit (kind : CellKind) {v : Value} (hPlain : v.isNumber = true)
    (hCell : v.isOfArrays = false) : Lists kind (Value.fit kind v) := by
  -- a number of the array's format is not changed on the way to the plain format
  have hFits : ∀ (k : FloatCell) (x : Binary), x.Fits k.format →
      Lists (.floating k) (.float (x.round .double)) := by
    intro k x hx
    obtain ⟨-, hBits, hLeast, hGreatest⟩ := format_narrower k
    exact ⟨k, rfl, hx.of_value? (Binary.value?_round (hx.mono hBits hLeast hGreatest))⟩
  have hInteger : ∀ (k : FloatCell) (n : Int),
      Lists (.floating k) (.float ((Binary.ofInt k.format n).round .double)) := by
    intro k n
    exact hFits k _ (Binary.fits_ofQuotient (format_narrower k).1 _ _ Nat.one_pos)
  cases v with
  | bool b =>
      cases kind with
      | truth => exact rfl
      | integer k => exact ⟨k, rfl⟩
      | floating k => exact hInteger k b.toNat
  | int n =>
      cases kind with
      | truth => exact rfl
      | integer k => exact ⟨k, rfl⟩
      | floating k => exact hInteger k n
  | float x =>
      cases kind with
      | truth => exact rfl
      | integer k => exact ⟨k, rfl⟩
      | floating k => exact hFits k _ (Binary.fits_round (format_narrower k).1 x)
  | boolCell b => cases hCell
  | integerCell k n => cases hCell
  | floatCell k x => cases hCell
  | _ => cases hPlain

/-! ## Numbers -/

/-- What becomes of a number: an integer stands for its residue, and nothing else is accepted but
narrow cells, which lose their fractions.  Who encodes a value or expects it of a witness has it so
with each of its leaves.  An array sets the signals of its cells and is encoded as they are, but only
if none of them loses a fraction. -/
theorem numbers_exact {prime : Nat} (hPrime : 2 ≤ prime) :
    (∀ v : Value, v.isNumber = true → ∀ r, ofValue v prime = .ok r ↔
      (∃ n : ℤ, v.rational? = some (n : ℚ) ∧ r = n % prime) ∨
        v.LosesFraction ∧ ∃ q, v.rational? = some q ∧ r = towardZero q % prime) ∧
    (∀ v w, encode prime v = .ok w →
      List.Forall₂ (LeafEncoded prime) (leaves v) (leaves w)) ∧
    (∀ symbols witness expected, checkOutputs symbols prime witness expected = .ok () →
      ∃ entries, expected = .table entries ∧
        ∀ e ∈ entries, ∀ leaf ∈ leaves e.2, ∃ r, ofValue leaf prime = .ok r) ∧
    ∀ kind content, Lists kind content →
      (∀ name, List.Forall₂ (KeepsSignal prime) (flatten name (.array kind content))
        (flatten name (cells kind content))) ∧
      ∀ w, encode prime (.array kind content) = .ok w ↔
        encode prime (cells kind content) = .ok w ∧
          ∀ leaf ∈ leaves (cells kind content), ¬ leaf.LosesFraction := by
  refine ⟨?_, ?_, ?_, ?_⟩
  · intro v hNumber r
    rw [ofValue_number hPrime hNumber]
    simp only [isTakenFor_iff]
    constructor
    · rintro ⟨n, hExact | ⟨hLoses, q, hq, rfl⟩, rfl⟩
      · exact .inl ⟨n, hExact, rfl⟩
      · exact .inr ⟨hLoses, q, hq, rfl⟩
    · rintro (⟨n, hExact, rfl⟩ | ⟨hLoses, q, hq, rfl⟩)
      · exact ⟨n, .inl hExact, rfl⟩
      · exact ⟨_, .inr ⟨hLoses, q, hq, rfl⟩, rfl⟩
  · intro v w h
    exact leaves_of_encode hPrime h
  · intro symbols witness expected h
    exact checkOutputs_accepts h
  · intro kind content hLists
    refine ⟨fun name => ?_, encode_array_iff hPrime hLists⟩
    rw [flatten]
    exact flatten_cells hPrime hLists name

theorem value?_sevenHalves : (Binary.finite false 7 (-1)).value? = some (7 / 2) := by
  norm_num [Binary.value?, Binary.magnitude]

theorem sevenHalves_ne_intCast (n : ℤ) : (7 / 2 : ℚ) ≠ n := by
  intro h
  have hTwice : (7 : ℚ) = 2 * n := by linarith
  have hInteger : (7 : ℤ) = 2 * n := by exact_mod_cast hTwice
  omega

/-- Modulo 7, the number -6.0 stands for 1 and the number 3.5 for none.  An array of single format
that lists them both is refused, though its cells are accepted. -/
theorem numbers_exact_seven :
    2 ≤ 7 ∧ ofValue (.float (.finite true 3 1)) (7 : Nat) = .ok 1 ∧
      (∀ r, ofValue (.float (.finite false 7 (-1))) (7 : Nat) ≠ .ok r) ∧
      encode (7 : Nat) (cells (.floating .single)
          (.list [.float (.finite true 3 1), .float (.finite false 7 (-1))])) =
        .ok (.list [.text "1", .text "3"]) ∧
      ∀ w, encode (7 : Nat) (.array (.floating .single)
          (.list [.float (.finite true 3 1), .float (.finite false 7 (-1))])) ≠ .ok w := by
  have hPrime : 2 ≤ 7 := by decide
  have hSix : (Value.float (.finite true 3 1)).rational? = some ((-6 : ℤ) : ℚ) := by
    norm_num [Value.rational?, Binary.value?, Binary.magnitude]
  have hSixListed : Lists (.floating .single) (.float (.finite true 3 1)) :=
    ⟨.single, rfl, Binary.fits_finite (by decide) (by decide) (by decide) true⟩
  have hHalfListed : Lists (.floating .single) (.float (.finite false 7 (-1))) :=
    ⟨.single, rfl, Binary.fits_finite (by decide) (by decide) (by decide) false⟩
  obtain ⟨hNumber, -, -, hArray⟩ := numbers_exact hPrime
  refine ⟨hPrime, ?_, ?_, rfl, ?_⟩
  · exact (hNumber _ rfl 1).mpr (.inl ⟨-6, hSix, by decide⟩)
  · intro r h
    obtain ⟨n, hn, -⟩ | ⟨⟨hNarrow, -⟩, -⟩ := (hNumber _ rfl r).mp h
    · exact sevenHalves_ne_intCast n (Option.some.inj (value?_sevenHalves.symm.trans hn))
    · cases hNarrow
  · intro w h
    have hListed : Lists (.floating .single)
        (.list [.float (.finite true 3 1), .float (.finite false 7 (-1))]) :=
      ⟨hSixListed, hHalfListed, trivial⟩
    obtain ⟨-, hKept⟩ := ((hArray _ _ hListed).2 w).mp h
    exact hKept _ (.tail _ (.head _))
      ⟨rfl, 7 / 2, (rational?_cell hHalfListed rfl).1.trans value?_sevenHalves,
        sevenHalves_ne_intCast⟩

/-- Half of seven is accepted as a cell of single format, though it is no integer. -/
theorem fraction_accepted : ¬ ∀ (prime : Nat) (v : Value) (r : ℤ), 2 ≤ prime →
    v.isNumber = true → ofValue v prime = .ok r →
      ∃ n : ℤ, v.rational? = some (n : ℚ) ∧ r = n % prime := by
  intro h
  obtain ⟨n, hn, -⟩ := h 7 (.floatCell .single (.finite false 7 (-1))) 3 (by decide) rfl (by cbv)
  exact sevenHalves_ne_intCast n (Option.some.inj (value?_sevenHalves.symm.trans hn))

end Field

end CircuitBench
