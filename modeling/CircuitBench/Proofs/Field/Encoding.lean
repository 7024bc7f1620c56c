import CircuitBench.Field.Element
import CircuitBench.Proofs.Number.Decimal
import CircuitBench.Proofs.Signal.Elements
import Mathlib.Data.List.Forall2

/-!
# Encoded input values

An input value is encoded by two recursions that have to agree: encoding rebuilds the value with a
text for each leaf, and flattening names the leaves by the ways that lead to them.  Both go into
lists, tuples and arrays and take everything else for a leaf.  So the encoding of a value has its
leaves at the same places, each the numeral of a residue; and it is its own encoding, because the
numeral of a residue is read as that residue.

## Main results

* `ofValue_eq_ok`, `ofValue_range` : a leaf stands for a residue.
* `ofValue_numeral` : the numeral of a residue stands for it.
* `encode_exists` : what the encoding of a value is, if its leaves have one.
* `encode_of_isEncoded` : an encoding is its own encoding.
-/

namespace CircuitBench.Field

open Number Text Signal

/-! ## Residues -/

section Residues

variable {prime : Nat}

/-- A leaf other than a truth value stands for the residue of an integer. -/
theorem ofValue_eq_ok (hPrime : 2 ≤ prime) {v : Value} (hPlain : ∀ b, v ≠ .bool b) (r : Int) :
    ofValue v prime = .ok r ↔ ∃ n, leafInteger v = .ok n ∧ r = n % prime := by
  have hResidue : ∀ n, residue n prime = .ok (n % prime) := by
    intro n
    rw [residue_ok (by omega), Int.fmod_eq_emod_of_nonneg n (by omega)]
  unfold ofValue
  split
  · exact absurd rfl (hPlain _)
  · cases hLeaf : leafInteger v with
    | error e => simp [bind, Except.bind]
    | ok n =>
        show residue n prime = .ok r ↔ _
        rw [hResidue]
        simp [eq_comm]

/-- A leaf stands for a residue. -/
theorem ofValue_range (hPrime : 2 ≤ prime) {v : Value} {n : Int} (h : ofValue v prime = .ok n) :
    ∃ k : Nat, k < prime ∧ n = k := by
  by_cases hBool : ∃ b, v = .bool b
  · obtain ⟨b, rfl⟩ := hBool
    cases h
    refine ⟨b.toNat, ?_, rfl⟩
    have hBit := Bool.toNat_le b
    omega
  · obtain ⟨m, -, rfl⟩ := (ofValue_eq_ok hPrime (fun b hb => hBool ⟨b, hb⟩) n).mp h
    have hLow := Int.emod_nonneg m (show (prime : Int) ≠ 0 by omega)
    have hHigh := Int.emod_lt_of_pos m (show (0 : Int) < prime by omega)
    exact ⟨(m % prime).toNat, by omega, by omega⟩

theorem isVisible_of_mem_numeral {n : Nat} {c : Char} (h : c ∈ numeral n) : IsVisible c := by
  obtain ⟨hLow, hHigh⟩ := digit_of_mem_numeral h
  exact ⟨by omega, by omega⟩

theorem trim_numeral (n : Nat) : trim (numeral n) = numeral n := by
  have hTrim : trim ([] ++ numeral n ++ []) = numeral n :=
    trim_around nofun nofun (numeral_ne_nil n) fun c hc => isVisible_of_mem_numeral hc
  rwa [List.nil_append, List.append_nil] at hTrim

theorem isHexLiteral_numeral (n : Nat) : isHexLiteral (numeral n) = false := by
  have hMinus : ∀ c ∈ numeral n, (c == '-') = false := by
    intro c hc
    rw [beq_eq_false_iff_ne]
    rintro rfl
    exact absurd (digit_of_mem_numeral hc).1 (by decide)
  unfold isHexLiteral
  rw [dropWhile_eq_self hMinus]
  split
  · rename_i z x rest hNumeral
    have hSecond : x ∈ numeral n := by
      rw [hNumeral]
      exact List.mem_cons_of_mem z List.mem_cons_self
    have hDigit := (digit_of_mem_numeral hSecond).2
    have hSmall : (x == 'x') = false := by
      rw [beq_eq_false_iff_ne]
      rintro rfl
      exact absurd hDigit (by decide)
    have hLarge : (x == 'X') = false := by
      rw [beq_eq_false_iff_ne]
      rintro rfl
      exact absurd hDigit (by decide)
    rw [hSmall, hLarge, Bool.or_false, Bool.and_false]
  · rfl

/-- The numeral of a residue stands for it. -/
theorem ofValue_numeral {n : Nat} (hResidue : n < prime)
    (hShort : (numeral n).length ≤ digitLimit) :
    ofValue (.text (toString n)) prime = .ok n := by
  have hRead : leafInteger (.text (toString n)) = .ok (n : Int) := by
    rw [leafInteger, readText, toList_toString, trim_numeral, isHexLiteral_numeral,
      if_neg Bool.false_ne_true, Value.readLiteral, readInteger_numeral hShort]
  have hNonzero : (prime : Int) ≠ 0 := by omega
  show (leafInteger (.text (toString n)) >>= fun m => residue m prime) = .ok (n : Int)
  rw [hRead]
  show residue n prime = .ok (n : Int)
  rw [residue_ok hNonzero, Int.fmod_eq_of_lt (by omega) (by omega)]

end Residues

/-! ## Encodings -/

mutual

/-- Whether a value is the encoding of an input value: nested lists of numerals of residues. -/
def IsEncoded (prime : Nat) : Value → Prop
  | .text s => ∃ n < prime, s = toString n
  | .list items => AllEncoded prime items
  | _ => False

/-- Whether several values are encodings. -/
def AllEncoded (prime : Nat) : List Value → Prop
  | [] => True
  | v :: vs => IsEncoded prime v ∧ AllEncoded prime vs

end

/-- Whether a value is written for a leaf: as the numeral of the residue that the leaf stands
for. -/
def LeafEncoded (prime : Nat) (leaf written : Value) : Prop :=
  ∃ n < prime, ofValue leaf prime = .ok (n : Int) ∧ written = .text (toString n)

/-- Whether one value denotes the same as another: its leaves lie at the same places, and each is
what is written for the leaf at that place. -/
structure Denotes (prime : Nat) (w v : Value) : Prop where
  places : places w = places v
  leaves : List.Forall₂ (LeafEncoded prime) (leaves v) (leaves w)

/-- Whether several values denote the same as others, one by one. -/
structure DenoteAll (prime : Nat) (ws vs : List Value) : Prop where
  places : ∀ index, placesFrom index ws = placesFrom index vs
  leaves : List.Forall₂ (LeafEncoded prime) (leavesOf vs) (leavesOf ws)

section Encodings

variable {prime : Nat}

theorem leafText_ok {v : Value} {n : Nat} (h : ofValue v prime = .ok (n : Int))
    (hShort : (numeral n).length ≤ digitLimit) :
    leafText prime v = .ok (.text (toString n)) := by
  rw [leafText, h]
  show (Value.integerText n >>= fun s => .ok (Value.text s)) = _
  rw [Value.integerText, printInteger?_ofNat hShort]
  rfl

theorem length_numeral_of_lt (hShort : prime < Nat.pow 10 digitLimit) {n : Nat} (h : n < prime) :
    (numeral n).length ≤ digitLimit :=
  length_numeral_le (by decide) (by omega)

/-- A value without parts is encoded by what is written for it. -/
theorem encode_leaf (hPrime : 2 ≤ prime) (hShort : prime < Nat.pow 10 digitLimit) {v : Value}
    (hEncode : encode prime v = leafText prime v) (hPlaces : places v = [[]])
    (hLeaves : leaves v = [v]) (h : ∃ n, ofValue v prime = .ok n) :
    ∃ w, encode prime v = .ok w ∧ IsEncoded prime w ∧ Denotes prime w v := by
  obtain ⟨n, hValue⟩ := h
  obtain ⟨k, hk, rfl⟩ := ofValue_range hPrime hValue
  refine ⟨.text (toString k), ?_, ⟨k, hk, rfl⟩, ?_, ?_⟩
  · rw [hEncode, leafText_ok hValue (length_numeral_of_lt hShort hk)]
  · rw [hPlaces]
    rfl
  · rw [hLeaves]
    exact .cons ⟨k, hk, hValue, rfl⟩ .nil

mutual

/-- A value of which every leaf stands for a residue has an encoding, which denotes the same. -/
theorem encode_exists (hPrime : 2 ≤ prime) (hShort : prime < Nat.pow 10 digitLimit) (v : Value)
    (h : ∀ leaf ∈ leaves v, ∃ n, ofValue leaf prime = .ok n) :
    ∃ w, encode prime v = .ok w ∧ IsEncoded prime w ∧ Denotes prime w v := by
  cases v with
  | list items =>
      obtain ⟨ws, hEach, hEncoded, hDenote⟩ := encodeEach_exists hPrime hShort items h
      refine ⟨.list ws, ?_, hEncoded, hDenote.places 0, hDenote.leaves⟩
      rw [encode, encodeLeaves, hEach]
      rfl
  | tuple items =>
      obtain ⟨ws, hEach, hEncoded, hDenote⟩ := encodeEach_exists hPrime hShort items h
      refine ⟨.list ws, ?_, hEncoded, hDenote.places 0, hDenote.leaves⟩
      rw [encode, encodeLeaves, hEach]
      rfl
  | array kind content =>
      obtain ⟨w, hEncode, hEncoded, hDenotes⟩ := encode_exists hPrime hShort content h
      exact ⟨w, hEncode, hEncoded, hDenotes.places, hDenotes.leaves⟩
  | _ => exact encode_leaf hPrime hShort rfl rfl rfl (h _ List.mem_cons_self)

theorem encodeEach_exists (hPrime : 2 ≤ prime) (hShort : prime < Nat.pow 10 digitLimit)
    (vs : List Value) (h : ∀ leaf ∈ leavesOf vs, ∃ n, ofValue leaf prime = .ok n) :
    ∃ ws, encodeEach (leafText prime) vs = .ok ws ∧ AllEncoded prime ws ∧
      DenoteAll prime ws vs := by
  cases vs with
  | nil => exact ⟨[], rfl, trivial, fun _ => rfl, .nil⟩
  | cons v vs =>
      rw [leavesOf, List.forall_mem_append] at h
      obtain ⟨w, hEncode, hEncoded, hDenotes⟩ := encode_exists hPrime hShort v h.1
      obtain ⟨ws, hEach, hAll, hDenote⟩ := encodeEach_exists hPrime hShort vs h.2
      refine ⟨w :: ws, ?_, ⟨hEncoded, hAll⟩, fun index => ?_, ?_⟩
      · rw [encodeEach, show encodeLeaves (leafText prime) v = .ok w from hEncode, hEach]
        rfl
      · rw [placesFrom, placesFrom, hDenotes.places, hDenote.places]
      · rw [leavesOf, leavesOf]
        exact List.rel_append hDenotes.leaves hDenote.leaves

end

mutual

/-- An encoding is its own encoding. -/
theorem encode_of_isEncoded (hShort : prime < Nat.pow 10 digitLimit) {w : Value}
    (h : IsEncoded prime w) : encode prime w = .ok w := by
  cases w with
  | text s =>
      obtain ⟨n, hn, rfl⟩ := h
      have hLength := length_numeral_of_lt hShort hn
      exact leafText_ok (ofValue_numeral hn hLength) hLength
  | list items =>
      rw [encode, encodeLeaves, encodeEach_of_allEncoded hShort h]
      rfl
  | _ => exact h.elim

theorem encodeEach_of_allEncoded (hShort : prime < Nat.pow 10 digitLimit) {ws : List Value}
    (h : AllEncoded prime ws) : encodeEach (leafText prime) ws = .ok ws := by
  cases ws with
  | nil => rfl
  | cons w ws =>
      have hFirst : encodeLeaves (leafText prime) w = .ok w := encode_of_isEncoded hShort h.1
      rw [encodeEach, hFirst, encodeEach_of_allEncoded hShort h.2]
      rfl

end

end Encodings

end CircuitBench.Field
