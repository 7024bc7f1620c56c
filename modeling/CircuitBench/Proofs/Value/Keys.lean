import CircuitBench.Proofs.Number.Exact
import CircuitBench.Value.Basic

/-!
# Keys of tables

Two values are the same key if they have the same identity: a text is told by its letters, whichever
kind of text it is, and a number by its exact value.  An undefined number, a container that can
change and an opaque value have no identity, and are the same key as nothing.  So sameness of keys
is symmetric and transitive, and a table answers for any key, not only for a text, with what was put
last.

A table that has come about by putting keys holds no key twice.  What it is merged into answers with
its values first.

## Main results

* `sameKey_iff` : two values are the same key exactly if they have the same identity.
* `valueAt?_insert` : putting a key changes what is found under that key only.
* `valueAt?_merge` : what is merged into a table is found first.
-/

namespace CircuitBench

open Number

/-! ## Identities -/

/-- What a value is as a key of a table. -/
inductive KeyIdentity
  | null
  | text (s : String)
  | bytes (bs : List UInt8)
  | number (q : ℚ)
  | infinite (negative : Bool)
  | tuple (items : List KeyIdentity)

/-- Whether what a value is as a key is a number. -/
def KeyIdentity.isNumber : KeyIdentity → Bool
  | number _ => true
  | infinite _ => true
  | _ => false

namespace Number.Binary

/-- What a floating-point number is as a key, unless it is undefined. -/
def identity? : Binary → Option KeyIdentity
  | finite negative m e => (finite negative m e).value?.map .number
  | infinite negative => some (.infinite negative)
  | nan => none

theorem isNumber_of_identity? {x : Binary} {k : KeyIdentity} (h : x.identity? = some k) :
    k.isNumber = true := by
  cases x with
  | finite negative m e =>
      rw [identity?] at h
      obtain ⟨q, -, rfl⟩ := Option.map_eq_some_iff.mp h
      rfl
  | infinite negative => cases h; rfl
  | nan => cases h

/-- Numerator and denominator of a finite number make up its exact value. -/
theorem value?_quotient (negative : Bool) (m : Nat) (e : Int) :
    0 < (quotient negative m e).2 ∧
      (finite negative m e).value? =
        some (((quotient negative m e).1 : ℚ) / ((quotient negative m e).2 : ℚ)) := by
  have hSigned : ∀ n : Nat, ((signed negative n : Int) : ℚ) = if negative then -(n : ℚ) else n := by
    intro n
    unfold signed
    split <;> push_cast <;> rfl
  rw [quotient, value?]
  by_cases hWhole : 0 ≤ e
  · rw [if_pos hWhole]
    refine ⟨Nat.one_pos, congrArg some ?_⟩
    dsimp only
    rw [hSigned, magnitude_of_nonneg hWhole, Nat.cast_one, div_one]
  · rw [if_neg hWhole]
    refine ⟨Nat.pow_pos (by decide), congrArg some ?_⟩
    dsimp only
    rw [hSigned, magnitude_of_neg (by omega)]
    split
    · rw [neg_div]
    · rfl

/-- Finite numbers are equal exactly if their exact values are. -/
theorem compare?_finite_iff (negative negative' : Bool) (m m' : Nat) (e e' : Int) :
    (finite negative m e).compare? (finite negative' m' e') = some .eq ↔
      (finite negative m e).value? = (finite negative' m' e').value? := by
  obtain ⟨hPos, hValue⟩ := value?_quotient negative m e
  obtain ⟨hPos', hValue'⟩ := value?_quotient negative' m' e'
  have hDen : ((quotient negative m e).2 : ℚ) ≠ 0 := by exact_mod_cast hPos.ne'
  have hDen' : ((quotient negative' m' e').2 : ℚ) ≠ 0 := by exact_mod_cast hPos'.ne'
  rw [hValue, hValue', Option.some_inj, div_eq_div_iff hDen hDen', compare?, Option.some_inj,
    compare_eq_iff_eq]
  exact_mod_cast Iff.rfl

end Number.Binary

namespace Value

open Number.Binary

mutual

/-- What a value is as a key, if it can be the same key as anything. -/
def identity? : Value → Option KeyIdentity
  | null => some .null
  | bool b => some (.number (b.toNat : ℤ))
  | int n => some (.number n)
  | float x => x.identity?
  | text s => some (.text s)
  | textCell s => some (.text s)
  | bytes bs => some (.bytes bs)
  | tuple items => (identities? items).map .tuple
  | boolCell b => some (.number (b.toNat : ℤ))
  | integerCell _ n => some (.number n)
  | floatCell _ x => x.identity?
  | list _ => none
  | set _ => none
  | table _ => none
  | object => none
  | array _ _ => none

/-- What several values are as keys, if each can be the same key as anything. -/
def identities? : List Value → Option (List KeyIdentity)
  | [] => some []
  | v :: vs =>
    match identity? v, identities? vs with
    | some k, some ks => some (k :: ks)
    | _, _ => none

end

/-- Floating-point numbers are the same key exactly if they have the same identity. -/
theorem sameNumber_iff (x y : Binary) :
    sameKey.sameNumber x y = true ↔ ∃ k, x.identity? = some k ∧ y.identity? = some k := by
  rw [sameKey.sameNumber, beq_iff_eq]
  cases x with
  | nan => simp [compare?, Binary.identity?]
  | infinite negative =>
      cases y with
      | nan => simp [compare?, Binary.identity?]
      | infinite negative' => cases negative <;> cases negative' <;>
          simp [compare?, Binary.identity?]
      | finite negative' m' e' => cases negative <;> simp [compare?, Binary.identity?, value?]
  | finite negative m e =>
      cases y with
      | nan => simp [compare?, Binary.identity?]
      | infinite negative' => cases negative' <;> simp [compare?, Binary.identity?, value?]
      | finite negative' m' e' =>
          rw [compare?_finite_iff]
          simp [Binary.identity?, value?, eq_comm]

/-- A floating-point number that is an integer has that for its identity, and no other one has. -/
theorem integral?_binary_iff (x : Binary) (n : ℤ) :
    (if x.isIntegral then x.truncate? else none) = some n ↔ x.identity? = some (.number n) := by
  have hIdentity : x.identity? = some (.number n) ↔ x.value? = some (n : ℚ) := by
    cases x <;> simp [Binary.identity?, value?]
  rw [hIdentity, truncate?_eq]
  constructor
  · intro hTruncated
    obtain ⟨hIntegral, hTruncated⟩ := Option.ite_none_right_eq_some.mp hTruncated
    obtain ⟨n', hValue⟩ := (isIntegral_iff x).mp hIntegral
    rw [hValue, Option.map_some, towardZero_intCast, Option.some_inj] at hTruncated
    rw [hValue, hTruncated]
  · intro hValue
    rw [if_pos ((isIntegral_iff x).mpr ⟨n, hValue⟩), hValue, Option.map_some, towardZero_intCast]

theorem integral?_iff (v : Value) (n : ℤ) :
    v.integral? = some n ↔ v.identity? = some (.number n) := by
  cases v with
  | float x => rw [integral?, identity?, integral?_binary_iff]
  | floatCell _ x => rw [integral?, identity?, integral?_binary_iff]
  | bool b =>
      simp only [integral?, identity?, Option.some_inj, KeyIdentity.number.injEq, Int.cast_inj]
  | boolCell b =>
      simp only [integral?, identity?, Option.some_inj, KeyIdentity.number.injEq, Int.cast_inj]
  | _ => simp [integral?, identity?]

/-- What is the same key as something is a null, a text, bytes or a tuple, or else a number, which
is a floating-point number or an integer. -/
theorem identity?_cases {v : Value} {k : KeyIdentity} (h : v.identity? = some k) :
    (v = null ∧ k = .null) ∨
      (∃ s, (v = text s ∨ v = textCell s) ∧ k = .text s) ∨
      (∃ bs, v = bytes bs ∧ k = .bytes bs) ∨
      (∃ items ks, v = tuple items ∧ k = .tuple ks) ∨
      (∃ x, (v = float x ∨ ∃ kind, v = floatCell kind x) ∧ k.isNumber = true) ∨
      ∃ n : ℤ, k = .number n := by
  cases v with
  | tuple items =>
      obtain ⟨ks, -, rfl⟩ := Option.map_eq_some_iff.mp h
      simp
  | float x => simp [isNumber_of_identity? h]
  | floatCell kind x => simp [isNumber_of_identity? h]
  | bool b => exact .inr (.inr (.inr (.inr (.inr ⟨_, (Option.some.inj h).symm⟩))))
  | boolCell b => exact .inr (.inr (.inr (.inr (.inr ⟨_, (Option.some.inj h).symm⟩))))
  | int n => exact .inr (.inr (.inr (.inr (.inr ⟨_, (Option.some.inj h).symm⟩))))
  | integerCell _ n => exact .inr (.inr (.inr (.inr (.inr ⟨_, (Option.some.inj h).symm⟩))))
  | _ => simp_all [identity?]

mutual

/-- Two values are the same key exactly if they have the same identity. -/
theorem sameKey_iff (v w : Value) :
    v.sameKey w = true ↔ ∃ k, v.identity? = some k ∧ w.identity? = some k := by
  rw [sameKey.eq_def]
  split
  · simp [identity?]
  · simpa [identity?] using eq_comm
  · simpa [identity?] using eq_comm
  · simpa [identity?] using eq_comm
  · simpa [identity?] using eq_comm
  · simpa [identity?] using eq_comm
  · rename_i xs ys
    simp [identity?, sameKeys_iff xs ys]
  · rw [sameNumber_iff, identity?, identity?]
  · rw [sameNumber_iff, identity?, identity?]
  · rw [sameNumber_iff, identity?, identity?]
  · rw [sameNumber_iff, identity?, identity?]
  · rename_i hNull hText hText₁ hText₂ hText₃ hBytes hTuple hFloat hFloat₁ hFloat₂ hFloat₃
    constructor
    · intro hSame
      split at hSame
      · rename_i m n hv hw
        rw [beq_iff_eq.mp hSame] at hv
        exact ⟨_, (integral?_iff v n).mp hv, (integral?_iff w n).mp hw⟩
      · cases hSame
    · rintro ⟨k, hv, hw⟩
      -- one of the two is an integer, for the other cases are taken
      have hInteger : ∃ n : ℤ, k = .number n := by
        by_contra hNone
        have hLeft := identity?_cases hv
        have hRight := identity?_cases hw
        simp only [hNone, or_false] at hLeft hRight
        clear hNone
        rcases hLeft with h | h | h | h | ⟨x, h | ⟨kind, h⟩, hNumber⟩ <;>
          grind [KeyIdentity.isNumber]
      obtain ⟨n, rfl⟩ := hInteger
      rw [(integral?_iff v n).mpr hv, (integral?_iff w n).mpr hw]
      exact beq_self_eq_true n

/-- Lists of values are the same keys place by place. -/
theorem sameKeys_iff (vs ws : List Value) :
    sameKeys vs ws = true ↔ ∃ ks, identities? vs = some ks ∧ identities? ws = some ks := by
  rw [sameKeys.eq_def]
  split
  · simp [identities?]
  · rename_i x xs y ys
    rw [Bool.and_eq_true, sameKey_iff x y, sameKeys_iff xs ys]
    constructor
    · rintro ⟨⟨k, hx, hy⟩, ⟨ks, hxs, hys⟩⟩
      exact ⟨k :: ks, by rw [identities?, hx, hxs], by rw [identities?, hy, hys]⟩
    · rintro ⟨ks, hv, hw⟩
      rw [identities?] at hv hw
      grind
  · rename_i hNil hCons
    cases vs <;> cases ws <;> grind [identities?]

end

theorem sameKey_comm (v w : Value) : v.sameKey w = w.sameKey v := by
  rw [Bool.eq_iff_iff, sameKey_iff, sameKey_iff]
  exact exists_congr fun _ => and_comm

/-- What is the same key as one of two same keys is the same as the other. -/
theorem sameKey_congr {v w : Value} (h : v.sameKey w = true) (key : Value) :
    v.sameKey key = w.sameKey key := by
  obtain ⟨k, hv, hw⟩ := (sameKey_iff v w).mp h
  rw [Bool.eq_iff_iff, sameKey_iff, sameKey_iff, hv, hw]

end Value

/-! ## Tables -/

namespace Table

/-- The value under a key of any kind. -/
def valueAt? (key : Value) : Table → Option Value
  | [] => none
  | (k, v) :: rest => if k.sameKey key then some v else valueAt? key rest

theorem get?_eq_valueAt? (t : Table) (key : String) : t.get? key = t.valueAt? (.text key) := by
  induction t with
  | nil => rfl
  | cons e rest ih => rw [get?, valueAt?, ih]

/-- What is found under a key is the value of an entry. -/
theorem exists_of_get? {t : Table} {key : String} {v : Value} (h : t.get? key = some v) :
    ∃ e ∈ t, e.2 = v := by
  induction t with
  | nil => cases h
  | cons e rest ih =>
      rw [get?] at h
      split at h
      · exact ⟨e, List.mem_cons_self, Option.some.inj h⟩
      · obtain ⟨e', he', hValue⟩ := ih h
        exact ⟨e', List.mem_cons_of_mem _ he', hValue⟩

theorem valueAt?_congr (t : Table) {key key' : Value} (h : key.sameKey key' = true) :
    t.valueAt? key = t.valueAt? key' := by
  induction t with
  | nil => rfl
  | cons e rest ih =>
      rw [valueAt?, valueAt?, ih, Value.sameKey_comm, Value.sameKey_congr h, Value.sameKey_comm]

/-- Putting a key changes what is found under that key only. -/
theorem valueAt?_insert (t : Table) (key v key' : Value) :
    (t.insert key v).valueAt? key' = if key.sameKey key' then some v else t.valueAt? key' := by
  induction t with
  | nil => rfl
  | cons e rest ih =>
      obtain ⟨k, w⟩ := e
      rw [insert]
      by_cases hHere : k.sameKey key = true
      · rw [if_pos hHere, valueAt?, valueAt?, Value.sameKey_congr hHere]
        split <;> rfl
      · rw [if_neg hHere, valueAt?, valueAt?, ih]
        by_cases hFound : k.sameKey key' = true
        · have hApart : ¬ key.sameKey key' = true := fun hSame => hHere <| by
            rw [Value.sameKey_comm, Value.sameKey_congr hSame, Value.sameKey_comm, hFound]
          rw [if_pos hFound, if_pos hFound, if_neg hApart]
        · rw [if_neg hFound, if_neg hFound]

/-- Whether no key of a table is there twice. -/
def IsDict (t : Table) : Prop :=
  t.Pairwise fun e e' => e.1.sameKey e'.1 = false

theorem isDict_nil : IsDict [] :=
  List.Pairwise.nil

/-- A key that is in front of a table is not in it. -/
theorem IsDict.not_in_rest {e : Value × Value} {rest : Table} (h : IsDict (e :: rest)) :
    rest.valueAt? e.1 = none := by
  obtain ⟨hApart, -⟩ := List.pairwise_cons.mp h
  clear h
  induction rest with
  | nil => rfl
  | cons e' more ih =>
      obtain ⟨hFirst, hMore⟩ := List.forall_mem_cons.mp hApart
      rw [valueAt?, Value.sameKey_comm, if_neg (Bool.eq_false_iff.mp hFirst), ih hMore]

/-- What is under the first key of a table is not under a later one, so it does not matter where one
looks first. -/
theorem IsDict.valueAt?_cons {e : Value × Value} {rest : Table} (h : IsDict (e :: rest))
    (key : Value) : valueAt? key (e :: rest) = (valueAt? key rest).or (valueAt? key [e]) := by
  rw [valueAt?, valueAt?, valueAt?]
  by_cases hSame : e.1.sameKey key = true
  · rw [if_pos hSame, if_pos hSame, ← valueAt?_congr rest hSame, h.not_in_rest, Option.none_or]
  · rw [if_neg hSame, if_neg hSame, Option.or_none]

/-- An entry of a table to which one has been put was there, or has the value that was put, under
the key that was put or one that was there. -/
theorem mem_insert {t : Table} {key v : Value} {e : Value × Value} (h : e ∈ t.insert key v) :
    e ∈ t ∨ e.2 = v ∧ (e.1 = key ∨ ∃ e' ∈ t, e'.1 = e.1) := by
  induction t with
  | nil =>
      cases List.mem_singleton.mp h
      exact .inr ⟨rfl, .inl rfl⟩
  | cons e₀ rest ih =>
      rw [insert] at h
      split at h
      · rcases List.mem_cons.mp h with rfl | hRest
        · exact .inr ⟨rfl, .inr ⟨e₀, List.mem_cons_self, rfl⟩⟩
        · exact .inl (List.mem_cons_of_mem _ hRest)
      · rcases List.mem_cons.mp h with rfl | hRest
        · exact .inl List.mem_cons_self
        · rcases ih hRest with hMem | ⟨hValue, hKey | ⟨e', he', hKey⟩⟩
          · exact .inl (List.mem_cons_of_mem _ hMem)
          · exact .inr ⟨hValue, .inl hKey⟩
          · exact .inr ⟨hValue, .inr ⟨e', List.mem_cons_of_mem _ he', hKey⟩⟩

theorem IsDict.insert {t : Table} (h : t.IsDict) (key v : Value) : (t.insert key v).IsDict := by
  induction t with
  | nil => exact List.pairwise_singleton _ _
  | cons e rest ih =>
      obtain ⟨hApart, hRest⟩ := List.pairwise_cons.mp h
      rw [Table.insert]
      split
      · exact List.pairwise_cons.mpr ⟨hApart, hRest⟩
      · rename_i hOther
        refine List.pairwise_cons.mpr ⟨fun e' he' => ?_, ih hRest⟩
        rcases mem_insert he' with hMem | ⟨-, hKey | ⟨e'', hMem, hKey⟩⟩
        · exact hApart e' hMem
        · rw [hKey]
          exact Bool.eq_false_iff.mpr hOther
        · rw [← hKey]
          exact hApart e'' hMem

theorem IsDict.merge {t : Table} (h : t.IsDict) (more : Table) : (t.merge more).IsDict := by
  induction more generalizing t with
  | nil => exact h
  | cons e rest ih => exact ih (h.insert e.1 e.2)

/-- What is merged into a table is found first. -/
theorem valueAt?_merge (t : Table) {more : Table} (h : more.IsDict) (key : Value) :
    (t.merge more).valueAt? key = (more.valueAt? key).or (t.valueAt? key) := by
  induction more generalizing t with
  | nil => rfl
  | cons e rest ih =>
      have hMerge : t.merge (e :: rest) = (t.insert e.1 e.2).merge rest := rfl
      have hFirst : (t.insert e.1 e.2).valueAt? key = (valueAt? key [e]).or (t.valueAt? key) := by
        rw [valueAt?_insert, valueAt?, valueAt?]
        split <;> rfl
      rw [hMerge, ih _ (List.pairwise_cons.mp h).2, hFirst, h.valueAt?_cons, Option.or_assoc]

/-- A table that is put together from the entries of another one finds the same. -/
theorem valueAt?_ofEntries {entries : Table} (h : entries.IsDict) (key : Value) :
    (ofEntries entries).valueAt? key = entries.valueAt? key := by
  rw [ofEntries, valueAt?_merge _ h]
  exact Option.or_none

end Table

end CircuitBench
