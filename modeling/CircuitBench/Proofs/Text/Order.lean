import CircuitBench.Text.Half

/-!
# Texts in order

Texts are ordered by the code points that their characters stand for.  No two characters stand for
the same code point, since the stand-in of half of a surrogate pair stands for a code point that no
character has.  So two texts of which neither comes before the other are the same, and a list that
is sorted by texts depends on what is in it alone, not on the order in which that was listed.

## Main results

* `codes_injective` : a text is known by its code points.
* `comesNoLater_antisymm`, `comesNoLater_trans`, `comesNoLater_total` : the order of texts is linear.
* `mergeSort_eq_of_perm` : sorting forgets the order of what is sorted, where no two members of it
  stand side by side in the order.
-/

namespace CircuitBench.Text

/-! ## Code points -/

/-- The characters that stand in for halves of pairs lie in one range. -/
theorem isHalf_iff (c : Char) :
    isHalf c = true ↔ 0xD800 + standInDistance ≤ c.toNat ∧ c.toNat ≤ 0xDFFF + standInDistance := by
  unfold isHalf isSurrogate standInDistance
  rw [Bool.and_eq_true, decide_eq_true_eq, decide_eq_true_eq]
  omega

/-- A character is no surrogate. -/
theorem isSurrogate_toNat (c : Char) : isSurrogate c.toNat = false := by
  have hValid : c.toNat < 0xD800 ∨ 0xDFFF < c.toNat ∧ c.toNat < 0x110000 := c.valid
  unfold isSurrogate
  rw [Bool.and_eq_false_iff, decide_eq_false_iff_not, decide_eq_false_iff_not]
  omega

theorem codeOf_injective : Function.Injective codeOf := by
  intro c d h
  have hc := isSurrogate_toNat c
  have hd := isSurrogate_toNat d
  apply Char.toNat_inj.mp
  unfold codeOf at h
  by_cases hHalf : isHalf c = true
  · have hSurrogate : isSurrogate (c.toNat - standInDistance) = true := hHalf
    rw [if_pos hHalf] at h
    by_cases hHalf' : isHalf d = true
    · rw [if_pos hHalf'] at h
      rw [isHalf_iff] at hHalf hHalf'
      omega
    · rw [if_neg hHalf'] at h
      rw [h, hd] at hSurrogate
      cases hSurrogate
  · rw [if_neg hHalf] at h
    by_cases hHalf' : isHalf d = true
    · have hSurrogate : isSurrogate (d.toNat - standInDistance) = true := hHalf'
      rw [if_pos hHalf'] at h
      rw [← h, hc] at hSurrogate
      cases hSurrogate
    · rwa [if_neg hHalf'] at h

theorem codes_injective : Function.Injective codes := by
  intro s t h
  apply String.toList_injective
  exact (List.map_inj_right fun _ _ hCode => codeOf_injective hCode).mp h

/-! ## The order of texts -/

theorem comesBefore_iff (s t : String) : comesBefore s t = true ↔ codes s < codes t := by
  rw [comesBefore, decide_eq_true_eq]

theorem comesNoLater_iff (s t : String) : comesNoLater s t = true ↔ ¬ codes t < codes s := by
  rw [comesNoLater, Bool.not_eq_true', ← Bool.not_eq_true, comesBefore_iff]

theorem comesNoLater_trans (s t u : String) (hst : comesNoLater s t = true)
    (htu : comesNoLater t u = true) : comesNoLater s u = true := by
  rw [comesNoLater_iff] at hst htu ⊢
  exact List.le_trans hst htu

theorem comesNoLater_total (s t : String) : (comesNoLater s t || comesNoLater t s) = true := by
  rw [Bool.or_eq_true, comesNoLater_iff, comesNoLater_iff]
  exact List.le_total (codes s) (codes t)

theorem comesNoLater_antisymm {s t : String} (hst : comesNoLater s t = true)
    (hts : comesNoLater t s = true) : s = t := by
  rw [comesNoLater_iff] at hst hts
  exact codes_injective (List.le_antisymm hst hts)

/-- A text that comes no later than another one is that one or comes before it. -/
theorem comesBefore_of_comesNoLater {s t : String} (h : comesNoLater s t = true) (hne : s ≠ t) :
    comesBefore s t = true := by
  have hNot : ¬ comesNoLater t s = true := fun hBack => hne (comesNoLater_antisymm h hBack)
  rw [comesNoLater, Bool.not_eq_true', Bool.not_eq_false] at hNot
  exact hNot

end CircuitBench.Text

namespace CircuitBench

/-! ## Sorting -/

section Sorting

variable {α : Type} {le : α → α → Bool}

/-- Sorting forgets the order of what is sorted, where no two members of it stand side by side in
the order. -/
theorem mergeSort_eq_of_perm (hTrans : ∀ a b c, le a b = true → le b c = true → le a c = true)
    (hTotal : ∀ a b, (le a b || le b a) = true) {l l' : List α}
    (hAnti : ∀ a ∈ l, ∀ b ∈ l, le a b = true → le b a = true → a = b) (h : l.Perm l') :
    l.mergeSort le = l'.mergeSort le := by
  have hSame : (l.mergeSort le).Perm (l'.mergeSort le) :=
    (List.mergeSort_perm l le).trans (h.trans (List.mergeSort_perm l' le).symm)
  have hEqual : ∀ a b, a ∈ l.mergeSort le → b ∈ l'.mergeSort le →
      le a b = true → le b a = true → a = b := by
    intro a b ha hb
    have hb' := hSame.mem_iff.mpr hb
    exact hAnti a (List.mem_mergeSort.mp ha) b (List.mem_mergeSort.mp hb')
  exact List.Perm.eq_of_pairwise hEqual (List.pairwise_mergeSort hTrans hTotal l)
    (List.pairwise_mergeSort hTrans hTotal l') hSame

end Sorting

end CircuitBench
