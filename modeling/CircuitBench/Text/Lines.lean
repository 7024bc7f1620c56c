/-!
# Lines

A text file may end its lines with a line feed, with a carriage return, or with both in that order,
and may mix the three.  No other character ends a line: vertical tabs, form feeds and the Unicode
line and paragraph separators stand inside one.

## Main results

* `lines_append_lineFeed` : a text without line ends, closed by a line feed, is one line, followed
  by the lines of the rest.
* `not_mem_of_mem_lines` : no line holds a line end.
* `completeLines_prefix` : the complete lines of the beginning of a text are lines of the whole
  text.
-/

namespace CircuitBench.Text

/-- Whether a character ends a line. -/
def isLineEnd (c : Char) : Bool :=
  c == '\n' || c == '\r'

/-- Puts a character in front of the first line. -/
def consFirst (c : Char) : List (List Char) → List (List Char)
  | [] => [[c]]
  | l :: ls => (c :: l) :: ls

/-- The lines of a text, without their ends.  A text that ends with a line end has an empty last
line. -/
def lines : List Char → List (List Char)
  | [] => [[]]
  | '\r' :: '\n' :: rest => [] :: lines rest
  | c :: rest => if isLineEnd c then [] :: lines rest else consFirst c (lines rest)

/-- The lines of the beginning of a text that are complete whatever comes next.  A carriage return
at the very end may be half of a line end. -/
def completeLines (s : List Char) : List (List Char) :=
  (lines (if s.getLast? = some '\r' then s.dropLast else s)).dropLast

theorem lines_cons {c : Char} (h : isLineEnd c = false) (rest : List Char) :
    lines (c :: rest) = consFirst c (lines rest) := by
  conv => lhs; unfold lines
  split
  · simp_all
  · rename_i heq
    simp only [List.cons.injEq] at heq
    rw [heq.1] at h
    simp [isLineEnd] at h
  · rename_i heq
    simp only [List.cons.injEq] at heq
    obtain ⟨rfl, rfl⟩ := heq
    simp [h]

theorem lines_lineFeed (rest : List Char) : lines ('\n' :: rest) = [] :: lines rest := by
  rw [lines.eq_def]
  simp [isLineEnd]

theorem lines_append_lineFeed (s rest : List Char) (h : ∀ c ∈ s, isLineEnd c = false) :
    lines (s ++ '\n' :: rest) = s :: lines rest := by
  induction s with
  | nil => exact lines_lineFeed rest
  | cons c s ih =>
    rw [List.cons_append, lines_cons (h c (by simp)), ih fun d hd => h d (by simp [hd])]
    rfl

theorem not_mem_of_mem_consFirst {c : Char} (hc : isLineEnd c = false) {ls : List (List Char)}
    (h : ∀ l ∈ ls, ∀ d ∈ l, isLineEnd d = false) :
    ∀ l ∈ consFirst c ls, ∀ d ∈ l, isLineEnd d = false := by
  cases ls with
  | nil => simpa [consFirst] using hc
  | cons l ls =>
    intro l' hl' d hd
    rcases List.mem_cons.1 hl' with rfl | hl'
    · rcases List.mem_cons.1 hd with rfl | hd
      · exact hc
      · exact h l (by simp) d hd
    · exact h l' (by simp [hl']) d hd

theorem not_mem_of_mem_lines (s : List Char) :
    ∀ l ∈ lines s, ∀ c ∈ l, isLineEnd c = false := by
  fun_induction lines s with
  | case1 => simp
  | case2 rest ih => simpa using ih
  | case3 c rest _ hc ih => simpa using ih
  | case4 c rest _ hc ih => exact not_mem_of_mem_consFirst (by simpa using hc) ih

/-! ## The beginning of a text -/

theorem lines_ne_nil (s : List Char) : lines s ≠ [] := by
  fun_induction lines s with
  | case1 => simp
  | case2 => simp
  | case3 => simp
  | case4 c rest _ hc ih => cases h : lines rest <;> simp [consFirst]

theorem lines_carriageReturn {rest : List Char} (h : rest.head? ≠ some '\n') :
    lines ('\r' :: rest) = [] :: lines rest := by
  cases rest with
  | nil => simp [lines, isLineEnd]
  | cons c rest =>
    have hc : c ≠ '\n' := by simpa using h
    rw [lines.eq_def]
    simp [isLineEnd, hc]

theorem dropLast_consFirst_prefix (c : Char) {ls ls' : List (List Char)} (hne : ls ≠ [])
    (h : ls.dropLast <+: ls') : (consFirst c ls).dropLast <+: consFirst c ls' := by
  match ls, ls' with
  | [], _ => exact absurd rfl hne
  | [l], _ => simp [consFirst]
  | l :: m :: more, [] => simp at h
  | l :: m :: more, l' :: more' =>
    obtain ⟨rfl, htail⟩ := List.cons_prefix_cons.1 h
    exact List.cons_prefix_cons.2 ⟨rfl, htail⟩

theorem dropLast_lines_prefix (s t : List Char)
    (h : s.getLast? = some '\r' → t.head? ≠ some '\n') : (lines s).dropLast <+: lines (s ++ t) := by
  fun_induction lines s with
  | case1 => simp
  | case2 rest ih =>
    have hrest : rest.getLast? = some '\r' → t.head? ≠ some '\n' := fun hr => h (by
      rw [List.getLast?_cons, List.getLast?_cons, hr]
      rfl)
    rw [List.dropLast_cons_of_ne_nil (lines_ne_nil rest), List.cons_append, List.cons_append, lines]
    exact List.cons_prefix_cons.2 ⟨rfl, ih hrest⟩
  | case3 c rest hnot hc ih =>
    have hrest : rest.getLast? = some '\r' → t.head? ≠ some '\n' := fun hr => h (by
      rw [List.getLast?_cons, hr]
      rfl)
    rw [List.dropLast_cons_of_ne_nil (lines_ne_nil rest), List.cons_append]
    have hsplit : lines (c :: (rest ++ t)) = [] :: lines (rest ++ t) := by
      by_cases hn : c = '\n'
      · rw [hn, lines_lineFeed]
      · have hr : c = '\r' := by simpa [isLineEnd, hn] using hc
        subst hr
        apply lines_carriageReturn
        cases rest with
        | nil => simpa using h rfl
        | cons d rest =>
          intro hd
          have hd : d = '\n' := by simpa using hd
          exact hnot rest rfl (by rw [hd])
    rw [hsplit]
    exact List.cons_prefix_cons.2 ⟨rfl, ih hrest⟩
  | case4 c rest _ hc ih =>
    have hrest : rest.getLast? = some '\r' → t.head? ≠ some '\n' := fun hr => h (by
      rw [List.getLast?_cons, hr]
      rfl)
    rw [List.cons_append, lines_cons (by simpa using hc)]
    exact dropLast_consFirst_prefix c (lines_ne_nil rest) (ih hrest)

theorem completeLines_prefix (s t : List Char) : completeLines s <+: lines (s ++ t) := by
  unfold completeLines
  split
  · rename_i h
    obtain ⟨front, rfl⟩ := List.getLast?_eq_some_iff.1 h
    rw [List.dropLast_concat, List.append_assoc]
    exact dropLast_lines_prefix front _ fun _ => by simp
  · rename_i h
    exact dropLast_lines_prefix s t fun hr => absurd hr h

end CircuitBench.Text
