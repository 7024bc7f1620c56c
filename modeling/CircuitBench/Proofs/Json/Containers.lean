import CircuitBench.Proofs.Json.Spelling
import Mathlib.Data.List.Forall2

/-!
# Texts that spell lists and tables

What spells a container is made of what spells its parts: these stand between brackets, with commas
between them, and white space may stand at every border.  A style can be read back if it puts
nothing else there.  A table has texts as keys, and no key twice, since a later entry would take the
place of an earlier one.

## Main results

* `spells_list` : a list is spelled by what spells its items.
* `spells_table` : a table is spelled by what spells its entries.
-/

namespace CircuitBench.Json

open Number Text

/-! ## Styles that can be read -/

/-- Whether a style puts nothing but white space around its separators and in front of its parts. -/
structure Style.Readable (style : Style) : Prop where
  indent : ∀ indent, style.indent = some indent → AllBlank indent.toList
  item : ∃ gap, style.itemSeparator.toList = ',' :: gap ∧ AllBlank gap
  key : ∃ gap, style.keySeparator.toList = ':' :: gap ∧ AllBlank gap

theorem allBlank_append {a b : List Char} (ha : AllBlank a) (hb : AllBlank b) :
    AllBlank (a ++ b) := by
  intro c hc
  rcases List.mem_append.mp hc with hc | hc
  · exact ha c hc
  · exact hb c hc

namespace Style.Readable

variable {style : Style}

theorem lead (h : style.Readable) (level : Nat) : AllBlank (lead style level) := by
  unfold Json.lead
  cases hIndent : style.indent with
  | none =>
      intro c hc
      cases hc
  | some indent =>
      intro c hc
      rcases List.mem_cons.mp hc with rfl | hc
      · rfl
      · obtain ⟨part, hPart, hMem⟩ := List.mem_flatten.mp hc
        rw [List.eq_of_mem_replicate hPart] at hMem
        exact h.indent indent hIndent c hMem

/-- Parts stand between brackets with white space around them and a comma between them. -/
theorem bracketed (h : style.Readable) (level : Nat) (opening closing : Char) :
    ∃ before between after, AllBlank before ∧ AllBlank between ∧ AllBlank after ∧
      ∀ part parts, bracketed style level opening closing (part :: parts) =
        opening :: (before ++ (part ++ (parts.flatMap (fun p => ',' :: (between ++ p)) ++
          (after ++ [closing])))) := by
  obtain ⟨gap, hItem, hGap⟩ := h.item
  refine ⟨Json.lead style (level + 1), gap ++ Json.lead style (level + 1), Json.lead style level,
    h.lead _, allBlank_append hGap (h.lead _), h.lead _, ?_⟩
  intro part parts
  simp only [Json.bracketed, hItem, List.cons_append, List.append_assoc]

end Style.Readable

/-! ## Lists -/

theorem readValue_list {fuel depth : Nat} {rest r : List Char} (hStart : skipBlank rest = r)
    (hOpen : ∀ more, r ≠ ']' :: more) {items : List Value} {r' : List Char}
    (h : readItems fuel depth r = .ok (items, r')) :
    readValue (fuel + 1) (depth + 1) ('[' :: rest) = .ok (.list items, r') := by
  unfold readValue
  rw [if_neg (by decide), if_pos rfl, hStart]
  split
  · rename_i hNone
    cases hNone
  · exact absurd rfl (hOpen _)
  · rename_i hDepth _
    cases hDepth
    rw [h]

theorem readValue_list_nil {fuel depth : Nat} {rest r : List Char}
    (hStart : skipBlank rest = ']' :: r) :
    readValue (fuel + 1) (depth + 1) ('[' :: rest) = .ok (.list [], r) := by
  unfold readValue
  rw [if_neg (by decide), if_pos rfl, hStart]
  rfl

/-- The last item of a list. -/
theorem readItems_last {fuel depth : Nat} {s r r' : List Char} {v : Value}
    (hRead : readValue fuel depth s = .ok (v, r)) (hClose : skipBlank r = ']' :: r') :
    readItems (fuel + 1) depth s = .ok ([v], r') := by
  unfold readItems
  simp only [hRead, hClose]

/-- An item of a list with others behind it. -/
theorem readItems_more {fuel depth : Nat} {s r r' r'' : List Char} {v : Value} {vs : List Value}
    (hRead : readValue fuel depth s = .ok (v, r)) (hComma : skipBlank r = ',' :: r')
    (hRest : readItems fuel depth (skipBlank r') = .ok (vs, r'')) :
    readItems (fuel + 1) depth s = .ok (v :: vs, r'') := by
  unfold readItems
  simp only [hRead, hComma, hRest]

/-- Items with white space and commas between them are read up to the closing bracket. -/
theorem readItems_parts {levels : Nat} {between after rest : List Char} {depth : Nat}
    (hBetween : AllBlank between) (hAfter : AllBlank after) (hDepth : levels ≤ depth)
    {vs : List Value} {ts : List (List Char)} (h : List.Forall₂ (Spells levels) vs ts) :
    ∀ {v : Value} {t : List Char} {fuel : Nat}, Spells levels v t →
      t.length + (ts.flatMap (fun p => ',' :: (between ++ p))).length + after.length < fuel →
      readItems fuel depth (t ++ (ts.flatMap (fun p => ',' :: (between ++ p)) ++
        (after ++ ']' :: rest))) = .ok (v :: vs, rest) := by
  -- on the items behind the first, which is read with one step of the fuel
  induction h with
  | nil =>
      intro v t fuel hFirst hFuel
      cases fuel with
      | zero => omega
      | succ fuel =>
          have hEnds : EndsValue (after ++ ']' :: rest) :=
            endsValue_append hAfter (endsValue_cons (by decide) _)
          have hClose : skipBlank (after ++ ']' :: rest) = ']' :: rest := by
            rw [skipBlank_append hAfter]
            exact skipBlank_of_not_blank (by decide) rest
          rw [List.flatMap_nil, List.nil_append]
          exact readItems_last (hFirst.reads (by omega) hDepth hEnds) hClose
  | @cons w u ws us hNext _ ih =>
      intro v t fuel hFirst hFuel
      rw [List.flatMap_cons, List.cons_append, List.length_cons] at hFuel
      cases fuel with
      | zero => omega
      | succ fuel =>
          simp only [List.length_append] at hFuel
          rw [List.flatMap_cons, List.cons_append, List.cons_append]
          refine readItems_more (hFirst.reads (by omega) hDepth (endsValue_cons (by decide) _))
            (skipBlank_of_not_blank (by decide) _) ?_
          rw [List.append_assoc, List.append_assoc, skipBlank_append hBetween,
            hNext.skipBlank_append]
          exact ih hNext (by omega)

/-- What is written between brackets holds no half if no part of it does. -/
theorem isHalf_of_mem_between {opening closing : Char} (hOpening : isHalf opening = false)
    (hClosing : isHalf closing = false) {before between after : List Char}
    (hBefore : AllBlank before) (hBetween : AllBlank between) (hAfter : AllBlank after)
    {part : List Char} {parts : List (List Char)}
    (hParts : ∀ p ∈ part :: parts, ∀ c ∈ p, isHalf c = false) :
    ∀ c ∈ opening :: (before ++ (part ++ (parts.flatMap (fun p => ',' :: (between ++ p)) ++
      (after ++ [closing])))), isHalf c = false := by
  intro c hc
  simp only [List.mem_cons, List.mem_append, List.mem_flatMap, List.not_mem_nil, or_false] at hc
  rcases hc with rfl | hc | hc | ⟨p, hp, rfl | hc | hc⟩ | hc | rfl
  · exact hOpening
  · exact isHalf_of_isBlank (hBefore c hc)
  · exact hParts part List.mem_cons_self c hc
  · decide
  · exact isHalf_of_isBlank (hBetween c hc)
  · exact hParts p (List.mem_cons_of_mem part hp) c hc
  · exact isHalf_of_isBlank (hAfter c hc)
  · exact hClosing

/-- What every second member of related pairs has. -/
theorem forall_mem_right {α β : Type} {R : α → β → Prop} {P : β → Prop}
    (hEach : ∀ a b, R a b → P b) {as : List α} {bs : List β} (h : List.Forall₂ R as bs) :
    ∀ b ∈ bs, P b := by
  induction h with
  | nil =>
      intro b hb
      cases hb
  | cons hFirst _ ih => exact List.forall_mem_cons.mpr ⟨hEach _ _ hFirst, ih⟩

/-- A list is spelled by what spells its items, between brackets. -/
theorem spells_list {style : Style} (hStyle : style.Readable) {levels : Nat} {vs : List Value}
    {ts : List (List Char)} (h : List.Forall₂ (Spells levels) vs ts) (level : Nat) :
    Spells (levels + 1) (.list vs) (bracketed style level '[' ']' ts) := by
  cases h with
  | nil =>
      have hWhole : ∀ c ∈ ['[', ']'], isHalf c = false :=
        List.forall_mem_cons.mpr ⟨by decide, List.forall_mem_singleton.mpr (by decide)⟩
      refine ⟨⟨'[', [']'], rfl, by decide, by decide, by decide⟩, hWhole, ?_⟩
      intro fuel depth rest hFuel hDepth _
      cases fuel with
      | zero => cases hFuel
      | succ fuel =>
          cases depth with
          | zero => cases hDepth
          | succ depth => exact readValue_list_nil (skipBlank_of_not_blank (by decide) rest)
  | @cons v t vs ts hFirst hRest =>
      obtain ⟨before, between, after, hBefore, hBetween, hAfter, hText⟩ :=
        hStyle.bracketed level '[' ']'
      rw [hText]
      refine ⟨⟨'[', _, rfl, by decide, by decide, by decide⟩, ?_, ?_⟩
      · exact isHalf_of_mem_between (by decide) (by decide) hBefore hBetween hAfter
          (forall_mem_right (fun _ _ hPart => hPart.whole) (.cons hFirst hRest))
      · intro fuel depth rest hFuel hDepth _
        simp only [List.length_cons, List.length_append] at hFuel
        cases fuel with
        | zero => omega
        | succ fuel =>
            cases depth with
            | zero => cases hDepth
            | succ depth =>
                have hRoom : t.length +
                    (ts.flatMap fun p => ',' :: (between ++ p)).length + after.length < fuel := by
                  omega
                simp only [List.cons_append, List.append_assoc]
                refine readValue_list ?_ ?_ (readItems_parts hBetween hAfter
                  (Nat.le_of_succ_le_succ hDepth) hRest hFirst hRoom)
                · rw [skipBlank_append hBefore]
                  exact hFirst.skipBlank_append _
                · intro more hBracket
                  obtain ⟨c, body, rfl, -, hOpen, -⟩ := hFirst.starts
                  exact hOpen (List.cons.inj hBracket).1

/-! ## Tables -/

/-- A key that is not there yet comes behind those that are. -/
theorem insert_of_fresh {t : Table} {key : String} (v : Value)
    (h : ∀ e ∈ t, e.1.sameKey (.text key) = false) :
    t.insert (.text key) v = t ++ [(.text key, v)] := by
  induction t with
  | nil => rfl
  | cons e rest ih =>
      obtain ⟨k, w⟩ := e
      have hOther : k.sameKey (.text key) = false := h (k, w) List.mem_cons_self
      rw [Table.insert, hOther, if_neg Bool.false_ne_true,
        ih fun e he => h e (List.mem_cons_of_mem _ he), List.cons_append]

/-- Whether a text spells an entry of a table: its key, which is a text without halves, and the
value, with the separator of a style between them. -/
def SpellsEntry (style : Style) (levels : Nat) (e : Value × Value) (s : List Char) : Prop :=
  ∃ key written, e.1 = .text key ∧ hasHalf key = false ∧ Spells levels e.2 written ∧
    s = stringText style (codes key) ++ style.keySeparator.toList ++ written

namespace SpellsEntry

variable {style : Style} {levels : Nat} {e : Value × Value} {s : List Char}

theorem whole (h : SpellsEntry style levels e s) (hStyle : style.Readable) :
    ∀ c ∈ s, isHalf c = false := by
  obtain ⟨key, written, -, hKey, hWritten, rfl⟩ := h
  obtain ⟨gap, hColon, hGap⟩ := hStyle.key
  intro c hc
  rw [hColon, List.mem_append, List.mem_append, List.mem_cons] at hc
  rcases hc with (hc | rfl | hc) | hc
  · exact isHalf_of_mem_stringText hKey hc
  · decide
  · exact isHalf_of_isBlank (hGap c hc)
  · exact hWritten.whole c hc

theorem starts (h : SpellsEntry style levels e s) : ∃ body, s = doubleQuote :: body := by
  obtain ⟨key, written, -, -, -, rfl⟩ := h
  exact ⟨_, rfl⟩

theorem skipBlank_append (h : SpellsEntry style levels e s) (rest : List Char) :
    skipBlank (s ++ rest) = s ++ rest := by
  obtain ⟨body, rfl⟩ := h.starts
  exact skipBlank_of_not_blank (by decide) _

/-- What is read of an entry: its key, and then its value. -/
theorem reads (h : SpellsEntry style levels e s) (hStyle : style.Readable) {fuel depth : Nat}
    {rest : List Char} (hFuel : s.length ≤ fuel) (hDepth : levels ≤ depth)
    (hEnds : EndsValue rest) :
    ∃ body r r', s ++ rest = doubleQuote :: body ∧ readString body = .ok (e.1, r) ∧
      skipBlank r = ':' :: r' ∧ readValue fuel depth (skipBlank r') = .ok (e.2, rest) := by
  obtain ⟨key, written, hName, hKey, hWritten, rfl⟩ := h
  obtain ⟨gap, hColon, hGap⟩ := hStyle.key
  rw [hColon] at hFuel ⊢
  obtain ⟨body, hText, hRead⟩ : ∃ body, stringText style (codes key) = doubleQuote :: body ∧
      readString (body ++ ':' :: (gap ++ (written ++ rest))) =
        .ok (.text key, ':' :: (gap ++ (written ++ rest))) := readString_stringText hKey _
  refine ⟨body ++ ':' :: (gap ++ (written ++ rest)), ':' :: (gap ++ (written ++ rest)),
    gap ++ (written ++ rest), ?_, ?_, skipBlank_of_not_blank (by decide) _, ?_⟩
  · simp only [hText, List.cons_append, List.append_assoc]
  · rw [hRead, hName]
  · rw [Json.skipBlank_append hGap, hWritten.skipBlank_append]
    refine hWritten.reads ?_ hDepth hEnds
    simp only [List.length_append] at hFuel
    omega

theorem key (h : SpellsEntry style levels e s) : ∃ key, e.1 = .text key := by
  obtain ⟨key, written, hName, -⟩ := h
  exact ⟨key, hName⟩

/-- An entry with a key of its own comes behind those that have been read. -/
theorem insert (h : SpellsEntry style levels e s) {t : Table} {es : List (Value × Value)}
    (hTexts : ∀ e' ∈ t, ∃ key, e'.1 = .text key) (hNodup : ((t ++ e :: es).map Prod.fst).Nodup) :
    t.insert e.1 e.2 = t ++ [e] := by
  obtain ⟨key, hName⟩ := h.key
  rw [hName, insert_of_fresh]
  · rw [← hName]
  · intro e' he'
    obtain ⟨key', hName'⟩ := hTexts e' he'
    rw [List.map_append, List.map_cons, List.nodup_append] at hNodup
    have hApart : e'.1 ≠ e.1 :=
      hNodup.2.2 e'.1 (List.mem_map_of_mem he') e.1 List.mem_cons_self
    rw [hName', Table.sameKey_text, beq_eq_false_iff_ne]
    rintro rfl
    exact hApart (hName'.trans hName.symm)

end SpellsEntry

/-- The last entry of a table. -/
theorem readEntries_last {fuel depth : Nat} {t : Table} {body r r' r'' rest : List Char}
    {key v : Value} (hKey : readString body = .ok (key, r)) (hColon : skipBlank r = ':' :: r')
    (hValue : readValue fuel depth (skipBlank r') = .ok (v, r''))
    (hClose : skipBlank r'' = '\x7d' :: rest) :
    readEntries (fuel + 1) depth t (doubleQuote :: body) = .ok (t.insert key v, rest) := by
  unfold readEntries
  rw [if_pos rfl, hKey]
  dsimp only
  rw [hColon]
  split
  · rename_i hSplit
    cases hSplit
    simp only [hValue, hClose]
  · rename_i hOther
    exact absurd rfl (hOther r')

/-- An entry of a table with others behind it. -/
theorem readEntries_more {fuel depth : Nat} {t : Table} {body r r' r'' rest : List Char}
    {key v : Value} (hKey : readString body = .ok (key, r)) (hColon : skipBlank r = ':' :: r')
    (hValue : readValue fuel depth (skipBlank r') = .ok (v, r''))
    (hComma : skipBlank r'' = ',' :: rest) :
    readEntries (fuel + 1) depth t (doubleQuote :: body) =
      readEntries fuel depth (t.insert key v) (skipBlank rest) := by
  conv => lhs; unfold readEntries
  rw [if_pos rfl, hKey]
  dsimp only
  rw [hColon]
  split
  · rename_i hSplit
    cases hSplit
    simp only [hValue, hComma]
  · rename_i hOther
    exact absurd rfl (hOther r')

/-- Entries with white space and commas between them are read up to the closing brace, behind those
that have been read. -/
theorem readEntries_parts {style : Style} (hStyle : style.Readable) {levels : Nat}
    {between after rest : List Char} {depth : Nat} (hBetween : AllBlank between)
    (hAfter : AllBlank after) (hDepth : levels ≤ depth) {es : List (Value × Value)}
    {ts : List (List Char)} (h : List.Forall₂ (SpellsEntry style levels) es ts) :
    ∀ {e : Value × Value} {s : List Char} {fuel : Nat} {t : Table},
      SpellsEntry style levels e s →
      s.length + (ts.flatMap (fun p => ',' :: (between ++ p))).length + after.length < fuel →
      (∀ e' ∈ t, ∃ key, e'.1 = .text key) → ((t ++ e :: es).map Prod.fst).Nodup →
      readEntries fuel depth t (s ++ (ts.flatMap (fun p => ',' :: (between ++ p)) ++
        (after ++ '\x7d' :: rest))) = .ok (t ++ e :: es, rest) := by
  -- on the entries behind the first; the table that has been read so far grows by the first one
  induction h with
  | nil =>
      intro e s fuel t hEntry hFuel hTexts hNodup
      cases fuel with
      | zero => omega
      | succ fuel =>
          have hEnds : EndsValue (after ++ '\x7d' :: rest) :=
            endsValue_append hAfter (endsValue_cons (by decide) _)
          have hClose : skipBlank (after ++ '\x7d' :: rest) = '\x7d' :: rest := by
            rw [skipBlank_append hAfter]
            exact skipBlank_of_not_blank (by decide) rest
          have hRoom : s.length ≤ fuel := by omega
          obtain ⟨body, r, r', hText, hKey, hColon, hValue⟩ :=
            hEntry.reads hStyle hRoom hDepth hEnds
          rw [List.flatMap_nil, List.nil_append, hText,
            readEntries_last hKey hColon hValue hClose, hEntry.insert hTexts hNodup]
  | @cons e' s' es ts hNext _ ih =>
      intro e s fuel t hEntry hFuel hTexts hNodup
      rw [List.flatMap_cons, List.cons_append, List.length_cons] at hFuel
      cases fuel with
      | zero => omega
      | succ fuel =>
          simp only [List.length_append] at hFuel
          have hRoom : s.length ≤ fuel := by omega
          have hEnds : ∀ more, EndsValue (',' :: more) := endsValue_cons (by decide)
          obtain ⟨body, r, r', hText, hKey, hColon, hValue⟩ :=
            hEntry.reads hStyle hRoom hDepth (hEnds _)
          have hTexts' : ∀ e' ∈ t ++ [e], ∃ key, e'.1 = .text key :=
            List.forall_mem_append.mpr ⟨hTexts, List.forall_mem_singleton.mpr hEntry.key⟩
          rw [List.flatMap_cons, List.cons_append, List.cons_append, hText,
            readEntries_more hKey hColon hValue (skipBlank_of_not_blank (by decide) _),
            hEntry.insert hTexts hNodup, List.append_assoc, List.append_assoc, skipBlank_append hBetween,
            hNext.skipBlank_append, List.append_cons t e (e' :: es)]
          refine ih hNext (by omega) hTexts' ?_
          rw [← List.append_cons]
          exact hNodup

theorem readValue_table {fuel depth : Nat} {rest r : List Char} (hStart : skipBlank rest = r)
    (hOpen : ∀ more, r ≠ '\x7d' :: more) {t : Table} {r' : List Char}
    (h : readEntries fuel depth [] r = .ok (t, r')) :
    readValue (fuel + 1) (depth + 1) ('\x7b' :: rest) = .ok (.table t, r') := by
  unfold readValue
  rw [if_neg (by decide), if_neg (by decide), if_pos rfl, hStart]
  split
  · rename_i hNone
    cases hNone
  · exact absurd rfl (hOpen _)
  · rename_i hDepth _
    cases hDepth
    rw [h]

theorem readValue_table_nil {fuel depth : Nat} {rest r : List Char}
    (hStart : skipBlank rest = '\x7d' :: r) :
    readValue (fuel + 1) (depth + 1) ('\x7b' :: rest) = .ok (.table [], r) := by
  unfold readValue
  rw [if_neg (by decide), if_neg (by decide), if_pos rfl, hStart]
  rfl

/-- A table with texts as keys, all of them different, is spelled by what spells its entries,
between braces. -/
theorem spells_table {style : Style} (hStyle : style.Readable) {levels : Nat}
    {es : List (Value × Value)} {ts : List (List Char)}
    (h : List.Forall₂ (SpellsEntry style levels) es ts) (hNodup : (es.map Prod.fst).Nodup)
    (level : Nat) : Spells (levels + 1) (.table es) (bracketed style level '\x7b' '\x7d' ts) := by
  cases h with
  | nil =>
      have hWhole : ∀ c ∈ ['\x7b', '\x7d'], isHalf c = false :=
        List.forall_mem_cons.mpr ⟨by decide, List.forall_mem_singleton.mpr (by decide)⟩
      refine ⟨⟨'\x7b', ['\x7d'], rfl, by decide, by decide, by decide⟩, hWhole, ?_⟩
      intro fuel depth rest hFuel hDepth _
      cases fuel with
      | zero => cases hFuel
      | succ fuel =>
          cases depth with
          | zero => cases hDepth
          | succ depth => exact readValue_table_nil (skipBlank_of_not_blank (by decide) rest)
  | @cons e s es ts hFirst hRest =>
      obtain ⟨before, between, after, hBefore, hBetween, hAfter, hText⟩ :=
        hStyle.bracketed level '\x7b' '\x7d'
      rw [hText]
      refine ⟨⟨'\x7b', _, rfl, by decide, by decide, by decide⟩, ?_, ?_⟩
      · exact isHalf_of_mem_between (by decide) (by decide) hBefore hBetween hAfter
          (forall_mem_right (fun _ _ hEntry => hEntry.whole hStyle) (.cons hFirst hRest))
      · intro fuel depth rest hFuel hDepth _
        simp only [List.length_cons, List.length_append] at hFuel
        cases fuel with
        | zero => omega
        | succ fuel =>
            cases depth with
            | zero => cases hDepth
            | succ depth =>
                have hRoom : s.length +
                    (ts.flatMap fun p => ',' :: (between ++ p)).length + after.length < fuel := by
                  omega
                have hNone : ∀ e' ∈ ([] : Table), ∃ key, e'.1 = .text key := by
                  intro e' he'
                  cases he'
                simp only [List.cons_append, List.append_assoc]
                refine readValue_table ?_ ?_ (readEntries_parts hStyle hBetween hAfter
                  (Nat.le_of_succ_le_succ hDepth) hRest hFirst hRoom hNone hNodup)
                · rw [skipBlank_append hBefore]
                  exact hFirst.skipBlank_append _
                · intro more hBrace
                  obtain ⟨body, rfl⟩ := hFirst.starts
                  cases hBrace

end CircuitBench.Json
