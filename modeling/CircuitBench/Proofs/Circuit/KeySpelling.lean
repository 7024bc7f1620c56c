import CircuitBench.Proofs.Circuit.InputDocument
import CircuitBench.Proofs.Circuit.InputKeys
import CircuitBench.Proofs.Circuit.Witness

/-!
# Keys with and without the main component

The strict check takes a key with the main component in front for the same as the key without it.
The document that the witness program reads is not made of the qualified names but of the keys as
they were given.  So an accepted assignment may be spelled either way, key by key, and is accepted
all the same; but each spelling is handed over as it is, and no two of them give the witness program
the same bytes.

That the bytes differ is seen from the keys of the document, which is read back: every key that is
spelled out adds one to those that start with the main component.

## Main results

* `namesOf_respelled` : a key of an accepted entry may be spelled out.
* `eq_of_countP_respelled` : keys that were spelled out are counted.
* `inputBytes_exists`, `keys_perm_of_inputBytes` : the bytes of inputs, and what is seen in them.
* `Session.inputs_as_spelled` : accepted either way, and handed over as spelled.
-/

namespace CircuitBench

open Bench Json Number Signal Text

/-! ## Spelling out -/

/-- Whether a key is spelled with the main component in front. -/
def spelledOut (key : Value) : Bool :=
  mainDot.isPrefixOf (key.text?.getD "").toList

/-- Whether an entry is another one, of which the key may have been spelled out with the main
component in front, if it was not so before. -/
structure Respelled (e e' : Value × Value) : Prop where
  key : e'.1 = e.1 ∨ spelledOut e.1 = false ∧
    ∃ s, e.1.text? = some s ∧ e'.1.text? = some ("main." ++ s)
  value : e'.2 = e.2

theorem toList_main_append (s : String) : ("main." ++ s).toList = mainDot ++ s.toList := by
  rw [String.toList_append]
  rfl

theorem spelledOut_of_main {key : Value} {s : String} (h : key.text? = some ("main." ++ s)) :
    spelledOut key = true := by
  rw [spelledOut, h, Option.getD_some, toList_main_append, List.isPrefixOf_iff_prefix]
  exact List.prefix_append mainDot s.toList

/-- A key is qualified as it is spelled out, unless it is the main component itself. -/
theorem qualify_main_append {s : String} (hPlain : mainDot.isPrefixOf s.toList = false)
    (hSignal : s.toList ≠ mainName) : qualify ("main." ++ s) = qualify s := by
  have hSpelled : mainDot.isPrefixOf ("main." ++ s).toList = true := by
    rw [toList_main_append, List.isPrefixOf_iff_prefix]
    exact List.prefix_append mainDot s.toList
  have hShort : ¬ (mainDot.isPrefixOf s.toList ∨ s.toList = mainName) := by
    rw [hPlain]
    exact not_or.mpr ⟨Bool.false_ne_true, hSignal⟩
  rw [qualify, qualify, qualifyChars_of_qualified (.inl hSpelled), toList_main_append, qualifyChars,
    if_neg hShort]

/-- No element of the main component is a signal of it. -/
theorem not_isOwn_element_main (way : List Nat) : isOwn (elementAt "main" way) = false := by
  have hNone : ∀ name : String, mainDot.isPrefixOf name.toList = false → mainName <+: name.toList →
      mainDot.isPrefixOf (elementAt name way).toList = false := by
    induction way with
    | nil => exact fun name hPlain _ => hPlain
    | cons index way ih =>
        intro name hPlain hMain
        have hLonger := toList_element name index
        refine ih (element name index) ?_ ?_
        · obtain ⟨rest, hName⟩ := hMain
          rw [hLonger, ← hName]
          rw [← hName] at hPlain
          cases rest with
          | nil => rfl
          | cons c rest =>
              simp only [mainName, mainDot, List.cons_append, List.nil_append,
                List.isPrefixOf] at hPlain ⊢
              exact hPlain
        · rw [hLonger]
          exact hMain.trans (List.prefix_append _ _)
  have hPrefix := hNone "main" (by decide) ⟨[], by decide⟩
  rw [isOwn, hPrefix, Bool.and_false]

/-- An entry that names signals of the main component only, names the same if its key is spelled
out. -/
theorem namesOf_respelled {e e' : Value × Value} (h : Respelled e e')
    (hOwn : ∀ name ∈ namesOf e, isOwn name = true) : namesOf e' = namesOf e := by
  obtain ⟨hSame | ⟨hPlain, s, hKey, hKey'⟩, hValue⟩ := h
  · rw [namesOf, namesOf, hSame, hValue]
  · rw [spelledOut, hKey, Option.getD_some] at hPlain
    rw [namesOf_of_text hKey', namesOf_of_text hKey, hValue]
    rw [namesOf_of_text hKey, names_flatten, List.forall_mem_map] at hOwn
    by_cases hMain : s.toList = mainName
    · -- the main component is no signal of its own, so the entry has no leaf
      have hQualified : qualify s = "main" := by
        rw [qualify, hMain]
        decide
      have hPlaces : places e.2 = [] := by
        rw [List.eq_nil_iff_forall_not_mem]
        intro way hWay
        have hElement := hOwn way hWay
        rw [hQualified, not_isOwn_element_main] at hElement
        cases hElement
      rw [names_flatten, names_flatten, hPlaces, List.map_nil, List.map_nil]
    · rw [qualify_main_append hPlain hMain]

/-! ## Counting -/

/-- Spelling keys out adds to those that are spelled out, unless it changes nothing. -/
theorem countP_respelled_le {entries entries' : List (Value × Value)}
    (h : List.Forall₂ Respelled entries entries') :
    entries.countP (fun e => spelledOut e.1) ≤ entries'.countP fun e => spelledOut e.1 := by
  induction h with
  | nil => exact Nat.le_refl _
  | @cons e e' rest rest' hFirst _ ih =>
      rw [List.countP_cons, List.countP_cons]
      rcases hFirst.key with hSame | ⟨hPlain, s, -, hKey'⟩
      · rw [hSame]
        omega
      · rw [hPlain, spelledOut_of_main hKey', if_neg Bool.false_ne_true, if_pos rfl]
        omega

/-- If there are no more keys spelled out than before, then none has been. -/
theorem eq_of_countP_respelled {entries entries' : List (Value × Value)}
    (h : List.Forall₂ Respelled entries entries')
    (hCount : entries'.countP (fun e => spelledOut e.1) ≤ entries.countP fun e => spelledOut e.1) :
    entries' = entries := by
  induction h with
  | nil => rfl
  | @cons e e' rest rest' hFirst hRest ih =>
      have hMore := countP_respelled_le hRest
      rw [List.countP_cons, List.countP_cons] at hCount
      rcases hFirst.key with hSame | ⟨hPlain, s, -, hKey'⟩
      · rw [hSame] at hCount
        rw [ih (by omega), Prod.ext hSame hFirst.value]
      · rw [hPlain, spelledOut_of_main hKey', if_neg Bool.false_ne_true, if_pos rfl] at hCount
        omega

/-! ## The bytes of inputs -/

/-- The bytes of the document that inputs are written as. -/
def inputBytes (prime : Int) (inputs : Value) : Except Error (List UInt8) := do
  let document ← inputDocument prime inputs
  let text ← Json.documentText documentIndent document
  storedBytes text

theorem hasHalf_printed {n : Int} {s : String} (h : Value.integerText n = .ok s) :
    hasHalf s = false := by
  have hPrinted : s = toString n := by
    unfold Value.integerText at h
    split at h
    · rename_i hText
      cases h
      exact (printInteger?_eq_some hText).1
    · cases h
  have hDigits : ∀ c ∈ numeral n.natAbs, ¬ isHalf c = true := by
    intro c hc
    have hDigit := digit_of_mem_numeral hc
    rw [isHalf_of_ascii (by omega)]
    exact Bool.false_ne_true
  rw [hPrinted, hasHalf, toList_toString_int, List.any_eq_false]
  split
  · exact List.forall_mem_cons.mpr ⟨by decide, hDigits⟩
  · exact hDigits

mutual

/-- What an input value is encoded as, every style carries. -/
theorem isData_of_encode (style : Style) {prime : Int} {v w : Value}
    (h : Field.encode prime v = .ok w) : IsData style w := by
  have hLeaf : Field.leafText prime v = .ok w → IsData style w := by
    intro hText
    obtain ⟨n, -, hPrint⟩ := except_bind_eq_ok hText
    obtain ⟨s, hs, hEnd⟩ := except_bind_eq_ok hPrint
    cases hEnd
    exact hasHalf_printed hs
  cases v with
  | list items =>
      rw [Field.encode, Field.encodeLeaves] at h
      obtain ⟨ws, hItems, hEnd⟩ := except_bind_eq_ok h
      cases hEnd
      exact allData_of_encodeEach style hItems
  | tuple items =>
      rw [Field.encode, Field.encodeLeaves] at h
      obtain ⟨ws, hItems, hEnd⟩ := except_bind_eq_ok h
      cases hEnd
      exact allData_of_encodeEach style hItems
  | array kind content => exact isData_of_encode style (v := content) h
  | _ => exact hLeaf h

theorem allData_of_encodeEach (style : Style) {prime : Int} {vs ws : List Value}
    (h : Field.encodeEach (Field.leafText prime) vs = .ok ws) : AllData style ws := by
  cases vs with
  | nil =>
      cases h
      trivial
  | cons v vs =>
      rw [Field.encodeEach] at h
      obtain ⟨w, hFirst, h⟩ := except_bind_eq_ok h
      obtain ⟨rest, hRest, hEnd⟩ := except_bind_eq_ok h
      cases hEnd
      exact ⟨isData_of_encode style hFirst, allData_of_encodeEach style hRest⟩

end

/-- Whether one entry is written for another one: under the same key, with the encoding of the
value. -/
def WrittenFor (prime : Int) (e w : Value × Value) : Prop :=
  w.1 = e.1 ∧ Field.encode prime e.2 = .ok w.2

theorem writtenFor_of_encodeEntries {prime : Int} {entries encoded : List (Value × Value)}
    (h : encodeEntries prime entries = .ok encoded) :
    List.Forall₂ (WrittenFor prime) entries encoded := by
  induction entries generalizing encoded with
  | nil =>
      cases h
      exact .nil
  | cons e rest ih =>
      obtain ⟨key, value⟩ := e
      rw [encodeEntries] at h
      obtain ⟨w, hFirst, h⟩ := except_bind_eq_ok h
      obtain ⟨more, hRest, hEnd⟩ := except_bind_eq_ok h
      cases hEnd
      exact .cons ⟨rfl, hFirst⟩ (ih hRest)

theorem keys_of_writtenFor {prime : Int} {entries encoded : List (Value × Value)}
    (h : List.Forall₂ (WrittenFor prime) entries encoded) :
    encoded.map Prod.fst = entries.map Prod.fst := by
  induction h with
  | nil => rfl
  | cons hFirst _ ih => rw [List.map_cons, List.map_cons, hFirst.1, ih]

/-- What entries are encoded as can be written, if their keys can. -/
theorem isData_of_encodeEntries {prime : Int} {entries encoded : List (Value × Value)}
    (hKeys : ∀ e ∈ entries, IsKey e.1) (hNodup : (entries.map fun e => e.1.text?).Nodup)
    (h : encodeEntries prime entries = .ok encoded) :
    IsData documentStyle (.table encoded) := by
  have hWritten := writtenFor_of_encodeEntries h
  have hSame := keys_of_writtenFor hWritten
  refine ⟨(entriesData_iff encoded).mpr fun w hw => ⟨?_, ?_⟩, ?_⟩
  · have hKey : w.1 ∈ entries.map Prod.fst := hSame ▸ List.mem_map_of_mem hw
    obtain ⟨e, he, hFirst⟩ := List.mem_map.mp hKey
    rw [← hFirst]
    exact hKeys e he
  · exact forall_mem_right (fun _ _ hEntry => isData_of_encode _ hEntry.2) hWritten w hw
  · have hTexts := congrArg (List.map Value.text?) hSame
    rw [List.map_map, List.map_map] at hTexts
    exact hTexts ▸ hNodup

/-- If entries have an encoding, inputs are written as the bytes of a text.  The keys that are read
of it are those that were given. -/
theorem inputBytes_exists {prime : Int} {entries encoded : List (Value × Value)}
    (hKeys : ∀ e ∈ entries, IsKey e.1) (hNodup : (entries.map fun e => e.1.text?).Nodup)
    (h : encodeEntries prime entries = .ok encoded) :
    ∃ text found, inputBytes prime (.table entries) = .ok (Utf8.encode text) ∧
      (found.map Prod.fst).Perm (entries.map fun e => plainKey e.1) ∧
      ∀ depth, levels (.table encoded) ≤ depth →
        readWithin depth text.toList = .ok (.table found) := by
  obtain ⟨text, hText, hWhole, hRead⟩ :=
    read_text readable_inputs (isData_of_encodeEntries hKeys hNodup h)
  have hBytes : inputBytes prime (.table entries) = .ok (Utf8.encode text) := by
    have hStored : storedBytes text = .ok (Utf8.encode text) := by
      rw [storedBytes, Utf8.encode?, hWhole]
      rfl
    have hDocument : inputDocument prime (.table entries) = .ok (.table encoded) := by
      show (encodeEntries prime entries >>= fun es => .ok (Value.table es)) = _
      rw [h]
      rfl
    show (inputDocument prime (.table entries) >>= fun document =>
      Json.documentText documentIndent document >>= storedBytes) = _
    rw [hDocument]
    show (Json.documentText documentIndent (.table encoded) >>= storedBytes) = _
    rw [documentText_documentIndent, hText]
    exact hStored
  refine ⟨text, _, hBytes, ?_, hRead⟩
  have hSorted := (arranged_perm documentStyle
    (restoredEntries documentStyle encoded)).map Prod.fst
  have hPlain : (restoredEntries documentStyle encoded).map Prod.fst =
      entries.map fun e => plainKey e.1 := by
    have hSame := congrArg (List.map plainKey) (keys_of_writtenFor (writtenFor_of_encodeEntries h))
    rw [List.map_map, List.map_map] at hSame
    rw [restoredEntries_eq_map, List.map_map]
    exact hSame
  exact hPlain ▸ hSorted

/-- Inputs that are written as the same bytes have the same keys. -/
theorem keys_perm_of_inputBytes {prime : Int}
    {entries entries' encoded encoded' : List (Value × Value)}
    (hKeys : ∀ e ∈ entries, IsKey e.1) (hNodup : (entries.map fun e => e.1.text?).Nodup)
    (hKeys' : ∀ e ∈ entries', IsKey e.1) (hNodup' : (entries'.map fun e => e.1.text?).Nodup)
    (h : encodeEntries prime entries = .ok encoded)
    (h' : encodeEntries prime entries' = .ok encoded')
    (hSame : inputBytes prime (.table entries') = inputBytes prime (.table entries)) :
    (entries'.map fun e => plainKey e.1).Perm (entries.map fun e => plainKey e.1) := by
  obtain ⟨text, found, hBytes, hFound, hRead⟩ := inputBytes_exists hKeys hNodup h
  obtain ⟨text', found', hBytes', hFound', hRead'⟩ := inputBytes_exists hKeys' hNodup' h'
  rw [hBytes, hBytes'] at hSame
  have hTexts : text' = text := by
    have hDecoded := congrArg Utf8.decode? (Except.ok.inj hSame)
    rw [Utf8.decode?_encode, Utf8.decode?_encode] at hDecoded
    exact Option.some.inj hDecoded
  subst hTexts
  -- a reader that allows for both tables finds the same entries in the one text
  have hOnce := hRead _ (Nat.le_max_left _ (levels (.table encoded')))
  have hTwice := hRead' _ (Nat.le_max_right (levels (.table encoded)) _)
  cases hOnce.symm.trans hTwice
  exact hFound'.symm.trans hFound

/-! ## Respelled inputs -/

section Respelled

variable {prime : Int} {entries entries' : List (Value × Value)}

theorem isKey_of_respelled (h : List.Forall₂ Respelled entries entries')
    (hKeys : ∀ e ∈ entries, IsKey e.1) : ∀ e ∈ entries', IsKey e.1 := by
  have hBoth := (List.forall₂_and_left entries entries').mpr ⟨hKeys, h⟩
  refine forall_mem_right (fun e e' hEntry => ?_) hBoth
  obtain ⟨⟨s, hKey, hWhole⟩, hRespelled⟩ := hEntry
  rcases hRespelled.key with hSame | ⟨-, t, hText, hKey'⟩
  · exact ⟨s, by rw [hSame, hKey], hWhole⟩
  · cases hKey.symm.trans hText
    refine ⟨_, hKey', ?_⟩
    rw [hasHalf, toList_main_append, List.any_append]
    exact Bool.or_eq_false_iff.mpr ⟨by decide, hWhole⟩

/-- Entries have no encoding if the first one has none, or else if the others have none. -/
theorem encodeEntries_cons_eq_error_iff (e : Value × Value) (rest : List (Value × Value))
    (fault : Error) :
    encodeEntries prime (e :: rest) = .error fault ↔
      Field.encode prime e.2 = .error fault ∨
        (∃ w, Field.encode prime e.2 = .ok w) ∧ encodeEntries prime rest = .error fault := by
  obtain ⟨key, value⟩ := e
  rw [encodeEntries]
  cases Field.encode prime value with
  | error fault' =>
      show Except.error fault' = .error fault ↔ _
      simp
  | ok w =>
      cases encodeEntries prime rest with
      | error fault' =>
          show Except.error fault' = .error fault ↔ _
          simp
      | ok more =>
          show Except.ok _ = .error fault ↔ _
          simp

/-- Whether entries have an encoding, and why not, does not depend on their keys. -/
theorem encodeEntries_respelled (h : List.Forall₂ Respelled entries entries') (fault : Error) :
    encodeEntries prime entries' = .error fault ↔ encodeEntries prime entries = .error fault := by
  induction h with
  | nil => exact Iff.rfl
  | cons hFirst _ ih =>
      rw [encodeEntries_cons_eq_error_iff, encodeEntries_cons_eq_error_iff, hFirst.value, ih]

/-- Without an encoding there are no bytes. -/
theorem inputBytes_of_error {fault : Error} (h : encodeEntries prime entries = .error fault) :
    inputBytes prime (.table entries) = .error fault := by
  show ((encodeEntries prime entries >>= fun es => .ok (Value.table es)) >>= _) = _
  rw [h]
  rfl

/-- Respelled inputs have bytes if the given ones do, and fail for the same reason if not.  The
bytes are other ones, unless nothing was spelled out. -/
theorem inputBytes_respelled (prime : Int) (hKeys : ∀ e ∈ entries, IsKey e.1)
    (hNodup : (entries.map fun e => e.1.text?).Nodup)
    (hNodup' : (entries'.map fun e => e.1.text?).Nodup)
    (hSpelled : List.Forall₂ Respelled entries entries') :
    (∃ fault, inputBytes prime (.table entries) = .error fault ∧
      inputBytes prime (.table entries') = .error fault) ∨
    ∃ bytes bytes', inputBytes prime (.table entries) = .ok bytes ∧
      inputBytes prime (.table entries') = .ok bytes' ∧ (bytes' = bytes ↔ entries' = entries) := by
  have hKeys' := isKey_of_respelled hSpelled hKeys
  cases h : encodeEntries prime entries with
  | error fault =>
      have h' := (encodeEntries_respelled hSpelled fault).mpr h
      exact .inl ⟨fault, inputBytes_of_error h, inputBytes_of_error h'⟩
  | ok encoded =>
      obtain ⟨encoded', h'⟩ : ∃ encoded', encodeEntries prime entries' = .ok encoded' := by
        cases hEntries : encodeEntries prime entries' with
        | error fault =>
            have hFirst := (encodeEntries_respelled hSpelled fault).mp hEntries
            rw [h] at hFirst
            cases hFirst
        | ok encoded' => exact ⟨encoded', rfl⟩
      obtain ⟨text, -, hBytes, -⟩ := inputBytes_exists hKeys hNodup h
      obtain ⟨text', -, hBytes', -⟩ := inputBytes_exists hKeys' hNodup' h'
      refine .inr ⟨_, _, hBytes, hBytes', fun hSame => ?_, ?_⟩
      · have hPerm := keys_perm_of_inputBytes hKeys hNodup hKeys' hNodup' h h'
          (by rw [hBytes, hBytes', hSame])
        have hCount := hPerm.countP_eq spelledOut
        rw [List.countP_map, List.countP_map] at hCount
        exact eq_of_countP_respelled hSpelled (Nat.le_of_eq hCount)
      · rintro rfl
        exact Except.ok.inj (hBytes'.symm.trans hBytes)

end Respelled

/-! ## Two inputs -/

/-- An assignment to the two inputs of a circuit that multiplies. -/
def productEntries : List (Value × Value) :=
  [(.text "a", .int 3), (.text "b", .int 4)]

/-- The same assignment with one key spelled out. -/
def productEntriesSpelled : List (Value × Value) :=
  [(.text "main.a", .int 3), (.text "b", .int 4)]

theorem isKey_productEntries : ∀ e ∈ productEntries, IsKey e.1 :=
  List.forall_mem_cons.mpr ⟨⟨"a", rfl, by decide⟩,
    List.forall_mem_singleton.mpr ⟨"b", rfl, by decide⟩⟩

theorem productEntries_respelled : List.Forall₂ Respelled productEntries productEntriesSpelled :=
  .cons ⟨.inr ⟨by decide, "a", rfl, rfl⟩, rfl⟩ (.cons ⟨.inl rfl, rfl⟩ .nil)

theorem productEntries_ne : productEntriesSpelled ≠ productEntries := by
  intro h
  have hKeys := congrArg (List.map fun e => e.1.text?) h
  revert hKeys
  decide

theorem checkInputs_productEntries :
    checkInputs productSymbols productHeader (.table productEntries) = .ok () := by
  have hProvided : providedNames productEntries = .ok ["main.a", "main.b"] := by
    apply Except.eq_ok_of_toOption
    decide +kernel
  exact checkInputs_product hProvided fun _ => Iff.rfl

theorem inputBytes_productEntries :
    ∃ bytes, inputBytes productHeader.prime (.table productEntries) = .ok bytes := by
  have hEncoded : (encodeEntries productHeader.prime productEntries).toOption.isSome = true := by
    decide +kernel
  obtain ⟨encoded, h⟩ := Option.isSome_iff_exists.mp hEncoded
  obtain ⟨text, -, hBytes, -⟩ :=
    inputBytes_exists isKey_productEntries (by decide) (Except.eq_ok_of_toOption h)
  exact ⟨_, hBytes⟩

namespace Session

/-! ## What is handed over -/

/-- Whether a circuit hands given bytes over to the witness program: unless the document of the
inputs cannot be written, the witness program is run when they are in the file that it reads. -/
def HandsOver (prime : Int) (inputs : Value) (bytes : List UInt8) : Prop :=
  ∀ c node work b,
    (∃ document e b', inputDocument prime inputs = .ok document ∧
      writeDocument (inputFile work).text document documentIndent b = .error e b' ∧
      generate c node work prime inputs b = .error e b') ∨
    ∃ b', b'.disk.readFile b'.current (inputFile work).text = .ok bytes ∧
      generate c node work prime inputs b = runGenerator c node work b'

/-- The bytes of inputs are handed over. -/
theorem handsOver_inputBytes {prime : Int} {inputs : Value} {bytes : List UInt8}
    (h : inputBytes prime inputs = .ok bytes) : HandsOver prime inputs bytes := by
  intro c node work b
  obtain ⟨document, hDocument, hRest⟩ := except_bind_eq_ok h
  obtain ⟨text, hText, hStored⟩ := except_bind_eq_ok hRest
  rw [generate_of_document hDocument]
  cases hWrite : writeDocument (inputFile work).text document documentIndent b with
  | error e b' => exact .inl ⟨document, e, b', hDocument, hWrite, bind_error hWrite⟩
  | ok _ b' =>
      obtain ⟨text', bytes', hText', hStored', hFile⟩ := writeDocument_eq_ok hWrite
      cases hText.symm.trans hText'
      cases hStored.symm.trans hStored'
      rw [ofString_inputFile] at hFile
      exact .inr ⟨b', hFile, bind_ok hWrite⟩

/-! ## Circuits -/

variable {s s' : Session} {symbols : SymbolTable} {system : ConstraintSystem}
  {entries entries' : List (Value × Value)}

/-- The keys of an accepted assignment may be spelled out. -/
theorem strictCheck_respelled (hLoad : loadSymbols s = .ok symbols s')
    (hAccepted : strictCheck true system (.table entries) s = .ok () s')
    (hSpelled : List.Forall₂ Respelled entries entries') :
    strictCheck true system (.table entries') s = .ok () s' := by
  obtain ⟨hTexts, hNames⟩ := names_of_accepted hLoad hAccepted
  have hOwn : ∀ e ∈ entries, ∀ name ∈ namesOf e, isOwn name = true := by
    intro e he name hName
    obtain ⟨symbol, -, hOwn, -⟩ := (hNames name).mp (List.mem_flatMap.mpr ⟨e, he, hName⟩)
    exact hOwn
  have hSame : entries'.flatMap namesOf = entries.flatMap namesOf := by
    clear hAccepted hTexts hNames
    induction hSpelled with
    | nil => rfl
    | cons hFirst _ ih =>
        rw [List.forall_mem_cons] at hOwn
        rw [List.flatMap_cons, List.flatMap_cons, namesOf_respelled hFirst hOwn.1, ih hOwn.2]
  have hTexts' : ∀ e ∈ entries', e.1.text? ≠ none := by
    have hBoth := (List.forall₂_and_left entries entries').mpr ⟨hTexts, hSpelled⟩
    refine forall_mem_right (fun e e' hEntry => ?_) hBoth
    obtain ⟨hText, hRespelled⟩ := hEntry
    rcases hRespelled.key with hKey | ⟨-, t, -, hKey'⟩
    · rwa [hKey]
    · rw [hKey']
      exact Option.some_ne_none _
  rw [strictCheck_eq_ok_iff hLoad, checkInputs_eq_ok_iff]
  refine ⟨entries', rfl, hTexts', fun name => ?_⟩
  rw [← hNames, ← hSame, givesName_iff, List.mem_flatMap]

/-- The strict check does not see whether the keys of an assignment are spelled out, and the witness
program does.  However the keys of an accepted assignment are spelled, it is accepted; if it has no
bytes, there are none for the other spelling, and for the same reason; and otherwise each spelling
is handed over as bytes of its own. -/
theorem inputs_as_spelled (hLoad : loadSymbols s = .ok symbols s')
    (hAccepted : strictCheck true system (.table entries) s = .ok () s')
    (hKeys : ∀ e ∈ entries, IsKey e.1) (hNodup : (entries.map fun e => e.1.text?).Nodup)
    (hSpelled : List.Forall₂ Respelled entries entries')
    (hNodup' : (entries'.map fun e => e.1.text?).Nodup) :
    strictCheck true system (.table entries') s = .ok () s' ∧
    ((∃ fault, inputBytes system.prime (.table entries) = .error fault ∧
        inputBytes system.prime (.table entries') = .error fault) ∨
      ∃ bytes bytes', inputBytes system.prime (.table entries) = .ok bytes ∧
        inputBytes system.prime (.table entries') = .ok bytes' ∧
        HandsOver system.prime (.table entries) bytes ∧
        HandsOver system.prime (.table entries') bytes' ∧
        (bytes' = bytes ↔ entries' = entries)) := by
  refine ⟨strictCheck_respelled hLoad hAccepted hSpelled, ?_⟩
  rcases inputBytes_respelled system.prime hKeys hNodup hNodup' hSpelled with
    hFails | ⟨bytes, bytes', hBytes, hBytes', hSame⟩
  · exact .inl hFails
  · exact .inr ⟨bytes, bytes', hBytes, hBytes', handsOver_inputBytes hBytes,
      handsOver_inputBytes hBytes', hSame⟩

/-- One of two inputs is spelled out. -/
theorem inputs_as_spelled_product :
    let s : Session :=
      ⟨{}, { Circuit.ofPaths "m.circom" "out" .null false with symbols := some productSymbols }⟩
    let system : ConstraintSystem := ⟨productHeader, []⟩
    strictCheck true system (.table productEntriesSpelled) s = .ok () s ∧
      ∃ bytes bytes', HandsOver system.prime (.table productEntries) bytes ∧
        HandsOver system.prime (.table productEntriesSpelled) bytes' ∧ bytes' ≠ bytes := by
  intro s system
  have hLoad : loadSymbols s = .ok productSymbols s := loadSymbols_of_some rfl
  have hAccepted : strictCheck true system (.table productEntries) s = .ok () s := by
    rw [strictCheck_eq_ok_iff hLoad]
    exact checkInputs_productEntries
  obtain ⟨hAccepted', hFails | ⟨bytes, bytes', -, -, hHands, hHands', hSame⟩⟩ :=
    inputs_as_spelled hLoad hAccepted isKey_productEntries (by decide) productEntries_respelled
      (by decide)
  · obtain ⟨fault, hFault, -⟩ := hFails
    obtain ⟨bytes, hBytes⟩ := inputBytes_productEntries
    cases hFault.symm.trans hBytes
  · refine ⟨hAccepted', bytes, bytes', hHands, hHands', fun hEqual => ?_⟩
    exact absurd (hSame.mp hEqual) productEntries_ne

/-- What the witness program reads need not be the same for two spellings of one assignment, even if
the strict check takes the names for the same. -/
theorem spelling_handed_over :
    ¬ ∀ (symbols : SymbolTable) (header : ConstraintHeader)
        (entries entries' : List (Value × Value)),
      (entries.map fun e => e.1.text?).Nodup → (entries'.map fun e => e.1.text?).Nodup →
      checkInputs symbols header (.table entries) = .ok () →
      List.Forall₂ Respelled entries entries' →
        inputBytes header.prime (.table entries') = inputBytes header.prime (.table entries) := by
  intro h
  have hEqual := h productSymbols productHeader _ _ (by decide) (by decide)
    checkInputs_productEntries productEntries_respelled
  obtain ⟨bytes, hBytes⟩ := inputBytes_productEntries
  rcases inputBytes_respelled productHeader.prime isKey_productEntries (by decide) (by decide)
    productEntries_respelled with ⟨fault, hFault, -⟩ | ⟨first, second, hFirst, hSecond, hSame⟩
  · cases hFault.symm.trans hBytes
  · cases hFirst.symm.trans (hEqual.symm.trans hSecond)
    exact absurd (hSame.mp rfl) productEntries_ne

end Session

end CircuitBench
