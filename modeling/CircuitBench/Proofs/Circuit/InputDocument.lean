import CircuitBench.Circuit.Witness
import CircuitBench.Proofs.Bench.Documents
import CircuitBench.Proofs.Circuit.Command
import CircuitBench.Proofs.Disk.Discarded
import CircuitBench.Proofs.Field.Encoding
import CircuitBench.Proofs.Json.RoundTrip
import Mathlib.Data.List.Perm.Basic

/-!
# What the witness program reads

The witness program reads the assignment from a document, so what it computes on is what the document
says and not what was given.  The two say the same: the document is read as a table with the same
keys, and under each key the value that is read sets the signals that the given value sets, in the
same order.  A leaf is read as a numeral, which is that of the residue that the given leaf stands
for, so that to encode what was read once more changes nothing.  Since keys are sorted, the order in
which the entries were given does not show.

## Main results

* `levels_encode_le` : encoding nests a value no deeper.
* `entriesEncoded_exists` : what the encoding of entries is, if their leaves have one.
* `Session.generate_ranWith` : the document is there when a witness program is run.
* `Session.inputs_read_back` : the document that is written, and what is read of it.
-/

namespace CircuitBench

open CircuitBench.Path Bench Json Number Signal Text

/-! ## Encodings as documents -/

section Encodings

variable {prime : Nat}

theorem hasHalf_toString (n : Nat) : hasHalf (toString n) = false := by
  rw [hasHalf, toList_toString, List.any_eq_false]
  intro c hc
  have hDigit := digit_of_mem_numeral hc
  rw [isHalf_of_ascii (by omega)]
  exact Bool.false_ne_true

mutual

/-- Every style carries an encoding. -/
theorem isData_of_isEncoded (style : Style) {w : Value} (h : Field.IsEncoded prime w) :
    IsData style w := by
  cases w with
  | text s =>
      obtain ⟨n, -, rfl⟩ := h
      exact hasHalf_toString n
  | list items => exact allData_of_allEncoded style h
  | _ => exact h.elim

theorem allData_of_allEncoded (style : Style) {ws : List Value} (h : Field.AllEncoded prime ws) :
    AllData style ws := by
  cases ws with
  | nil => trivial
  | cons w ws => exact ⟨isData_of_isEncoded style h.1, allData_of_allEncoded style h.2⟩

end

mutual

/-- An encoding stands for itself in JSON. -/
theorem restored_of_isEncoded (style : Style) {w : Value} (h : Field.IsEncoded prime w) :
    restored style w = w := by
  cases w with
  | text s => rfl
  | list items => rw [restored, restoredItems_of_allEncoded style h]
  | _ => exact h.elim

theorem restoredItems_of_allEncoded (style : Style) {ws : List Value}
    (h : Field.AllEncoded prime ws) : restoredItems style ws = ws := by
  cases ws with
  | nil => rfl
  | cons w ws =>
      rw [restoredItems, restored_of_isEncoded style h.1, restoredItems_of_allEncoded style h.2]

end

theorem levels_leafText {v w : Value} (h : Field.leafText prime v = .ok w) : levels w = 0 := by
  obtain ⟨n, -, hText⟩ := except_bind_eq_ok h
  obtain ⟨s, -, hEnd⟩ := except_bind_eq_ok hText
  cases hEnd
  rfl

mutual

/-- Encoding nests a value no deeper. -/
theorem levels_encode_le {v w : Value} (h : Field.encode prime v = .ok w) :
    levels w ≤ levels v := by
  cases v with
  | list items =>
      rw [Field.encode, Field.encodeLeaves] at h
      obtain ⟨ws, hItems, hEnd⟩ := except_bind_eq_ok h
      cases hEnd
      exact Nat.succ_le_succ (levelsOf_encodeEach_le hItems)
  | tuple items =>
      rw [Field.encode, Field.encodeLeaves] at h
      obtain ⟨ws, hItems, hEnd⟩ := except_bind_eq_ok h
      cases hEnd
      exact Nat.succ_le_succ (levelsOf_encodeEach_le hItems)
  | array kind content => exact levels_encode_le (v := content) h
  | _ => exact Nat.le_trans (Nat.le_of_eq (levels_leafText h)) (Nat.zero_le _)

theorem levelsOf_encodeEach_le {vs ws : List Value}
    (h : Field.encodeEach (Field.leafText prime) vs = .ok ws) : levelsOf ws ≤ levelsOf vs := by
  cases vs with
  | nil =>
      cases h
      exact Nat.le_refl _
  | cons v vs =>
      rw [Field.encodeEach] at h
      obtain ⟨w, hFirst, h⟩ := except_bind_eq_ok h
      obtain ⟨rest, hRest, hEnd⟩ := except_bind_eq_ok h
      cases hEnd
      have hValue : levels w ≤ levels v := levels_encode_le hFirst
      have hValues := levelsOf_encodeEach_le hRest
      rw [levelsOf, levelsOf]
      omega

end

/-! ## Entries -/

/-- Whether an entry is written for another one: under the same key, with the encoding of the
value, which denotes the same. -/
structure EntryEncoded (prime : Nat) (e w : Value × Value) : Prop where
  key : w.1 = e.1
  encode : Field.encode prime e.2 = .ok w.2
  isEncoded : Field.IsEncoded prime w.2
  denotes : Field.Denotes prime w.2 e.2

theorem encodeEntries_ok {entries encoded : List (Value × Value)}
    (h : List.Forall₂ (EntryEncoded prime) entries encoded) :
    encodeEntries prime entries = .ok encoded := by
  induction h with
  | nil => rfl
  | @cons e w rest more hFirst _ ih =>
      obtain ⟨key, value⟩ := e
      obtain ⟨key', value'⟩ := w
      obtain ⟨rfl, hEncode, -, -⟩ := hFirst
      rw [encodeEntries, hEncode, ih]
      rfl

/-- Entries are encoded one by one, if every leaf stands for a residue. -/
theorem entriesEncoded_exists (hPrime : 2 ≤ prime) (hShort : prime < Nat.pow 10 digitLimit)
    {entries : List (Value × Value)}
    (hLeaves : ∀ e ∈ entries, ∀ leaf ∈ leaves e.2, ∃ n, Field.ofValue leaf prime = .ok n) :
    ∃ encoded, List.Forall₂ (EntryEncoded prime) entries encoded := by
  induction entries with
  | nil => exact ⟨[], .nil⟩
  | cons e rest ih =>
      rw [List.forall_mem_cons] at hLeaves
      obtain ⟨w, hEncode, hEncoded, hDenotes⟩ :=
        Field.encode_exists hPrime hShort e.2 hLeaves.1
      obtain ⟨encoded, hRest⟩ := ih hLeaves.2
      exact ⟨(e.1, w) :: encoded, .cons ⟨rfl, hEncode, hEncoded, hDenotes⟩ hRest⟩

theorem levels_entriesEncoded_le {entries encoded : List (Value × Value)}
    (h : List.Forall₂ (EntryEncoded prime) entries encoded) :
    levels (.table encoded) ≤ levels (.table entries) := by
  refine Nat.succ_le_succ ?_
  induction h with
  | nil => exact Nat.le_refl _
  | @cons e w rest more hFirst _ ih =>
      have hValue := levels_encode_le hFirst.encode
      show max (levels w.2) (levelsOfEntries more) ≤ max (levels e.2) (levelsOfEntries rest)
      omega

/-- The keys are kept, so they are as good as before. -/
theorem keys_of_entriesEncoded {entries encoded : List (Value × Value)}
    (hKeys : ∀ e ∈ entries, IsKey e.1) (hNodup : (entries.map fun e => e.1.text?).Nodup)
    (h : List.Forall₂ (EntryEncoded prime) entries encoded) :
    (∀ w ∈ encoded, IsKey w.1) ∧ (encoded.map fun w => w.1.text?).Nodup := by
  have hSame : encoded.map Prod.fst = entries.map Prod.fst := by
    clear hKeys hNodup
    induction h with
    | nil => rfl
    | cons hFirst _ ih => rw [List.map_cons, List.map_cons, hFirst.key, ih]
  constructor
  · intro w hw
    have hKey : w.1 ∈ entries.map Prod.fst := by
      rw [← hSame]
      exact List.mem_map_of_mem hw
    obtain ⟨e, he, hFirst⟩ := List.mem_map.mp hKey
    rw [← hFirst]
    exact hKeys e he
  · have hTexts := congrArg (List.map Value.text?) hSame
    rw [List.map_map, List.map_map] at hTexts
    exact hTexts ▸ hNodup

theorem isEncoded_of_entriesEncoded {entries encoded : List (Value × Value)}
    (h : List.Forall₂ (EntryEncoded prime) entries encoded) :
    ∀ w ∈ encoded, Field.IsEncoded prime w.2 :=
  forall_mem_right (fun _ _ hEntry => hEntry.isEncoded) h

theorem inputDocument_ok {entries encoded : List (Value × Value)}
    (h : encodeEntries prime entries = .ok encoded) :
    inputDocument prime (.table entries) = .ok (.table encoded) := by
  show (encodeEntries prime entries >>= fun es => .ok (Value.table es)) = _
  rw [h]
  rfl

/-! ## The text of the document -/

/-- The style of the documents that the witness program reads. -/
def documentStyle : Style := .document (some "  ")

theorem documentText_documentIndent (v : Value) :
    documentText documentIndent v = Json.text documentStyle v := rfl

/-- These documents can be read back. -/
theorem readable_inputs : documentStyle.Readable := by
  refine readable_document ?_
  intro blanks hIndent
  cases hIndent
  have hSpaces : "  ".toList = [' ', ' '] := by decide
  rw [hSpaces]
  exact List.forall_mem_cons.mpr ⟨rfl, List.forall_mem_singleton.mpr rfl⟩

/-- The entries of a document that encoded entries are written as. -/
def documentEntries (encoded : List (Value × Value)) : List (Value × Value) :=
  (arranged documentStyle encoded).map fun w => (plainKey w.1, w.2)

/-- Encoded entries stand for plain ones in JSON, in the order of their keys. -/
theorem restored_encoded {encoded : List (Value × Value)}
    (h : ∀ w ∈ encoded, Field.IsEncoded prime w.2) :
    restored documentStyle (.table encoded) = .table (documentEntries encoded) := by
  have hValues : encoded.map (fun w => (plainKey w.1, restored documentStyle w.2)) =
      encoded.map fun w => (plainKey w.1, w.2) := by
    refine List.map_congr_left fun w hw => ?_
    rw [restored_of_isEncoded _ (h w hw)]
  rw [restored, restoredEntries_eq_map, hValues, documentEntries]
  exact congrArg Value.table (arranged_map _ id encoded)

/-- Encoded entries are written as a document, of which they are read as plain entries in the order
of their keys. -/
theorem text_entriesEncoded {entries encoded : List (Value × Value)}
    (hKeys : ∀ e ∈ entries, IsKey e.1) (hNodup : (entries.map fun e => e.1.text?).Nodup)
    (h : List.Forall₂ (EntryEncoded prime) entries encoded) :
    ∃ text, Json.documentText documentIndent (.table encoded) = .ok text ∧
      storedBytes text = .ok (Utf8.encode text) ∧ ∀ depth, levels (.table entries) ≤ depth →
        readWithin depth text.toList = .ok (.table (documentEntries encoded)) := by
  have hEncoded := isEncoded_of_entriesEncoded h
  obtain ⟨hKeys', hNodup'⟩ := keys_of_entriesEncoded hKeys hNodup h
  have hData : IsData documentStyle (.table encoded) :=
    ⟨(entriesData_iff encoded).mpr fun w hw => ⟨hKeys' w hw, isData_of_isEncoded _ (hEncoded w hw)⟩,
      hNodup'⟩
  obtain ⟨text, hText, hWhole, hRead⟩ := read_text readable_inputs hData
  rw [documentText_documentIndent]
  refine ⟨text, hText, ?_, fun depth hDepth => ?_⟩
  · rw [storedBytes, Utf8.encode?, hWhole]
    rfl
  · rw [hRead depth (Nat.le_trans (levels_entriesEncoded_le h) hDepth), restored_encoded hEncoded]

/-- The order in which entries were given does not show in the document. -/
theorem text_entriesEncoded_perm {entries entries' encoded : List (Value × Value)}
    (hKeys : ∀ e ∈ entries, IsKey e.1) (hNodup : (entries.map fun e => e.1.text?).Nodup)
    (h : List.Forall₂ (EntryEncoded prime) entries encoded) (hPerm : entries'.Perm entries) :
    ∃ encoded', encodeEntries prime entries' = .ok encoded' ∧
      Json.documentText documentIndent (.table encoded') =
        Json.documentText documentIndent (.table encoded) := by
  obtain ⟨encoded', hEntries, hOrder⟩ := List.perm_comp_forall₂ hPerm h
  obtain ⟨hKeys', hNodup'⟩ := keys_of_entriesEncoded hKeys hNodup h
  exact ⟨encoded', encodeEntries_ok hEntries,
    (text_table_perm rfl hOrder.symm hKeys' hNodup').symm⟩

/-! ## What is read -/

/-- Whether an entry that is read stands for one that was given: its key is the same text, and under
every name its value sets the signals that the given value sets, in the same order, each to the
numeral of the residue that the given leaf stands for. -/
structure StandsFor (prime : Nat) (given found : Value × Value) : Prop where
  key : ∃ s, given.1.text? = some s ∧ found.1 = .text s
  signals : ∀ name, List.Forall₂
    (fun g f => f.1 = g.1 ∧ Field.LeafEncoded prime g.2 f.2)
    (flatten name given.2) (flatten name found.2)

/-- Names and leaves side by side. -/
theorem forall₂_of_names_leaves {R : Value → Value → Prop} {l l' : List (String × Value)}
    (hNames : l'.map Prod.fst = l.map Prod.fst)
    (hLeaves : List.Forall₂ R (l.map Prod.snd) (l'.map Prod.snd)) :
    List.Forall₂ (fun a b => b.1 = a.1 ∧ R a.2 b.2) l l' := by
  induction l generalizing l' with
  | nil =>
      cases l' with
      | nil => exact .nil
      | cons b l' => cases hNames
  | cons a l ih =>
      cases l' with
      | nil => cases hNames
      | cons b l' =>
          obtain ⟨hName, hMore⟩ := List.cons.inj hNames
          cases hLeaves with
          | cons hLeaf hRest => exact .cons ⟨hName, hLeaf⟩ (ih hMore hRest)

/-- An entry of the document stands for the entry that it was written for. -/
theorem standsFor_of_entryEncoded {e w : Value × Value} (hKey : IsKey e.1)
    (h : EntryEncoded prime e w) : StandsFor prime e (plainKey w.1, w.2) := by
  obtain ⟨s, hText, -⟩ := hKey
  refine ⟨⟨s, hText, ?_⟩, fun name => ?_⟩
  · rw [h.key]
    exact plainKey_of_text hText
  · refine forall₂_of_names_leaves ?_ ?_
    · rw [names_flatten, names_flatten, h.denotes.places]
    · rw [map_snd_flatten, map_snd_flatten]
      exact h.denotes.leaves

/-- The entries of the document stand for those that were given, one for each. -/
theorem documentEntries_standFor {entries encoded : List (Value × Value)}
    (hKeys : ∀ e ∈ entries, IsKey e.1)
    (h : List.Forall₂ (EntryEncoded prime) entries encoded) :
    ∃ given, given.Perm entries ∧
      List.Forall₂ (StandsFor prime) given (documentEntries encoded) := by
  obtain ⟨given, hGiven, hPerm⟩ :=
    List.perm_comp_forall₂ (arranged_perm documentStyle encoded) h.flip
  have hKeys' : ∀ e ∈ given, IsKey e.1 := fun e he => hKeys e (hPerm.mem_iff.mp he)
  refine ⟨given, hPerm, List.forall₂_map_right_iff.mpr ?_⟩
  refine List.Forall₂.imp ?_ ((List.forall₂_and_left given _).mpr ⟨hKeys', hGiven.flip⟩)
  rintro e w ⟨hKey, hEntry⟩
  exact standsFor_of_entryEncoded hKey hEntry

/-- To encode the entries of the document once more changes nothing. -/
theorem encodeEntries_documentEntries (hShort : prime < Nat.pow 10 digitLimit)
    {entries encoded : List (Value × Value)}
    (h : List.Forall₂ (EntryEncoded prime) entries encoded) :
    encodeEntries prime (documentEntries encoded) = .ok (documentEntries encoded) := by
  have hEncoded : ∀ w ∈ documentEntries encoded, Field.IsEncoded prime w.2 := by
    intro w hw
    obtain ⟨w', hw', rfl⟩ := List.mem_map.mp hw
    exact isEncoded_of_entriesEncoded h w' ((arranged_perm _ encoded).mem_iff.mp hw')
  generalize documentEntries encoded = found at hEncoded
  induction found with
  | nil => rfl
  | cons w rest ih =>
      rw [List.forall_mem_cons] at hEncoded
      obtain ⟨key, value⟩ := w
      rw [encodeEntries, Field.encode_of_isEncoded hShort hEncoded.1, ih hEncoded.2]
      rfl

end Encodings

namespace Session

/-! ## The document on the disk -/

/-- Runs the witness program of a circuit in a work folder that holds the inputs, and reads the
witness. -/
def runGenerator (c : Circuit) (node : Program) (work : String) : Action (List Nat) := do
  let outcome ← run node (generatorArguments c work) (some c.programFolder.text)
  requireWitness c work outcome
  let file ← readWitness (witnessFile work).text
  return file.values

/-- The document of inputs is written, and then the witness program is run. -/
theorem generate_of_document {c : Circuit} {node : Program} {work : String} {prime : Int}
    {inputs document : Value} (h : inputDocument prime inputs = .ok document) :
    generate c node work prime inputs =
      writeDocument (inputFile work).text document documentIndent >>= fun _ =>
        runGenerator c node work := by
  funext b
  rw [generate, h, bind_ok (attempt_ok document b)]
  rfl

/-- A document that was written is read as what its text is read as. -/
theorem readDocument_of_writeDocument {path text : String} {document v : Value} {b b' : Bench}
    (hText : Json.documentText documentIndent document = .ok text)
    (hStored : storedBytes text = .ok (Utf8.encode text)) (hRead : parseJson text = .ok v)
    (h : writeDocument path document documentIndent b = .ok () b') :
    readDocument path b' = .ok v b' := by
  obtain ⟨text', bytes, hText', hBytes, hFile⟩ := writeDocument_eq_ok h
  cases hText.symm.trans hText'
  cases hStored.symm.trans hBytes
  exact readDocument_of_readFile hFile (Utf8.decode?_encode text) hRead

/-- Whether a run was made with a document: the file that the third argument names held these bytes,
for someone in the current folder of a bench.  They are what the interpreter was given to read, if the
folder for temporary files has an absolute path. -/
structure RanWith (b : Bench) (bytes : List UInt8) (r : ToolRun) : Prop where
  written : ∃ path, r.arguments[2]? = some path ∧ r.disk.readFile b.current path = .ok bytes
  given : r.tool = .node →
    isAbsolute ((b.registry.folder none).getD b.temporary) = true → r.given = some bytes

/-- Whether at most one program has been run since an earlier moment, and with a document. -/
def RanOnceWith (bytes : List UInt8) (b b' : Bench) : Prop :=
  ∃ made, b'.runs = b.runs ++ made ∧ made.length ≤ 1 ∧ ∀ r ∈ made, RanWith b bytes r

theorem ranOnceWith_of_afterWork {bytes : List UInt8} {b b' : Bench} (h : AfterWork b [] b') :
    RanOnceWith bytes b b' :=
  ⟨[], h.runs, Nat.zero_le _, nofun⟩

section Runs

variable {c : Circuit} {prime : Int} {inputs document : Value} {text : String} {b b₁ : Bench}

/-- When a witness program is run in a work folder, the document is there. -/
theorem generate_ranWith {work : String} (node : Program)
    (hDocument : inputDocument prime inputs = .ok document)
    (hText : Json.documentText documentIndent document = .ok text)
    (hStored : storedBytes text = .ok (Utf8.encode text))
    (hWork : ∃ n, work = join ((b.registry.folder none).getD b.temporary)
      (c.name ++ "_wtns_" ++ Registry.token n)) (h₁ : AfterWork b [] b₁) :
    RanOnceWith (Utf8.encode text) b (endState (generate c node work prime inputs b₁)) := by
  rw [generate]
  refine endState_attempt_bind (ranOnceWith_of_afterWork h₁) fun document' hDocument' => ?_
  cases hDocument.symm.trans hDocument'
  refine endState_bind (fun e b₂ hFails => ?_) fun _ b₂ hWrite => ?_
  · exact ranOnceWith_of_afterWork ((AfterRuns.writeDocument_any _ _ _).of_error hFails h₁)
  have h₂ := (AfterRuns.writeDocument_any _ _ _).of_ok hWrite h₁
  obtain ⟨text', bytes, hText', hBytes, hFile⟩ := writeDocument_eq_ok hWrite
  cases hText.symm.trans hText'
  cases hStored.symm.trans hBytes
  rw [ofString_inputFile, h₂.current] at hFile
  refine endState_bind (fun e b₃ hFails => ?_) fun o b₃ hRun => ?_
  · rw [run_eq_error hFails]
    exact ranOnceWith_of_afterWork h₂
  obtain ⟨r, -, hArguments, hDisk, -, -, h₃⟩ := h₂.run hRun
  have hRuns := preserves_afterRun (P := HasRun b₃.runs) c work o b₃ rfl
  refine ⟨[r], hRuns.trans h₃.runs, Nat.le_refl _, List.forall_mem_singleton.mpr ?_⟩
  rw [← hDisk] at hFile
  have hPath : r.arguments[2]? = some (inputFile work).text := by rw [hArguments]; rfl
  refine ⟨⟨_, hPath, hFile⟩, fun hTool hBase => ?_⟩
  have hAbsolute : isAbsolute (inputFile work).text = true := by
    obtain ⟨n, rfl⟩ := hWork
    exact FilePath.isAbsolute_child (isAbsolute_join hBase) ⟨by decide, by decide, by decide⟩
      (by decide)
  rw [ToolRun.given, hTool]
  show r.arguments[2]?.bind _ = _
  rw [hPath, Option.bind_some, Disk.readFile_of_absolute hAbsolute _ b.current, hFile]
  rfl

theorem computeWitness_ranWith (hDocument : inputDocument prime inputs = .ok document)
    (hText : Json.documentText documentIndent document = .ok text)
    (hStored : storedBytes text = .ok (Utf8.encode text)) :
    RanOnceWith (Utf8.encode text) b (endState (computeWitness c prime inputs b)) := by
  have hStart : AfterWork b [] b := afterRuns_self trivial
  have hNone : RanOnceWith (Utf8.encode text) b b := ranOnceWith_of_afterWork hStart
  rw [computeWitness]
  refine endState_attempt_bind hNone fun options _ => ?_
  refine endState_requireProgram_bind hNone fun node _ => ?_
  refine endState_bind (fun e b₂ hFails => ?_) fun work b₂ hWork => ?_
  · exact ranOnceWith_of_afterWork ((AfterRuns.openFolder_any _ _).of_error hFails hStart)
  have h₂ := (AfterRuns.openFolder_any _ _).of_ok hWork hStart
  have hRan := generate_ranWith node hDocument hText hStored (openFolder_path hWork) h₂
  refine endState_bind (fun e b₃ hFails => ?_) fun values b₃ hGenerate => ?_
  · rwa [hFails] at hRan
  rw [hGenerate] at hRan
  obtain ⟨made, hRuns, hMade⟩ := hRan
  exact ⟨made, ((clearWork_runs work _).bind fun _ => preserves_pure values) b₃ hRuns, hMade⟩

end Runs

/-- What the witness program reads says what was given.  The document that inputs are written as has
a text that can be stored, which does not depend on the order of the inputs and is read as a table
by every reader that allows values to be nested as deeply as the inputs.  The entries of this table
stand for those that were given, one for each, and are their own encoding.  Unless the document
cannot be written, it is there when the witness program is run.  So it is in all the work on a
witness, which runs one program at most, with this text in the file that the program is told to
read. -/
theorem inputs_read_back {prime : Nat} (hPrime : 2 ≤ prime)
    (hShort : prime < Nat.pow 10 digitLimit) {entries : List (Value × Value)}
    (hKeys : ∀ e ∈ entries, IsKey e.1) (hNodup : (entries.map fun e => e.1.text?).Nodup)
    (hLeaves : ∀ e ∈ entries, ∀ leaf ∈ leaves e.2, ∃ n, Field.ofValue leaf prime = .ok n) :
    ∃ document text found,
      inputDocument prime (.table entries) = .ok document ∧
      Json.documentText documentIndent document = .ok text ∧
      storedBytes text = .ok (Utf8.encode text) ∧
      (∀ depth, levels (.table entries) ≤ depth →
        readWithin depth text.toList = .ok (.table found)) ∧
      (∃ given, given.Perm entries ∧ List.Forall₂ (StandsFor prime) given found) ∧
      inputDocument prime (.table found) = .ok (.table found) ∧
      (∀ entries', entries'.Perm entries → ∃ document',
        inputDocument prime (.table entries') = .ok document' ∧
        Json.documentText documentIndent document' = .ok text) ∧
      (levels (.table entries) ≤ depthLimit → ∀ c node work b,
        (∃ e b', writeDocument (inputFile work).text document documentIndent b = .error e b' ∧
          generate c node work prime (.table entries) b = .error e b') ∨
        ∃ b', writeDocument (inputFile work).text document documentIndent b = .ok () b' ∧
          readDocument (inputFile work).text b' = .ok (.table found) b' ∧
          generate c node work prime (.table entries) b = runGenerator c node work b') ∧
      ∀ s strict, (∀ system s', loadConstraints s = .ok system s' → system.prime = prime) →
        RanOnceWith (Utf8.encode text) s.bench
          (endState (calculateWitness (.table entries) strict s)).bench := by
  obtain ⟨encoded, hEncoded⟩ := entriesEncoded_exists hPrime hShort hLeaves
  have hDocument := inputDocument_ok (encodeEntries_ok hEncoded)
  obtain ⟨text, hText, hStored, hRead⟩ := text_entriesEncoded hKeys hNodup hEncoded
  refine ⟨.table encoded, text, documentEntries encoded, hDocument, hText, hStored, hRead,
    documentEntries_standFor hKeys hEncoded,
    inputDocument_ok (encodeEntries_documentEntries hShort hEncoded), ?_, ?_, ?_⟩
  · intro entries' hPerm
    obtain ⟨encoded', hEntries, hSame⟩ :=
      text_entriesEncoded_perm hKeys hNodup hEncoded hPerm
    exact ⟨.table encoded', inputDocument_ok hEntries, hSame.trans hText⟩
  · intro hLevels c node work b
    have hParsed : parseJson text = .ok (.table (documentEntries encoded)) := by
      rw [parseJson, read_eq_readWithin, hRead depthLimit hLevels]
      rfl
    rw [generate_of_document hDocument]
    cases hWrite : writeDocument (inputFile work).text (.table encoded) documentIndent b with
    | error e b' => exact .inl ⟨e, b', rfl, bind_error hWrite⟩
    | ok _ b' =>
        exact .inr ⟨b', rfl, readDocument_of_writeDocument hText hStored hParsed hWrite,
          bind_ok hWrite⟩
  · intro s strict hSystem
    refine calculateWitness_end _ strict ⟨[], (List.append_nil _).symm, Nat.zero_le _, nofun⟩ ?_
    intro symbols constraints system s₁ hLoad
    rw [hSystem system s₁ hLoad]
    exact computeWitness_ranWith hDocument hText hStored

/-- A circuit over the residues of 13 that was built, at a bench with an interpreter that writes
nothing. -/
def thirteenSession : Session where
  bench := {
    disk := ⟨[(["tmp"], .folder), (["build"], .folder), (["build", "m_js"], .folder),
      (["bin"], .folder), (["bin", "node"], .file [])]⟩
    toolbox := { folder := ["bin"], node := some (interpreter fun _ => {}) } }
  circuit := { Circuit.ofPaths "m.circom" "/build" (.table []) false with
    constraints := some ⟨⟨13, 8, 4, 1, 0, 2, 4, 1⟩, []⟩ }

/-- An array of inputs with an empty row, a numeric array and a tuple below it, of which the leaves
are a negative number, one beyond the modulus, a truth value and a hexadecimal text.  The document
can be written into a folder, and is read there; and the interpreter is given it to read. -/
theorem inputs_read_back_nested :
    let entries : List (Value × Value) :=
      [(.textCell "in", .list [.int (-1), .list [], .array (.integer .int64) (.list [.int 40]),
        .tuple [.bool true, .text " 0x10 "]])]
    let start : Bench := { disk := ⟨[(["w"], .folder)]⟩ }
    ∃ document text found b' r,
      inputDocument (13 : Nat) (.table entries) = .ok document ∧
      (∃ given, given.Perm entries ∧ List.Forall₂ (StandsFor 13) given found) ∧
      writeDocument (inputFile "/w").text document documentIndent start = .ok () b' ∧
      readDocument (inputFile "/w").text b' = .ok (.table found) b' ∧
      (endState (calculateWitness (.table entries) false thirteenSession)).bench.runs = [r] ∧
      r.given = some (Utf8.encode text) ∧
      readWithin depthLimit text.toList = .ok (.table found) := by
  intro entries start
  have hKeys : ∀ e ∈ entries, IsKey e.1 :=
    List.forall_mem_singleton.mpr ⟨"in", rfl, by decide⟩
  have hLeaves : ∀ e ∈ entries, ∀ leaf ∈ leaves e.2,
      ∃ n, Field.ofValue leaf (13 : Nat) = .ok n := by
    have hEach : ∀ e ∈ entries, ∀ leaf ∈ leaves e.2,
        (Field.ofValue leaf (13 : Nat)).toOption.isSome = true := by
      decide +kernel
    intro e he leaf hLeaf
    obtain ⟨n, hn⟩ := Option.isSome_iff_exists.mp (hEach e he leaf hLeaf)
    exact ⟨n, Except.eq_ok_of_toOption hn⟩
  obtain ⟨document, text, found, hDocument, -, -, hRead, hStand, -, -, hBench, hSession⟩ :=
    inputs_read_back (by decide) (by decide +kernel) hKeys (by decide) hLeaves
  have hEvaluated : ((inputDocument (13 : Nat) (.table entries)).toOption.any fun document =>
      (outcome (writeDocument (inputFile "/w").text document documentIndent)
        start).1.toOption.isSome) = true := by
    decide +kernel
  have hTransfer : ∀ {x : Except Error Value} {test : Value → Bool}, x = .ok document →
      x.toOption.any test = true → test document = true := by
    rintro x test rfl h
    exact h
  have hWritten := hTransfer hDocument hEvaluated
  obtain ⟨r, hRuns, hTool⟩ : ∃ r : ToolRun,
      (endState (calculateWitness (.table entries) false thirteenSession)).bench.runs = [r] ∧
        r.tool = .node := by
    have hTools : (endState (calculateWitness (.table entries) false thirteenSession)).bench.runs.map
        (fun r => r.tool) = [.node] := by
      decide +kernel
    exact List.map_eq_singleton_iff.mp hTools
  obtain ⟨made, hMade, -, hWith⟩ := hSession thirteenSession false fun _ _ hLoad => by
    cases hLoad
    rfl
  obtain rfl : made = [r] := hMade.symm.trans hRuns
  have hGiven := (hWith r List.mem_cons_self).given hTool (by decide)
  rcases hBench (by decide) (Circuit.ofPaths "m.circom" "out" .null false) .spelled "/w" start with
    ⟨e, b', hWrite, -⟩ | ⟨b', hWrite, hFound, -⟩
  · rw [outcome, hWrite] at hWritten
    cases hWritten
  · exact ⟨document, text, found, b', r, hDocument, hStand, hWrite, hFound, hRuns, hGiven,
      hRead depthLimit (by decide)⟩

end Session

end CircuitBench
