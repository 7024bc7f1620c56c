import CircuitBench.Proofs.Bench.AllOrNothing
import CircuitBench.Proofs.Json.Alike

/-!
# Values that are stored and read

A value of JSON has a document that can be stored with any indent that can be had, so that whether it
is written is then up to the file system alone.  When it is written, the reader finds the document at
the path, and what it reads is the value, with tables compared as maps.  Not every number of blanks
can be had: one that an index of 64 bits cannot say is refused, and nothing is written, even where the
document would have no use for an indent.

## Main results

* `documents_read_back` : what is written as a document at a path is read there.
* `indent_beyond_index` : not every number is an indent.
-/

namespace CircuitBench.Bench

open CircuitBench.Path Text Json

/-- The bytes of a document are those of its text. -/
theorem documentBytes_of_text {data indent : Value} {s : String}
    (hText : Json.documentText indent data = .ok s) (hWhole : hasHalf s = false) :
    documentBytes data indent = .ok (Utf8.encode s) := by
  have hBytes : storedBytes s = .ok (Utf8.encode s) := by
    rw [storedBytes, Utf8.encode?, hWhole]
    rfl
  rw [documentBytes, hText]
  exact hBytes

/-- A document with an indent that cannot be had has no bytes. -/
theorem documentBytes_of_beyond (data : Value) {n : Int}
    (h : n < -9223372036854775808 ∨ 9223372036854775807 < n) :
    documentBytes data (.int n) = .error (.overflow (.integerToIndex "int")) := by
  rw [documentBytes, documentText, indentOf_beyond h]
  rfl

/-- Documents can be written at a path where one was written. -/
theorem isWritable_of_written {path : String} {b : Bench} {data indent : Value}
    (h : (outcome (writeDocument path data indent) b).1.toBool = true) : IsWritable path b := by
  rcases writeDocument_cases path data indent b with
    ⟨-, hWritable, -⟩ | ⟨e, -, d, n, -, hEnd⟩
  · exact hWritable
  · rw [outcome, hEnd] at h
    cases h

/-- A value of JSON is written as a document, with any indent that can be had, exactly if the file
system takes documents at its path.  It is read there as a value alike it, under the reader's limit
for levels and by every reader with a higher one.  With a number of blanks that an index cannot say,
no document is written, and all that is new is the folder around its place. -/
theorem documents_read_back (path : String) (b : Bench) {v : Value} (hJson : IsJson v) :
    (∀ i, IsIndent i →
      ((∃ b', writeDocument path v i b = .ok () b') ↔ IsWritable path b) ∧
      (∀ e b', writeDocument path v i b = .error e b' → e.IsRefusal) ∧
      ∀ b', writeDocument path v i b = .ok () b' →
        ∃ w text, Alike v w ∧ (levels v ≤ depthLimit → readDocument path b' = .ok w b') ∧
          b'.disk.readFile b'.current (FilePath.ofString path).text = .ok (Utf8.encode text) ∧
          ∀ depth, levels v ≤ depth → readWithin depth text.toList = .ok w) ∧
    ∀ n : Int, n < -9223372036854775808 ∨ 9223372036854775807 < n →
      ∃ e, (e = .overflow (.integerToIndex "int") ∨ ¬IsWritable path b ∧ e.IsRefusal) ∧
        FailsAs path v (.int n) b (b.withFolder (FilePath.ofString path)).disk e := by
  refine ⟨fun i hIndent => ?_, fun n hBeyond => ?_⟩
  · obtain ⟨s, w, hText, hWhole, hAlike, hRead⟩ := text_alike hIndent hJson
    have hBytes := documentBytes_of_text hText hWhole
    rcases writeDocument_cases path v i b with
      ⟨bytes, hWritable, hSame, d, n, -, hFile, hEnd⟩ | ⟨e, hWhy, d, n, -, hEnd⟩
    · cases hBytes.symm.trans hSame
      refine ⟨iff_of_true ⟨_, hEnd⟩ hWritable, fun e b' hFails => ?_, fun b' hWritten => ?_⟩
      · cases hFails.symm.trans hEnd
      · cases hWritten.symm.trans hEnd
        refine ⟨w, s, hAlike, fun hLevels => ?_, hFile, hRead⟩
        refine readDocument_of_readFile hFile (Utf8.decode?_encode s) ?_
        rw [parseJson, read_eq_readWithin, hRead depthLimit hLevels]
        rfl
    · rcases hWhy with ⟨hNot, hRefusal⟩ | hNone
      · refine ⟨iff_of_false ?_ hNot, fun e' b' hFails => ?_, fun b' hWritten => ?_⟩
        · rintro ⟨b', hWritten⟩
          cases hWritten.symm.trans hEnd
        · cases hFails.symm.trans hEnd
          exact hRefusal
        · cases hWritten.symm.trans hEnd
      · cases hBytes.symm.trans hNone
  · have hNone := documentBytes_of_beyond v hBeyond
    rcases writeDocument_cases path v (.int n) b with ⟨bytes, -, hBytes, -⟩ | ⟨e, hWhy, hEnd⟩
    · cases hBytes.symm.trans hNone
    · refine ⟨e, hWhy.symm.imp_left fun hSame => ?_, hEnd⟩
      cases hSame.symm.trans hNone
      rfl

/-- A table with its keys out of order, of which the values are a list of a word, a truth value, a
negative number, a text with escapes and letters beyond ASCII, and an empty table.  It is written
into a folder that is not there yet, on many lines or on one, with the least number of blanks that
can be had; with one less it is refused. -/
theorem documents_read_back_nested :
    let v : Value := .table [(.text "z", .list [.null, .bool true, .int (-12),
      .text "\"\\\n\t\u0001é𝄞", .table []]), (.text "a", .list [])]
    (∀ i ∈ [Value.int 2, .int (-9223372036854775808), .null], ∃ b' w,
      writeDocument "/new/out.json" v i {} = .ok () b' ∧ Alike v w ∧
        readDocument "/new/out.json" b' = .ok w b') ∧
    ∃ b', writeDocument "/new/out.json" v (.int (-9223372036854775809)) {} =
      .error (.overflow (.integerToIndex "int")) b' := by
  intro v
  have hList : IsJson (.list [.null, .bool true, .int (-12), .text "\"\\\n\t\u0001é𝄞",
      .table []]) := by
    have hEmpty : HasTextKeys [] := ⟨fun _ he => absurd he List.not_mem_nil, List.nodup_nil⟩
    refine .list fun w hw => ?_
    simp only [List.mem_cons, List.not_mem_nil, or_false] at hw
    rcases hw with rfl | rfl | rfl | rfl | rfl
    · exact .null
    · exact .bool true
    · exact .int (by decide)
    · exact .text (by decide)
    · exact .table hEmpty (fun _ he => absurd he List.not_mem_nil)
        fun _ he => absurd he List.not_mem_nil
  have hJson : IsJson v := by
    refine .table ⟨?_, by simp⟩ ?_ ?_
    · simp
    · simp only [List.forall_mem_cons]
      refine ⟨fun s hs => ?_, fun s hs => ?_, fun _ he => absurd he List.not_mem_nil⟩
      · cases hs
        decide
      · cases hs
        decide
    · simp only [List.forall_mem_cons]
      exact ⟨hList, .list fun _ hw => absurd hw List.not_mem_nil,
        fun _ he => absurd he List.not_mem_nil⟩
  have hWritable : IsWritable "/new/out.json" {} := isWritable_of_written <|
    show (outcome (writeDocument "/new/out.json" (.int 0) (.int 0)) {}).1.toBool = true by
      decide +kernel
  obtain ⟨hWritten, hRefused⟩ := documents_read_back "/new/out.json" {} hJson
  refine ⟨fun i hi => ?_, ?_⟩
  · have hIndent : IsIndent i := by
      simp only [List.mem_cons, List.not_mem_nil, or_false] at hi
      rcases hi with rfl | rfl | rfl
      · exact .int (by decide) (by decide)
      · exact .int (by decide) (by decide)
      · exact .null
    obtain ⟨hWhen, -, hBack⟩ := hWritten i hIndent
    obtain ⟨b', hEnd⟩ := hWhen.mpr hWritable
    obtain ⟨w, text, hAlike, hRead, -⟩ := hBack b' hEnd
    exact ⟨b', w, hEnd, hAlike, hRead (by decide)⟩
  · obtain ⟨e, rfl | ⟨hNot, -⟩, d, n, -, hEnd⟩ :=
      hRefused (-9223372036854775809) (.inl (by decide))
    · exact ⟨_, hEnd⟩
    · exact absurd hWritable hNot

/-- Not every number is an indent: with more blanks than an index of 64 bits can say, not even a
number is written where documents can be written. -/
theorem indent_beyond_index :
    ¬∀ (path : String) (b : Bench) (v : Value) (n : Int), IsWritable path b → IsJson v →
      ∃ b' w, writeDocument path v (.int n) b = .ok () b' ∧ readDocument path b' = .ok w b' ∧
        Alike v w := by
  intro hAll
  have hWritable : IsWritable "/out.json" {} := isWritable_of_written <|
    show (outcome (writeDocument "/out.json" (.int 0) (.int 0)) {}).1.toBool = true by
      decide +kernel
  obtain ⟨b', w, hEnd, -⟩ := hAll "/out.json" {} (.int 1) 9223372036854775808 hWritable
    (.int (by decide))
  have hFails : (outcome (writeDocument "/out.json" (.int 1) (.int 9223372036854775808)) {}).1.toBool
      = false := by
    decide +kernel
  rw [outcome, hEnd] at hFails
  cases hFails

end CircuitBench.Bench
