import CircuitBench.Proofs.Path.Spelled
import CircuitBench.Proofs.Temporary.Opened
import CircuitBench.Template.Synthesis

/-!
# Main components that are written

A main component is written in three steps, and each of them may be the last: a name is drawn, an
empty file is put under it to a place that was free, and the source takes the place of the empty
text.  No other file is touched on the way.

## Main results

* `resolve_includeLine` : an include line leads to the template from the folder of its file.
* `writeMain_cases` : how far the writing of a main component gets.
* `Written.readFile` : what is read from a file that was written.
* `writeMain_addsRegistered` : what the writing makes is registered, and the rest is left alone.
-/

namespace CircuitBench

open CircuitBench.Path

namespace Bench

open Disk Registry

/-! ## Sources -/

/-- Whether the current folder of a bench can be spelled, or has been removed. -/
def IsPlaced (b : Bench) : Prop :=
  b.current = nowhere ∨ IsSpelled b.current

theorem IsPlaced.of_current {b b' : Bench} (h : b.IsPlaced) (hSame : b'.current = b.current) :
    b'.IsPlaced := by
  rw [IsPlaced, hSame]
  exact h

theorem isAbsolute_of_absolutePath_nowhere {path absolute : String}
    (h : absolutePath nowhere path = .ok absolute) : isAbsolute path = true := by
  rw [absolutePath] at h
  split at h
  · cases h
  · rename_i hNot
    simpa using not_and.mp hNot rfl

/-- An include line that is found leads to the template from the folder of its file. -/
theorem resolve_includeLine {current : Location} {path template line : String}
    (hPlaced : current = nowhere ∨ IsSpelled current)
    (h : includeLine current path template = .ok line) :
    resolve (resolve current path).dropLast line = resolve current template := by
  obtain ⟨absolute, hAbsolute, h⟩ := except_bind_eq_ok h
  obtain ⟨-, -, h⟩ := except_bind_eq_ok h
  cases h
  refine resolve_includePath path (hPlaced.imp_left ?_)
  rintro rfl
  exact isAbsolute_of_absolutePath_nowhere hAbsolute

/-- Whether a text is the source of the main component that a request asks for, with an include line
that leads to the template from the folder of a path. -/
def IsSourceOf (config : Table) (r : MainRequest) (current : Location) (path text : String) : Prop :=
  ∃ template line, templatePath r.templateFile = .ok template ∧
    resolve (resolve current path).dropLast line = resolve current template ∧
    MainComponent.source
      ⟨line, r.template, r.publicSignals, r.parameters, Settings.version config⟩ = .ok text

theorem isSourceOf_mainSource {config : Table} {r : MainRequest} {current : Location}
    {path text : String} (hPlaced : current = nowhere ∨ IsSpelled current)
    (h : mainSource config current path r = .ok text) : IsSourceOf config r current path text := by
  obtain ⟨m, hComponent, hSource⟩ := except_bind_eq_ok h
  obtain ⟨template, hTemplate, hComponent⟩ := except_bind_eq_ok hComponent
  obtain ⟨line, hLine, hComponent⟩ := except_bind_eq_ok hComponent
  cases hComponent
  exact ⟨template, line, hTemplate, resolve_includeLine hPlaced hLine, hSource⟩

/-! ## Writing -/

/-- Whether the name at the end of a path was made of a template, a number and the ending that a
configuration gives. -/
def IsNamed (config : Table) (r : MainRequest) (path : String) (n : Nat) : Prop :=
  ∃ lead ending folder, nameAround r.template (Settings.suffix config) = .ok (lead, ending) ∧
    path = join folder (lead ++ token n ++ ending)

/-- What there is when a main component has been written: under which name its file was put to which
place, and what it holds. -/
structure Written (config : Table) (r : MainRequest) (b : Bench) (path : String) (n : Nat)
    (l : Location) (b' : Bench) : Prop where
  named : IsNamed config r path n
  opens : ∃ d, Opens b path n l (.file []) d
  absolute : isAbsolute path = true
  stored : ∃ text bytes, mainSource config b.current path r = .ok text ∧
    storedBytes text = .ok bytes ∧ b' = b.withOpened path n (b.disk.put l (.file bytes))

/-- What is put to a place twice is there as it was put last. -/
theorem put_put (d : Disk) (l : Location) (node node' : Node) :
    (d.put l node).put l node' = d.put l node' := by
  simp [put, without, List.filter_append, List.filter_filter]

/-- A file that was just put to its place can be written. -/
theorem Opens.writeFile {b : Bench} {path : String} {n : Nat} {l : Location} {d : Disk}
    (h : Opens b path n l (.file []) d) (bytes : List UInt8) :
    d.writeFile b.current path bytes = .ok (b.disk.put l (.file bytes)) := by
  have hPlace := locate_of_folders h.growsTo.kept h.place
  have hHere : d.get? l = some (.file []) := by
    rw [h.disk, get?_put_self _ h.inside]
  rw [← put_put b.disk l (.file []), ← h.disk, Disk.writeFile, vacancy, hPlace]
  simp only [h.growsTo.kept _ h.around, isFolderAt, hHere]
  rfl

/-- A text is stored in such a file if there is one and it can be encoded. -/
theorem Opens.store {b : Bench} {path : String} {n : Nat} {l : Location} {d : Disk}
    (h : Opens b path n l (.file []) d) (text : Except Error String) :
    (∃ s bytes, text = .ok s ∧ storedBytes s = .ok bytes ∧
      Bench.store path text (b.withOpened path n d) =
        .ok () (b.withOpened path n (b.disk.put l (.file bytes)))) ∨
    ∃ e, Bench.store path text (b.withOpened path n d) = .error e (b.withOpened path n d) := by
  cases hBytes : text >>= storedBytes with
  | error e => exact .inr ⟨e, store_of_error hBytes _ _⟩
  | ok bytes =>
      obtain ⟨s, hText, hEncoded⟩ := except_bind_eq_ok hBytes
      exact .inl ⟨s, bytes, hText, hEncoded,
        (store_of_bytes hBytes _ _).trans (changeDisk_of_ok (h.writeFile bytes))⟩

/-- The writing of a main component ends well, or stops behind an empty file or behind names that
were drawn. -/
theorem writeMain_cases (config : Value) (r : MainRequest) (b : Bench) :
    (∃ fields path n l b', config.record = .ok fields ∧ Written fields r b path n l b' ∧
      writeMain config r b = .ok path b') ∨
    (∃ e fields path n l d, config.record = .ok fields ∧ IsNamed fields r path n ∧
      Opens b path n l (.file []) d ∧ isAbsolute path = true ∧
      writeMain config r b = .error e (b.withOpened path n d)) ∨
    ∃ e n, b.namesDrawn ≤ n ∧ writeMain config r b = .error e { b with namesDrawn := n } := by
  rw [writeMain]
  cases hFields : config.record with
  | error e => exact .inr (.inr ⟨e, b.namesDrawn, Nat.le_refl _, attempt_bind_error rfl⟩)
  | ok fields =>
  rw [attempt_bind_ok rfl]
  cases hNamed : nameAround r.template (Settings.suffix fields) with
  | error e => exact .inr (.inr ⟨e, b.namesDrawn, Nat.le_refl _, attempt_bind_error rfl⟩)
  | ok around =>
  obtain ⟨lead, ending⟩ := around
  rw [attempt_bind_ok rfl]
  rcases openFile_cases lead ending none b with
    ⟨path, n, l, d, hOpens, hAbsolute, ⟨folder, hPath⟩, hEnd⟩ | ⟨e, n, hLater, hEnd⟩
  swap
  · exact .inr (.inr ⟨e, n, hLater, bind_error hEnd⟩)
  have hIsNamed : IsNamed fields r path n := ⟨lead, ending, folder, hNamed, hPath⟩
  rcases hOpens.store (mainSource fields b.current path r) with
    ⟨text, bytes, hText, hBytes, hStored⟩ | ⟨e, hStored⟩
  · exact .inl ⟨fields, path, n, l, _, rfl,
      ⟨hIsNamed, ⟨d, hOpens⟩, hAbsolute, ⟨text, bytes, hText, hBytes, rfl⟩⟩,
      (bind_ok hEnd).trans ((bind_ok rfl).trans (bind_ok hStored))⟩
  · exact .inr (.inl ⟨e, fields, path, n, l, d, rfl, hIsNamed, hOpens, hAbsolute,
      (bind_ok hEnd).trans ((bind_ok rfl).trans (bind_error hStored))⟩)

/-- A main component that was written is read at its path. -/
theorem Written.readFile {config : Table} {r : MainRequest} {b b' : Bench} {path : String} {n : Nat}
    {l : Location} (h : Written config r b path n l b') :
    ∃ text bytes, mainSource config b.current path r = .ok text ∧ storedBytes text = .ok bytes ∧
      b'.disk.readFile b.current path = .ok bytes := by
  obtain ⟨text, bytes, hText, hBytes, rfl⟩ := h.stored
  obtain ⟨d, hOpens⟩ := h.opens
  have hGrown := put_file_growsTo hOpens.around (by simp [hOpens.free]) bytes
  have hPlace := locate_of_folders hGrown.kept hOpens.place
  have hHere : (b.withOpened path n (b.disk.put l (.file bytes))).disk.get? l =
      some (.file bytes) := get?_put_self _ hOpens.inside _
  refine ⟨text, bytes, hText, hBytes, ?_⟩
  rw [Disk.readFile, status, show (b.withOpened path n (b.disk.put l (.file bytes))).disk.locate
    b.current path = .ok ⟨l, false⟩ from hPlace]
  simp only [hHere]
  rfl

/-! ## What is left alone -/

/-- Whether a bench comes from another one by work that runs nothing, leaves all that is there as it
is, and registers what it makes. -/
structure AddsRegistered (b b' : Bench) : Prop where
  current : b'.current = b.current
  runs : b'.runs = b.runs
  drawn : b.namesDrawn ≤ b'.namesDrawn
  registered : ∀ path ∈ b.registry.paths, path ∈ b'.registry.paths
  untouched : ∀ l node, b.disk.get? l = some node → b'.disk.get? l = some node
  created : ∀ l, b.disk.get? l = none → b'.disk.get? l ≠ none →
    ∃ path ∈ b'.registry.paths, isAbsolute path = true ∧ resolve [] path = l

theorem addsRegistered_of_drawn {b : Bench} {n : Nat} (hLater : b.namesDrawn ≤ n) :
    AddsRegistered b { b with namesDrawn := n } :=
  ⟨rfl, rfl, hLater, fun _ h => h, fun _ _ h => h, fun _ hNone hSome => absurd hNone hSome⟩

/-- A file that is put to a free place under a path that is registered leaves the others alone. -/
theorem Opens.addsRegistered {b : Bench} {path : String} {n : Nat} {l : Location} {node : Node}
    {d : Disk} (h : Opens b path n l node d) (hAbsolute : isAbsolute path = true) (node' : Node) :
    AddsRegistered b (b.withOpened path n (b.disk.put l node')) := by
  have hOther : ∀ m, m ≠ l → (b.disk.put l node').get? m = b.disk.get? m :=
    fun m hm => get?_put_of_ne _ hm node'
  refine ⟨rfl, rfl, Nat.le_succ_of_le h.drawn, fun p hp => ?_, fun m kept hm => ?_,
    fun m hNone hSome => ?_⟩
  · exact (mem_track _ _ _).mpr (.inl hp)
  · refine (hOther m ?_).trans hm
    rintro rfl
    cases h.free.symm.trans hm
  · refine ⟨path, (mem_track _ _ _).mpr (.inr rfl), hAbsolute, ?_⟩
    rw [resolve_absolute hAbsolute [] b.current, ← locate_eq_ok h.place]
    refine Classical.byContradiction fun hElsewhere => hSome ?_
    exact (hOther m (Ne.symm hElsewhere)).trans hNone

/-- However the writing of a main component ends, it registers what it makes and leaves the rest
alone. -/
theorem writeMain_addsRegistered (config : Value) (r : MainRequest) (b : Bench) :
    AddsRegistered b (endState (writeMain config r b)) := by
  rcases writeMain_cases config r b with
    ⟨fields, path, n, l, b', -, hWritten, hEnd⟩ |
    ⟨e, fields, path, n, l, d, -, -, hOpens, hAbsolute, hEnd⟩ | ⟨e, n, hLater, hEnd⟩
  · obtain ⟨text, bytes, -, -, rfl⟩ := hWritten.stored
    obtain ⟨d, hOpens⟩ := hWritten.opens
    rw [hEnd]
    exact hOpens.addsRegistered hWritten.absolute _
  · have hDisk := hOpens.disk
    subst hDisk
    rw [hEnd]
    exact hOpens.addsRegistered hAbsolute _
  · rw [hEnd]
    exact addsRegistered_of_drawn hLater

end Bench

end CircuitBench
