import CircuitBench.Proofs.Bench.Added
import CircuitBench.Proofs.Circuit.Command
import CircuitBench.Proofs.Disk.Spared
import CircuitBench.Proofs.Template.Written

/-!
# What work at a bench spares

Builds, witnesses and main components leave alone what is on the disk, but for what lies at or below
a path that is registered when the work is over, and for files that are written again.  Those are
the artifacts of the compiler, and perhaps a file that goes astray: if temporary folders have relative
paths, then the interpreter follows the path of the witness from a folder of its own.  There it leads
into a folder with a name that was drawn for the work folder, if there is one.

Work may take the current folder away, together with what is registered.  Then it was home until
then, and is found nowhere from then on.

## Main results

* `Works` : the bench before and after some work.
* `writeDocument_works`, `writeMain_works`, `build_works`, `computeWitness_works`,
  `calculateWitness_works` : what is spared, whatever the end.
* `build_held` : what is held of the folder that a circuit is built in.
-/

namespace CircuitBench.Bench

open CircuitBench.Path Disk Registry

/-! ## Work -/

/-- Whether a place lies at or below a path that is registered, as it leads from home. -/
def AtRegistered (home : Location) (r : Registry) (l : Location) : Prop :=
  ∃ p ∈ r.paths, isBelow (resolve home p) l = true

/-- Whether a place lies in a folder with a name that has not been drawn. -/
def InUndrawn (undrawn : Nat) (l : Location) : Prop :=
  ∃ around name last, l = around ++ [name] ++ [last] ∧ IsUndrawn undrawn name

/-- The folder in which temporary ones are opened if no other is asked for. -/
def workFolder (b : Bench) : String :=
  (b.registry.folder none).getD b.temporary

/-- Whether a witness may go astray to a place: work folders have relative paths, and the place is in
a folder with a name that one of them can still be given. -/
def IsStray (b : Bench) (l : Location) : Prop :=
  isAbsolute b.workFolder = false ∧ InUndrawn b.namesDrawn l

/-- Whether a file may have been written by runs: as an artifact, or as a witness that went astray. -/
def Rewritten (home : Location) (stray : Location → Prop) (made : List ToolRun) (l : Location)
    (bytes : List UInt8) : Prop :=
  (∃ r ∈ made, r.MakesArtifact home l bytes) ∨ stray l

/-- Whether a bench comes from another one by work that forgets no path and takes no place away but
that of a registered one, if programs are put to their proper use. -/
structure Works (home : Location) (stray : Location → Prop) (b b' : Bench) : Prop where
  current : b'.current = b.current ∨ b'.current = nowhere
  workFolder : b'.workFolder = b.workFolder
  drawn : b.namesDrawn ≤ b'.namesDrawn
  registered : ∀ path ∈ b.registry.paths, path ∈ b'.registry.paths
  spares : ∃ made, b'.runs = b.runs ++ made ∧ ((∀ r ∈ made, r.IsProper) →
    Stands home b.current b.disk → b.disk.IsTree →
      Spares (AtRegistered home b'.registry) (Rewritten home stray made) b.disk b'.disk)

section Work

variable {home : Location} {stray E E' : Location → Prop} {W : Location → List UInt8 → Prop}
variable {b b₁ b₂ : Bench}

theorem atRegistered_mono {r r' : Registry} (h : ∀ path ∈ r.paths, path ∈ r'.paths) {l : Location}
    (hl : AtRegistered home r l) : AtRegistered home r' l := by
  obtain ⟨p, hMem, hBelow⟩ := hl
  exact ⟨p, h p hMem, hBelow⟩

theorem rewritten_mono {made made' : List ToolRun} (h : ∀ r ∈ made, r ∈ made') {l : Location}
    {bytes : List UInt8} (hl : Rewritten home stray made l bytes) :
    Rewritten home stray made' l bytes := by
  refine hl.imp_left ?_
  rintro ⟨r, hMem, hMakes⟩
  exact ⟨r, h r hMem, hMakes⟩

theorem inUndrawn_mono {drawn drawn' : Nat} {l : Location} (hMore : drawn ≤ drawn')
    (hl : InUndrawn drawn' l) : InUndrawn drawn l := by
  obtain ⟨around, name, last, rfl, hName⟩ := hl
  exact ⟨around, name, last, rfl, hName.mono hMore⟩

/-- What stands before some work stands after it. -/
theorem stands_of_spares (h : Stands home b.current b.disk)
    (hCurrent : b₁.current = b.current ∨ b₁.current = nowhere)
    (hSpared : Spares E W b.disk b₁.disk) : Stands home b₁.current b₁.disk := by
  refine ⟨h.placed, ?_, hSpared.nothing h.nothing⟩
  rcases hCurrent with hSame | hGone
  · rw [hSame]
    exact h.here
  · exact .inr hGone

namespace Works

/-- Work that runs nothing. -/
theorem of_spared (hCurrent : b₁.current = b.current ∨ b₁.current = nowhere)
    (hFolder : b₁.workFolder = b.workFolder) (hDrawn : b.namesDrawn ≤ b₁.namesDrawn)
    (hRegistered : ∀ path ∈ b.registry.paths, path ∈ b₁.registry.paths) (hRuns : b₁.runs = b.runs)
    (hSpared : Stands home b.current b.disk → b.disk.IsTree →
      Spares (AtRegistered home b₁.registry) (Rewritten home stray []) b.disk b₁.disk) :
    Works home stray b b₁ :=
  ⟨hCurrent, hFolder, hDrawn, hRegistered, [], by rw [hRuns, List.append_nil], fun _ => hSpared⟩

theorem refl (home : Location) (stray : Location → Prop) (b : Bench) : Works home stray b b :=
  of_spared (.inl rfl) rfl (Nat.le_refl _) (fun _ h => h) rfl fun _ _ => .refl _ _ _

theorem trans (h : Works home stray b b₁) (h' : Works home stray b₁ b₂) : Works home stray b b₂ := by
  obtain ⟨made, hRuns, hSpared⟩ := h.spares
  obtain ⟨made', hRuns', hSpared'⟩ := h'.spares
  refine ⟨?_, h'.workFolder.trans h.workFolder, Nat.le_trans h.drawn h'.drawn,
    fun p hp => h'.registered p (h.registered p hp), made ++ made',
    by rw [hRuns', hRuns, List.append_assoc], fun hProper hStands hTree => ?_⟩
  · rcases h'.current with hSame | hGone
    · rw [hSame]
      exact h.current
    · exact .inr hGone
  · obtain ⟨hFirst, hSecond⟩ := List.forall_mem_append.mp hProper
    have hBefore := hSpared hFirst hStands hTree
    have hAfter := hSpared' hSecond (stands_of_spares hStands h.current hBefore)
      (hBefore.tree hTree)
    refine (hBefore.mono (fun l => atRegistered_mono h'.registered) fun l _ hl => .inr ?_).trans
      (hAfter.mono (fun _ hl => hl) fun l _ hl => .inr ?_)
    · exact rewritten_mono (fun r hr => List.mem_append_left _ hr) hl
    · exact rewritten_mono (fun r hr => List.mem_append_right _ hr) hl

/-- What a step does from everywhere may be done next. -/
theorem preserves {α : Type} {x : Action α} (h : ∀ b, Works home stray b (endState (x b)))
    (b : Bench) : Preserves (Works home stray b) x :=
  fun s hs => hs.trans (h s)

end Works

/-! ## Single steps -/

/-- A path that is registered changes nothing of where others are opened. -/
theorem workFolder_track (b : Bench) (path : String) :
    (({ b with registry := b.registry.track path } : Bench)).workFolder = b.workFolder := by
  rw [workFolder, workFolder, Registry.track]
  split <;> rfl

theorem attempt_works {α : Type} (result : Except Error α) (b : Bench) :
    Works home stray b (endState (attempt result b)) := by
  cases result <;> exact .refl home stray b

theorem inform_works (logger text : String) (b : Bench) :
    Works home stray b (endState (inform logger text b)) :=
  .of_spared (.inl rfl) rfl (Nat.le_refl _) (fun _ h => h) rfl fun _ _ => .refl _ _ _

theorem track_works (path : String) (b : Bench) :
    Works home stray b (endState (track path b)) :=
  .of_spared (.inl rfl) (workFolder_track b path) (Nat.le_refl _)
    (fun _ h => (mem_track _ _ _).mpr (.inl h)) rfl
    fun _ _ => .refl _ _ _

theorem drawn_works {n : Nat} (hLater : b.namesDrawn ≤ n) :
    Works home stray b { b with namesDrawn := n } :=
  .of_spared (.inl rfl) rfl hLater (fun _ h => h) rfl fun _ _ => .refl _ _ _

/-- A path that is opened led to a free place. -/
theorem Opens.works {path : String} {n : Nat} {l : Location} {node : Node} {d : Disk}
    (h : Opens b path n l node d) (node' : Node) :
    Works home stray b (b.withOpened path n (b.disk.put l node')) := by
  refine .of_spared (.inl rfl) (workFolder_track b path) (Nat.le_succ_of_le h.drawn)
    (fun _ hp => (mem_track _ _ _).mpr (.inl hp)) rfl fun hStands _ => ?_
  exact spares_put_free h.around h.free (hStands.ne_nowhere h.place) node'

theorem openFile_works (lead ending : String) (asked : Option String) (b : Bench) :
    Works home stray b (endState (openFile lead ending asked b)) := by
  rcases openFile_cases lead ending asked b with
    ⟨path, n, l, d, hOpens, -, -, hEnd⟩ | ⟨e, n, hLater, hEnd⟩
  · rw [hEnd, hOpens.disk]
    exact hOpens.works _
  · rw [hEnd]
    exact drawn_works hLater

theorem openFolder_works (lead : String) (asked : Option String) (b : Bench) :
    Works home stray b (endState (openFolder lead asked b)) := by
  rcases openFolder_cases lead asked b with
    ⟨path, n, l, d, hOpens, -, hEnd⟩ | ⟨e, n, hLater, hEnd⟩
  · rw [hEnd, hOpens.disk]
    exact hOpens.works _
  · rw [hEnd]
    exact drawn_works hLater

/-- The bench after folders were made, whether all of them could be or not. -/
theorem endState_makeFolders (p : FilePath) (b : Bench) :
    endState (makeFolders p b) = { b with disk := (b.disk.makeFolders b.current p).2 } := by
  rw [makeFolders]
  split <;> simp only [endState, *]

theorem makeFolders_works (p : FilePath) (b : Bench) :
    Works home stray b (endState (makeFolders p b)) := by
  rw [endState_makeFolders]
  exact .of_spared (.inl rfl) rfl (Nat.le_refl _) (fun _ h => h) rfl
    fun hStands _ => hStands.makeFolders p

/-- A removal may take the current folder away. -/
theorem current_afterRemoval (b : Bench) (d : Disk) :
    (b.afterRemoval d).current = b.current ∨ (b.afterRemoval d).current = nowhere := by
  rw [afterRemoval]
  dsimp only
  split
  · exact .inl rfl
  · exact .inr rfl

/-- A folder that is cleared must be at a registered path. -/
theorem clearFolder_works {path : String}
    (hTaken : ∀ m, isBelow (resolve home path) m = true → AtRegistered home b.registry m) :
    Works home stray b (b.afterRemoval (b.disk.clearFolder b.current path)) := by
  exact .of_spared (current_afterRemoval b _) rfl (Nat.le_refl _) (fun _ h => h) rfl
    fun hStands _ => hStands.clearFolder path hTaken

/-! ## Documents and main components -/

theorem changeDisk_cases (change : Bench → Except DiskFault Disk) (b : Bench) :
    (∃ d, change b = .ok d ∧ endState (changeDisk change b) = { b with disk := d }) ∨
      endState (changeDisk change b) = b := by
  rw [changeDisk]
  cases hChange : change b with
  | ok d => exact .inl ⟨d, rfl, rfl⟩
  | error fault => exact .inr rfl

theorem store_cases (path : String) (text : Except Error String) (b : Bench) :
    (∃ bytes d, b.disk.writeFile b.current path bytes = .ok d ∧
      endState (store path text b) = { b with disk := d }) ∨ endState (store path text b) = b := by
  cases hBytes : text >>= storedBytes with
  | error e =>
      rw [store_of_error hBytes]
      exact .inr rfl
  | ok bytes =>
      rw [store_of_bytes hBytes]
      refine (changeDisk_cases _ b).imp_left ?_
      rintro ⟨d, hWritten, hEnd⟩
      exact ⟨bytes, d, hWritten, hEnd⟩

/-- The file beside a document is written, or not, and moved into its place, or not. -/
theorem fileBeside_cases (temporary target : String) (text : Except Error String) (b : Bench) :
    ∃ d₁ d₂, endState ((do store temporary text; moveInto temporary target : Action Unit) b) =
        { b with disk := d₂ } ∧
      (d₁ = b.disk ∨ ∃ bytes, b.disk.writeFile b.current temporary bytes = .ok d₁) ∧
      (d₂ = d₁ ∨ d₁.replaceFile b.current (resolve [] temporary) target = .ok d₂) := by
  have hStore := store_cases temporary text b
  cases hEnd : store temporary text b with
  | error e b₁ =>
      rw [hEnd] at hStore
      rw [bind_error hEnd]
      rcases hStore with ⟨bytes, d₁, hWritten, hDisk⟩ | hSame
      · exact ⟨d₁, d₁, hDisk, .inr ⟨bytes, hWritten⟩, .inl rfl⟩
      · exact ⟨b.disk, b.disk, hSame, .inl rfl, .inl rfl⟩
  | ok _ b₁ =>
      rw [hEnd] at hStore
      rw [bind_ok hEnd, moveInto]
      obtain ⟨d₁, rfl, hWritten⟩ : ∃ d₁, b₁ = { b with disk := d₁ } ∧
          (d₁ = b.disk ∨ ∃ bytes, b.disk.writeFile b.current temporary bytes = .ok d₁) := by
        rcases hStore with ⟨bytes, d₁, hWritten, hDisk⟩ | hSame
        · exact ⟨d₁, hDisk, .inr ⟨bytes, hWritten⟩⟩
        · exact ⟨b.disk, hSame, .inl rfl⟩
      rcases changeDisk_cases (fun b => b.disk.replaceFile b.current (resolve [] temporary) target)
          { b with disk := d₁ } with ⟨d₂, hReplaced, hDisk⟩ | hSame
      · exact ⟨d₁, d₂, hDisk, hWritten, .inr hReplaced⟩
      · exact ⟨d₁, d₁, hSame, hWritten, .inl rfl⟩

/-- When that file is removed again, nothing but the document has been changed. -/
theorem fileBeside_spares {temporary target : String} {n : Nat} {l : Location} {d d₁ d₂ : Disk}
    (hStands : Stands home b.current b.disk)
    (hTree : b.disk.IsTree) (hOpens : Opens b temporary n l (.file []) d)
    (hAbsolute : isAbsolute temporary = true) (hTarget : E (resolve home target))
    (hWritten : d₁ = d ∨ ∃ bytes, d.writeFile b.current temporary bytes = .ok d₁)
    (hMoved : d₂ = d₁ ∨ d₁.replaceFile b.current (resolve [] temporary) target = .ok d₂) :
    Spares E W b.disk (d₂.discard b.current temporary).2 := by
  have hHere : l = resolve home temporary := (hStands.located hOpens.place).1
  have hAlso : resolve [] temporary = l := by
    rw [resolve_absolute hAbsolute [] home, hHere]
  have hPut : Spares (fun m => E m ∨ isBelow l m = true) W b.disk d := by
    rw [hOpens.disk]
    exact spares_put_free hOpens.around hOpens.free (hStands.ne_nowhere hOpens.place) _
  obtain ⟨hStored, hNotFolder⟩ : Spares (fun m => E m ∨ isBelow l m = true) W b.disk d₁ ∧
      d₁.get? l ≠ some .folder := by
    rcases hWritten with rfl | ⟨bytes, hWritten⟩
    · refine ⟨hPut, ?_⟩
      rw [hOpens.disk, get?_put_self _ hOpens.inside]
      exact fun h => nomatch h
    · refine ⟨hPut.trans ((hStands.mono hPut).writeFile hWritten (.inl (.inr ?_))), ?_⟩
      · rw [← hHere]
        exact isBelow_self l
      · obtain ⟨-, -, rfl⟩ := writeFile_eq_ok hWritten
        rw [resolve_absolute hAbsolute _ [], hAlso, get?_put_self _ hOpens.inside]
        exact fun h => nomatch h
  have hDone : Spares (fun m => E m ∨ isBelow l m = true) W b.disk d₂ := by
    rcases hMoved with rfl | hMoved
    · exact hStored
    · rw [hAlso] at hMoved
      exact hStored.trans ((hStands.mono hStored).replaceFile hMoved hNotFolder
        (.inr (isBelow_self l)) (.inl hTarget))
  refine Spares.of_free (hDone.trans ?_) hTree hOpens.free
  refine (hStands.mono hDone).discard temporary fun m hm => .inr ?_
  rwa [hHere]

/-- A document is written to a place that is at a registered path. -/
theorem writeDocument_works {path : String} (data indent : Value) (b : Bench)
    (hTarget : AtRegistered home b.registry (resolve home (FilePath.ofString path).text)) :
    Works home stray b (endState (writeDocument path data indent b)) := by
  rw [writeDocument]
  have hFolder : Works home stray b
      (endState (ensureFolder (FilePath.ofString path).parent.text b)) :=
    ((Works.preserves (makeFolders_works _) b).bind fun _ => preserves_pure _) b (.refl _ _ b)
  refine endState_bind (fun e b₁ hFails => ?_) fun _ b₁ hMade => ?_
  · rwa [hFails] at hFolder
  rw [hMade] at hFolder
  refine hFolder.trans ?_
  rcases openBeside_cases (FilePath.ofString path) b₁ with
    ⟨temporary, n, l, d, hOpens, hAbsolute, hEnd⟩ | ⟨e, n, hLater, hEnd⟩
  swap
  · rw [bind_error hEnd]
    exact drawn_works hLater
  rw [bind_ok hEnd, endState_ensuring]
  obtain ⟨d₁, d₂, hInner, hWritten, hMoved⟩ := fileBeside_cases temporary
    (FilePath.ofString path).text (Json.documentText indent data)
    { b₁ with disk := d, namesDrawn := n + 1 }
  rw [hInner]
  refine .of_spared (.inl rfl) rfl (Nat.le_succ_of_le hOpens.drawn) (fun _ h => h) rfl
    fun hStands hTree => ?_
  exact fileBeside_spares hStands hTree hOpens hAbsolute
    (atRegistered_mono hFolder.registered hTarget) hWritten hMoved

/-- The file of a main component is put to a free place. -/
theorem writeMain_works (config : Value) (r : MainRequest) (b : Bench) :
    Works home stray b (endState (writeMain config r b)) := by
  rcases writeMain_cases config r b with
    ⟨fields, path, n, l, b', -, hWritten, hEnd⟩ | ⟨e, fields, path, n, l, d, -, -, hOpens, -, hEnd⟩ |
    ⟨e, n, hLater, hEnd⟩
  · obtain ⟨text, bytes, -, -, rfl⟩ := hWritten.stored
    obtain ⟨d, hOpens⟩ := hWritten.opens
    rw [hEnd]
    exact hOpens.works _
  · rw [hEnd, hOpens.disk]
    exact hOpens.works _
  · rw [hEnd]
    exact drawn_works hLater

/-! ## Runs -/

/-- A run that puts the compiler to its proper use makes artifacts. -/
theorem compilerRun_works {program : Program} {arguments : List String} {o : Outcome}
    (hOption : argumentAfter? "-o" arguments ≠ none)
    (h : run program arguments none b = .ok o b₁) : Works home stray b b₁ := by
  obtain ⟨path, -, hStart⟩ := run_eq_ok h
  obtain ⟨tool, folder, hFolder, -, -, rfl⟩ := start_eq_ok hStart
  cases hFolder
  refine ⟨.inl rfl, rfl, Nat.le_refl _, fun _ h => h, [b.nextRun tool b.current arguments], rfl,
    fun hProper hStands _ => ?_⟩
  have hTool : tool = .circom := hProper _ List.mem_cons_self hOption
  refine Stands.run (r := b.nextRun tool b.current arguments) hStands
    fun p bytes l hMem hHere hHome => .inr (.inl ⟨_, List.mem_cons_self, hTool, ?_, p, hMem, hHome⟩)
  rcases Tool.file_of_isTold ((nextRun_isOf b tool b.current arguments).isTold hMem) with
    ⟨-, m, hFound, hBelow⟩ | ⟨hNode, -⟩
  · obtain ⟨output, hOutput, hStatus⟩ := Occasion.outputFolder?_eq_some hFound
    refine ⟨output, hOutput, ?_⟩
    rw [← (hStands.status hStatus).1, hHere]
    exact hBelow
  · cases hTool.symm.trans hNode

/-- A run of a witness program writes into the work folder if that has an absolute path, or else into
a folder with the name of the work folder, wherever its path leads from the folder that the program is
run in. -/
theorem generatorRun_works {c : Circuit} {node : Program} {work folder lead : String} {n : Nat}
    {asked : String} {o : Outcome} (hName : work = join folder (lead ++ token n))
    (hSlash : '/' ∉ lead.toList) (hMem : work ∈ b.registry.paths)
    (hStray : isAbsolute folder = false → ∀ l, InUndrawn n l → stray l)
    (h : run node (Session.generatorArguments c work) (some asked) b = .ok o b₁) :
    Works home stray b b₁ := by
  obtain ⟨path, -, hStart⟩ := run_eq_ok h
  obtain ⟨tool, started, hFolder, -, -, rfl⟩ := start_eq_ok hStart
  refine ⟨.inl rfl, rfl, Nat.le_refl _, fun _ h => h,
    [b.nextRun tool started (Session.generatorArguments c work)], rfl, fun _ hStands _ => ?_⟩
  have hThere : Stands started started b.disk := by
    rw [startFolder] at hFolder
    split at hFolder
    · rename_i hStatus
      cases hFolder
      exact ⟨.inr (hStands.status hStatus).2.1, .inl rfl, hStands.nothing⟩
    · cases hFolder
    · cases hFolder
  have hPlace : AtRegistered home b.registry (resolve started (Session.witnessFile work).text) ∨
      stray (resolve started (Session.witnessFile work).text) := by
    rw [Session.witnessFile, FilePath.resolve_child started work ⟨by decide, by decide, by decide⟩
      (by decide)]
    cases hAbsolute : isAbsolute folder with
    | true =>
        have hSame : resolve started work = resolve home work := by
          rw [hName]
          exact resolve_absolute (isAbsolute_join hAbsolute) _ _
        exact .inl ⟨work, hMem, hSame ▸ isBelow_append _ _⟩
    | false =>
        refine .inr (hStray hAbsolute _ ⟨resolve started folder, lead ++ token n, "witness.wtns",
          ?_, lead, n, Nat.le_refl n, rfl⟩)
        rw [hName, AfterRuns.resolve_join_token _ _ hSlash]
  refine Stands.run (r := b.nextRun tool started (Session.generatorArguments c work)) hThere
    fun p bytes l hDeed hHere _ => ?_
  -- no other file can have been told than the one that the fourth argument names
  obtain ⟨-, p', bytes', hSame, hArgument⟩ := Tool.node_of_isTold
    (Session.generatorArguments_no_output c work) ((nextRun_isOf b tool started _).isTold hDeed)
  cases hSame
  cases hArgument
  rw [hHere]
  exact hPlace.imp_right .inr

/-! ## Building -/

/-- The compiler is told of some output folder. -/
theorem outputOption_compilerArguments {source output : String} {options : Table}
    {arguments : List String} (h : compilerArguments source output options = .ok arguments) :
    argumentAfter? "-o" arguments ≠ none := by
  rw [compilerArguments] at h
  obtain ⟨folders, -, h⟩ := except_bind_eq_ok h
  obtain ⟨items, -, h⟩ := except_bind_eq_ok h
  obtain ⟨includes, -, h⟩ := except_bind_eq_ok h
  obtain ⟨prime, -, h⟩ := except_bind_eq_ok h
  obtain ⟨simplification, -, h⟩ := except_bind_eq_ok h
  obtain ⟨json, -, h⟩ := except_bind_eq_ok h
  cases h
  by_cases hSource : source = "-o" <;> simp [argumentAfter?, hSource]

theorem compile_works (source output : String) (options : Table) (b : Bench) :
    Works home stray b (endState (compile source output options b)) := by
  have hNone := Works.refl home stray b
  rw [compile]
  refine endState_requireProgram_bind hNone fun circom _ => ?_
  refine endState_attempt_bind hNone fun arguments hGiven => ?_
  refine endState_bind (fun e b₂ hFails => ?_) fun o b₂ hRun => ?_
  · rwa [run_eq_error hFails]
  have hOption := outputOption_compilerArguments hGiven
  have hReport : Preserves (Works home stray b) (reportCompilation options o) := by
    refine (preserves_attempt _).bind fun verbose => ?_
    refine Preserves.ite ?_ (preserves_pure _)
    exact Preserves.ite (preserves_pure _) (Works.preserves (inform_works _ _) b)
  have hJudge : Preserves (Works home stray b) (judgeCompilation source o) :=
    Preserves.ite (preserves_pure _) (preserves_throw _)
  exact (hReport.bind fun _ => hJudge) b₂ (compilerRun_works hOption hRun)

theorem outputFolder_works (options : Table) (b : Bench) :
    Works home stray b (endState (outputFolder options b)) := by
  have hPreserves : Preserves (Works home stray b) (outputFolder options) := by
    refine (preserves_attempt _).bind fun given => ?_
    refine Preserves.ite ?_ ?_
    · exact (preserves_attempt _).bind fun path => preserves_pure _
    · exact (Works.preserves (openFolder_works _ _) b).bind fun path => preserves_pure _
  exact hPreserves b (.refl _ _ b)

/-- What a build does behind the choice of its folder. -/
theorem buildInto_works (options : Table) (source output : String) (owned : Bool) (b : Bench) :
    Preserves (Works home stray b) (do
      if ← canReuse options (Circuit.ofPaths source output (.table options) owned) then
        inform buildLogger ("reusing compiled artifacts in " ++ output)
      else
        compile source output options
      return Circuit.ofPaths source output (.table options) owned) := by
  refine (preserves_canReuse _ _).bind fun reuse => ?_
  refine Preserves.ite ?_ ?_
  · exact (Works.preserves (inform_works _ _) b).bind fun _ => preserves_pure _
  · exact (Works.preserves (compile_works _ _ _) b).bind fun _ => preserves_pure _

theorem build_works (config : Value) (source : String) (overrides : Value) (b : Bench) :
    Works home stray b (endState (build config source overrides b)) := by
  have hPreserves : Preserves (Works home stray b) (build config source overrides) := by
    refine (preserves_attempt _).bind fun options => ?_
    refine (Works.preserves (outputFolder_works options) b).bind fun ⟨output, owned⟩ => ?_
    refine (Works.preserves (makeFolders_works _) b).bind fun _ => ?_
    exact buildInto_works options source output owned b
  exact hPreserves b (.refl _ _ b)

/-- What is held of the folder of a circuit, where some places may be taken away: a folder of its own
is one of them, with all that lies below, and any other folder is there unless it is one of them. -/
structure Held (home : Location) (E : Location → Prop) (c : Circuit) (d : Disk) : Prop where
  owned : c.ownsOutput = true → ∀ l, isBelow (resolve home c.folder.text) l = true → E l
  given : c.ownsOutput = false → E (resolve home c.folder.text) ∨
    d.get? (resolve home c.folder.text) = some .folder

theorem Held.spares {c : Circuit} {d d' : Disk} (h : Held home E c d)
    (hMore : ∀ l, E l → E' l) (hSpared : Spares E' W d d') : Held home E' c d' := by
  refine ⟨fun hOwned l hl => hMore l (h.owned hOwned l hl), fun hGiven => ?_⟩
  refine Classical.or_iff_not_imp_left.mpr fun hOut => ?_
  refine hSpared.folders _ hOut ((h.given hGiven).resolve_left ?_)
  exact fun hIn => hOut (hMore _ hIn)

/-- The folder of a build belongs to the circuit alone only if it is a fresh one. -/
theorem outputFolder_owned {options : Table} {output : String}
    (h : outputFolder options b = .ok (output, true) b₁) :
    output ∈ b₁.registry.paths ∧ (FilePath.ofString output).parts ≠ [] := by
  rw [outputFolder] at h
  obtain ⟨given, b₀, hGiven, h⟩ := bind_eq_ok h
  obtain ⟨-, rfl⟩ := attempt_eq_ok hGiven
  split at h
  · obtain ⟨path, b₂, -, h⟩ := bind_eq_ok h
    cases (pure_eq_ok h).1
  · obtain ⟨path, b₂, hOpened, h⟩ := bind_eq_ok h
    obtain ⟨hSame, rfl⟩ := pure_eq_ok h
    cases hSame
    rcases openFolder_cases "circom_" none b with
      ⟨path', n, l, d, -, hPath, hEnd⟩ | ⟨e, n, -, hEnd⟩
    · cases hOpened.symm.trans hEnd
      refine ⟨(mem_track _ _ _).mpr (.inr rfl), ?_⟩
      rw [hPath]
      exact FilePath.parts_ofString_join _ (AfterRuns.isPlain_append_token n)
        (slash_not_mem_append (by decide) (slash_not_mem_token n))
    · cases hOpened.symm.trans hEnd

/-- The folder that a circuit was built in is a temporary one that is registered, or it was made if it
was not there. -/
theorem build_held {config overrides : Value} {source : String} {c : Circuit}
    (h : build config source overrides b = .ok c b₁) : '/' ∉ c.name.toList ∧
    ∃ made, b₁.runs = b.runs ++ made ∧ ((∀ r ∈ made, r.IsProper) →
      Stands home b.current b.disk → b.disk.IsTree →
        Held home (AtRegistered home b₁.registry) c b₁.disk) := by
  rw [build] at h
  obtain ⟨options, b₀, hOptions, h⟩ := bind_eq_ok h
  obtain ⟨-, rfl⟩ := attempt_eq_ok hOptions
  obtain ⟨⟨output, owned⟩, b₂, hOutput, h⟩ := bind_eq_ok h
  obtain ⟨_, b₃, hFolders, h⟩ := bind_eq_ok h
  have hChosen : Works home (fun _ => False) b b₂ :=
    (Works.preserves (outputFolder_works options) b).of_ok hOutput (.refl _ _ _)
  have hMade : Works home (fun _ => False) b₂ b₃ :=
    (Works.preserves (makeFolders_works _) b₂).of_ok hFolders (.refl _ _ _)
  have hBuilt : Works home (fun _ => False) b₃ b₁ :=
    (buildInto_works options source output owned b₃).of_ok h (.refl _ _ _)
  obtain rfl := ofPaths_of_buildInto h
  obtain ⟨made, hRuns, hBefore⟩ := (hChosen.trans hMade).spares
  obtain ⟨made', hRuns', hAfter⟩ := hBuilt.spares
  refine ⟨FilePath.slash_not_mem_stem source, made ++ made',
    by rw [hRuns', hRuns, List.append_assoc], fun hProper hStands hTree => ⟨?_, fun _ => ?_⟩⟩
  · rintro rfl l hl
    obtain ⟨hMem, hNonempty⟩ := outputFolder_owned hOutput
    refine ⟨output, hBuilt.registered _ (hMade.registered _ hMem), ?_⟩
    have hSpelled := FilePath.spelled_ofString output
    rwa [FilePath.resolve_ofString, ← FilePath.resolve_text home hSpelled hNonempty]
  · obtain ⟨hFirst, hSecond⟩ := List.forall_mem_append.mp hProper
    have hSpared := hBefore hFirst hStands hTree
    have hStands₃ := stands_of_spares hStands (hChosen.trans hMade).current hSpared
    have hSpared' := hAfter hSecond hStands₃ (hSpared.tree hTree)
    have hDisk : (b₂.disk.makeFolders b₂.current (FilePath.ofString output)) = (.ok (), b₃.disk) ∧
        b₃.current = b₂.current := by
      rw [makeFolders] at hFolders
      split at hFolders
      · rename_i hEnd
        cases hFolders
        exact ⟨hEnd, rfl⟩
      · cases hFolders
    obtain ⟨place, hPlace, hFolder⟩ := folder_of_makeFolders hDisk.1
    rw [← hDisk.2] at hPlace
    rw [(hStands₃.located hPlace).1] at hFolder
    exact Classical.or_iff_not_imp_left.mpr fun hOut => hSpared'.folders _ hOut hFolder

/-! ## Witnesses -/

/-- What is generated in a work folder that is registered. -/
theorem generate_works {c : Circuit} {node : Program} {work folder lead : String} {n : Nat}
    (prime : Int) (inputs : Value) (hName : work = join folder (lead ++ token n))
    (hSlash : '/' ∉ lead.toList) (hMem : work ∈ b.registry.paths)
    (hStray : isAbsolute folder = false → ∀ l, InUndrawn n l → stray l) :
    Works home stray b (endState (Session.generate c node work prime inputs b)) := by
  have hNone := Works.refl home stray b
  rw [Session.generate]
  refine endState_attempt_bind hNone fun document _ => ?_
  have hInput : AtRegistered home b.registry
      (resolve home (FilePath.ofString (Session.inputFile work).text).text) := by
    refine ⟨work, hMem, ?_⟩
    rw [Session.ofString_inputFile, Session.inputFile, FilePath.resolve_child home work
      ⟨by decide, by decide, by decide⟩ (by decide)]
    exact isBelow_append _ _
  have hWritten : Works home stray b
      (endState (writeDocument (Session.inputFile work).text document documentIndent b)) :=
    writeDocument_works document documentIndent b hInput
  refine endState_bind (fun e b₂ hFails => ?_) fun _ b₂ hWrite => ?_
  · rwa [hFails] at hWritten
  rw [hWrite] at hWritten
  refine endState_bind (fun e b₃ hFails => ?_) fun o b₃ hRun => ?_
  · rwa [run_eq_error hFails]
  exact Session.preserves_afterRun c work o b₃
    (hWritten.trans (generatorRun_works hName hSlash (hWritten.registered work hMem) hStray hRun))

/-- A witness is computed in a work folder of its own, which is cleared if that goes well. -/
theorem computeWitness_works {c : Circuit} (hSlash : '/' ∉ c.name.toList) (prime : Int)
    (inputs : Value) (hStray : ∀ l, b.IsStray l → stray l) :
    Works home stray b (endState (Session.computeWitness c prime inputs b)) := by
  have hNone := Works.refl home stray b
  rw [Session.computeWitness]
  refine endState_attempt_bind hNone fun options _ => ?_
  refine endState_requireProgram_bind hNone fun node _ => ?_
  rcases openFolder_cases (c.name ++ "_wtns_") none b with
    ⟨work, n, l, d, hOpens, hPath, hEnd⟩ | ⟨e, n, hLater, hEnd⟩
  swap
  · rw [bind_error hEnd]
    exact drawn_works hLater
  rw [bind_ok hEnd]
  have hOpened : Works home stray b (b.withOpened work n d) := by
    rw [hOpens.disk]
    exact hOpens.works _
  have hMem : work ∈ (b.withOpened work n d).registry.paths := (mem_track _ _ _).mpr (.inr rfl)
  have hGenerated : Works home stray (b.withOpened work n d)
      (endState (Session.generate c node work prime inputs (b.withOpened work n d))) :=
    generate_works prime inputs hPath (slash_not_mem_append hSlash (by decide)) hMem
      fun hRelative l hl => hStray l ⟨hRelative, inUndrawn_mono hOpens.drawn hl⟩
  refine endState_bind (fun e b₂ hFails => ?_) fun values b₂ hValues => ?_
  · rw [hFails] at hGenerated
    exact hOpened.trans hGenerated
  rw [hValues] at hGenerated
  have hStill : work ∈ b₂.registry.paths := hGenerated.registered work hMem
  exact (hOpened.trans hGenerated).trans (clearFolder_works fun m hm => ⟨work, hStill, hm⟩)

/-- So it is with all the work on a witness. -/
theorem calculateWitness_works {s : Session} (hSlash : '/' ∉ s.circuit.name.toList)
    (inputs : Value) (strict : Bool) (hStray : ∀ l, s.bench.IsStray l → stray l) :
    Works home stray s.bench (endState (Session.calculateWitness inputs strict s)).bench :=
  Session.calculateWitness_end inputs strict (.refl home stray s.bench)
    fun _ _ _ _ _ => computeWitness_works hSlash _ _ hStray

end Work

end CircuitBench.Bench
