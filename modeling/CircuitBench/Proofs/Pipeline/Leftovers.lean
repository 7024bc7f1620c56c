import CircuitBench.Proofs.Bench.Added
import CircuitBench.Proofs.Circuit.Command
import CircuitBench.Proofs.Pipeline.Soundness

/-!
# What a pipeline leaves on the disk

A pipeline makes temporary paths at four places: for the main component, for the output folder if no
other one is asked for, for the work on a witness, and beside a document.  The last is gone when the
document is written; the others are registered as soon as they are made.  All that is added to the
disk lies below one of them, or else where the output was asked for.  This holds at every moment, so
it holds at every end, and a private registry that is cleaned up at the end takes all of it away.

An output folder that was asked for is made with those around it, and these stay: a folder that is
made on the way need not lie around the output folder at all, as the path may climb.

Two things are taken for granted.  Names that are drawn are fresh: no folder has such a name, nor
does one that is asked for.  And programs write where they are told to write, which means that only
the compiler is run with an output folder.

## Main results

* `Underway` : the bench in the middle of a pipeline.
* `Settled` : the bench when the work on a witness is over.
* `synthesize_built` : what a build leaves behind, whatever its end.
* `Bench.runPipeline_leaves` : what is left of a pipeline.
-/

namespace CircuitBench

open CircuitBench.Path Disk Registry

/-! ## What is asked for -/

/-- The options of the caller, of which there may be none. -/
def PipelineRequest.overrides (r : PipelineRequest) : Value :=
  match r.buildOptions with
  | .null => .table []
  | options => options

/-- Whether a request asks for a circuit to be built into a folder. -/
def PipelineRequest.AsksFor (r : PipelineRequest) (output : String) : Prop :=
  ∃ config options, Bench.pipelineConfig r.config = .ok config ∧
    Settings.resolve (.table config) r.overrides = .ok options ∧
    (options.getD "output" .null).truth = .ok true ∧
    (options.getD "output" .null).plainText = .ok output

/-- Whether a place lies below an output folder that is asked for. -/
def PipelineRequest.Requests (r : PipelineRequest) (current l : Location) : Prop :=
  ∃ output, r.AsksFor output ∧ isBelow (resolve current output) l = true

/-- Whether a place lies on the way to an output folder that is asked for. -/
def PipelineRequest.PassesBy (r : PipelineRequest) (current l : Location) : Prop :=
  ∃ output, r.AsksFor output ∧ OnTheWay current output l

/-- Whether the names that are drawn at a bench are fresh: no folder has such a name, and no name of
an output folder that is asked for is one. -/
structure PipelineRequest.FreshAt (r : PipelineRequest) (b : Bench) : Prop where
  disk : ∀ around name, b.disk.get? (around ++ [name]) = some .folder →
    ¬ IsUndrawn b.namesDrawn name
  output : ∀ output, r.AsksFor output → ∀ name ∈ names output, ¬ IsUndrawn b.namesDrawn name

namespace Bench

variable {start : Bench} {S W : Location → Prop} {done : List ToolRun}

/-! ## Underway -/

/-- Whether something that is added at a place is accounted for: it may be there anyway, or lies
below a registered path. -/
def Accounted (start : Bench) (S : Location → Prop) (r : Registry) (l : Location) : Prop :=
  S l ∨ ∃ p ∈ r.paths, isBelow (resolve start.current p) l = true

theorem Accounted.track {r : Registry} {l : Location} (h : Accounted start S r l) (path : String) :
    Accounted start S (r.track path) l := by
  rcases h with hAnyway | ⟨p, hMem, hBelow⟩
  · exact .inl hAnyway
  · exact .inr ⟨p, (mem_track r path p).mpr (.inl hMem), hBelow⟩

/-- Whether it is known why there is something at a place of a disk: it was there before, or is
accounted for, or is a folder on the way to somewhere. -/
def Explained (start : Bench) (S W : Location → Prop) (r : Registry) (d : Disk) (l : Location) :
    Prop :=
  start.disk.get? l ≠ none ∨ Accounted start S r l ∨ d.get? l = some .folder ∧ W l

namespace Explained

variable {r : Registry} {d d' : Disk} {l : Location}

theorem mono (h : Explained start S W r d l)
    (hKept : d.get? l = some .folder → d'.get? l = some .folder) : Explained start S W r d' l :=
  h.imp_right fun hNew => hNew.imp_right fun hFolder => ⟨hKept hFolder.1, hFolder.2⟩

theorem track (h : Explained start S W r d l) (path : String) :
    Explained start S W (r.track path) d l :=
  h.imp_right fun hNew => hNew.imp_left fun hKnown => hKnown.track path

end Explained

/-- The bench in the middle of a pipeline, after some runs: all that is there is explained, no
folder has a name that is still to be drawn, and the registry, if it was empty, holds what was
opened, in order. -/
structure Underway (start : Bench) (S W : Location → Prop) (done : List ToolRun) (b : Bench) :
    Prop where
  after : AfterRuns start done IsTree b
  drawn : start.namesDrawn ≤ b.namesDrawn
  added : ∀ l, b.disk.get? l ≠ none → Explained start S W b.registry b.disk l
  fresh : ∀ around name, b.disk.get? (around ++ [name]) = some .folder →
    ¬ IsUndrawn b.namesDrawn name
  opened : start.registry.paths = [] → Opened start.current b.registry.paths.reverse b.disk

namespace Underway

variable {b b' : Bench} {A F : Location → Prop}

/-- What work adds must be accounted for, and a folder must not take a name that is still to be
drawn. -/
theorem adds (h : Underway start S W done b) (hAdds : Adds A F b b') {done' : List ToolRun}
    (hRuns : b'.runs = start.runs ++ done')
    (hA : ∀ l, A l → Accounted start S b.registry l)
    (hF : ∀ around name, F (around ++ [name]) → ¬ IsUndrawn b.namesDrawn name) :
    Underway start S W done' b' := by
  refine ⟨⟨hAdds.toolbox.trans h.after.toolbox, hAdds.current.trans h.after.current, hRuns,
      hAdds.disk.tree h.after.disk⟩,
    Nat.le_trans h.drawn hAdds.drawn, fun l hl => ?_, fun around name hFolder => ?_,
    fun hNone => ?_⟩
  · rw [hAdds.registry]
    rcases hAdds.disk.added l hl with hBefore | hNew
    · exact (h.added l hBefore).mono (hAdds.disk.kept l)
    · exact .inr (.inl (hA l hNew))
  · refine fun hUndrawn => ?_
    rcases hAdds.disk.made _ hFolder with hBefore | hNew
    · exact h.fresh around name hBefore (hUndrawn.mono hAdds.drawn)
    · exact hF around name hNew (hUndrawn.mono hAdds.drawn)
  · rw [hAdds.registry]
    exact (h.opened hNone).mono hAdds.disk.kept

/-- Names may be drawn. -/
theorem draw (h : Underway start S W done b) {n : Nat} (hLater : b.namesDrawn ≤ n) :
    Underway start S W done { b with namesDrawn := n } := by
  have hAdds : Adds (fun _ => False) (fun _ => False) b { b with namesDrawn := n } :=
    ⟨rfl, rfl, rfl, hLater, GrowsTo.refl _ _ b.disk⟩
  exact h.adds hAdds h.after.runs (fun _ h => h.elim) fun _ _ h => h.elim

/-- A path that is opened is registered, and a folder has the name that was drawn for it. -/
theorem opens (h : Underway start S W done b) {path : String} {n : Nat} {l : Location} {node : Node}
    {d : Disk} (hOpens : Opens b path n l node d)
    (hName : node = .folder → ∃ around lead, l = around ++ [lead ++ token n]) :
    Underway start S W done (b.withOpened path n d) := by
  have hPlace : l = resolve start.current path := by
    rw [← h.after.current]
    exact locate_eq_ok hOpens.place
  have hDisk := hOpens.growsTo
  refine ⟨⟨h.after.toolbox, h.after.current, h.after.runs, hDisk.tree h.after.disk⟩,
    Nat.le_succ_of_le (Nat.le_trans h.drawn hOpens.drawn), fun m hm => ?_,
    fun around name hFolder => ?_, fun hNone => ?_⟩
  · rcases hDisk.added m hm with hBefore | rfl
    · exact ((h.added m hBefore).track path).mono (hDisk.kept m)
    · refine .inr (.inl (.inr ⟨path, (mem_track _ path path).mpr (.inr rfl), ?_⟩))
      rw [hPlace]
      exact isBelow_self _
  · rcases hDisk.made _ hFolder with hBefore | ⟨hNew, hNode⟩
    · intro hUndrawn
      exact h.fresh around name hBefore (hUndrawn.mono (Nat.le_succ_of_le hOpens.drawn))
    · obtain ⟨around', lead, hLast⟩ := hName hNode
      have hSame := List.singleton_inj.mp (List.append_inj' (hNew.trans hLast) rfl).2
      rw [hSame]
      exact not_isUndrawn_append_token lead (Nat.lt_succ_self n)
  · have hFound := hOpens.place
    rw [h.after.current] at hFound
    exact (h.opened hNone).track h.after.disk hFound hOpens.free hDisk.kept

/-! ### Steps that run nothing -/

theorem inform (logger text : String) :
    Preserves (Underway start S W done) (Bench.inform logger text) :=
  preserves_modify fun b h =>
    ⟨AfterRuns.inform logger text b h.after, h.drawn, h.added, h.fresh, h.opened⟩

theorem announce (r : PipelineRequest) :
    Preserves (Underway start S W done) (Bench.announce r) := by
  refine Preserves.ite (preserves_pure _) ?_
  refine (preserves_attempt _).bind fun template => (preserves_attempt _).bind fun file => ?_
  exact preserves_modify fun b h =>
    ⟨AfterRuns.print _ b h.after, h.drawn, h.added, h.fresh, h.opened⟩

/-- A text may be stored at a registered path. -/
theorem store (h : Underway start S W done b) {path : String} (hMem : path ∈ b.registry.paths)
    (text : Except Error String) :
    Underway start S W done (endState (Bench.store path text b)) := by
  have hKept : Preserves (AfterRuns start done IsTree) (Bench.store path text) :=
    AfterRuns.store (fun hTree hWritten => hTree.writeFile hWritten) text
  have hAfter := hKept b h.after
  refine h.adds (store_adds (F := fun _ => False) path text b) hAfter.runs ?_
    fun _ _ hNone => hNone.elim
  rintro l rfl
  refine .inr ⟨path, hMem, ?_⟩
  rw [h.after.current]
  exact isBelow_self _

/-- A main component is written to a registered path. -/
theorem writeMain (h : Underway start S W done b) (config : Value) (r : MainRequest) :
    Underway start S W done (endState (Bench.writeMain config r b)) := by
  rw [Bench.writeMain]
  refine endState_attempt_bind h fun fields _ => endState_attempt_bind h fun around _ => ?_
  obtain ⟨lead, ending⟩ := around
  dsimp only
  rcases openFile_cases lead ending none b with
    ⟨path, n, l, d, hOpens, -, -, hEnd⟩ | ⟨e, n, hLater, hEnd⟩
  swap
  · rw [bind_error hEnd]
    exact h.draw hLater
  rw [bind_ok hEnd]
  have hOpened := h.opens hOpens (by rintro ⟨⟩)
  have hMem : path ∈ (b.withOpened path n d).registry.paths :=
    (mem_track _ path path).mpr (.inr rfl)
  have hStored := hOpened.store hMem
    (mainSource fields (b.withOpened path n d).current path r)
  have hGet : (get : Action Bench) (b.withOpened path n d) = .ok _ _ := rfl
  rw [bind_ok hGet]
  refine endState_bind (fun e b₁ hFails => ?_) fun _ b₁ hStore => ?_
  · rwa [hFails] at hStored
  · rwa [hStore] at hStored

end Underway

/-! ## Building -/

theorem isUndrawn_js {n : Nat} {lead : String} : ¬ IsUndrawn n (lead ++ "_js") := by
  intro hUndrawn
  obtain ⟨c, hLast, hDigit⟩ := hUndrawn.last
  have hEnd : (lead ++ "_js").toList.getLast? = some 's' := by simp
  rw [hEnd] at hLast
  cases hLast
  exact absurd hDigit (by decide)

/-- What a build has to know of its output folder: all that lies below is accounted for, and the
folder can be made. -/
structure Ready (start : Bench) (S W : Location → Prop) (done : List ToolRun) (output : String)
    (b : Bench) : Prop where
  below : ∀ l, isBelow (resolve start.current output) l = true →
    Accounted start S b.registry l
  made : Underway start S W done (endState (makeFolders (FilePath.ofString output) b))
  registry : (endState (makeFolders (FilePath.ofString output) b)).registry = b.registry

/-- An output folder that is asked for may be there, and so may the folders on the way. -/
theorem ready_of_asked {b : Bench} (h : Underway start S W done b) {output : String}
    (hBelow : ∀ l, isBelow (resolve start.current output) l = true → S l)
    (hWay : ∀ l, OnTheWay start.current output l → W l)
    (hNames : ∀ name ∈ names output, ¬ IsUndrawn start.namesDrawn name) :
    Ready start S W done output b := by
  have hMade := makeFolders_adds h.after.disk output
  have hAfter := AfterRuns.makeFolders (fun current => keptByFolders_isTree current)
    (FilePath.ofString output) b h.after
  refine ⟨fun l hl => .inl (hBelow l hl), ⟨hAfter, Nat.le_trans h.drawn hMade.drawn,
    fun l hl => ?_, fun around name hFolder hUndrawn => ?_, fun hNone => ?_⟩, hMade.registry⟩
  · rw [hMade.registry]
    rcases hMade.disk.added l hl with hBefore | hNew
    · exact (h.added l hBefore).mono (hMade.disk.kept l)
    · rw [h.after.current] at hNew
      rcases get?_makeFolders b (FilePath.ofString output) l with hSame | hFolder
      · rw [hSame] at hl
        exact (h.added l hl).mono (hMade.disk.kept l)
      · exact .inr (.inr ⟨hFolder, hWay l hNew⟩)
  · rcases hMade.disk.made _ hFolder with hBefore | ⟨-, around', name', hMem, hSame⟩
    · exact h.fresh around name hBefore (hUndrawn.mono hMade.drawn)
    · have hName := List.singleton_inj.mp (List.append_inj' hSame rfl).2
      rw [hName] at hUndrawn
      exact hNames name' hMem (hUndrawn.mono (Nat.le_trans h.drawn hMade.drawn))
  · rw [hMade.registry]
    exact (h.opened hNone).mono hMade.disk.kept

/-- A temporary output folder is there, and need not be made. -/
theorem ready_of_opened {b : Bench} (h : Underway start S W done b) {path : String} {n : Nat}
    {l : Location} {d : Disk} (hOpens : Opens b path n l .folder d)
    (hName : ∃ around lead, l = around ++ [lead ++ token n]) :
    Ready start S W done path (b.withOpened path n d) := by
  have hOpened := h.opens hOpens fun _ => hName
  have hMem : path ∈ (b.withOpened path n d).registry.paths :=
    (mem_track _ path path).mpr (.inr rfl)
  have hAfter := AfterRuns.makeFolders (fun current => keptByFolders_isTree current)
    (FilePath.ofString path) _ hOpened.after
  have hNothing : Adds (fun _ => False) (fun _ => False) (b.withOpened path n d)
      (endState (makeFolders (FilePath.ofString path) (b.withOpened path n d))) :=
    makeFolders_adds_nothing hOpened.after.disk fun m hm => hOpens.isFolder_of_onTheWay hm
  refine ⟨fun m hm => .inr ⟨path, hMem, hm⟩, ?_, hNothing.registry⟩
  exact hOpened.adds hNothing hAfter.runs (fun _ h => h.elim) fun _ _ h => h.elim

/-- What the caller of a build says about the output folder that its options may ask for. -/
def Allows (start : Bench) (S W : Location → Prop) (options : Table) : Prop :=
  ∀ output, (options.getD "output" .null).truth = .ok true →
    (options.getD "output" .null).plainText = .ok output →
    (∀ l, isBelow (resolve start.current output) l = true → S l) ∧
    (∀ l, OnTheWay start.current output l → W l) ∧
    ∀ name ∈ names output, ¬ IsUndrawn start.namesDrawn name

/-- The output folder of a build is ready, or there is none. -/
theorem outputFolder_cases {b : Bench} (h : Underway start S W done b) {options : Table}
    (hAllows : Allows start S W options) :
    (∃ e b₁, outputFolder options b = .error e b₁ ∧ Underway start S W done b₁) ∨
    ∃ output owned b₁, outputFolder options b = .ok (output, owned) b₁ ∧
      Ready start S W done output b₁ := by
  rw [outputFolder]
  cases hTruth : (options.getD "output" .null).truth with
  | error e => exact .inl ⟨e, b, rfl, h⟩
  | ok asked =>
      rw [bind_ok (attempt_ok asked b)]
      cases asked with
      | true =>
          rw [if_pos rfl]
          cases hText : (options.getD "output" .null).plainText with
          | error e => exact .inl ⟨e, b, rfl, h⟩
          | ok output =>
              obtain ⟨hBelow, hWay, hNames⟩ := hAllows output hTruth hText
              exact .inr ⟨output, false, b, rfl, ready_of_asked h hBelow hWay hNames⟩
      | false =>
          rw [if_neg Bool.false_ne_true]
          rcases openFolder_cases "circom_" none b with
            ⟨path, n, l, d, hOpens, hPath, hEnd⟩ | ⟨e, n, hLater, hEnd⟩
          · refine .inr ⟨path, true, b.withOpened path n d, by rw [bind_ok hEnd]; rfl, ?_⟩
            exact ready_of_opened h hOpens ⟨_, _, hOpens.location_eq hPath (by decide)⟩
          · exact .inl ⟨e, _, by rw [bind_error hEnd], h.draw hLater⟩

/-- Whether a bench was left underway by runs that put programs to their proper use, or by others,
which are recorded in any case. -/
def Built (start : Bench) (S W : Location → Prop) (b : Bench) : Prop :=
  ∃ made, b.runs = start.runs ++ made ∧ ((∀ r ∈ made, r.IsProper) → Underway start S W made b)

/-- Something that was logged makes no difference. -/
theorem built_inform (logger text : String) : Preserves (Built start S W) (inform logger text) := by
  rintro b ⟨made, hRuns, hUnderway⟩
  exact ⟨made, hRuns, fun hProper => Underway.inform logger text b (hUnderway hProper)⟩

theorem Underway.built {b : Bench} (h : Underway start S W done b) : Built start S W b :=
  ⟨done, h.after.runs, fun _ => h⟩

/-- The compiler is told of its output folder. -/
theorem argumentAfter?_compilerArguments {source output : String} {options : Table}
    {arguments : List String} (hSource : source ≠ "-o")
    (h : compilerArguments source output options = .ok arguments) :
    argumentAfter? "-o" arguments = some output := by
  rw [compilerArguments] at h
  obtain ⟨folders, -, h⟩ := except_bind_eq_ok h
  obtain ⟨items, -, h⟩ := except_bind_eq_ok h
  obtain ⟨includes, -, h⟩ := except_bind_eq_ok h
  obtain ⟨prime, -, h⟩ := except_bind_eq_ok h
  obtain ⟨simplification, -, h⟩ := except_bind_eq_ok h
  obtain ⟨json, -, h⟩ := except_bind_eq_ok h
  cases h
  simp [argumentAfter?, hSource]

/-- A compilation adds below its output folder. -/
theorem compile_built {b : Bench} (h : Underway start S W [] b) {source output : String}
    (hSource : source ≠ "-o") (options : Table)
    (hBelow : ∀ l, isBelow (resolve start.current output) l = true →
      Accounted start S b.registry l) :
    Built start S W (endState (compile source output options b)) := by
  rw [compile]
  refine endState_requireProgram_bind h.built fun circom _ => ?_
  refine endState_attempt_bind h.built fun arguments hGiven => ?_
  refine endState_bind (fun e b₂ hFails => ?_) fun o b₂ hRun => ?_
  · rw [run_eq_error hFails]
    exact h.built
  obtain ⟨r, hRuns, hAdds⟩ := compiler_adds (argumentAfter?_compilerArguments hSource hGiven) hRun
  rw [h.after.runs, List.append_nil] at hRuns
  have hBuilt : Built start S W b₂ := by
    refine ⟨[r], hRuns, fun hProper => ?_⟩
    have hAdds := hAdds (hProper r List.mem_cons_self)
    rw [h.after.current] at hAdds
    refine h.adds hAdds hRuns hBelow ?_
    rintro around name ⟨around', lead, hSame⟩
    rw [List.singleton_inj.mp (List.append_inj' hSame rfl).2]
    exact isUndrawn_js
  -- what is left to do is to tell how the run ended
  have hReport : Preserves (Built start S W) (reportCompilation options o) := by
    refine (preserves_attempt _).bind fun verbose => ?_
    refine Preserves.ite ?_ (preserves_pure _)
    exact Preserves.ite (preserves_pure _) (built_inform _ _)
  have hJudge : Preserves (Built start S W) (judgeCompilation source o) :=
    Preserves.ite (preserves_pure _) (preserves_throw _)
  exact (hReport.bind fun _ => hJudge) b₂ hBuilt

/-- A build is left underway, whatever its end. -/
theorem build_built {b : Bench} (h : Underway start S W [] b) {config overrides : Value}
    {source : String} (hSource : source ≠ "-o")
    (hAllows : ∀ options, Settings.resolve config overrides = .ok options →
      Allows start S W options) :
    Built start S W (endState (build config source overrides b)) := by
  rw [build]
  refine endState_attempt_bind h.built fun options hResolved => ?_
  rcases outputFolder_cases h (hAllows options hResolved) with
    ⟨e, b₁, hEnd, hUnderway⟩ | ⟨output, owned, b₁, hEnd, hReady⟩
  · rw [bind_error hEnd]
    exact hUnderway.built
  rw [bind_ok hEnd]
  dsimp only
  have hMade := hReady.made
  have hRegistry := hReady.registry
  refine endState_bind (fun e b₂ hFails => ?_) fun _ b₂ hFolders => ?_
  · rw [hFails] at hMade
    exact hMade.built
  rw [hFolders] at hMade hRegistry
  dsimp only [endState] at hMade hRegistry
  refine endState_bind (fun e b₃ hFails => ?_) fun reuse b₃ hReused => ?_
  · exact (preserves_canReuse _ _).of_error hFails hMade.built
  obtain rfl : b₃ = b₂ := (preserves_canReuse _ _).of_ok (P := fun b => b = b₂) hReused rfl
  split
  · exact ((built_inform _ _).bind fun _ => preserves_pure _) b₃ hMade.built
  · have hCompiled := compile_built hMade hSource options
      (by rw [hRegistry]; exact hReady.below)
    refine endState_bind (fun e b₄ hFails => ?_) fun _ b₄ hCompile => ?_
    · rwa [hFails] at hCompiled
    · rwa [hCompile] at hCompiled

theorem isAbsolute_of_writeMain {config : Value} {r : MainRequest} {path : String} {b b' : Bench}
    (h : writeMain config r b = .ok path b') : isAbsolute path = true := by
  rw [writeMain] at h
  obtain ⟨fields, b₁, -, h⟩ := bind_eq_ok h
  obtain ⟨⟨lead, ending⟩, b₂, -, h⟩ := bind_eq_ok h
  obtain ⟨opened, b₃, hOpened, h⟩ := bind_eq_ok h
  obtain ⟨b₄, b₅, -, h⟩ := bind_eq_ok h
  obtain ⟨_, b₆, -, h⟩ := bind_eq_ok h
  obtain ⟨rfl, -⟩ := pure_eq_ok h
  rcases openFile_cases lead ending none b₂ with
    ⟨path, n, l, d, -, hAbsolute, -, hEnd⟩ | ⟨e, n, -, hEnd⟩
  · cases hOpened.symm.trans hEnd
    exact hAbsolute
  · cases hOpened.symm.trans hEnd

/-- A build for a main component is left underway, whatever its end. -/
theorem synthesize_built {b : Bench} (h : Underway start S W [] b) {config : Table}
    {r : PipelineRequest}
    (hAllows : ∀ options, Settings.resolve (.table config) r.overrides = .ok options →
      Allows start S W options) :
    Built start S W (endState (synthesize (.table config) r.toMainRequest r.buildOptions
      (build (.table config)) b)) := by
  rw [synthesize]
  refine endState_attempt_bind h.built fun template _ => ?_
  refine endState_bind (fun e b₂ hFails => ?_) fun _ b₂ hInform => ?_
  · exact ((Underway.inform _ _).of_error hFails h).built
  have h₂ := (Underway.inform _ _).of_ok hInform h
  have hWritten := h₂.writeMain (.table config) r.toMainRequest
  refine endState_bind (fun e b₃ hFails => ?_) fun path b₃ hWrite => ?_
  · rw [hFails] at hWritten
    exact hWritten.built
  rw [hWrite] at hWritten
  have hPath : path ≠ "-o" := by
    have hAbsolute := isAbsolute_of_writeMain hWrite
    rintro rfl
    exact absurd hAbsolute (by decide)
  rw [PipelineRequest.overrides] at hAllows
  generalize r.buildOptions = options at hAllows ⊢
  cases options <;> exact build_built hWritten hPath hAllows

/-! ## Executing -/

/-- Whether a bench was left by a pipeline of which the work on a witness is over: all that is there
is explained, and the registry, if it was empty, holds what was opened, in order.  The current
folder may be gone, but the paths lead where they led. -/
structure Settled (start : Bench) (S W : Location → Prop) (b : Bench) : Prop where
  added : ∀ l, b.disk.get? l ≠ none → Explained start S W b.registry b.disk l
  tree : b.disk.IsTree
  opened : start.registry.paths = [] → Opened b.current b.registry.paths.reverse b.disk
  places : start.registry.paths = [] →
    ∀ p ∈ b.registry.paths, resolve b.current p = resolve start.current p

/-- Work may end with what it added. -/
theorem Underway.settled_of_adds {b b' : Bench} {A F : Location → Prop}
    (h : Underway start S W done b) (hAdds : Adds A F b b')
    (hA : ∀ l, A l → Accounted start S b.registry l) : Settled start S W b' := by
  refine ⟨fun l hl => ?_, hAdds.disk.tree h.after.disk, fun hNone => ?_, fun _ p _ => ?_⟩
  · rw [hAdds.registry]
    rcases hAdds.disk.added l hl with hBefore | hNew
    · exact (h.added l hBefore).mono (hAdds.disk.kept l)
    · exact .inr (.inl (hA l hNew))
  · rw [hAdds.registry, hAdds.current, h.after.current]
    exact (h.opened hNone).mono hAdds.disk.kept
  · rw [hAdds.current, h.after.current]

theorem Underway.settled {b : Bench} (h : Underway start S W done b) : Settled start S W b :=
  h.settled_of_adds (Adds.refl (fun _ => False) (fun _ => False) b) fun _ hNone => hNone.elim

/-- What was printed makes no difference. -/
theorem settled_printLine (line : String) : Preserves (Settled start S W) (Bench.printLine line) :=
  preserves_modify fun _ h => ⟨h.added, h.tree, h.opened, h.places⟩

/-- Something is removed; the current folder is gone if it is no folder then. -/
theorem settled_afterRemoval {b : Bench} {d : Disk} (hCurrent : b.current = start.current)
    (hAdded : ∀ l, d.get? l ≠ none → Explained start S W b.registry d l)
    (hTree : d.IsTree)
    (hOpened : start.registry.paths = [] → Opened start.current b.registry.paths.reverse d) :
    Settled start S W (b.afterRemoval d) := by
  have hOpened' : start.registry.paths = [] →
      Opened (b.afterRemoval d).current b.registry.paths.reverse d ∧
      ∀ p ∈ b.registry.paths, resolve (b.afterRemoval d).current p = resolve start.current p := by
    intro hNone
    rw [afterRemoval, hCurrent]
    dsimp only
    split
    · exact ⟨hOpened hNone, fun p _ => rfl⟩
    · rename_i hGone
      -- a relative path was followed from a folder, which would still be there
      have hAbsolute := (hOpened hNone).isAbsolute fun hFolder =>
        hGone (by rw [isFolderAt, hFolder]; rfl)
      refine ⟨(hOpened hNone).elsewhere hAbsolute nowhere, fun p hp => ?_⟩
      exact resolve_absolute (hAbsolute p (List.mem_reverse.mpr hp)) _ _
  exact ⟨hAdded, hTree, fun hNone => (hOpened' hNone).1, fun hNone => (hOpened' hNone).2⟩

section Work

variable {b : Bench} {work folder lead : String} {n : Nat} {l : Location} {d : Disk}

/-- The only folder with the name of the work folder is the work folder. -/
theorem eq_of_folder (hFresh : ∀ around name, b.disk.get? (around ++ [name]) = some .folder →
      ¬ IsUndrawn b.namesDrawn name)
    (hOpens : Opens b work n l .folder d) {around : Location} {lead : String}
    (hFolder : d.get? (around ++ [lead ++ token n]) = some .folder) :
    around ++ [lead ++ token n] = l := by
  rcases hOpens.growsTo.made _ hFolder with hBefore | ⟨hSame, -⟩
  · exact absurd ⟨lead, n, hOpens.drawn, rfl⟩ (hFresh around _ hBefore)
  · exact hSame

/-- The input document goes to the work folder, which need not be made. -/
theorem writeInput_adds (document : Value) (hTree : b.disk.IsTree)
    (hOpens : Opens b work n l .folder d) (hPath : work = join folder (lead ++ token n))
    (hSlash : '/' ∉ lead.toList) :
    Adds (fun m => isBelow l m = true) (fun _ => False) (b.withOpened work n d)
      (endState (writeDocument (Session.inputFile work).text document documentIndent
        (b.withOpened work n d))) := by
  have hPlain : IsPlain "input.json" := ⟨by decide, by decide, by decide⟩
  have hInput := Session.ofString_inputFile work
  have hNonempty : (FilePath.ofString work).parts ≠ [] := by
    rw [hPath]
    exact FilePath.parts_ofString_join folder (AfterRuns.isPlain_append_token n)
      (slash_not_mem_append hSlash (slash_not_mem_token n))
  have hThere : ∀ m, OnTheWay b.current
      (FilePath.ofString (Session.inputFile work).text).parent.text m →
        d.get? m = some .folder := by
    intro m hm
    rw [hInput, Session.inputFile, FilePath.parent_child] at hm
    exact hOpens.isFolder_of_onTheWay (onTheWay_of_text hNonempty hm)
  refine (writeDocument_adds document documentIndent (hOpens.growsTo.tree hTree) hThere).mono ?_
    fun _ h => h
  intro m hm
  rw [hm, hInput, Session.inputFile, FilePath.resolve_child _ work hPlain (by decide),
    show l = resolve b.current work from locate_eq_ok hOpens.place]
  exact isBelow_append _ _

/-- What is generated in a fresh work folder is added below that folder.  The witness is written
where its path leads from the folder of the witness program; but there is only one folder with the
name of the work folder. -/
theorem generate_adds (c : Circuit) (node : Program) (prime : Int) (inputs : Value)
    (hTree : b.disk.IsTree)
    (hFresh : ∀ around name, b.disk.get? (around ++ [name]) = some .folder →
      ¬ IsUndrawn b.namesDrawn name)
    (hOpens : Opens b work n l .folder d) (hPath : work = join folder (lead ++ token n))
    (hSlash : '/' ∉ lead.toList) :
    Adds (fun m => isBelow l m = true) (fun _ => False) (b.withOpened work n d)
      (endState (Session.generate c node work prime inputs (b.withOpened work n d))) := by
  rw [Session.generate]
  refine endState_attempt_bind (Adds.refl _ _ _) fun document _ => ?_
  have hWritten := writeInput_adds document hTree hOpens hPath hSlash
  refine endState_bind (fun e b₂ hFails => ?_) fun _ b₂ hWrite => ?_
  · rwa [hFails] at hWritten
  rw [hWrite] at hWritten
  refine endState_bind (fun e b₃ hFails => ?_) fun o b₃ hRun => ?_
  · rwa [run_eq_error hFails]
  -- the folder that the witness is written to has the name of the work folder, so it is that one
  obtain ⟨started, hAdds⟩ := generator_adds (Session.generatorArguments_no_output c work) hRun
  have hRan : Adds (fun m => isBelow l m = true) (fun _ => False) b₂ b₃ := by
    refine hAdds.mono ?_ fun _ h => h
    rintro m ⟨hAround, path, hArgument, rfl⟩
    cases hArgument
    rw [Session.witnessFile, FilePath.resolve_child started work ⟨by decide, by decide, by decide⟩
      (by decide)] at hAround ⊢
    rw [List.dropLast_concat, hPath, AfterRuns.resolve_join_token _ _ hSlash] at hAround
    rw [hPath, AfterRuns.resolve_join_token _ _ hSlash]
    rcases hWritten.disk.made _ hAround with hThen | hNone
    · rw [eq_of_folder hFresh hOpens hThen]
      exact isBelow_append _ _
    · exact hNone.elim
  exact Session.preserves_afterRun c work o b₃ (hWritten.trans hRan)

/-- What is left when the work folder is cleared. -/
theorem settled_clearWork {b₂ : Bench} (h : Underway start S W done b)
    (hOpens : Opens b work n l .folder d)
    (hAdds : Adds (fun m => isBelow l m = true) (fun _ => False) (b.withOpened work n d) b₂) :
    Settled start S W (endState (Session.clearWork work b₂)) := by
  have hGrown : GrowsTo (fun m => False ∨ isBelow l m = true) (· = l) b.disk b₂.disk := by
    refine (hOpens.growsTo.mono (fun m hm => .inr ?_) fun _ h => h.1).trans
      (hAdds.disk.mono (fun _ h => .inr h) fun _ h => h.elim)
    rw [hm]
    exact isBelow_self l
  have hFolder : b₂.disk.get? l = some .folder := hAdds.disk.kept l hOpens.isFolder
  have hCurrent : b₂.current = start.current := hAdds.current.trans h.after.current
  have hPlace := hOpens.place
  rw [h.after.current] at hPlace
  have hFound := locate_of_folders hGrown.kept hPlace
  have hCleared := clearedAt_clearFolder hFound
    (not_endsWithDots_of_free h.after.disk hPlace hOpens.free) hOpens.inside hFolder
  have hLeft := hCleared.growsTo h.after.disk hOpens.free hGrown
  have hEnd : endState (Session.clearWork work b₂) =
      b₂.afterRemoval (b₂.disk.clearFolder start.current work) := by
    rw [← hCurrent]
    rfl
  have hRegistry : b₂.registry = b.registry.track work := hAdds.registry
  rw [hEnd]
  refine settled_afterRemoval hCurrent (fun m hm => ?_) (hLeft.tree h.after.disk) fun hNone => ?_
  · rw [hRegistry]
    rcases hLeft.added m hm with hBefore | hNone
    · exact ((h.added m hBefore).track work).mono (hLeft.kept m)
    · exact hNone.elim
  · rw [hRegistry]
    exact (h.opened hNone).track h.after.disk hPlace hOpens.free hLeft.kept

end Work

/-- The work on a witness is over, whatever its end. -/
theorem computeWitness_settled {b : Bench} (h : Underway start S W done b) {c : Circuit}
    (hName : '/' ∉ c.name.toList) (prime : Int) (inputs : Value) :
    Settled start S W (endState (Session.computeWitness c prime inputs b)) := by
  rw [Session.computeWitness]
  refine endState_attempt_bind h.settled fun options _ => ?_
  refine endState_requireProgram_bind h.settled fun node _ => ?_
  rcases openFolder_cases (c.name ++ "_wtns_") none b with
    ⟨work, n, l, d, hOpens, hPath, hEnd⟩ | ⟨e, n, hLater, hEnd⟩
  swap
  · rw [bind_error hEnd]
    exact (h.draw hLater).settled
  rw [bind_ok hEnd]
  have hSlash : '/' ∉ (c.name ++ "_wtns_").toList := slash_not_mem_append hName (by decide)
  have hPlace := locate_eq_ok hOpens.place
  have hOpened := h.opens hOpens fun _ => ⟨_, _, hOpens.location_eq hPath hSlash⟩
  have hAdds := generate_adds c node prime inputs h.after.disk h.fresh hOpens hPath hSlash
  refine endState_bind (fun e b₂ hFails => ?_) fun values b₂ hGenerate => ?_
  · -- the work folder stays, and it is registered
    rw [hFails] at hAdds
    refine hOpened.settled_of_adds hAdds fun m hm => .inr ⟨work, ?_, ?_⟩
    · exact (mem_track _ work work).mpr (.inr rfl)
    · rwa [← h.after.current, ← hPlace]
  · rw [hGenerate] at hAdds
    have hCleared : Settled start S W (endState (Session.clearWork work b₂)) :=
      settled_clearWork h hOpens hAdds
    refine endState_bind (fun e b₃ hFails => ?_) fun _ b₃ hClear => ?_
    · rwa [hFails] at hCleared
    · rwa [hClear] at hCleared

/-! ## The pipeline -/

/-- Whether a pipeline has ended at a bench: what it left is settled if its runs put programs to
their proper use. -/
def Ended (start : Bench) (S W : Location → Prop) (b : Bench) : Prop :=
  ∃ made, b.runs = start.runs ++ made ∧ ((∀ r ∈ made, r.IsProper) → Settled start S W b)

theorem Built.ended {b : Bench} (h : Built start S W b) : Ended start S W b := by
  obtain ⟨made, hRuns, hUnderway⟩ := h
  exact ⟨made, hRuns, fun hProper => (hUnderway hProper).settled⟩

/-- To execute what was built ends the pipeline. -/
theorem execute_ended {b : Bench} (h : Built start S W b) {c : Circuit}
    (hName : '/' ∉ c.name.toList) (inputs : Value) (quiet : Bool) :
    Ended start S W (endState (c.inSession (Session.executeAndReport inputs quiet) b)) := by
  obtain ⟨made, hRuns, hUnderway⟩ := h
  have hSession : endState (c.inSession (Session.executeAndReport inputs quiet) b) =
      (endState (Session.executeAndReport inputs quiet ⟨b, c⟩)).bench := by
    rw [Circuit.inSession]
    cases Session.executeAndReport inputs quiet ⟨b, c⟩ <;> rfl
  have hMore : ∃ more, (endState (Session.executeAndReport inputs quiet ⟨b, c⟩)).bench.runs =
      b.runs ++ more := by
    refine Session.executeAndReport_end (P := fun b' => ∃ more, b'.runs = b.runs ++ more)
      (fun line => preserves_modify fun _ h => h) ?_
    obtain ⟨more, hRuns, -⟩ := Session.calculateWitness_commanded inputs true ⟨b, c⟩
    exact ⟨more, hRuns⟩
  obtain ⟨more, hMore⟩ := hMore
  rw [hSession]
  refine ⟨made ++ more, by rw [hMore, hRuns, List.append_assoc], fun hProper => ?_⟩
  have hUnderway := hUnderway fun r hr => hProper r (List.mem_append_left more hr)
  refine Session.executeAndReport_end settled_printLine ?_
  exact Session.calculateWitness_end inputs true hUnderway.settled
    fun symbols constraints system _ _ => computeWitness_settled hUnderway hName system.prime inputs

/-- A pipeline with the registry of the bench has ended, whatever its end. -/
theorem buildAndExecute_ended {b : Bench} (h : Underway start S W [] b) {config : Table}
    {r : PipelineRequest}
    (hAllows : ∀ options, Settings.resolve (.table config) r.overrides = .ok options →
      Allows start S W options) :
    Ended start S W (endState (buildAndExecute config r b)) := by
  rw [buildAndExecute]
  refine endState_bind (fun e b₁ hFails => ?_) fun _ b₁ hAnnounce => ?_
  · exact ((Underway.announce r).of_error hFails h).built.ended
  have hBuilt := synthesize_built ((Underway.announce r).of_ok hAnnounce h) hAllows
  refine endState_bind (fun e b₂ hFails => ?_) fun c b₂ hBuild => ?_
  · rw [hFails] at hBuilt
    exact hBuilt.ended
  rw [hBuild] at hBuilt
  obtain ⟨path, options, b₃, hBuilder⟩ := builder_of_synthesize hBuild
  obtain ⟨output, hOf⟩ := Circuit.isOf_of_build hBuilder
  have hName : '/' ∉ c.name.toList := by
    rw [hOf.name]
    exact FilePath.slash_not_mem_stem path
  exact execute_ended hBuilt hName r.inputs r.quiet


theorem underway_self {b : Bench} (hTree : b.disk.IsTree)
    (hFresh : ∀ around name, b.disk.get? (around ++ [name]) = some .folder →
      ¬ IsUndrawn b.namesDrawn name) : Underway b S W [] b := by
  refine ⟨afterRuns_self hTree, Nat.le_refl _, fun l hl => .inl hl, hFresh, fun hNone => ?_⟩
  rw [hNone]
  exact .nil b.disk

/-- The output folder of a build, if one is asked for, is one that the request asks for. -/
theorem allows_of_freshAt {r : PipelineRequest} {b : Bench} (hFresh : r.FreshAt b) {config : Table}
    (hConfig : pipelineConfig r.config = .ok config) {options : Table}
    (hOptions : Settings.resolve (.table config) r.overrides = .ok options) :
    Allows b (r.Requests b.current) (r.PassesBy b.current) options := by
  intro output hTruth hText
  have hAsks : r.AsksFor output := ⟨config, options, hConfig, hOptions, hTruth, hText⟩
  exact ⟨fun l hl => ⟨output, hAsks, hl⟩, fun l hl => ⟨output, hAsks, hl⟩,
    hFresh.output output hAsks⟩

theorem endState_withPrivateRegistry {α : Type} (action : Action α) (b : Bench) :
    endState (withPrivateRegistry action b) =
      tidied b (endState (action { b with registry := {} })) := by
  cases hEnd : action { b with registry := {} } with
  | ok a left => rw [withPrivateRegistry_ok hEnd]; rfl
  | error e left => rw [withPrivateRegistry_error hEnd]; rfl

/-- When a private registry is cleaned up, nothing that was registered is left. -/
theorem Settled.left_tidied {b left : Bench} (h : Settled { b with registry := {} } S W left)
    {l : Location} (hNew : b.disk.get? l = none) (hLeft : (tidied b left).disk.get? l ≠ none) :
    S l ∨ (tidied b left).disk.get? l = some .folder ∧ W l := by
  have hTidied : (tidied b left).disk =
      (discardAll left.current left.registry.paths.reverse left.disk).2 := rfl
  rw [hTidied] at hLeft ⊢
  obtain ⟨hThere, hBelow⟩ := (h.opened rfl).left_discardAll h.tree hLeft
  rw [hThere] at hLeft ⊢
  rcases h.added l hLeft with hBefore | (hAnyway | ⟨p, hMem, hIn⟩) | hFolder
  · exact absurd hNew hBefore
  · exact .inl hAnyway
  · have hNot := hBelow p (List.mem_reverse.mpr hMem)
    rw [h.places rfl p hMem, hIn] at hNot
    cases hNot
  · exact .inr hFolder

/-! ### A folder on the way -/

/-- Names are fresh where all names are too short for one that is drawn. -/
theorem freshAt_of_short {r : PipelineRequest} {b : Bench}
    (hDisk : ∀ e ∈ b.disk.nodes, (e.1.getLast?.getD "").length < 8)
    (hOutput : ∀ output, r.AsksFor output → ∀ name ∈ names output, name.length < 8) :
    r.FreshAt b := by
  refine ⟨fun around name hFolder hUndrawn => ?_, fun output hAsks name hMem hUndrawn => ?_⟩
  · rw [Disk.get?, if_neg (by simp)] at hFolder
    obtain ⟨e, hMem, hPlace⟩ := exists_of_find? (by rw [hFolder]; exact Option.some_ne_none _)
    have hShort := hDisk e hMem
    rw [hPlace, List.getLast?_concat, Option.getD_some] at hShort
    exact absurd hUndrawn.length (Nat.not_le.mpr hShort)
  · exact absurd hUndrawn.length (Nat.not_le.mpr (hOutput output hAsks name hMem))

/-- A pipeline that squares, into a folder of which the path leads through another one. -/
def keepRequest : PipelineRequest :=
  { squareRequest with buildOptions := .table [(.text "output", .text "/a/../keep")] }

theorem asksFor_keep {output : String} (h : keepRequest.AsksFor output) :
    output = "/a/../keep" := by
  obtain ⟨config, options, hConfig, hOptions, -, hText⟩ := h
  cases hConfig
  have hGiven : (Settings.resolve (.table Settings.defaults) keepRequest.overrides).map
      (fun options => (options.getD "output" .null).plainText) = .ok (.ok "/a/../keep") := by
    rfl
  rw [hOptions] at hGiven
  cases hText.symm.trans (Except.ok.inj hGiven)
  rfl

theorem freshAt_keep : keepRequest.FreshAt squareBench := by
  refine freshAt_of_short (by decide) fun output hAsks => ?_
  rw [asksFor_keep hAsks]
  decide +kernel

/-- That pipeline puts programs to their proper use, and leaves the other folder. -/
theorem keep_ends : (∃ made,
    (endState (runPipeline keepRequest true squareBench)).runs = squareBench.runs ++ made ∧
      ∀ run ∈ made, run.IsProper) ∧
    (endState (runPipeline keepRequest true squareBench)).disk.get? ["a"] ≠ none := by
  have hEnd : (∀ run ∈ (endState (runPipeline keepRequest true squareBench)).runs,
      argumentAfter? "-o" run.arguments ≠ none → run.tool = .circom) ∧
      (endState (runPipeline keepRequest true squareBench)).disk.get? ["a"] ≠ none := by
    decide +kernel
  exact ⟨⟨_, (List.nil_append _).symm, hEnd.1⟩, hEnd.2⟩

/-- What is left of a pipeline, however it ends, on a disk that is a tree, if drawn names are fresh
and programs are put to their proper use.  Whatever was not there before lies below an output folder
that was asked for, or is a folder on the way there; or else, if the registry is that of the caller,
it lies at or below a path that is registered then.  With a registry of its own, the pipeline leaves
nothing else. -/
theorem runPipeline_leaves {r : PipelineRequest} {own : Bool} {b : Bench} {made : List ToolRun}
    {l : Location} (hTree : b.disk.IsTree) (hFresh : r.FreshAt b)
    (hRuns : (endState (runPipeline r own b)).runs = b.runs ++ made)
    (hProper : ∀ run ∈ made, run.IsProper) (hNew : b.disk.get? l = none)
    (hLeft : (endState (runPipeline r own b)).disk.get? l ≠ none) :
    r.Requests b.current l ∨
      (endState (runPipeline r own b)).disk.get? l = some .folder ∧ r.PassesBy b.current l ∨
      own = false ∧ ∃ p ∈ (endState (runPipeline r own b)).registry.paths,
        isBelow (resolve b.current p) l = true := by
  cases hConfig : pipelineConfig r.config with
  | error e =>
      have hEnd : endState (runPipeline r own b) = b := by
        rw [runPipeline, hConfig]
        rfl
      rw [hEnd] at hLeft
      exact absurd hNew hLeft
  | ok config =>
      have hEnd : runPipeline r own b = (if own then withPrivateRegistry (buildAndExecute config r)
          else buildAndExecute config r) b := by
        rw [runPipeline, hConfig]
        rfl
      rw [hEnd] at hRuns hLeft ⊢
      cases own with
      | false =>
          have hStart : Underway b (r.Requests b.current) (r.PassesBy b.current) [] b :=
            underway_self hTree hFresh.disk
          obtain ⟨done, hDone, hSettled⟩ := buildAndExecute_ended hStart
            fun _ => allows_of_freshAt hFresh hConfig
          obtain rfl : done = made := List.append_cancel_left (hDone.symm.trans hRuns)
          rcases (hSettled hProper).added l hLeft with
            hBefore | (hAsked | hRegistered) | hFolder
          · exact absurd hNew hBefore
          · exact .inl hAsked
          · exact .inr (.inr ⟨rfl, hRegistered⟩)
          · exact .inr (.inl hFolder)
      | true =>
          have hPrivate : r.FreshAt { b with registry := {} } := ⟨hFresh.disk, hFresh.output⟩
          have hStart : Underway { b with registry := {} } (r.Requests b.current)
              (r.PassesBy b.current) [] { b with registry := {} } :=
            underway_self hTree hFresh.disk
          obtain ⟨done, hDone, hSettled⟩ := buildAndExecute_ended hStart
            fun _ => allows_of_freshAt hPrivate hConfig
          rw [if_pos rfl, endState_withPrivateRegistry] at hRuns hLeft ⊢
          obtain rfl : done = made := List.append_cancel_left (hDone.symm.trans hRuns)
          exact ((hSettled hProper).left_tidied hNew hLeft).imp_right .inl

/-- The folder on the way of the output folder is left. -/
theorem runPipeline_leaves_keep :
    (endState (runPipeline keepRequest true squareBench)).disk.get? ["a"] = some .folder ∧
      keepRequest.PassesBy squareBench.current ["a"] := by
  obtain ⟨⟨made, hRuns, hProper⟩, hLeft⟩ := keep_ends
  have hTree : squareBench.disk.IsTree := Disk.isTree_of_nodes (by decide)
  rcases runPipeline_leaves hTree freshAt_keep hRuns hProper (by decide) hLeft with
    ⟨output, hAsks, hBelow⟩ | hFolder | ⟨hOwn, -⟩
  · exact absurd hBelow (by rw [asksFor_keep hAsks]; decide +kernel)
  · exact hFolder
  · cases hOwn

/-- What a pipeline with a registry of its own leaves need not lie below the output folder. -/
theorem folder_left_beside_output :
    ¬ ∀ (r : PipelineRequest) (b : Bench) (made : List ToolRun) (l : Location),
      b.disk.IsTree → r.FreshAt b → (endState (runPipeline r true b)).runs = b.runs ++ made →
        (∀ run ∈ made, run.IsProper) → b.disk.get? l = none →
          (endState (runPipeline r true b)).disk.get? l ≠ none → r.Requests b.current l := by
  intro h
  obtain ⟨⟨made, hRuns, hProper⟩, hLeft⟩ := keep_ends
  have hTree : squareBench.disk.IsTree := Disk.isTree_of_nodes (by decide)
  obtain ⟨output, hAsks, hBelow⟩ := h keepRequest squareBench made ["a"] hTree freshAt_keep hRuns
    hProper (by decide) hLeft
  exact absurd hBelow (by rw [asksFor_keep hAsks]; decide +kernel)

end Bench

end CircuitBench
