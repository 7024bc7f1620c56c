import CircuitBench.Pipeline.Run
import CircuitBench.Proofs.Circuit.Command
import CircuitBench.Proofs.Pipeline.Soundness
import CircuitBench.Proofs.Temporary.Opened

/-!
# Complaints

The library complains to nobody: no step of a pipeline prints a complaint, however it ends.  That is
left to the command line, so that what it complains of is all that is complained of.

## Main results

* `complained_runPipeline` : a pipeline leaves the complaints as they are.
-/

namespace CircuitBench

open CircuitBench.Path

namespace Bench

/-- Whether so much has been complained of at a bench, and no more. -/
def Complained (text : String) (b : Bench) : Prop :=
  b.complaints = text

variable {text : String}

/-! ## Actions -/

theorem complained_modify {change : Bench → Bench} (h : ∀ b, (change b).complaints = b.complaints) :
    Preserves (Complained text) (modify change : Action Unit) :=
  preserves_modify fun b hb => (h b).trans hb

theorem complained_changeDisk (change : Bench → Except DiskFault Disk) :
    Preserves (Complained text) (changeDisk change) := by
  intro b h
  rw [changeDisk]
  cases change b <;> exact h

theorem complained_makeFolders (path : FilePath) : Preserves (Complained text) (makeFolders path) := by
  intro b h
  rw [makeFolders]
  split <;> exact h

theorem complained_create (make : Disk → Location → String → Except DiskFault (Location × Disk))
    (pathOf : String → String) (attempts : Nat) :
    Preserves (Complained text) (create make pathOf attempts) := by
  induction attempts with
  | zero => exact fun b h => h
  | succ attempts ih =>
      intro b h
      rw [create]
      dsimp only
      split
      · exact h
      · exact ih _ h
      · exact h

theorem complained_openFile (lead ending : String) (asked : Option String) :
    Preserves (Complained text) (openFile lead ending asked) := by
  refine preserves_get.bind fun b => (preserves_attempt _).bind fun folder => ?_
  refine (complained_create _ _ _).bind fun path => ?_
  exact Preserves.bind (complained_modify fun _ => rfl) fun _ => preserves_pure path

theorem complained_openFolder (lead : String) (asked : Option String) :
    Preserves (Complained text) (openFolder lead asked) := by
  refine preserves_get.bind fun b => (complained_create _ _ _).bind fun path => ?_
  exact Preserves.bind (complained_modify fun _ => rfl) fun _ => preserves_pure path

theorem complained_store (path : String) (content : Except Error String) :
    Preserves (Complained text) (store path content) := by
  refine (preserves_attempt _).bind fun written => (preserves_attempt _).bind fun bytes => ?_
  exact complained_changeDisk _

theorem complained_writeDocument (path : String) (data indent : Value) :
    Preserves (Complained text) (writeDocument path data indent) := by
  refine Preserves.bind ?_ fun _ => Preserves.bind ?_ fun temporary => ?_
  · exact (complained_makeFolders _).bind fun _ => preserves_pure _
  · exact preserves_get.bind fun b => complained_create _ _ _
  · refine Preserves.ensuring ?_ (complained_modify fun _ => rfl)
    exact (complained_store _ _).bind fun _ => complained_changeDisk _

theorem complained_requireProgram (option : Value) (name advice : String) :
    Preserves (Complained text) (requireProgram option name advice) := by
  intro b h
  rwa [requireProgram_state]

theorem complained_run (program : Program) (arguments : List String) (asked : Option String) :
    Preserves (Complained text) (run program arguments asked) := by
  intro b h
  cases hRun : run program arguments asked b with
  | ok o b' =>
      obtain ⟨path, -, hStart⟩ := run_eq_ok hRun
      obtain ⟨tool, folder, given, -, -, -, rfl⟩ := start_eq_ok hStart
      exact h
  | error e b' =>
      obtain rfl := run_eq_error hRun
      exact h

/-! ## Building -/

theorem complained_compile (circuitPath output : String) (options : Table) :
    Preserves (Complained text) (compile circuitPath output options) := by
  refine (complained_requireProgram _ _ _).bind fun circom => ?_
  refine (preserves_attempt _).bind fun arguments => ?_
  refine (complained_run _ _ _).bind fun o => Preserves.bind ?_ fun _ => ?_
  · refine (preserves_attempt _).bind fun verbose => Preserves.ite ?_ (preserves_pure _)
    exact Preserves.ite (preserves_pure _) (complained_modify fun _ => rfl)
  · exact Preserves.ite (preserves_pure _) (preserves_throw _)

theorem complained_build (config : Value) (circuitPath : String) (overrides : Value) :
    Preserves (Complained text) (build config circuitPath overrides) := by
  refine (preserves_attempt _).bind fun options => Preserves.bind ?_ fun output => ?_
  · refine (preserves_attempt _).bind fun given => Preserves.ite ?_ ?_
    · exact (preserves_attempt _).bind fun path => preserves_pure _
    · exact (complained_openFolder _ _).bind fun path => preserves_pure _
  · refine (complained_makeFolders _).bind fun _ => (preserves_canReuse _ _).bind fun reuse => ?_
    refine Preserves.ite ?_ ?_
    · exact Preserves.bind (complained_modify fun _ => rfl) fun _ => preserves_pure _
    · exact (complained_compile _ _ _).bind fun _ => preserves_pure _

theorem complained_writeMain (config : Value) (m : MainRequest) :
    Preserves (Complained text) (writeMain config m) := by
  refine (preserves_attempt _).bind fun fields => (preserves_attempt _).bind fun around => ?_
  refine (complained_openFile _ _ _).bind fun path => preserves_get.bind fun b => ?_
  exact (complained_store _ _).bind fun _ => preserves_pure path

theorem complained_synthesize {α : Type} (config : Value) (m : MainRequest) (buildOptions : Value)
    {builder : String → Value → Action α}
    (hBuilder : ∀ path options, Preserves (Complained text) (builder path options)) :
    Preserves (Complained text) (synthesize config m buildOptions builder) := by
  refine (preserves_attempt _).bind fun template => ?_
  refine Preserves.bind (complained_modify fun _ => rfl) fun _ => ?_
  refine (complained_writeMain _ _).bind fun path => ?_
  split <;> exact hBuilder _ _

/-! ## Executing -/

theorem complained_computeWitness (c : Circuit) (prime : Int) (inputs : Value) :
    Preserves (Complained text) (Session.computeWitness c prime inputs) := by
  refine (preserves_attempt _).bind fun options => ?_
  refine (complained_requireProgram _ _ _).bind fun node => ?_
  refine (complained_openFolder _ _).bind fun work => Preserves.bind ?_ fun values => ?_
  · refine (preserves_attempt _).bind fun document => ?_
    refine (complained_writeDocument _ _ _).bind fun _ => ?_
    exact (complained_run _ _ _).bind fun o => Session.preserves_afterRun c work o
  · exact Preserves.bind (complained_modify fun _ => rfl) fun _ => preserves_pure values

theorem complained_calculateWitness (inputs : Value) (strict : Bool) :
    Preserves (fun s : Session => Complained text s.bench)
      (Session.calculateWitness inputs strict) := by
  refine Session.preserves_loadConstraints.bind fun system => Preserves.bind ?_ fun _ => ?_
  · refine Preserves.ite ?_ (preserves_pure ())
    exact Session.preserves_loadSymbols.bind fun symbols => preserves_attempt _
  refine Preserves.bind (fun s h => h) fun c => ?_
  refine (Session.preserves_onBench (complained_computeWitness c _ _)).bind fun values => ?_
  exact Preserves.ite (preserves_throw _) (preserves_pure values)

theorem complained_inSession (c : Circuit) (inputs : Value) (quiet : Bool) :
    Preserves (Complained text) (c.inSession (Session.executeAndReport inputs quiet)) := by
  intro b h
  have hSession : Complained text (endState (Session.executeAndReport inputs quiet ⟨b, c⟩)).bench :=
    Session.executeAndReport_end (fun line => complained_modify fun _ => rfl)
      (complained_calculateWitness inputs true ⟨b, c⟩ h)
  rw [Circuit.inSession]
  cases hEnd : Session.executeAndReport inputs quiet ⟨b, c⟩ <;> rwa [hEnd] at hSession

/-! ## Pipelines -/

theorem complained_announce (r : PipelineRequest) : Preserves (Complained text) (announce r) := by
  refine Preserves.ite (preserves_pure ()) ?_
  refine (preserves_attempt _).bind fun template => (preserves_attempt _).bind fun file => ?_
  exact complained_modify fun _ => rfl

/-- A pipeline leaves the complaints as they are. -/
theorem complained_runPipeline (r : PipelineRequest) (own : Bool) :
    Preserves (Complained text) (runPipeline r own) := by
  refine (preserves_attempt _).bind fun config => ?_
  have hWork : Preserves (Complained text) (buildAndExecute config r) := by
    refine (complained_announce r).bind fun _ => ?_
    refine (complained_synthesize _ _ _ fun path options => complained_build _ _ _).bind fun c => ?_
    exact complained_inSession c _ _
  refine Preserves.ite (fun b h => ?_) hWork
  have hLeft := hWork { b with registry := {} } h
  cases hEnd : buildAndExecute config r { b with registry := {} } with
  | ok witness left =>
      rw [hEnd] at hLeft
      rw [withPrivateRegistry_ok hEnd]
      exact hLeft
  | error e left =>
      rw [hEnd] at hLeft
      rw [withPrivateRegistry_error hEnd]
      exact hLeft

end Bench

end CircuitBench
