import CircuitBench.Pipeline.Run
import CircuitBench.Proofs.Circuit.Files

/-!
# What was printed does not matter

A bench keeps what was printed on it, so that it can be told of the work afterwards.  No step of
building and running a circuit looks at it.  That is said of a step without a word about what the
step does: to change the printed text before the step comes to the same as to change it afterwards,
whatever the text is changed to and however the step ends.  A step that also prints nothing is not
told from the outside by what was printed, so two runs that differ in printing only stay together
as long as they do the same.

## Main results

* `Commutes` : a step and a change of the state that may trade places.
* `Commutes.bind`, `Commutes.ensuring` : from the parts of a step to the whole.
* `commutes_synthesize`, `commutes_build`, `Session.commutes_execute` : the steps of a pipeline.
-/

namespace CircuitBench

/-! ## Trading places -/

/-- The end of a step, with the state changed that it leaves. -/
def mapEnd {ε σ α : Type} (change : σ → σ) : EStateM.Result ε σ α → EStateM.Result ε σ α
  | .ok a s => .ok a (change s)
  | .error e s => .error e (change s)

/-- Whether a step comes to the same when the state is changed before it as when it is changed
afterwards. -/
def Commutes {ε σ α : Type} (change : σ → σ) (x : EStateM ε σ α) : Prop :=
  ∀ s, x (change s) = mapEnd change (x s)

section Closure

variable {ε σ α β : Type} {change : σ → σ}

theorem commutes_pure (a : α) : Commutes change (pure a : EStateM ε σ α) :=
  fun _ => rfl

theorem commutes_throw (e : ε) : Commutes change (throw e : EStateM ε σ α) :=
  fun _ => rfl

theorem commutes_attempt (result : Except Error α) :
    Commutes change (Bench.attempt result : EStateM Error σ α) := by
  intro s
  cases result with
  | ok a => rfl
  | error e => rfl

theorem commutes_modify {update : σ → σ} (h : ∀ s, update (change s) = change (update s)) :
    Commutes change (modify update : EStateM ε σ Unit) := by
  intro s
  show EStateM.Result.ok () (update (change s)) = _
  rw [h]
  rfl

namespace Commutes

/-- A step that looks at the state may look at the changed one, if it goes on in the same way. -/
theorem get_bind {f : σ → EStateM ε σ α} (hLook : ∀ s, f (change s) = f s)
    (hf : ∀ s, Commutes change (f s)) : Commutes change (get >>= f) := by
  intro s
  show f (change s) (change s) = mapEnd change (f s s)
  rw [hLook, hf s s]

theorem bind {x : EStateM ε σ α} {f : α → EStateM ε σ β} (hx : Commutes change x)
    (hf : ∀ a, Commutes change (f a)) : Commutes change (x >>= f) := by
  intro s
  have hFirst := hx s
  cases hEnd : x s with
  | ok a s₁ =>
      rw [hEnd] at hFirst
      rw [bind_ok hFirst, bind_ok hEnd, hf a s₁]
  | error e s₁ =>
      rw [hEnd] at hFirst
      rw [bind_error hFirst, bind_error hEnd]
      rfl

theorem ite {c : Prop} [Decidable c] {x y : EStateM ε σ α} (hx : Commutes change x)
    (hy : Commutes change y) : Commutes change (if c then x else y) := by
  split
  · exact hx
  · exact hy

theorem ensuring {first : EStateM Error σ α} {second : EStateM Error σ Unit}
    (hFirst : Commutes change first) (hSecond : Commutes change second) :
    Commutes change (Bench.ensuring first second) := by
  intro s
  rw [Bench.ensuring, Bench.ensuring, hFirst s]
  cases first s with
  | ok a s₁ =>
      simp only [mapEnd, hSecond s₁]
      cases second s₁ <;> rfl
  | error e s₁ =>
      simp only [mapEnd, hSecond s₁]
      cases second s₁ <;> rfl

end Commutes

end Closure

/-! ## Work at the bench -/

namespace Bench

open CircuitBench.Path

/-- The bench with another text in place of what was printed on it. -/
def withPrinted (text : String) (b : Bench) : Bench :=
  { b with printed := text }

variable {printed : String}

theorem commutes_ask {α : Type} {question : Bench → Except DiskFault α}
    (h : ∀ b, question (b.withPrinted printed) = question b) :
    Commutes (withPrinted printed) (ask question) := by
  intro b
  rw [ask, ask, h]
  cases question b with
  | ok a => rfl
  | error fault => rfl

theorem commutes_changeDisk {edit : Bench → Except DiskFault Disk}
    (h : ∀ b, edit (b.withPrinted printed) = edit b) :
    Commutes (withPrinted printed) (changeDisk edit) := by
  intro b
  rw [changeDisk, changeDisk, h]
  cases edit b with
  | ok disk => rfl
  | error fault => rfl

theorem commutes_makeFolders (path : FilePath) :
    Commutes (withPrinted printed) (makeFolders path) := by
  intro b
  have hSame : (b.withPrinted printed).disk.makeFolders (b.withPrinted printed).current path =
    b.disk.makeFolders b.current path := rfl
  rw [makeFolders, makeFolders, hSame]
  rcases b.disk.makeFolders b.current path with ⟨result, disk⟩
  cases result with
  | ok _ => rfl
  | error fault => rfl

/-! ### Temporary files and folders -/

theorem commutes_create (make : Disk → Location → String → Except DiskFault (Location × Disk))
    (pathOf : String → String) (attempts : Nat) :
    Commutes (withPrinted printed) (create make pathOf attempts) := by
  induction attempts with
  | zero => exact fun b => rfl
  | succ attempts ih =>
      intro b
      have hAgain := ih { b with namesDrawn := b.namesDrawn + 1 }
      have hSame : make (b.withPrinted printed).disk (b.withPrinted printed).current
          (pathOf (Registry.token (b.withPrinted printed).namesDrawn)) =
        make b.disk b.current (pathOf (Registry.token b.namesDrawn)) := rfl
      rw [create]
      simp only [hSame]
      cases make b.disk b.current (pathOf (Registry.token b.namesDrawn)) with
      | ok made => rfl
      | error fault =>
          cases fault with
          | «exists» => exact hAgain
          | _ => rfl

theorem commutes_track (path : String) : Commutes (withPrinted printed) (track path) :=
  commutes_modify fun _ => rfl

theorem commutes_openFile (lead ending : String) (asked : Option String) :
    Commutes (withPrinted printed) (openFile lead ending asked) := by
  refine Commutes.get_bind (fun b => rfl) fun b => ?_
  refine (commutes_attempt _).bind fun folder => ?_
  refine (commutes_create _ _ _).bind fun path => ?_
  exact (commutes_track path).bind fun _ => commutes_pure path

theorem commutes_openFolder (lead : String) (asked : Option String) :
    Commutes (withPrinted printed) (openFolder lead asked) := by
  refine Commutes.get_bind (fun b => rfl) fun b => ?_
  refine (commutes_create _ _ _).bind fun path => ?_
  exact (commutes_track path).bind fun _ => commutes_pure path

/-! ### Programs -/

theorem findProgram?_withPrinted (b : Bench) (name : String) :
    (b.withPrinted printed).findProgram? name = b.findProgram? name := rfl

theorem commutes_requireNamed (name advice : String) :
    Commutes (withPrinted printed) (requireNamed name advice) := by
  refine Commutes.get_bind (fun b => by simp only [findProgram?_withPrinted]) fun b => ?_
  split
  · exact commutes_pure _
  · exact commutes_throw _

theorem commutes_requireProgram (option : Value) (name advice : String) :
    Commutes (withPrinted printed) (requireProgram option name advice) := by
  refine Commutes.get_bind (fun b => by simp only [findProgram?_withPrinted]) fun b => ?_
  refine (commutes_attempt _).bind fun v => ?_
  split
  · exact commutes_requireNamed _ advice
  · exact commutes_requireNamed _ advice
  · split
    · exact commutes_pure _
    · exact commutes_throw _
  · exact commutes_throw _

theorem commutes_start (path : String) (arguments : List String) (asked : Option String) :
    Commutes (withPrinted printed) (start path arguments asked) := by
  intro b
  have hFolder : (b.withPrinted printed).startFolder asked = b.startFolder asked := rfl
  have hProgram : ∀ folder, (b.withPrinted printed).programAt? folder path =
    b.programAt? folder path := fun _ => rfl
  rw [start, start]
  simp only [hFolder, hProgram]
  split
  · rfl
  · cases b.startFolder asked with
    | error fault => rfl
    | ok folder =>
        dsimp only
        cases b.programAt? folder path with
        | none => rfl
        | some tool =>
            dsimp only
            split
            · rfl
            · rfl

theorem commutes_run (program : Program) (arguments : List String) (asked : Option String) :
    Commutes (withPrinted printed) (run program arguments asked) := by
  cases program with
  | named path => exact commutes_start path arguments asked
  | spelled => exact commutes_throw _

/-! ### Documents and files -/

theorem commutes_store (path : String) (text : Except Error String) :
    Commutes (withPrinted printed) (store path text) := by
  refine (commutes_attempt text).bind fun text => ?_
  exact (commutes_attempt _).bind fun bytes => commutes_changeDisk fun _ => rfl

theorem commutes_writeDocument (path : String) (data indent : Value) :
    Commutes (withPrinted printed) (writeDocument path data indent) := by
  refine Commutes.bind ?_ fun _ => Commutes.bind ?_ fun temporary => ?_
  · exact (commutes_makeFolders _).bind fun _ => commutes_pure _
  · exact Commutes.get_bind (fun b => rfl) fun b => commutes_create _ _ _
  · refine Commutes.ensuring ?_ (commutes_modify fun _ => rfl)
    exact (commutes_store _ _).bind fun _ => commutes_changeDisk fun _ => rfl

/-- To read a file is to ask for its bytes and to take them apart. -/
theorem commutes_readFile {α : Type} (path : String) (parse : List UInt8 → Except Error α) :
    Commutes (withPrinted printed) (readBytes path >>= fun bytes => attempt (parse bytes)) :=
  (commutes_ask fun _ => rfl).bind fun _ => commutes_attempt _

theorem commutes_allExist (paths : List String) :
    Commutes (withPrinted printed) (allExist paths) := by
  induction paths with
  | nil => exact commutes_pure true
  | cons path rest ih =>
      exact (commutes_ask fun _ => rfl).bind fun _ => ih.ite (commutes_pure false)

/-! ### Building -/

theorem commutes_inform (logger text : String) :
    Commutes (withPrinted printed) (inform logger text) :=
  commutes_modify fun _ => rfl

theorem commutes_compile (circuitPath output : String) (options : Table) :
    Commutes (withPrinted printed) (compile circuitPath output options) := by
  refine (commutes_requireProgram _ _ _).bind fun circom => ?_
  refine (commutes_attempt _).bind fun arguments => ?_
  refine (commutes_run _ _ _).bind fun outcome => Commutes.bind ?_ fun _ => ?_
  · refine (commutes_attempt _).bind fun verbose => Commutes.ite ?_ (commutes_pure ())
    exact (commutes_pure ()).ite (commutes_inform _ _)
  · exact (commutes_pure ()).ite (commutes_throw _)

theorem commutes_outputFolder (options : Table) :
    Commutes (withPrinted printed) (outputFolder options) := by
  refine (commutes_attempt _).bind fun named => Commutes.ite ?_ ?_
  · exact (commutes_attempt _).bind fun path => commutes_pure _
  · exact (commutes_openFolder _ _).bind fun path => commutes_pure _

/-- A build does not look at what was printed. -/
theorem commutes_build (config : Value) (circuitPath : String) (overrides : Value) :
    Commutes (withPrinted printed) (build config circuitPath overrides) := by
  refine (commutes_attempt _).bind fun options => ?_
  refine (commutes_outputFolder options).bind fun target => ?_
  refine (commutes_makeFolders _).bind fun _ => Commutes.bind ?_ fun reused => ?_
  · refine (commutes_attempt _).bind fun recompile => ?_
    exact (commutes_pure false).ite (commutes_allExist _)
  · refine Commutes.ite ?_ ?_
    · exact (commutes_inform _ _).bind fun _ => commutes_pure _
    · exact (commutes_compile _ _ _).bind fun _ => commutes_pure _

/-- Nor does the writing of a main component, if the builder does not. -/
theorem commutes_synthesize {α : Type} (config : Value) (r : MainRequest) (buildOptions : Value)
    {builder : String → Value → Action α}
    (h : ∀ path options, Commutes (withPrinted printed) (builder path options)) :
    Commutes (withPrinted printed) (synthesize config r buildOptions builder) := by
  refine (commutes_attempt _).bind fun template => (commutes_inform _ _).bind fun _ => ?_
  refine Commutes.bind ?_ fun path => ?_
  · refine (commutes_attempt _).bind fun fields => (commutes_attempt _).bind fun around => ?_
    refine (commutes_openFile _ _ _).bind fun path => Commutes.get_bind (fun b => rfl) fun b => ?_
    exact (commutes_store _ _).bind fun _ => commutes_pure path
  · split
    · exact h path _
    · exact h path _

end Bench

/-! ## Work on a circuit -/

namespace Session

open Bench

/-- The session with another text in place of what was printed at its bench. -/
def withPrinted (text : String) (s : Session) : Session :=
  { s with bench := s.bench.withPrinted text }

variable {printed : String}

theorem commutes_onBench {α : Type} {action : Action α}
    (h : Commutes (Bench.withPrinted printed) action) :
    Commutes (withPrinted printed) (onBench action) := by
  intro s
  have hAction := h s.bench
  have hSame : (s.withPrinted printed).bench = s.bench.withPrinted printed := rfl
  rw [onBench, onBench, hSame, hAction]
  cases action s.bench <;> rfl

theorem commutes_circuitNow : Commutes (withPrinted printed) circuitNow :=
  fun _ => rfl

theorem commutes_loadConstraints : Commutes (withPrinted printed) loadConstraints := by
  refine commutes_circuitNow.bind fun c => ?_
  split
  · exact commutes_pure _
  · refine (commutes_onBench (commutes_readFile _ _)).bind fun system => ?_
    exact Commutes.bind (commutes_modify fun _ => rfl) fun _ => commutes_pure system

theorem commutes_loadSymbols : Commutes (withPrinted printed) loadSymbols := by
  refine commutes_circuitNow.bind fun c => ?_
  split
  · exact commutes_pure _
  · refine (commutes_onBench (commutes_readFile _ _)).bind fun table => ?_
    exact Commutes.bind (commutes_modify fun _ => rfl) fun _ => commutes_pure table

theorem commutes_generate (c : Circuit) (node : Program) (work : String) (prime : Int)
    (inputs : Value) : Commutes (Bench.withPrinted printed) (generate c node work prime inputs) := by
  refine (commutes_attempt _).bind fun document => ?_
  refine (commutes_writeDocument _ _ _).bind fun _ => (commutes_run _ _ _).bind fun outcome => ?_
  refine Commutes.bind ?_ fun _ => (commutes_readFile _ _).bind fun file => commutes_pure _
  refine (commutes_throw _).ite ?_
  exact (commutes_ask fun _ => rfl).bind fun there => (commutes_pure ()).ite (commutes_throw _)

theorem commutes_computeWitness (c : Circuit) (prime : Int) (inputs : Value) :
    Commutes (Bench.withPrinted printed) (computeWitness c prime inputs) := by
  refine (commutes_attempt _).bind fun options => ?_
  refine (commutes_requireProgram _ _ _).bind fun node => ?_
  refine (commutes_openFolder _ _).bind fun work => ?_
  refine (commutes_generate _ _ _ _ _).bind fun values => ?_
  exact Commutes.bind (commutes_modify fun _ => rfl) fun _ => commutes_pure values

theorem commutes_calculateWitness (inputs : Value) (strict : Bool) :
    Commutes (withPrinted printed) (calculateWitness inputs strict) := by
  refine commutes_loadConstraints.bind fun system => Commutes.bind ?_ fun _ => ?_
  · refine Commutes.ite ?_ (commutes_pure ())
    exact commutes_loadSymbols.bind fun symbols => commutes_attempt _
  · refine commutes_circuitNow.bind fun c => ?_
    refine (commutes_onBench (commutes_computeWitness _ _ _)).bind fun values => ?_
    exact (commutes_throw _).ite (commutes_pure values)

/-- The execution of a circuit does not look at what was printed. -/
theorem commutes_execute (inputs : Value) : Commutes (withPrinted printed) (execute inputs) := by
  refine (commutes_calculateWitness inputs true).bind fun witness => Commutes.bind ?_ fun _ => ?_
  · refine commutes_loadConstraints.bind fun system => ?_
    exact commutes_circuitNow.bind fun c => commutes_attempt _
  · exact (commutes_loadSymbols.bind fun _ => commutes_pure ()).bind fun _ => commutes_pure witness

end Session

end CircuitBench
