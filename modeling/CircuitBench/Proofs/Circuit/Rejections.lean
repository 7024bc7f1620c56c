import CircuitBench.Proofs.Circuit.Kept
import CircuitBench.Proofs.Pipeline.Leftovers

/-!
# What the work on a witness leaves behind

Under the strict check the work on a witness goes through four doors before anything is done: the
constraints and the symbols must be found, the inputs must fit, and the interpreter must be there.
Work that is turned away at one of them has done nothing but read.  Only then a folder is opened, a
document is written into it and the interpreter is run; when a witness comes out of that, the folder
is gone again with all that lay in it.

What the interpreter writes elsewhere, if the path of the witness leads elsewhere from its folder,
does not matter for this: it makes no folder go away, so the way to the work folder stays.

## Main results

* `Session.Rejected` : the reasons to turn work away.
* `Session.calculateWitness_leaves_no_trace` : work that is turned away leaves no trace, and work
  that succeeds leaves no folder.
-/

namespace CircuitBench

open CircuitBench.Path Disk

namespace Session

open Bench

/-! ## Turned away -/

/-- Whether the strict work of a circuit on inputs is turned away, and with which failure: a file is
not found, the inputs do not fit, or the interpreter is not found. -/
inductive Rejected (inputs : Value) (s : Session) : Error → Prop
  | constraints {e : Error} (missing : s.found .constraints = .error e) : Rejected inputs s e
  | symbols {system : ConstraintSystem} {e : Error}
      (constraints : s.found .constraints = .ok system)
      (missing : s.found .symbols = .error e) : Rejected inputs s e
  | inputs {system : ConstraintSystem} {table : SymbolTable} {e : Error}
      (constraints : s.found .constraints = .ok system) (symbols : s.found .symbols = .ok table)
      (refused : checkInputs table system.toConstraintHeader inputs = .error e) :
      Rejected inputs s e
  | interpreter {system : ConstraintSystem} {table : SymbolTable} {options : Table} {e : Error}
      (constraints : s.found .constraints = .ok system) (symbols : s.found .symbols = .ok table)
      (fit : checkInputs table system.toConstraintHeader inputs = .ok ())
      (built : s.circuit.options.record = .ok options)
      (missing : requireProgram (options.getD "node" .null) "node" interpreterAdvice s.bench =
        .error e s.bench) : Rejected inputs s e

section Doors

variable {inputs : Value} {s : Session} {system : ConstraintSystem} {table : SymbolTable}

/-- Reading the constraints does not change what is found of the symbols. -/
theorem found_symbols_keeping (s : Session) (system : ConstraintSystem) :
    (s.keeping .constraints system).found .symbols = s.found .symbols := by
  apply found_keeping_of_ne
  decide

theorem onlyRead_keepingBoth (hConstraints : s.found .constraints = .ok system)
    (hSymbols : s.found .symbols = .ok table) : s.OnlyRead (s.keepingBoth system table) :=
  ((OnlyRead.refl s).keeping hConstraints).keeping ((found_symbols_keeping s system).trans hSymbols)

/-- The strict check finds the symbols before it looks at the inputs. -/
theorem strictCheck_of_found (hSymbols : s.found .symbols = .ok table) :
    strictCheck true system inputs (s.keeping .constraints system) =
      (attempt (checkInputs table system.toConstraintHeader inputs) : Step Unit)
        (s.keepingBoth system table) :=
  bind_ok (load_of_found ((found_symbols_keeping s system).trans hSymbols))

theorem strictCheck_of_not_found {e : Error} (hSymbols : s.found .symbols = .error e) :
    strictCheck true system inputs (s.keeping .constraints system) =
      .error e (s.keeping .constraints system) :=
  bind_error (load_of_not_found ((found_symbols_keeping s system).trans hSymbols))

/-- Work that is turned away has done nothing but read. -/
theorem calculateWitness_of_rejected {e : Error} (h : Rejected inputs s e) :
    ∃ s', calculateWitness inputs true s = .error e s' ∧ s.OnlyRead s' := by
  have hLoad : ∀ {system}, s.found .constraints = .ok system →
      loadConstraints s = .ok system (s.keeping .constraints system) := fun h => load_of_found h
  cases h with
  | constraints hMissing => exact ⟨s, bind_error (load_of_not_found hMissing), OnlyRead.refl s⟩
  | symbols hConstraints hMissing =>
      refine ⟨_, ?_, (OnlyRead.refl s).keeping hConstraints⟩
      rw [calculateWitness, bind_ok (hLoad hConstraints)]
      exact bind_error (strictCheck_of_not_found hMissing)
  | inputs hConstraints hSymbols hRefused =>
      refine ⟨_, ?_, onlyRead_keepingBoth hConstraints hSymbols⟩
      rw [calculateWitness, bind_ok (hLoad hConstraints)]
      refine bind_error ?_
      rw [strictCheck_of_found hSymbols, hRefused]
      rfl
  | @interpreter system table options _ hConstraints hSymbols hFit hOptions hMissing =>
      refine ⟨_, ?_, onlyRead_keepingBoth hConstraints hSymbols⟩
      have hStrict : strictCheck true system inputs (s.keeping .constraints system) =
          .ok () (s.keepingBoth system table) := by
        rw [strictCheck_of_found hSymbols, hFit]
        rfl
      -- reading has changed neither the options nor the bench
      have hCompute : computeWitness (s.keepingBoth system table).circuit system.prime inputs
          s.bench = .error e s.bench := by
        rw [computeWitness, show (s.keepingBoth system table).circuit.options.record = .ok options
          from hOptions, attempt_bind_ok rfl]
        exact bind_error hMissing
      rw [calculateWitness, bind_ok (hLoad hConstraints), bind_ok hStrict]
      refine (bind_ok rfl).trans (bind_error ?_)
      show onBench (computeWitness (s.keepingBoth system table).circuit system.prime inputs)
        (s.keepingBoth system table) = _
      rw [onBench, show (s.keepingBoth system table).bench = s.bench from rfl, hCompute]
      rfl

end Doors

/-! ## Cleared up -/

/-- Whether the work of a circuit on a witness has been cleared up at its end: the folder that it
opened, at a place that was free, is gone with all that lay in it, and one program was run, which
was the interpreter. -/
def ClearedUp (c : Circuit) (b b' : Bench) : Prop :=
  ∃ (work : String) (opened : Bench) (r : ToolRun),
    openFolder (c.name ++ "_wtns_") none b = .ok work opened ∧
    b.disk.get? (resolve b.current work) = none ∧
    opened.disk.get? (resolve b.current work) = some .folder ∧
    (∀ l, isBelow (resolve b.current work) l = true → b'.disk.get? l = none) ∧
    b'.runs = b.runs ++ [r] ∧ r.tool = .node ∧ r.arguments = generatorArguments c work

section Work

variable {b : Bench} {work folder lead : String} {n : Nat} {l : Location} {d : Disk}

/-- What is generated in a fresh work folder is one run, and all folders are still there. -/
theorem generate_keeps_folders {c : Circuit} {node : Program} {prime : Int} {inputs : Value}
    {values : List Nat} {b' : Bench} (hTree : b.disk.IsTree) (hOpens : Opens b work n l .folder d)
    (hPath : work = join folder (lead ++ Registry.token n)) (hSlash : '/' ∉ lead.toList)
    (h : generate c node work prime inputs (b.withOpened work n d) = .ok values b') :
    b'.current = b.current ∧ (∀ m, d.get? m = some .folder → b'.disk.get? m = some .folder) ∧
      ∃ r : ToolRun, b'.runs = b.runs ++ [r] ∧ r.arguments = generatorArguments c work := by
  have hStart : AfterWork b [] (b.withOpened work n d) :=
    ⟨rfl, rfl, (List.append_nil _).symm, trivial⟩
  rw [generate] at h
  obtain ⟨document, b₁, hDocument, h⟩ := bind_eq_ok h
  obtain ⟨-, rfl⟩ := attempt_eq_ok hDocument
  obtain ⟨_, b₂, hWrite, h⟩ := bind_eq_ok h
  have hWritten := writeInput_adds document hTree hOpens hPath hSlash
  rw [hWrite] at hWritten
  have h₂ := (AfterRuns.writeDocument_any _ _ _).of_ok hWrite hStart
  obtain ⟨o, b₃, hRun, h⟩ := bind_eq_ok h
  obtain ⟨_, hRan⟩ := generator_adds (generatorArguments_no_output c work) hRun
  obtain ⟨r, -, hArguments, -, -, -, h₃⟩ := h₂.run hRun
  have hAfter : Preserves (fun b₄ => b₄ = b₃) _ := preserves_afterRun c work o
  rw [hAfter.of_ok h rfl]
  exact ⟨h₃.current, fun m hm => hRan.disk.kept m (hWritten.disk.kept m hm), r, h₃.runs,
    hArguments⟩

/-- A work folder that is there when it is cleared is gone then. -/
theorem clearWork_eq {b₁ : Bench} (hTree : b.disk.IsTree) (hOpens : Opens b work n l .folder d)
    (hCurrent : b₁.current = b.current)
    (hKept : ∀ m, d.get? m = some .folder → b₁.disk.get? m = some .folder) :
    ∃ d', clearWork work b₁ = .ok () (b₁.afterRemoval d') ∧
      ∀ m, isBelow l m = true → d'.get? m = none := by
  have hPlace : b₁.disk.locate b₁.current work = .ok ⟨l, false⟩ := by
    rw [hCurrent]
    exact locate_of_folders (fun m hm => hKept m (hOpens.growsTo.kept m hm)) hOpens.place
  have hCleared := clearedAt_clearFolder hPlace
    (not_endsWithDots_of_free hTree hOpens.place hOpens.free) hOpens.inside
    (hKept l hOpens.isFolder)
  refine ⟨_, rfl, fun m hm => ?_⟩
  rw [hCleared m, if_pos hm]

/-- A witness that is computed leaves no work folder. -/
theorem computeWitness_clearedUp {c : Circuit} {prime : Int} {inputs : Value} {values : List Nat}
    {b' : Bench} (hTree : b.disk.IsTree) (hName : '/' ∉ c.name.toList)
    (h : computeWitness c prime inputs b = .ok values b') : ClearedUp c b b' := by
  obtain ⟨r, _, hWrote, hRuns⟩ := computeWitness_eq_ok (afterRuns_self hTree) h
  rw [computeWitness] at h
  obtain ⟨options, b₁, hOptions, h⟩ := bind_eq_ok h
  obtain ⟨-, hStill⟩ := attempt_eq_ok hOptions
  rw [← hStill] at h
  obtain ⟨node, b₂, hNode, h⟩ := bind_eq_ok h
  have hSame := requireProgram_state (options.getD "node" .null) "node" interpreterAdvice b
  rw [hNode] at hSame
  rw [show b₂ = b from hSame] at h
  obtain ⟨path, n, l, d, hOpens, hPath, hWork⟩ : ∃ path n l d, Opens b path n l .folder d ∧
      path = join ((b.registry.folder none).getD b.temporary)
        (c.name ++ "_wtns_" ++ Registry.token n) ∧
      openFolder (c.name ++ "_wtns_") none b = .ok path (b.withOpened path n d) := by
    rcases openFolder_cases (c.name ++ "_wtns_") none b with hOpened | ⟨e, n, -, hFails⟩
    · exact hOpened
    · rw [bind_error hFails] at h
      cases h
  rw [bind_ok hWork] at h
  have hSlash : '/' ∉ (c.name ++ "_wtns_").toList := slash_not_mem_append hName (by decide)
  have hLocation : l = resolve b.current path := locate_eq_ok hOpens.place
  obtain ⟨generated, b₃, hGenerate, h⟩ := bind_eq_ok h
  obtain ⟨hCurrent, hKept, made, hMade, hArguments⟩ :=
    generate_keeps_folders hTree hOpens hPath hSlash hGenerate
  obtain ⟨d', hClear, hGone⟩ := clearWork_eq hTree hOpens hCurrent hKept
  rw [bind_ok hClear] at h
  obtain ⟨-, rfl⟩ := pure_eq_ok h
  -- the run that wrote the witness is the one that was made in the work folder
  have hSameRun : made = r :=
    List.singleton_inj.mp (List.append_cancel_left (hMade.symm.trans hRuns))
  refine ⟨path, _, r, hWork, ?_, ?_, ?_, hRuns, hWrote.tool, hSameRun ▸ hArguments⟩
  · rw [← hLocation]
    exact hOpens.free
  · rw [← hLocation]
    exact hOpens.isFolder
  · rw [← hLocation]
    exact hGone

end Work

/-- A witness that is calculated leaves no work folder. -/
theorem calculateWitness_clearedUp {s s' : Session} {source output : String}
    (hTree : s.bench.disk.IsTree) (hOf : s.circuit.IsOf source output) {inputs : Value}
    {strict : Bool} {values : List Nat} (h : calculateWitness inputs strict s = .ok values s') :
    ClearedUp s.circuit s.bench s'.bench := by
  have hName : '/' ∉ s.circuit.name.toList := by
    rw [hOf.name]
    exact FilePath.slash_not_mem_stem source
  have hRead : HasRead s s := ⟨s.circuit.symbols, s.circuit.constraints, rfl⟩
  have hStrict : ∀ system, Preserves (HasRead s) (strictCheck strict system inputs) := by
    intro system
    refine Preserves.ite ?_ (preserves_pure ())
    exact (hasRead_loadSymbols s).bind fun symbols => preserves_attempt _
  obtain ⟨system, s₁, hLoad, h⟩ := bind_eq_ok h
  obtain ⟨_, s₂, hChecked, h⟩ := bind_eq_ok h
  obtain ⟨symbols, constraints, rfl⟩ :=
    (hStrict system).of_ok hChecked ((hasRead_loadConstraints s).of_ok hLoad hRead)
  obtain ⟨c, s₃, hNow, h⟩ := bind_eq_ok h
  cases hNow
  obtain ⟨computed, s₄, hBench, h⟩ := bind_eq_ok h
  obtain ⟨b, hCompute, rfl⟩ := onBench_eq_ok hBench
  have hCleared : ClearedUp s.circuit s.bench b := computeWitness_clearedUp hTree hName hCompute
  split at h
  · cases h
  · obtain ⟨-, rfl⟩ := pure_eq_ok h
    exact hCleared

/-- Rejected inputs leave no trace.  Under the strict check, if a file of the circuit cannot be
found, the inputs do not fit it, or the interpreter is not found, then the work on a witness fails
with that, and nothing has happened but that files of the circuit were read and kept: the bench is
as it was, with its disk, its registry and the runs that were made.  And whenever a witness is
returned, the folder that was made for the work on it is there no longer, and one program was run,
the interpreter. -/
theorem calculateWitness_leaves_no_trace {s : Session} {source output : String}
    (hTree : s.bench.disk.IsTree) (hOf : s.circuit.IsOf source output) (inputs : Value) :
    (∀ e, Rejected inputs s e →
      ∃ s', calculateWitness inputs true s = .error e s' ∧ s.OnlyRead s') ∧
    ∀ strict values s', calculateWitness inputs strict s = .ok values s' →
      ClearedUp s.circuit s.bench s'.bench :=
  ⟨fun _ hRejected => calculateWitness_of_rejected hRejected,
    fun _ _ _ hEnd => calculateWitness_clearedUp hTree hOf hEnd⟩

/-- A circuit that squares its input, compiled into a folder at a bench with an interpreter. -/
def squareSession : Session where
  bench := { squareBench with
    disk := ⟨squareBench.disk.nodes ++ [(["build"], .folder), (["build", "square_js"], .folder),
      (["build", "square.r1cs"], .file (squareCompilation.constraints.getD [])),
      (["build", "square.sym"], .file (squareCompilation.symbols.getD []))]⟩ }
  circuit := Circuit.ofPaths "square.circom" "build" (.table []) false

/-- The system and the symbols of that circuit. -/
def squareSystem : ConstraintSystem :=
  ⟨⟨7, 1, 3, 1, 0, 1, 3, 1⟩, [⟨[(2, 1)], [(2, 1)], [(1, 1)]⟩]⟩

def squareSymbols : SymbolTable :=
  [("main.c", ⟨1, 1, 0⟩), ("main.a", ⟨2, 2, 0⟩)]

/-- An input of another name is turned away; for the right one there is a witness. -/
theorem calculateWitness_square :
    (∃ e s', calculateWitness (.table [(.text "b", .int 3)]) true squareSession = .error e s' ∧
      squareSession.OnlyRead s') ∧
    ∃ s', calculateWitness (.table [(.text "a", .int 10)]) true squareSession = .ok [1, 2, 3] s' ∧
      ClearedUp squareSession.circuit squareSession.bench s'.bench := by
  have hTree : squareSession.bench.disk.IsTree := Disk.isTree_of_nodes (by decide)
  have hOf : squareSession.circuit.IsOf "square.circom" "build" := ⟨rfl, rfl⟩
  have hConstraints : squareSession.found .constraints = .ok squareSystem :=
    Except.eq_ok_of_toOption (by decide +kernel)
  have hSymbols : squareSession.found .symbols = .ok squareSymbols :=
    Except.eq_ok_of_toOption (by decide +kernel)
  have hRefused : (checkInputs squareSymbols squareSystem.toConstraintHeader
      (.table [(.text "b", .int 3)])).toOption = none := by
    decide +kernel
  constructor
  · cases hCheck : checkInputs squareSymbols squareSystem.toConstraintHeader
        (.table [(.text "b", .int 3)]) with
    | ok _ =>
        rw [hCheck] at hRefused
        cases hRefused
    | error e =>
        exact ⟨e, (calculateWitness_leaves_no_trace hTree hOf _).1 e
          (.inputs hConstraints hSymbols hCheck)⟩
  · have hWitness : (outcome (calculateWitness (.table [(.text "a", .int 10)]) true)
        squareSession).1.toOption = some [1, 2, 3] := by
      decide +kernel
    obtain ⟨s', hEnd⟩ := ok_of_outcome hWitness
    exact ⟨s', hEnd, (calculateWitness_leaves_no_trace hTree hOf _).2 _ _ _ hEnd⟩

end Session

end CircuitBench
