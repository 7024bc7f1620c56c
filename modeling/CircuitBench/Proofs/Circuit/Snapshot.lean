import CircuitBench.Proofs.Circuit.Kept
import CircuitBench.Proofs.Circuit.Rejections
import CircuitBench.Proofs.Circuit.Workshop

/-!
# One snapshot of a circuit

A circuit is used in eight ways, and most of them need one of its files or both, in an order of
their own.  Every use comes to the same as far as the files go: they are fetched one after another
before anything else is done; if one is not found the use ends there, and what was fetched before it
stays fetched; what is done afterwards does not touch what is kept.

In between anything may happen at the bench, so a file may be another one, or gone, from one use to
the next.  What is kept of a file is what the first read of it gave that did not fail, for as long
as the circuit is used.

## Main results

* `Session.Fetches` : a use that fetches some files first, and keeps nothing else.
* `CircuitUse.fetches` : every use does.
* `Session.kept_run` : what is kept after a run is what the first successful read gave.
* `Session.run_snapshot` : a circuit works on one snapshot of its files.
-/

namespace CircuitBench

open Bench

namespace Session

/-! ## Fetching -/

/-- Loads files one after another. -/
def fetch : List CircuitFile → Step Unit
  | [] => pure ()
  | f :: rest => do
    let _ ← load f
    fetch rest

/-- The files that are asked for when some are fetched: those up to the first that is not found. -/
def asked (s : Session) : List CircuitFile → List CircuitFile
  | [] => []
  | f :: rest =>
    match s.found f with
    | .ok _ => f :: asked s rest
    | .error _ => [f]

variable {s : Session} {f g : CircuitFile} {files : List CircuitFile}

theorem asked_keeping {a : f.Content} (h : s.found f = .ok a) (files : List CircuitFile) :
    (s.keeping f a).asked files = s.asked files := by
  induction files with
  | nil => rfl
  | cons g rest ih => rw [asked, asked, found_keeping h, ih]

/-- Fetching leaves the bench as it is, and of each file that it asks for it keeps what it finds. -/
theorem endState_fetch (files : List CircuitFile) (s : Session) :
    (endState (fetch files s)).bench = s.bench ∧ ∀ g, (endState (fetch files s)).circuit.kept g =
      if g ∈ s.asked files then (s.found g).toOption else s.circuit.kept g := by
  induction files generalizing s with
  | nil => exact ⟨rfl, fun g => (if_neg List.not_mem_nil).symm⟩
  | cons f rest ih =>
      rw [fetch, asked]
      cases hFound : s.found f with
      | error e =>
          rw [bind_error (load_of_not_found hFound)]
          refine ⟨rfl, fun g => ?_⟩
          dsimp only
          by_cases hMem : g ∈ [f]
          · rw [if_pos hMem]
            obtain rfl := List.mem_singleton.mp hMem
            -- a file that is not found is not kept either
            cases hKept : s.circuit.kept g with
            | none =>
                rw [hFound]
                exact hKept
            | some a => cases hFound.symm.trans (found_of_kept hKept)
          · rw [if_neg hMem]
            rfl
      | ok a =>
          rw [bind_ok (load_of_found hFound)]
          obtain ⟨hBench, hKept⟩ := ih (s.keeping f a)
          refine ⟨hBench, fun g => ?_⟩
          rw [hKept, asked_keeping hFound, found_keeping hFound]
          dsimp only
          by_cases hMem : g ∈ s.asked rest
          · rw [if_pos hMem, if_pos (List.mem_cons_of_mem f hMem)]
          · rw [if_neg hMem]
            by_cases hSame : g = f
            · subst hSame
              rw [if_pos List.mem_cons_self, kept_keeping_self, hFound]
              rfl
            · rw [if_neg (by simp [hSame, hMem]), kept_keeping_of_ne hSame]

/-- A file that is asked for and not found makes fetching fail. -/
theorem fetch_of_not_found {e : Error} (hAsked : g ∈ s.asked files) (h : s.found g = .error e) :
    ∃ s', fetch files s = .error e s' := by
  induction files generalizing s with
  | nil => exact absurd hAsked List.not_mem_nil
  | cons f rest ih =>
      rw [asked] at hAsked
      rw [fetch]
      cases hFound : s.found f with
      | error e' =>
          rw [hFound] at hAsked
          obtain rfl := List.mem_singleton.mp hAsked
          cases hFound.symm.trans h
          exact ⟨s, bind_error (load_of_not_found hFound)⟩
      | ok a =>
          rw [hFound] at hAsked
          rw [bind_ok (load_of_found hFound)]
          rcases List.mem_cons.mp hAsked with rfl | hLater
          · cases hFound.symm.trans h
          · exact ih (by rwa [asked_keeping hFound]) (by rwa [found_keeping hFound])

/-- Whether a step fetches some files before anything else: if that fails the step fails with it,
and otherwise nothing else is kept afterwards. -/
def Fetches {α : Type} (files : List CircuitFile) (x : Step α) : Prop :=
  ∀ s, match fetch files s with
    | .ok _ s' => (endState (x s)).circuit = s'.circuit
    | .error e s' => x s = .error e s'

section Steps

variable {α β : Type}

/-- A step that leaves the circuit alone fetches nothing. -/
theorem fetches_nil {x : Step α} (h : ∀ c, Preserves (fun s : Session => s.circuit = c) x) :
    Fetches [] x :=
  fun s => h s.circuit s rfl

theorem fetches_attempt (result : Except Error α) : Fetches [] (attempt result : Step α) :=
  fetches_nil fun _ => preserves_attempt result

/-- A step that loads a file fetches it first. -/
theorem Fetches.load_bind {k : f.Content → Step β} (h : ∀ a, Fetches files (k a)) :
    Fetches (f :: files) (load f >>= k) := by
  intro s
  rw [fetch]
  cases hFound : s.found f with
  | error e =>
      rw [bind_error (load_of_not_found hFound), bind_error (load_of_not_found hFound)]
  | ok a =>
      rw [bind_ok (load_of_found hFound), bind_ok (load_of_found hFound)]
      exact h a (s.keeping f a)

/-- What comes behind a step, and leaves the circuit alone, makes no difference. -/
theorem Fetches.bind {x : Step α} {k : α → Step β} (h : Fetches files x)
    (hRest : ∀ a c, Preserves (fun s : Session => s.circuit = c) (k a)) :
    Fetches files (x >>= k) := by
  intro s
  have hStep := h s
  cases hFetch : fetch files s with
  | error e s' =>
      rw [hFetch] at hStep
      exact bind_error hStep
  | ok _ s' =>
      rw [hFetch] at hStep
      dsimp only at hStep ⊢
      refine endState_bind (P := fun s'' : Session => s''.circuit = s'.circuit)
        (fun e s₁ hFails => ?_) fun a s₁ hEnd => ?_
      · rwa [hFails] at hStep
      · rw [hEnd] at hStep
        exact hRest a _ s₁ hStep

end Steps

end Session

/-! ## Uses -/

/-- What a circuit is used for. -/
inductive CircuitUse
  | loadConstraints
  | loadSymbols
  | calculateWitness (inputs : Value) (strict : Bool)
  | checkConstraints (witness : Value)
  | getOutput (witness names : Value)
  | decoratedOutput (witness : Value)
  | assertOutputs (witness expected : Value)
  | release

namespace CircuitUse

/-- Uses a circuit, for what that leaves behind. -/
def step : CircuitUse → Step Unit
  | loadConstraints => Session.loadConstraints >>= fun _ => pure ()
  | loadSymbols => Session.loadSymbols >>= fun _ => pure ()
  | calculateWitness inputs strict => Session.calculateWitness inputs strict >>= fun _ => pure ()
  | checkConstraints witness => Session.checkLoosely witness
  | getOutput witness names => Session.getOutput witness.entry names >>= fun _ => pure ()
  | decoratedOutput witness => Session.decoratedOutput witness.entry >>= fun _ => pure ()
  | assertOutputs witness expected => Session.assertLoosely witness expected
  | release => Session.release

/-- The files that a use needs, in the order in which it needs them. -/
def files : CircuitUse → List CircuitFile
  | loadConstraints => [.constraints]
  | loadSymbols => [.symbols]
  | calculateWitness _ strict => if strict then [.constraints, .symbols] else [.constraints]
  | checkConstraints _ => [.constraints]
  | getOutput _ _ => [.symbols]
  | decoratedOutput _ => [.symbols]
  | assertOutputs _ _ => [.symbols, .constraints]
  | release => []

open Session

/-- The work on a witness fetches the constraints, and under the strict check the symbols. -/
theorem fetches_calculateWitness (inputs : Value) (strict : Bool) :
    Fetches (files (.calculateWitness inputs strict)) (Session.calculateWitness inputs strict) := by
  have hRest : ∀ system : ConstraintSystem, ∀ c, Preserves (fun s : Session => s.circuit = c) (do
      let c ← circuitNow
      let values ← onBench (computeWitness c system.prime inputs)
      if strict ∧ values.length ≠ system.wires then
        throw (.circuit (.witness (.wrongLength values.length system.wires) none))
      else return values) := by
    intro system c
    refine Preserves.bind (fun s h => h) fun _ => ?_
    refine (preserves_onBench_circuit (P := fun c' => c' = c) _).bind fun values => ?_
    exact (preserves_throw _).ite (preserves_pure values)
  cases strict with
  | false =>
      refine Fetches.load_bind (f := .constraints) fun system => ?_
      exact (fetches_nil fun _ => preserves_pure ()).bind fun _ => hRest system
  | true =>
      refine Fetches.load_bind (f := .constraints) fun system => ?_
      refine Fetches.bind ?_ fun _ => hRest system
      exact Fetches.load_bind (f := .symbols) fun table => fetches_attempt _

/-- Every use fetches the files that it needs before anything else. -/
theorem fetches (u : CircuitUse) : Fetches u.files u.step := by
  have hDone : ∀ c, Preserves (fun s : Session => s.circuit = c) (pure () : Step Unit) :=
    fun _ => preserves_pure ()
  cases u with
  | loadConstraints => exact Fetches.load_bind (f := .constraints) fun _ => fetches_nil hDone
  | loadSymbols => exact Fetches.load_bind (f := .symbols) fun _ => fetches_nil hDone
  | calculateWitness inputs strict =>
      exact (fetches_calculateWitness inputs strict).bind fun _ => hDone
  | checkConstraints witness =>
      refine Fetches.load_bind (f := .constraints) fun system => fetches_nil fun c => ?_
      exact Preserves.bind (fun s h => h) fun _ => preserves_attempt _
  | getOutput witness names =>
      exact (Fetches.load_bind (f := .symbols) fun _ => fetches_attempt _).bind fun _ => hDone
  | decoratedOutput witness =>
      exact (Fetches.load_bind (f := .symbols) fun _ => fetches_attempt _).bind fun _ => hDone
  | assertOutputs witness expected =>
      refine Fetches.load_bind (f := .symbols) fun table => ?_
      exact Fetches.load_bind (f := .constraints) fun system => fetches_attempt _
  | release =>
      refine fetches_nil fun c => ?_
      intro s hs
      show (endState (Session.release s)).circuit = c
      rw [endState_release]
      split <;> exact hs

/-- What is kept after a use: of the files that it asks for what is found of them, of the other one
what was kept before. -/
theorem kept_step (u : CircuitUse) (s : Session) (f : CircuitFile) :
    (endState (u.step s)).circuit.kept f =
      if f ∈ s.asked u.files then (s.found f).toOption else s.circuit.kept f := by
  have hUse := u.fetches s
  have hFetch := (endState_fetch u.files s).2 f
  cases hEnd : fetch u.files s with
  | ok _ s' =>
      rw [hEnd] at hUse hFetch
      rw [← hFetch, show (endState (u.step s)).circuit = s'.circuit from hUse]
      rfl
  | error e s' =>
      rw [hEnd] at hUse hFetch
      rw [← hFetch, show u.step s = .error e s' from hUse]

/-- A use that asks for a file and does not find it fails, and has done nothing at the bench. -/
theorem step_of_not_found {u : CircuitUse} {s : Session} {f : CircuitFile} {e : Error}
    (hAsked : f ∈ s.asked u.files) (h : s.found f = .error e) :
    ∃ s', u.step s = .error e s' ∧ s'.bench = s.bench := by
  obtain ⟨s', hFails⟩ := fetch_of_not_found hAsked h
  have hUse := u.fetches s
  have hBench := (endState_fetch u.files s).1
  rw [hFails] at hUse hBench
  exact ⟨s', hUse, hBench⟩

end CircuitUse

namespace Session

/-! ## Runs -/

/-- A move in a run: the circuit is used, or something else happens at the bench. -/
inductive Move
  | use (u : CircuitUse)
  | meanwhile (change : Bench → Bench)

/-- The session after a move. -/
def after (s : Session) : Move → Session
  | .use u => endState (u.step s)
  | .meanwhile change => { s with bench := change s.bench }

/-- The session after some moves. -/
def run (s : Session) (moves : List Move) : Session :=
  moves.foldl after s

/-- What a file is read as in a move, if it is read: if a use asks for it and it is not kept. -/
def reads (f : CircuitFile) (s : Session) : Move → List (Except Error f.Content)
  | .use u => if f ∈ s.asked u.files ∧ (s.circuit.kept f).isNone then [s.reading f] else []
  | .meanwhile _ => []

/-- What a file is read as in a run, read by read. -/
def readsIn (f : CircuitFile) (s : Session) : List Move → List (Except Error f.Content)
  | [] => []
  | m :: rest => s.reads f m ++ (s.after m).readsIn f rest

/-- What is kept after a move: what was kept before, or else what was read. -/
theorem kept_after (f : CircuitFile) (s : Session) (m : Move) :
    (s.after m).circuit.kept f =
      (s.circuit.kept f).or ((s.reads f m).findSome? Except.toOption) := by
  cases m with
  | «meanwhile» change =>
      show s.circuit.kept f = (s.circuit.kept f).or none
      rw [Option.or_none]
  | use u =>
      rw [after, u.kept_step, reads]
      cases hKept : s.circuit.kept f with
      | some a =>
          rw [found_of_kept hKept]
          split <;> rfl
      | none =>
          rw [found_of_not_kept hKept]
          by_cases hAsked : f ∈ s.asked u.files
          · rw [if_pos hAsked, if_pos ⟨hAsked, rfl⟩]
            cases s.reading f <;> rfl
          · rw [if_neg hAsked, if_neg fun h => hAsked h.1]
            rfl

/-- What is kept after a run is what was kept before, or else what the first read of the file gave
that did not fail. -/
theorem kept_run (f : CircuitFile) (s : Session) (moves : List Move) :
    (s.run moves).circuit.kept f =
      (s.circuit.kept f).or ((s.readsIn f moves).findSome? Except.toOption) := by
  induction moves generalizing s with
  | nil =>
      show s.circuit.kept f = (s.circuit.kept f).or none
      rw [Option.or_none]
  | cons m rest ih =>
      show ((s.after m).run rest).circuit.kept f = _
      rw [ih, kept_after, readsIn, List.findSome?_append, Option.or_assoc]

/-- What is kept stays kept. -/
theorem kept_run_of_kept {f : CircuitFile} {s : Session} {a : f.Content}
    (h : s.circuit.kept f = some a) (moves : List Move) :
    (s.run moves).circuit.kept f = some a := by
  rw [kept_run, h]
  rfl

/-! ## Verdicts -/

/-- A failure without the names of wires. -/
def nameless : Error → Error
  | .circuit (.constraint (.violated index terms _)) =>
    .circuit (.constraint (.violated index terms []))
  | e => e

/-- The symbols that are kept only serve to name wires. -/
theorem nameless_checkValues (system : ConstraintSystem) (symbols : Option SymbolTable)
    (witness : Value) :
    (checkValues system symbols witness).mapError nameless =
      (checkValues system none witness).mapError nameless := by
  have hReport : ∀ found, (reportViolation system symbols found).mapError nameless =
      (reportViolation system none found).mapError nameless := by
    intro found
    cases found with
    | nil => rfl
    | cons index _ =>
        rw [reportViolation, reportViolation]
        cases system.constraints[index]? <;> rfl
  have hBind : ∀ {α : Type} (x : Except Error α) {k k' : α → Except Error Unit},
      (∀ a, (k a).mapError nameless = (k' a).mapError nameless) →
      (x >>= k).mapError nameless = (x >>= k').mapError nameless := by
    intro α x k k' h
    cases x with
    | error e => rfl
    | ok a => exact h a
  rw [checkValues, checkValues]
  refine hBind _ fun length => ?_
  split
  · rfl
  refine hBind _ fun constant => hBind _ fun one => hBind _ fun same => ?_
  split
  · exact hBind _ hReport
  · rfl

/-- What a check says of a witness when the constraints are kept. -/
theorem outcome_checkLoosely {s : Session} {system : ConstraintSystem}
    (h : s.circuit.constraints = some system) (witness : Value) :
    (outcome (checkLoosely witness) s).1 = checkValues system s.circuit.symbols witness := by
  rw [outcome, checkLoosely, bind_ok (loadConstraints_of_some h),
    bind_ok (rfl : circuitNow s = .ok s.circuit s)]
  cases hCheck : checkValues system s.circuit.symbols witness <;> rfl

/-- A circuit works on one snapshot of its files.  In any run of uses, between which anything may
happen at the bench: what is kept of a file is what the first read of it gave that did not fail, so
nothing before that, and it stays; a read that fails makes the use fail, with nothing done at the
bench, and leaves the file unkept; and once the constraints are kept, a check says the same of a
witness for the rest of the run, but for the names of wires. -/
theorem run_snapshot (s : Session) (moves : List Move) :
    (∀ f, (s.run moves).circuit.kept f =
      (s.circuit.kept f).or ((s.readsIn f moves).findSome? Except.toOption)) ∧
    (∀ f a, (s.run moves).circuit.kept f = some a →
      ∀ more, ((s.run moves).run more).circuit.kept f = some a) ∧
    (∀ (u : CircuitUse) f e, f ∈ (s.run moves).asked u.files → (s.run moves).circuit.kept f = none →
      (s.run moves).reading f = .error e →
        ∃ s', u.step (s.run moves) = .error e s' ∧ s'.bench = (s.run moves).bench ∧
          s'.circuit.kept f = none) ∧
    ∀ system, (s.run moves).circuit.kept .constraints = some system → ∀ more witness,
      (outcome (checkLoosely witness) ((s.run moves).run more)).1.mapError nameless =
        (checkValues system none witness).mapError nameless := by
  refine ⟨fun f => kept_run f s moves, fun f a hKept more => kept_run_of_kept hKept more,
    fun u f e hAsked hNone hFails => ?_, fun system hKept more witness => ?_⟩
  · have hMissing : (s.run moves).found f = .error e := by rw [found_of_not_kept hNone, hFails]
    obtain ⟨s', hStep, hBench⟩ := CircuitUse.step_of_not_found hAsked hMissing
    have hKept := u.kept_step (s.run moves) f
    rw [hStep, if_pos hAsked, hMissing] at hKept
    exact ⟨s', hStep, hBench, hKept⟩
  · rw [outcome_checkLoosely (kept_run_of_kept hKept more)]
    exact nameless_checkValues _ _ _

/-- The constraints of a circuit cannot be read at first; then a witness is checked, and then the
whole disk is lost. -/
def squareMoves : List Move :=
  [.meanwhile fun b => { b with disk := b.disk.remove ["build", "square.r1cs"] },
    .use .loadConstraints, .meanwhile fun _ => squareSession.bench,
    .use (.checkConstraints (.list [.int 1, .int 2, .int 3])),
    .meanwhile fun b => { b with disk := {} }]

/-- The second read is the one that counts, and the witness is accepted still. -/
theorem run_snapshot_square :
    (squareSession.run squareMoves).circuit.kept .constraints = some squareSystem ∧
      (outcome (checkLoosely (.ofIntegers [1, 2, 3])) (squareSession.run squareMoves)).1 =
        .ok () := by
  obtain ⟨hKept, -, -, hVerdict⟩ := run_snapshot squareSession squareMoves
  have hReads : (squareSession.readsIn .constraints squareMoves).findSome? Except.toOption =
      some squareSystem := by
    decide +kernel
  have hSystem : (squareSession.run squareMoves).circuit.kept .constraints = some squareSystem := by
    rw [hKept, hReads]
    rfl
  have hCheck : checkValues squareSystem none (.ofIntegers [1, 2, 3]) = .ok () :=
    Except.eq_ok_of_toOption (by decide +kernel)
  have hSame := hVerdict squareSystem hSystem [] (.ofIntegers [1, 2, 3])
  rw [hCheck] at hSame
  refine ⟨hSystem, ?_⟩
  cases hEnd :
      (outcome (checkLoosely (.ofIntegers [1, 2, 3])) (squareSession.run squareMoves)).1 with
  | ok _ => rfl
  | error e =>
      rw [show (squareSession.run squareMoves).run [] = squareSession.run squareMoves from rfl,
        hEnd] at hSame
      cases hSame

end Session

end CircuitBench
