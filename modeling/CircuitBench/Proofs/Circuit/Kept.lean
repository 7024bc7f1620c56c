import CircuitBench.Proofs.Circuit.Files

/-!
# What a circuit keeps of its files

Two files of a circuit are kept once they have been read: that of the constraints and that of the
symbols.  Loading is the same for both.  What is kept is given again; otherwise the file is read as
it stands, and kept if it can be read.  Nothing else of the circuit changes by that, and nothing at
all at the bench.

## Main results

* `Session.load_of_found`, `Session.load_of_not_found` : what loading comes to.
* `Session.OnlyRead` : nothing has happened but that files were read and kept.
-/

namespace CircuitBench

/-- The files of a circuit that are kept once they have been read. -/
inductive CircuitFile
  | constraints
  | symbols
  deriving DecidableEq

/-- What stands in a file. -/
abbrev CircuitFile.Content : CircuitFile → Type
  | constraints => ConstraintSystem
  | symbols => SymbolTable

/-! ## Circuits -/

namespace Circuit

/-- What is kept of a file. -/
def kept (c : Circuit) : (f : CircuitFile) → Option f.Content
  | .constraints => c.constraints
  | .symbols => c.symbols

/-- The circuit with a file kept. -/
def keep (c : Circuit) : (f : CircuitFile) → f.Content → Circuit
  | .constraints, system => { c with constraints := some system }
  | .symbols, table => { c with symbols := some table }

/-- Reads a file of a circuit. -/
def readFile (c : Circuit) : (f : CircuitFile) → Action f.Content
  | .constraints => Bench.readConstraints c.constraintsPath.text
  | .symbols => Bench.readSymbols c.symbolsPath.text

variable (c : Circuit) {f g : CircuitFile}

@[simp] theorem kept_keep_self (a : f.Content) : (c.keep f a).kept f = some a := by
  cases f <;> rfl

/-- The other file is kept as it was. -/
theorem kept_keep_of_ne (h : g ≠ f) (a : f.Content) : (c.keep f a).kept g = c.kept g := by
  cases f <;> cases g <;> first | exact absurd rfl h | rfl

/-- The files stay where they are. -/
@[simp] theorem readFile_keep (a : f.Content) : (c.keep f a).readFile g = c.readFile g := by
  cases f <;> cases g <;> rfl

variable {c}

/-- What is kept need not be kept again. -/
theorem keep_of_kept {a : f.Content} (h : c.kept f = some a) : c.keep f a = c := by
  obtain ⟨source, name, folder, options, ownsOutput, symbols, constraints⟩ := c
  cases f <;> cases h <;> rfl

/-- Reading leaves the bench as it is. -/
theorem readFile_state {b : Bench} : endState (c.readFile f b) = b := by
  have hRead : Preserves (fun b' => b' = b) (c.readFile f) := by
    cases f <;> exact (preserves_ask _).bind fun bytes => preserves_attempt _
  exact hRead b rfl

end Circuit

/-! ## Sessions -/

namespace Session

/-- What a file reads as now. -/
def reading (s : Session) (f : CircuitFile) : Except Error f.Content :=
  (Bench.outcome (s.circuit.readFile f) s.bench).1

/-- What is found of a file: what is kept, or else what it reads as. -/
def found (s : Session) (f : CircuitFile) : Except Error f.Content :=
  match s.circuit.kept f with
  | some a => .ok a
  | none => s.reading f

/-- The session with a file kept. -/
def keeping (s : Session) (f : CircuitFile) (a : f.Content) : Session :=
  { s with circuit := s.circuit.keep f a }

/-- Loads a file of the circuit. -/
def load : (f : CircuitFile) → Step f.Content
  | .constraints => loadConstraints
  | .symbols => loadSymbols

variable {s : Session} {f g : CircuitFile}

@[simp] theorem kept_keeping_self (s : Session) (a : f.Content) :
    (s.keeping f a).circuit.kept f = some a :=
  s.circuit.kept_keep_self a

theorem kept_keeping_of_ne (h : g ≠ f) (s : Session) (a : f.Content) :
    (s.keeping f a).circuit.kept g = s.circuit.kept g :=
  s.circuit.kept_keep_of_ne h a

@[simp] theorem reading_keeping (s : Session) (a : f.Content) :
    (s.keeping f a).reading g = s.reading g := by
  rw [reading, keeping, Circuit.readFile_keep, reading]

theorem found_of_kept {a : f.Content} (h : s.circuit.kept f = some a) : s.found f = .ok a := by
  rw [found, h]

theorem found_of_not_kept (h : s.circuit.kept f = none) : s.found f = s.reading f := by
  rw [found, h]

/-- The other file is found as it was. -/
theorem found_keeping_of_ne (h : g ≠ f) (s : Session) (a : f.Content) :
    (s.keeping f a).found g = s.found g := by
  rw [found, found, kept_keeping_of_ne h, reading_keeping]

theorem keeping_of_kept {a : f.Content} (h : s.circuit.kept f = some a) : s.keeping f a = s := by
  rw [keeping, Circuit.keep_of_kept h]

/-- A file that was found is found again, and so is the other one. -/
theorem found_keeping {a : f.Content} (h : s.found f = .ok a) (g : CircuitFile) :
    (s.keeping f a).found g = s.found g := by
  by_cases hSame : g = f
  · subst hSame
    rw [found_of_kept (kept_keeping_self s a), h]
  · exact found_keeping_of_ne hSame s a

/-- The session with both files kept. -/
def keepingBoth (s : Session) (system : ConstraintSystem) (table : SymbolTable) : Session :=
  (s.keeping .constraints system).keeping .symbols table

/-! ## Loading -/

/-- Loading a file that is kept gives what is kept. -/
theorem load_of_kept {a : f.Content} (h : s.circuit.kept f = some a) : load f s = .ok a s := by
  cases f with
  | constraints => exact loadConstraints_of_some h
  | symbols => exact loadSymbols_of_some h

/-- Loading a file that is not kept reads it at the bench. -/
private theorem load_of_not_kept (h : s.circuit.kept f = none) :
    load f s = match s.reading f with
      | .ok a => .ok a (s.keeping f a)
      | .error e => .error e s := by
  have hState := Circuit.readFile_state (c := s.circuit) (f := f) (b := s.bench)
  have hLoad : load f s = (onBench (s.circuit.readFile f) >>= fun a => do
      modify fun s' => s'.keeping f a
      return a) s := by
    cases f with
    | constraints =>
        show (circuitNow >>= _) s = _
        rw [bind_ok (rfl : circuitNow s = .ok s.circuit s),
          show s.circuit.constraints = none from h]
        rfl
    | symbols =>
        show (circuitNow >>= _) s = _
        rw [bind_ok (rfl : circuitNow s = .ok s.circuit s), show s.circuit.symbols = none from h]
        rfl
  rw [hLoad, reading, Bench.outcome]
  cases hRead : s.circuit.readFile f s.bench with
  | ok a b =>
      rw [hRead] at hState
      obtain rfl : b = s.bench := hState
      have hStep : onBench (s.circuit.readFile f) s = .ok a s := by rw [onBench, hRead]
      rw [bind_ok hStep]
      rfl
  | error e b =>
      rw [hRead] at hState
      obtain rfl : b = s.bench := hState
      have hStep : onBench (s.circuit.readFile f) s = .error e s := by rw [onBench, hRead]
      rw [bind_error hStep]

/-- A file that is found is loaded, and kept from then on. -/
theorem load_of_found {a : f.Content} (h : s.found f = .ok a) :
    load f s = .ok a (s.keeping f a) := by
  cases hKept : s.circuit.kept f with
  | some a' =>
      rw [found_of_kept hKept] at h
      cases h
      rw [keeping_of_kept hKept]
      exact load_of_kept hKept
  | none =>
      rw [found_of_not_kept hKept] at h
      rw [load_of_not_kept hKept, h]

/-- A file that is not found leaves everything as it was. -/
theorem load_of_not_found {e : Error} (h : s.found f = .error e) : load f s = .error e s := by
  cases hKept : s.circuit.kept f with
  | some a =>
      rw [found_of_kept hKept] at h
      cases h
  | none =>
      rw [found_of_not_kept hKept] at h
      rw [load_of_not_kept hKept, h]

/-! ## Nothing but reading -/

/-- Whether nothing has happened but that files of the circuit were read and kept. -/
structure OnlyRead (s s' : Session) : Prop where
  bench : s'.bench = s.bench
  rest : ∃ constraints symbols,
    s'.circuit = { s.circuit with constraints := constraints, symbols := symbols }
  files : ∀ f, s'.circuit.kept f = s.circuit.kept f ∨
    s.circuit.kept f = none ∧ ∃ a, s.reading f = .ok a ∧ s'.circuit.kept f = some a

theorem OnlyRead.refl (s : Session) : s.OnlyRead s :=
  ⟨rfl, ⟨s.circuit.constraints, s.circuit.symbols, rfl⟩, fun _ => .inl rfl⟩

/-- A file that is found may be kept in addition. -/
theorem OnlyRead.keeping {s₀ : Session} (h : s₀.OnlyRead s) {a : f.Content}
    (hFound : s.found f = .ok a) : s₀.OnlyRead (s.keeping f a) := by
  obtain ⟨hBench, ⟨constraints, symbols, hRest⟩, hFiles⟩ := h
  refine ⟨hBench, ?_, fun g => ?_⟩
  · cases f with
    | constraints => exact ⟨some a, symbols, by rw [Session.keeping, hRest]; rfl⟩
    | symbols => exact ⟨constraints, some a, by rw [Session.keeping, hRest]; rfl⟩
  · by_cases hSame : g = f
    · subst hSame
      have hReading : s.reading g = s₀.reading g := by
        rw [reading, reading, hBench, hRest]
        cases g <;> rfl
      cases hKept : s.circuit.kept g with
      | some a' =>
          rw [found_of_kept hKept] at hFound
          cases hFound
          rw [keeping_of_kept hKept]
          exact hFiles g
      | none =>
          rw [found_of_not_kept hKept, hReading] at hFound
          rcases hFiles g with hAsBefore | ⟨-, a', -, hLater⟩
          · exact .inr ⟨hAsBefore.symm.trans hKept, a, hFound, kept_keeping_self s a⟩
          · cases hKept.symm.trans hLater
    · rw [kept_keeping_of_ne hSame]
      exact hFiles g

end Session

end CircuitBench
