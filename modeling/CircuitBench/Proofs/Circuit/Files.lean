import CircuitBench.Circuit.Files
import CircuitBench.Proofs.Bench.Preserved

/-!
# What is read of a circuit

Reading changes nothing at the bench.  What is read of a circuit for the first time stands on the
disk as it is then, and is kept with the circuit; what has been read before is given again.

## Main results

* `readConstraints_eq_ok`, `readSymbols_eq_ok`, `readWitness_eq_ok` : what is read is what the bytes
  of the file say.
* `loadConstraints_of_none`, `loadSymbols_of_none` : what is loaded first is read and kept.
-/

namespace CircuitBench

namespace Bench

/-! ## Files -/

private theorem readBytes_then_eq_ok {α : Type} {parse : List UInt8 → Except Error α}
    {path : String} {a : α} {b b' : Bench}
    (h : (readBytes path >>= fun bytes => attempt (parse bytes)) b = .ok a b') :
    (∃ bytes, b.disk.readFile b.current path = .ok bytes ∧ parse bytes = .ok a) ∧ b = b' := by
  obtain ⟨bytes, b₁, hBytes, hParse⟩ := bind_eq_ok h
  obtain ⟨hFile, rfl⟩ := ask_eq_ok hBytes
  obtain ⟨hResult, rfl⟩ := attempt_eq_ok hParse
  exact ⟨⟨bytes, hFile, hResult⟩, rfl⟩

private theorem readBytes_then_eq_error {α : Type} {parse : List UInt8 → Except Error α}
    {path : String} {e : Error} {b b' : Bench}
    (h : (readBytes path >>= fun bytes => attempt (parse bytes)) b = .error e b') : b' = b := by
  rcases bind_eq_error h with hBytes | ⟨bytes, b₁, hBytes, hParse⟩
  · obtain ⟨-, -, -, hSame⟩ := ask_eq_error hBytes
    exact hSame
  · obtain ⟨-, rfl⟩ := ask_eq_ok hBytes
    exact (attempt_eq_error hParse).2

theorem readConstraints_eq_ok {path : String} {system : ConstraintSystem} {b b' : Bench}
    (h : readConstraints path b = .ok system b') :
    (∃ bytes, b.disk.readFile b.current path = .ok bytes ∧
      ConstraintSystem.read path bytes = .ok system) ∧
      b = b' :=
  readBytes_then_eq_ok h

theorem readSymbols_eq_ok {path : String} {symbols : SymbolTable} {b b' : Bench}
    (h : readSymbols path b = .ok symbols b') :
    (∃ bytes, b.disk.readFile b.current path = .ok bytes ∧
      SymbolTable.read path bytes = .ok symbols) ∧ b = b' :=
  readBytes_then_eq_ok h

theorem readWitness_eq_ok {path : String} {file : WitnessFile} {b b' : Bench}
    (h : readWitness path b = .ok file b') :
    (∃ bytes, b.disk.readFile b.current path = .ok bytes ∧ WitnessFile.read path bytes = .ok file) ∧
    b = b' :=
  readBytes_then_eq_ok h

/-- Reading that fails leaves the bench as it was. -/
theorem readConstraints_eq_error {path : String} {e : Error} {b b' : Bench}
    (h : readConstraints path b = .error e b') : b' = b :=
  readBytes_then_eq_error h

theorem readSymbols_eq_error {path : String} {e : Error} {b b' : Bench}
    (h : readSymbols path b = .error e b') : b' = b :=
  readBytes_then_eq_error h

theorem readWitness_eq_error {path : String} {e : Error} {b b' : Bench}
    (h : readWitness path b = .error e b') : b' = b :=
  readBytes_then_eq_error h

end Bench

namespace Session

/-! ## Circuits -/

/-- Work at the bench alone leaves the circuit as it is. -/
theorem onBench_eq_ok {α : Type} {action : Action α} {a : α} {s s' : Session}
    (h : onBench action s = .ok a s') :
    ∃ b, action s.bench = .ok a b ∧ s' = { s with bench := b } := by
  rw [onBench] at h
  split at h
  · rename_i b hEnd
    cases h
    exact ⟨b, hEnd, rfl⟩
  · cases h

theorem onBench_eq_error {α : Type} {action : Action α} {e : Error} {s s' : Session}
    (h : onBench action s = .error e s') :
    ∃ b, action s.bench = .error e b ∧ s' = { s with bench := b } := by
  rw [onBench] at h
  split at h
  · cases h
  · rename_i b hEnd
    cases h
    exact ⟨b, hEnd, rfl⟩

/-- What an action preserves at the bench, it preserves as a step of work on a circuit. -/
theorem preserves_onBench {α : Type} {P : Bench → Prop} {action : Action α}
    (h : Preserves P action) :
    Preserves (fun s : Session => P s.bench) (onBench action) := by
  intro s hs
  have hEnd := h s.bench hs
  rw [onBench]
  split
  · rename_i hAction
    rw [hAction] at hEnd
    exact hEnd
  · rename_i hAction
    rw [hAction] at hEnd
    exact hEnd

/-- Constraints that are loaded first are read and kept. -/
theorem loadConstraints_of_none {s s' : Session} {system : ConstraintSystem}
    (hNone : s.circuit.constraints = none) (h : loadConstraints s = .ok system s') :
    Bench.readConstraints s.circuit.constraintsPath.text s.bench = .ok system s.bench ∧
      s' = { s with circuit := { s.circuit with constraints := some system } } := by
  obtain ⟨c, s₁, hNow, h⟩ := bind_eq_ok h
  cases hNow
  rw [hNone] at h
  obtain ⟨read, s₂, hRead, h⟩ := bind_eq_ok h
  obtain ⟨b, hAction, rfl⟩ := onBench_eq_ok hRead
  obtain ⟨-, rfl⟩ := Bench.readConstraints_eq_ok hAction
  cases h
  exact ⟨hAction, rfl⟩

/-- Symbols that are loaded first are read and kept. -/
theorem loadSymbols_of_none {s s' : Session} {symbols : SymbolTable}
    (hNone : s.circuit.symbols = none) (h : loadSymbols s = .ok symbols s') :
    Bench.readSymbols s.circuit.symbolsPath.text s.bench = .ok symbols s.bench ∧
      s' = { s with circuit := { s.circuit with symbols := some symbols } } := by
  obtain ⟨c, s₁, hNow, h⟩ := bind_eq_ok h
  cases hNow
  rw [hNone] at h
  obtain ⟨read, s₂, hRead, h⟩ := bind_eq_ok h
  obtain ⟨b, hAction, rfl⟩ := onBench_eq_ok hRead
  obtain ⟨-, rfl⟩ := Bench.readSymbols_eq_ok hAction
  cases h
  exact ⟨hAction, rfl⟩

/-- Constraints that are loaded first and cannot be read leave everything as it was. -/
theorem loadConstraints_eq_error {e : Error} {s s' : Session} (hNone : s.circuit.constraints = none)
    (h : loadConstraints s = .error e s') :
    Bench.readConstraints s.circuit.constraintsPath.text s.bench = .error e s.bench ∧ s' = s := by
  rcases bind_eq_error h with hNow | ⟨c, s₁, hNow, h⟩
  · cases hNow
  cases hNow
  rw [hNone] at h
  rcases bind_eq_error h with hRead | ⟨system, s₂, -, h⟩
  · obtain ⟨b, hAction, rfl⟩ := onBench_eq_error hRead
    obtain rfl := Bench.readConstraints_eq_error hAction
    exact ⟨hAction, rfl⟩
  · cases h

/-- So do symbols. -/
theorem loadSymbols_eq_error {e : Error} {s s' : Session} (hNone : s.circuit.symbols = none)
    (h : loadSymbols s = .error e s') :
    Bench.readSymbols s.circuit.symbolsPath.text s.bench = .error e s.bench ∧ s' = s := by
  rcases bind_eq_error h with hNow | ⟨c, s₁, hNow, h⟩
  · cases hNow
  cases hNow
  rw [hNone] at h
  rcases bind_eq_error h with hRead | ⟨symbols, s₂, -, h⟩
  · obtain ⟨b, hAction, rfl⟩ := onBench_eq_error hRead
    obtain rfl := Bench.readSymbols_eq_error hAction
    exact ⟨hAction, rfl⟩
  · cases h

/-- Loading the constraints preserves whatever is said of the bench. -/
theorem preserves_loadConstraints {P : Bench → Prop} :
    Preserves (fun s : Session => P s.bench) loadConstraints := by
  refine Preserves.bind (fun s hs => hs) fun c => ?_
  split
  · exact preserves_pure _
  · refine Preserves.bind (preserves_onBench ?_) fun system => ?_
    · exact (preserves_ask _).bind fun bytes => preserves_attempt _
    · exact Preserves.bind (preserves_modify fun s hs => hs) fun _ => preserves_pure system

/-- Loading the symbols preserves whatever is said of the bench. -/
theorem preserves_loadSymbols {P : Bench → Prop} :
    Preserves (fun s : Session => P s.bench) loadSymbols := by
  refine Preserves.bind (fun s hs => hs) fun c => ?_
  split
  · exact preserves_pure _
  · refine Preserves.bind (preserves_onBench ?_) fun symbols => ?_
    · exact (preserves_ask _).bind fun bytes => preserves_attempt _
    · exact Preserves.bind (preserves_modify fun s hs => hs) fun _ => preserves_pure symbols

end Session

end CircuitBench
