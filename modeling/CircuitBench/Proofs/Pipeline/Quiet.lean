import CircuitBench.Proofs.Bench.Printed
import CircuitBench.Proofs.Circuit.Listing
import CircuitBench.Proofs.Pipeline.Soundness
import CircuitBench.Proofs.Temporary.Opened

/-!
# What a quiet run leaves out

A quiet run does not announce the build and does not print the summary of the witness.  Apart from
that it does what a loud run does, on a bench on which other text was printed, and no step looks at
that text.  So a loud run fails when the quiet one does, with the same failure, and gives no other
witness.

The summary can fail, though, after the witness has been checked.  It lists the signals of the main
component, and takes the value of each from the wire that the symbols say; the check of the
constraints says how many values there are, but nothing says that the symbols keep to them.  A loud
run fails exactly when a listed signal lies on a wire beyond the witness, or has a value that is too
long to print.

## Main results

* `outputLines_cases` : which listings can be made.
* `Session.report_cases` : how the report of a witness ends.
* `LoudEnd` : how a loud run ends, by the end of the quiet one.
* `Bench.runPipeline_quiet` : what the quiet run says of the loud one.
-/

namespace CircuitBench

open Number Text

/-! ## Listing -/

/-- Whether a signal can be listed: its wire has a value that is not too long to print. -/
def CanList (witness : List Nat) (signal : String × Symbol) : Prop :=
  ∃ n, witness[signal.2.wire.toNat]? = some n ∧ (numeral n).length ≤ digitLimit

/-- Whether all signals of the main component can be listed. -/
def CanListAll (symbols : SymbolTable) (witness : List Nat) : Prop :=
  ∀ signal ∈ symbols, isListed signal = true → CanList witness signal

/-- Why a listing fails: there is no value at some index, or the value is too long to print. -/
def IsListingFault (e : Error) : Prop :=
  (∃ fault, e = .index fault) ∨ e = .value .digitsToPrint

/-- The value on a wire of a witness, if there is one. -/
theorem entry_witnessValues (witness : List Nat) {wire : Int} (hWire : 0 ≤ wire) :
    (Value.list (Session.witnessValues witness)).entry wire =
      match witness[wire.toNat]? with
      | some n => .ok (.int n)
      | none => .error (indexFault wire (.outOfRange "list")) := by
  have hSign : ¬ wire < 0 := Int.not_lt.mpr hWire
  rw [Value.entry_list, atIndex, memberAt]
  simp only [hSign, if_false, Session.witnessValues, List.getElem?_map]
  cases witness[wire.toNat]? with
  | some n => rfl
  | none => rfl

/-- A signal that has not been removed is listed, or there is a reason. -/
theorem outputLine_cases (witness : List Nat) {signal : String × Symbol}
    (hWire : 0 ≤ signal.2.wire) :
    (CanList witness signal ∧ ∃ line,
      outputLine (Value.list (Session.witnessValues witness)).entry signal = .ok line) ∨
    ¬ CanList witness signal ∧ ∃ e, IsListingFault e ∧
      outputLine (Value.list (Session.witnessValues witness)).entry signal = .error e := by
  have hEntry := entry_witnessValues witness hWire
  cases hValue : witness[signal.2.wire.toNat]? with
  | none =>
      rw [hValue] at hEntry
      have hFault : IsListingFault (indexFault signal.2.wire (.outOfRange "list")) :=
        .inl ⟨_, rfl⟩
      refine .inr ⟨?_, _, hFault, ?_⟩
      · rintro ⟨n, hSome, -⟩
        cases hValue.symm.trans hSome
      · rw [outputLine, hEntry]
        rfl
  | some n =>
      rw [hValue] at hEntry
      have hLine : outputLine (Value.list (Session.witnessValues witness)).entry signal =
          (Value.int n).inlineText >>= fun text => .ok (signal.1 ++ " --> " ++ text) := by
        rw [outputLine, hEntry]
        rfl
      rw [inlineText_int, Int.natAbs_natCast] at hLine
      by_cases hShort : (numeral n).length ≤ digitLimit
      · rw [if_pos hShort] at hLine
        exact .inl ⟨⟨n, hValue, hShort⟩, _, hLine⟩
      · rw [if_neg hShort] at hLine
        refine .inr ⟨?_, _, .inr rfl, hLine⟩
        rintro ⟨m, hSome, hCan⟩
        cases hValue.symm.trans hSome
        exact hShort hCan

/-- Signals that have not been removed are all listed, or there is a reason. -/
theorem outputLines_cases (witness : List Nat) {signals : List (String × Symbol)}
    (hWires : ∀ signal ∈ signals, 0 ≤ signal.2.wire) :
    ((∀ signal ∈ signals, CanList witness signal) ∧ ∃ lines,
      outputLines (Value.list (Session.witnessValues witness)).entry signals = .ok lines) ∨
    ¬ (∀ signal ∈ signals, CanList witness signal) ∧ ∃ e, IsListingFault e ∧
      outputLines (Value.list (Session.witnessValues witness)).entry signals = .error e := by
  induction signals with
  | nil => exact .inl ⟨fun _ h => absurd h List.not_mem_nil, [], rfl⟩
  | cons signal rest ih =>
      rw [List.forall_mem_cons] at hWires
      rw [List.forall_mem_cons, outputLines]
      rcases outputLine_cases witness hWires.1 with ⟨hCan, line, hLine⟩ | ⟨hNot, e, hFault, hLine⟩
      · rw [hLine]
        rcases ih hWires.2 with ⟨hAll, lines, hLines⟩ | ⟨hNotAll, e, hFault, hLines⟩
        · exact .inl ⟨⟨hCan, hAll⟩, _, by rw [hLines]; rfl⟩
        · exact .inr ⟨fun h => hNotAll h.2, e, hFault, by rw [hLines]; rfl⟩
      · exact .inr ⟨fun h => hNot h.1, e, hFault, by rw [hLine]; rfl⟩

/-- The listing of a witness can be made exactly when all signals can be listed. -/
theorem listing_cases (symbols : SymbolTable) (witness : List Nat) :
    (CanListAll symbols witness ∧ ∃ text,
      listing symbols (Value.list (Session.witnessValues witness)).entry = .ok text) ∨
    ¬ CanListAll symbols witness ∧ ∃ e, IsListingFault e ∧
      listing symbols (Value.list (Session.witnessValues witness)).entry = .error e := by
  have hWires : ∀ signal ∈ symbols.filter isListed, 0 ≤ signal.2.wire := by
    intro signal hSignal
    have hListed := (List.mem_filter.mp hSignal).2
    rw [isListed, Bool.and_eq_true, decide_eq_true_eq] at hListed
    exact hListed.1
  have hAll : (∀ signal ∈ symbols.filter isListed, CanList witness signal) ↔
      CanListAll symbols witness := by
    simp only [List.mem_filter, and_imp]
    exact Iff.rfl
  rw [listing]
  rcases outputLines_cases witness hWires with ⟨hCan, lines, hLines⟩ | ⟨hNot, e, hFault, hLines⟩
  · exact .inl ⟨hAll.mp hCan, _, by rw [hLines]; rfl⟩
  · exact .inr ⟨fun h => hNot (hAll.mpr h), e, hFault, by rw [hLines]; rfl⟩

/-! ## Reporting -/

namespace Session

open Bench

/-- The report of a witness that was not to be quiet. -/
def report (witness : List Nat) : Step (List Nat) := do
  printLine ("[runner] Witness ok: " ++ toString witness.length ++ " values")
  printSummary printLine (some (Session.listing witness)) (.list (witnessValues witness))
  return witness

theorem executeAndReport_quiet (inputs : Value) : executeAndReport inputs true = execute inputs := by
  funext s
  show (execute inputs >>= fun witness => pure witness) s = execute inputs s
  cases h : execute inputs s with
  | ok witness s' => exact bind_ok h
  | error e s' => exact bind_error h

theorem executeAndReport_loud (inputs : Value) :
    executeAndReport inputs false = execute inputs >>= report := rfl

/-- To print a line changes nothing but what was printed. -/
theorem printLine_eq_ok (line : String) (s : Session) :
    ∃ text, printLine line s = .ok () (s.withPrinted text) :=
  ⟨_, rfl⟩

/-- The listing of a circuit of which the symbols have been read. -/
theorem listing_of_some {s : Session} {symbols : SymbolTable} (witness : List Nat)
    (h : s.circuit.symbols = some symbols) :
    Session.listing witness s =
      match CircuitBench.listing symbols (Value.list (witnessValues witness)).entry with
      | .ok text => .ok (.text text) s
      | .error e => .error e s := by
  have hDecorated : decoratedOutput (Value.list (witnessValues witness)).entry s =
      attempt (CircuitBench.listing symbols (Value.list (witnessValues witness)).entry) s :=
    bind_ok (loadSymbols_of_some h)
  cases hLines : CircuitBench.listing symbols (Value.list (witnessValues witness)).entry with
  | ok text =>
      rw [hLines] at hDecorated
      exact bind_ok hDecorated
  | error e =>
      rw [hLines] at hDecorated
      exact bind_error hDecorated

/-- A summary changes nothing but what was printed.  It ends well exactly when all signals can be
listed. -/
theorem printSummary_cases {s : Session} {symbols : SymbolTable} (witness : List Nat) (v : Value)
    (h : s.circuit.symbols = some symbols) :
    (CanListAll symbols witness ∧ ∃ text,
      printSummary printLine (some (Session.listing witness)) v s = .ok () (s.withPrinted text)) ∨
    ¬ CanListAll symbols witness ∧ ∃ e text, IsListingFault e ∧
      printSummary printLine (some (Session.listing witness)) v s =
        .error e (s.withPrinted text) := by
  obtain ⟨head, hHead⟩ := printLine_eq_ok summaryHead s
  have hListing := listing_of_some (s := s.withPrinted head) witness h
  rw [printSummary, bind_ok hHead]
  dsimp only
  rcases listing_cases symbols witness with ⟨hCan, lines, hLines⟩ | ⟨hNot, e, hFault, hLines⟩
  · rw [hLines] at hListing
    rw [bind_ok hListing]
    exact .inl ⟨hCan, _, rfl⟩
  · rw [hLines] at hListing
    exact .inr ⟨hNot, e, _, hFault, bind_error hListing⟩

/-- And so does the report that it stands in. -/
theorem report_cases {s : Session} {symbols : SymbolTable} (witness : List Nat)
    (h : s.circuit.symbols = some symbols) :
    (CanListAll symbols witness ∧ ∃ text, report witness s = .ok witness (s.withPrinted text)) ∨
    ¬ CanListAll symbols witness ∧ ∃ e text, IsListingFault e ∧
      report witness s = .error e (s.withPrinted text) := by
  obtain ⟨line, hLine⟩ :=
    printLine_eq_ok ("[runner] Witness ok: " ++ toString witness.length ++ " values") s
  rw [report, bind_ok hLine]
  rcases printSummary_cases (s := s.withPrinted line) witness (.list (witnessValues witness)) h with
    ⟨hCan, text, hSummary⟩ | ⟨hNot, e, text, hFault, hSummary⟩
  · exact .inl ⟨hCan, text, bind_ok hSummary⟩
  · exact .inr ⟨hNot, e, text, hFault, bind_error hSummary⟩

/-! ## What is read on the way -/

/-- Whether symbols have been read of the circuit. -/
def HasSymbols (symbols : SymbolTable) (s : Session) : Prop :=
  s.circuit.symbols = some symbols

section Kept

variable {symbols : SymbolTable}

theorem hasSymbols_onBench {α : Type} (action : Action α) :
    Preserves (HasSymbols symbols) (onBench action) := by
  intro s hs
  rw [onBench]
  cases action s.bench with
  | ok a b => exact hs
  | error e b => exact hs

theorem hasSymbols_loadConstraints : Preserves (HasSymbols symbols) loadConstraints := by
  refine Preserves.bind (fun s hs => hs) fun c => ?_
  split
  · exact preserves_pure _
  · refine (hasSymbols_onBench _).bind fun system => ?_
    exact Preserves.bind (preserves_modify fun s hs => hs) fun _ => preserves_pure system

theorem hasSymbols_loadSymbols : Preserves (HasSymbols symbols) loadSymbols := by
  intro s hs
  rw [loadSymbols_of_some hs]
  exact hs

end Kept

/-- The symbols of a circuit are there when its witness has been computed, as they were read at the
start. -/
theorem symbols_of_calculateWitness {inputs : Value} {computed : List Nat} {s s' : Session}
    (hConstraints : s.circuit.constraints = none) (hSymbols : s.circuit.symbols = none)
    (h : calculateWitness inputs true s = .ok computed s') :
    ∃ symbols, readSymbols s.circuit.symbolsPath.text s.bench = .ok symbols s.bench ∧
      HasSymbols symbols s' := by
  obtain ⟨system, s₂, hLoad, h⟩ := bind_eq_ok h
  obtain ⟨-, rfl⟩ := loadConstraints_of_none hConstraints hLoad
  obtain ⟨_, s₃, hStrict, h⟩ := bind_eq_ok h
  obtain ⟨symbols, s₄, hLoad', hStrict⟩ := bind_eq_ok hStrict
  obtain ⟨hTable, rfl⟩ := loadSymbols_of_none (by exact hSymbols) hLoad'
  obtain ⟨-, rfl⟩ := attempt_eq_ok hStrict
  refine ⟨symbols, hTable, ?_⟩
  -- what follows keeps the symbols
  refine Preserves.of_ok ?_ h rfl
  refine Preserves.bind (fun s hs => hs) fun c => ?_
  exact (hasSymbols_onBench _).bind fun values =>
    (preserves_throw _).ite (preserves_pure values)

theorem hasSymbols_checkConstraints {symbols : SymbolTable} (witness : List Nat) :
    Preserves (HasSymbols symbols) (operations.checkConstraints witness) := by
  refine hasSymbols_loadConstraints.bind fun system => ?_
  exact Preserves.bind (fun s hs => hs) fun c => preserves_attempt _

/-- They are there after an execution. -/
theorem symbols_of_execute {inputs : Value} {witness : List Nat} {s s' : Session}
    (hConstraints : s.circuit.constraints = none) (hSymbols : s.circuit.symbols = none)
    (h : execute inputs s = .ok witness s') :
    ∃ symbols, readSymbols s.circuit.symbolsPath.text s.bench = .ok symbols s.bench ∧
      s'.circuit.symbols = some symbols := by
  obtain ⟨computed, s₁, hCalculate, h⟩ := bind_eq_ok h
  obtain ⟨symbols, hTable, hComputed⟩ :=
    symbols_of_calculateWitness hConstraints hSymbols hCalculate
  have hLoaded : Preserves (HasSymbols symbols) operations.loadSymbols :=
    hasSymbols_loadSymbols.bind fun _ => preserves_pure ()
  exact ⟨symbols, hTable, ((hasSymbols_checkConstraints computed).bind fun _ => hLoaded.bind fun _ =>
    preserves_pure computed).of_ok h hComputed⟩

end Session

/-! ## Loud and quiet -/

/-- How a loud run ends where a quiet one ends in a given way, with symbols of which something is
known: the benches differ in nothing but what was printed; a failure is the same; and a witness is
given by both, unless one of the signals cannot be listed. -/
inductive LoudEnd (read : SymbolTable → Prop) :
    EStateM.Result Error Bench (List Nat) → EStateM.Result Error Bench (List Nat) → Prop
  | failed (e : Error) (b : Bench) (text : String) :
      LoudEnd read (.error e b) (.error e (b.withPrinted text))
  | listed {symbols : SymbolTable} (known : read symbols) {witness : List Nat}
      (listed : CanListAll symbols witness) (b : Bench) (text : String) :
      LoudEnd read (.ok witness b) (.ok witness (b.withPrinted text))
  | unlisted {symbols : SymbolTable} (known : read symbols) {witness : List Nat}
      (unlisted : ¬ CanListAll symbols witness) {e : Error} (fault : IsListingFault e) (b : Bench)
      (text : String) : LoudEnd read (.ok witness b) (.error e (b.withPrinted text))

namespace LoudEnd

theorem mono {P Q : SymbolTable → Prop} (hImp : ∀ symbols, P symbols → Q symbols)
    {quiet loud : EStateM.Result Error Bench (List Nat)} (h : LoudEnd P quiet loud) :
    LoudEnd Q quiet loud := by
  cases h with
  | failed e b text => exact .failed e b text
  | listed hKnown hListed b text => exact .listed (hImp _ hKnown) hListed b text
  | unlisted hKnown hUnlisted hFault b text =>
      exact .unlisted (hImp _ hKnown) hUnlisted hFault b text

end LoudEnd

/-- Executions of one circuit on benches that differ in what was printed. -/
theorem loudEnd_executeAndReport {c : Circuit} (hConstraints : c.constraints = none)
    (hSymbols : c.symbols = none) (inputs : Value) (built : Bench) (text : String) :
    LoudEnd (fun symbols => Bench.readSymbols c.symbolsPath.text built = .ok symbols built)
      (c.inSession (Session.executeAndReport inputs true) built)
      (c.inSession (Session.executeAndReport inputs false) (built.withPrinted text)) := by
  have hSame : Session.execute inputs ⟨built.withPrinted text, c⟩ =
      mapEnd (Session.withPrinted text) (Session.execute inputs ⟨built, c⟩) :=
    Session.commutes_execute inputs ⟨built, c⟩
  rw [Circuit.inSession, Circuit.inSession, Session.executeAndReport_quiet,
    Session.executeAndReport_loud]
  cases hExecute : Session.execute inputs ⟨built, c⟩ with
  | error e s =>
      rw [hExecute] at hSame
      rw [bind_error hSame]
      exact .failed e s.bench text
  | ok witness s =>
      rw [hExecute] at hSame
      rw [bind_ok hSame]
      obtain ⟨symbols, hRead, hKept⟩ := Session.symbols_of_execute hConstraints hSymbols hExecute
      have hKept' : (s.withPrinted text).circuit.symbols = some symbols := hKept
      rcases Session.report_cases witness hKept' with
        ⟨hCan, more, hReport⟩ | ⟨hNot, e, more, hFault, hReport⟩
      · rw [hReport]
        exact .listed hRead hCan s.bench more
      · rw [hReport]
        exact .unlisted hRead hNot hFault s.bench more

namespace Bench

/-! ## The pipeline -/

/-- The announcement of a build changes nothing but what was printed, if it can be made. -/
theorem announce_eq_ok {r : PipelineRequest} {template file : String}
    (hTemplate : r.template.inlineText = .ok template) (hFile : r.templateFile.inlineText = .ok file)
    (b : Bench) : ∃ text, announce r b = .ok () (b.withPrinted text) := by
  rw [announce, hTemplate, hFile]
  cases r.quiet with
  | true => exact ⟨b.printed, rfl⟩
  | false => exact ⟨_, rfl⟩

/-- The symbols that are read of the circuit which is built for a request. -/
def ReadsSymbols (config : Table) (r : PipelineRequest) (b : Bench) (symbols : SymbolTable) :
    Prop :=
  ∃ c built, synthesize (.table config) r.toMainRequest r.buildOptions (build (.table config)) b =
      .ok c built ∧ readSymbols c.symbolsPath.text built = .ok symbols built

theorem loudEnd_buildAndExecute (config : Table) {r : PipelineRequest} {template file : String}
    (hTemplate : r.template.inlineText = .ok template) (hFile : r.templateFile.inlineText = .ok file)
    (b : Bench) :
    LoudEnd (ReadsSymbols config r b) (buildAndExecute config { r with quiet := true } b)
      (buildAndExecute config { r with quiet := false } b) := by
  have hQuiet := announce_quiet { r with quiet := true } rfl b
  obtain ⟨text, hLoud⟩ := announce_eq_ok (r := { r with quiet := false }) hTemplate hFile b
  have hSame : synthesize (.table config) r.toMainRequest r.buildOptions (build (.table config))
      (b.withPrinted text) = mapEnd (withPrinted text)
        (synthesize (.table config) r.toMainRequest r.buildOptions (build (.table config)) b) :=
    commutes_synthesize _ _ _ (commutes_build _) b
  rw [buildAndExecute, buildAndExecute, bind_ok hQuiet, bind_ok hLoud]
  cases hBuild : synthesize (.table config) r.toMainRequest r.buildOptions
      (build (.table config)) b with
  | error e built =>
      rw [hBuild] at hSame
      rw [bind_error hBuild, bind_error hSame]
      exact .failed e built text
  | ok c built =>
      rw [hBuild] at hSame
      rw [bind_ok hBuild, bind_ok hSame]
      obtain ⟨path, options, b₁, hBuilt⟩ := builder_of_synthesize hBuild
      obtain ⟨output, options', owned, -, rfl⟩ := ofPaths_of_build hBuilt
      refine (loudEnd_executeAndReport rfl rfl r.inputs built text).mono ?_
      exact fun symbols hRead => ⟨_, built, hBuild, hRead⟩

theorem tidied_withPrinted (b left : Bench) (text : String) :
    tidied b (left.withPrinted text) = (tidied b left).withPrinted text := rfl

/-- A private registry makes no difference to this. -/
theorem loudEnd_withPrivateRegistry {P : SymbolTable → Prop} {quiet loud : Action (List Nat)}
    {b : Bench} (h : LoudEnd P (quiet { b with registry := {} }) (loud { b with registry := {} })) :
    LoudEnd P (withPrivateRegistry quiet b) (withPrivateRegistry loud b) := by
  generalize hQuiet : quiet { b with registry := {} } = quietEnd at h
  generalize hLoud : loud { b with registry := {} } = loudEnd at h
  cases h with
  | failed e left text =>
      rw [withPrivateRegistry_error hQuiet, withPrivateRegistry_error hLoud, tidied_withPrinted]
      exact .failed e _ text
  | listed hKnown hListed left text =>
      rw [withPrivateRegistry_ok hQuiet, withPrivateRegistry_ok hLoud, tidied_withPrinted]
      exact .listed hKnown hListed _ text
  | unlisted hKnown hUnlisted hFault left text =>
      rw [withPrivateRegistry_ok hQuiet, withPrivateRegistry_error hLoud, tidied_withPrinted]
      exact .unlisted hKnown hUnlisted hFault _ text

/-! ### One signal too many -/

/-- A bench with the toolbox of a circuit that squares, of which the compiler lists one more signal,
on a wire beyond the witness. -/
def talkativeBench : Bench :=
  { squareBench with
    toolbox := { squareTools with
      circom := some (compiler fun _ => { squareCompilation with
        symbols := some (Text.Utf8.encode "1,1,0,main.c\n2,2,0,main.a\n3,3,0,main.d\n") }) } }

/-- The quiet run does not mind. -/
theorem quiet_talkative :
    (outcome (runPipeline { squareRequest with quiet := true } true) talkativeBench).1 =
      .ok [1, 2, 3] := by
  apply Except.eq_ok_of_toOption
  decide +kernel

/-- What the quiet run of a pipeline says of the loud one, if the announcement can be made. -/
theorem runPipeline_quiet {r : PipelineRequest} {template file : String}
    (hTemplate : r.template.inlineText = .ok template) (hFile : r.templateFile.inlineText = .ok file)
    (own : Bool) (b : Bench) :
    LoudEnd
      (fun symbols => ∃ config, pipelineConfig r.config = .ok config ∧
        ReadsSymbols config r (if own then { b with registry := {} } else b) symbols)
      (runPipeline { r with quiet := true } own b)
      (runPipeline { r with quiet := false } own b) := by
  cases hConfig : pipelineConfig r.config with
  | error e =>
      have hFails : ∀ q, runPipeline { r with quiet := q } own b = .error e b := by
        intro q
        rw [runPipeline, hConfig]
        rfl
      rw [hFails, hFails]
      exact .failed e b b.printed
  | ok config =>
      have hRuns : ∀ q, runPipeline { r with quiet := q } own b =
          (if own then withPrivateRegistry (buildAndExecute config { r with quiet := q })
            else buildAndExecute config { r with quiet := q }) b := by
        intro q
        rw [runPipeline, hConfig]
        rfl
      rw [hRuns, hRuns]
      cases own with
      | false =>
          refine (loudEnd_buildAndExecute config hTemplate hFile b).mono ?_
          exact fun symbols hRead => ⟨config, rfl, hRead⟩
      | true =>
          refine (loudEnd_withPrivateRegistry
            (loudEnd_buildAndExecute config hTemplate hFile _)).mono ?_
          exact fun symbols hRead => ⟨config, rfl, hRead⟩

/-- A quiet run that returns a witness, and what can be said of the loud one. -/
theorem runPipeline_quiet_talkative :
    (outcome (runPipeline { squareRequest with quiet := true } true) talkativeBench).1 =
        .ok [1, 2, 3] ∧
      LoudEnd
        (fun symbols => ∃ config, pipelineConfig squareRequest.config = .ok config ∧
          ReadsSymbols config squareRequest talkativeBench symbols)
        (runPipeline { squareRequest with quiet := true } true talkativeBench)
        (runPipeline { squareRequest with quiet := false } true talkativeBench) :=
  ⟨quiet_talkative, runPipeline_quiet rfl rfl true talkativeBench⟩

/-- A loud run need not return the witness that the quiet one returns. -/
theorem summary_fails :
    ¬ ∀ (r : PipelineRequest) (own : Bool) (b : Bench) (witness : List Nat),
      (outcome (runPipeline { r with quiet := true } own) b).1 = .ok witness →
        (outcome (runPipeline { r with quiet := false } own) b).1 = .ok witness := by
  intro h
  have hLoud :
      (outcome (runPipeline { squareRequest with quiet := false } true)
        talkativeBench).1.toOption = none := by
    decide +kernel
  rw [h squareRequest true talkativeBench _ quiet_talkative] at hLoud
  cases hLoud

end Bench

end CircuitBench
