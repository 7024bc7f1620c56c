import CircuitBench.Pipeline.Run
import CircuitBench.Proofs.Bench.Spared
import CircuitBench.Proofs.Pipeline.Soundness

/-!
# Calls of a synthesizer

A synthesizer is called again and again, with the builder of a call or with its own.  A call writes a
main component, which may fail in many ways, and only if that goes well it invokes the builder: once,
with the path of what was just written.  Then the call ends as the builder ends.

What a call does before that leaves all that is there as it is.  So a path that is registered then, or
a file that is there, is lost or changed only by a builder, and by the one that compiles only where the
compiler writes.  Names are drawn one after another, and a path holds the number of the name that was
drawn for it.  So the paths of two calls differ as long as builders do not bring back names that were
drawn.

## Main results

* `prepare_cases` : what is there before the builder of a call is invoked.
* `call_served` : what one call does.
* `after_keeps` : what is kept along any calls, unless a builder puts an end to it.
* `worksByRuns_ofConfig` : the builder that compiles changes files by running the compiler only.
* `calls_served` : what each of any calls does, and that the others leave it alone.
-/

namespace CircuitBench.Bench

open CircuitBench.Path Disk Registry

/-! ## Before the builder -/

/-- What a call does before its builder is invoked: a main component is written, for which no builder
is needed. -/
def prepare (config : Value) (r : MainRequest) : Action String := do
  let template ← attempt r.template.plainText
  inform synthesisLogger ("synthesizing main for " ++ template)
  writeMain config r

/-- The options that a builder is given: those of the caller, or none at all. -/
def givenOptions : Value → Value
  | .null => .table []
  | options => options

/-- A builder is invoked with what has been written. -/
theorem synthesize_eq {α : Type} (config : Value) (r : MainRequest) (options : Value)
    (builder : String → Value → Action α) :
    synthesize config r options builder =
      prepare config r >>= fun path => builder path (givenOptions options) := by
  simp only [synthesize, prepare, bind_assoc]
  cases options <;> rfl

/-- Whether a path was made of a number and the ending that a configuration gives. -/
def IsNumbered (config : Value) (path : String) (n : Nat) : Prop :=
  ∃ fields ending front, config.record = .ok fields ∧
    endingText (Settings.suffix fields) = .ok ending ∧ path = front ++ token n ++ ending

/-- Paths with different numbers are different. -/
theorem IsNumbered.inj {config : Value} {path : String} {n m : Nat} (h : IsNumbered config path n)
    (h' : IsNumbered config path m) : n = m := by
  obtain ⟨fields, ending, front, hFields, hEnding, rfl⟩ := h
  obtain ⟨fields', ending', front', hFields', hEnding', hSame⟩ := h'
  cases hFields.symm.trans hFields'
  cases hEnding.symm.trans hEnding'
  exact append_token_inj ((String.append_left_inj ending).mp hSame)

theorem nameAround_eq_ok {template suffix : Value} {lead ending : String}
    (h : nameAround template suffix = .ok (lead, ending)) : endingText suffix = .ok ending := by
  rw [nameAround.eq_def] at h
  split at h
  · cases h
  · cases h
  · obtain ⟨_, -, h⟩ := except_bind_eq_ok h
    obtain ⟨_, hEnding, h⟩ := except_bind_eq_ok h
    cases h
    exact hEnding

theorem join_eq_append (folder name : String) : ∃ front, join folder name = front ++ name := by
  rw [join]
  split
  · exact ⟨"", (String.empty_append).symm⟩
  · split
    · exact ⟨folder, rfl⟩
    · exact ⟨folder ++ "/", rfl⟩

/-- Whether a path was made of a number that was drawn between two benches. -/
def DrawnBetween (config : Value) (b b' : Bench) (path : String) : Prop :=
  ∃ n, IsNumbered config path n ∧ b.namesDrawn ≤ n ∧ n < b'.namesDrawn

theorem IsNamed.isNumbered {config : Value} {fields : Table} {r : MainRequest} {path : String}
    {n : Nat} (h : IsNamed fields r path n) (hFields : config.record = .ok fields) :
    IsNumbered config path n := by
  obtain ⟨lead, ending, folder, hNamed, hPath⟩ := h
  obtain ⟨front, hFront⟩ := join_eq_append folder (lead ++ token n ++ ending)
  refine ⟨fields, ending, front ++ lead, hFields, nameAround_eq_ok hNamed, ?_⟩
  rw [hPath, hFront]
  simp only [String.append_assoc]

/-- What there is when a main component has been written for a call: a file at a new path that is
registered, which holds the source that the call asks for. -/
structure Prepared (config : Value) (r : MainRequest) (b : Bench) (path : String) (b' : Bench) :
    Prop where
  registered : path ∈ b'.registry.paths
  absolute : isAbsolute path = true
  new : b.disk.get? (resolve [] path) = none
  holds : ∃ fields text bytes, config.record = .ok fields ∧
    IsSourceOf fields r b.current path text ∧ storedBytes text = .ok bytes ∧
    b'.disk.readFile b.current path = .ok bytes ∧
    b'.disk.get? (resolve [] path) = some (.file bytes)
  drawn : DrawnBetween config b b' path

/-- Either a main component has been written, or the call has failed without its builder. -/
theorem prepare_cases {b : Bench} (hPlaced : b.IsPlaced) (config : Value) (r : MainRequest) :
    AddsRegistered b (endState (prepare config r b)) ∧
      ((∃ path b', prepare config r b = .ok path b' ∧ Prepared config r b path b') ∨
        ∃ e b', prepare config r b = .error e b') := by
  rw [prepare]
  cases r.template.plainText with
  | error e => exact ⟨addsRegistered_of_drawn (Nat.le_refl _), .inr ⟨e, b, attempt_bind_error rfl⟩⟩
  | ok template =>
  rw [attempt_bind_ok rfl, bind_ok (inform_log _ _ b)]
  generalize b.log ++ [_] = log
  -- what is told changes nothing of what is asked of the bench
  have hAdds := writeMain_addsRegistered config r { b with log }
  refine ⟨⟨hAdds.current, hAdds.runs, hAdds.drawn, hAdds.registered, hAdds.untouched, hAdds.created⟩, ?_⟩
  rcases writeMain_cases config r { b with log } with
    ⟨fields, path, n, l, b', hFields, hWritten, hEnd⟩ |
    ⟨e, fields, path, n, l, d, -, -, -, -, hEnd⟩ | ⟨e, n, -, hEnd⟩
  · refine .inl ⟨path, b', hEnd, ?_⟩
    obtain ⟨d, hOpens⟩ := hWritten.opens
    obtain ⟨text', bytes', hText', hBytes', hRead⟩ := hWritten.readFile
    obtain ⟨text, bytes, hText, hBytes, rfl⟩ := hWritten.stored
    cases hText'.symm.trans hText
    cases hBytes'.symm.trans hBytes
    have hPlace : resolve [] path = l := by
      rw [resolve_absolute hWritten.absolute [] b.current]
      exact (locate_eq_ok hOpens.place).symm
    refine ⟨(mem_track _ _ _).mpr (.inr rfl), hWritten.absolute, ?_, ?_, ?_⟩
    · rw [hPlace]
      exact hOpens.free
    · refine ⟨fields, _, _, hFields, isSourceOf_mainSource hPlaced hText, hBytes, hRead, ?_⟩
      rw [hPlace]
      exact get?_put_self _ hOpens.inside _
    · exact ⟨n, hWritten.named.isNumbered hFields, hOpens.drawn, Nat.lt_succ_self n⟩
  · exact .inr ⟨e, _, hEnd⟩
  · exact .inr ⟨e, _, hEnd⟩

/-- What is registered before the builder of a call is invoked was registered before the call, or was
made of a number that was drawn for it. -/
theorem prepare_registers (config : Value) (r : MainRequest) (b : Bench) :
    ∀ path ∈ (endState (prepare config r b)).registry.paths,
      path ∈ b.registry.paths ∨ DrawnBetween config b (endState (prepare config r b)) path := by
  intro path hPath
  rw [prepare] at hPath ⊢
  cases hTemplate : r.template.plainText with
  | error e =>
      rw [hTemplate, attempt_bind_error rfl] at hPath
      exact .inl hPath
  | ok template =>
  rw [hTemplate, attempt_bind_ok rfl, bind_ok (inform_log _ _ b)] at hPath
  rw [attempt_bind_ok rfl, bind_ok (inform_log _ _ b)]
  generalize b.log ++ [_] = log at hPath ⊢
  rcases writeMain_cases config r { b with log } with
    ⟨fields, path', n, l, b', hFields, hWritten, hEnd⟩ |
    ⟨e, fields, path', n, l, d, hFields, hNamed, hOpens, -, hEnd⟩ | ⟨e, n, -, hEnd⟩
  · obtain ⟨text, bytes, -, -, rfl⟩ := hWritten.stored
    obtain ⟨d, hOpens⟩ := hWritten.opens
    rw [hEnd] at hPath ⊢
    refine ((mem_track _ _ _).mp hPath).imp_right ?_
    rintro rfl
    exact ⟨n, hWritten.named.isNumbered hFields, hOpens.drawn, Nat.lt_succ_self n⟩
  · rw [hEnd] at hPath ⊢
    refine ((mem_track _ _ _).mp hPath).imp_right ?_
    rintro rfl
    exact ⟨n, hNamed.isNumbered hFields, hOpens.drawn, Nat.lt_succ_self n⟩
  · rw [hEnd] at hPath
    exact .inl hPath

/-! ## Builders -/

variable {α : Type}

/-- How a builder ends that is invoked at a bench: it fails at once, it gives a result that is there,
or it gives work that is waited for. -/
inductive Builder.EndsAs (builder : Builder α) (path : String) (options : Value) (b : Bench) :
    EStateM.Result Error Bench α → Prop
  | failed {e : Error} {b' : Bench} (h : builder path options b = .error e b') :
      EndsAs builder path options b (.error e b')
  | ready {result : α} {b' : Bench} (h : builder path options b = .ok (.ready result) b') :
      EndsAs builder path options b (.ok result b')
  | awaited {work : Action α} {b' : Bench} (h : builder path options b = .ok (.awaited work) b') :
      EndsAs builder path options b (work b')

/-- So it ends when it is invoked for a call, and not otherwise. -/
theorem Builder.endsAs_iff {builder : Builder α} {path : String} {options : Value} {b : Bench}
    {ending : EStateM.Result Error Bench α} :
    builder.EndsAs path options b ending ↔ builder.invoke path options b = ending := by
  constructor
  · rintro (hEnd | hEnd | hEnd)
    · exact bind_error hEnd
    · exact bind_ok hEnd
    · exact bind_ok hEnd
  · rintro rfl
    cases hEnd : builder path options b with
    | error e b' =>
        rw [invoke, bind_error hEnd]
        exact .failed hEnd
    | ok pending b' =>
        rw [invoke, bind_ok hEnd]
        cases pending with
        | ready result => exact .ready hEnd
        | awaited work => exact .awaited hEnd

theorem Builder.invoke_endsAs (builder : Builder α) (path : String) (options : Value) (b : Bench) :
    builder.EndsAs path options b (builder.invoke path options b) :=
  endsAs_iff.mpr rfl

/-- Whether a builder may be used for one call after the other: it brings back no name that was drawn,
and leaves a bench with a current folder that can be spelled, if there is one. -/
structure Builder.IsOrderly (builder : Builder α) : Prop where
  placed : ∀ {path options b ending}, builder.EndsAs path options b ending →
    b.IsPlaced → (endState ending).IsPlaced
  drawn : ∀ {path options b ending}, builder.EndsAs path options b ending →
    b.namesDrawn ≤ (endState ending).namesDrawn

/-- Whether a run wrote a file at a place, as its program was told to. -/
def WroteAt (r : ToolRun) (l : Location) : Prop :=
  ∃ path bytes, .file path bytes ∈ r.conduct.deeds ∧
    r.tool.isTold r.toOccasion (.file path bytes) = true ∧ l = resolve r.folder path

/-- Whether a bench comes from another one by work that forgets no path, and that changes no file
unless a program is run that writes one there. -/
structure ByRuns (b b' : Bench) : Prop where
  registered : ∀ path ∈ b.registry.paths, path ∈ b'.registry.paths
  files : ∃ made, b'.runs = b.runs ++ made ∧
    ∀ l bytes, b.disk.get? l = some (.file bytes) →
      b'.disk.get? l = some (.file bytes) ∨ ∃ r ∈ made, WroteAt r l

theorem ByRuns.refl (b : Bench) : ByRuns b b :=
  ⟨fun _ h => h, [], (List.append_nil _).symm, fun _ _ h => .inl h⟩

theorem ByRuns.trans {b b' b'' : Bench} (h : ByRuns b b') (h' : ByRuns b' b'') : ByRuns b b'' := by
  obtain ⟨made, hRuns, hFiles⟩ := h.files
  obtain ⟨made', hRuns', hFiles'⟩ := h'.files
  refine ⟨fun path hPath => h'.registered path (h.registered path hPath), made ++ made',
    by rw [hRuns', hRuns, List.append_assoc], fun l bytes hFile => ?_⟩
  rcases hFiles l bytes hFile with hStill | ⟨r, hr, hWrote⟩
  · refine (hFiles' l bytes hStill).imp_right fun ⟨r, hr, hWrote⟩ => ?_
    exact ⟨r, List.mem_append_right _ hr, hWrote⟩
  · exact .inr ⟨r, List.mem_append_left _ hr, hWrote⟩

theorem AddsRegistered.byRuns {b b' : Bench} (h : AddsRegistered b b') : ByRuns b b' :=
  ⟨h.registered, [], by rw [h.runs, List.append_nil], fun _ _ hFile => .inl (h.untouched _ _ hFile)⟩

/-- Whether all that a builder forgets or changes is changed by programs that it runs. -/
def Builder.WorksByRuns (builder : Builder α) : Prop :=
  ∀ path options b ending, builder.EndsAs path options b ending → ByRuns b (endState ending)

/-! ## Calls -/

namespace Synthesizer

/-- The bench after calls one after the other, however each of them ends. -/
def after (s : Synthesizer α) (b : Bench) (calls : List (SynthesisCall α)) : Bench :=
  calls.foldl (fun b c => endState (s.call c b)) b

theorem after_append (s : Synthesizer α) (b : Bench) (calls calls' : List (SynthesisCall α)) :
    s.after b (calls ++ calls') = s.after (s.after b calls) calls' :=
  List.foldl_append

/-- What is done for a call before its builder is invoked. -/
def prepare (s : Synthesizer α) (c : SynthesisCall α) : Action String :=
  Bench.prepare s.config c.toMainRequest

theorem call_eq (s : Synthesizer α) (c : SynthesisCall α) :
    s.call c = s.prepare c >>= fun path =>
      (s.builderFor c).invoke path (givenOptions c.buildOptions) :=
  synthesize_eq _ _ _ _

/-- What a call does at a bench.  If a main component is written, the builder of the call, or else
that of the synthesizer, is invoked with it, and the call ends as the builder does; or else the call
fails, and no builder is asked.  What is done before that runs nothing, leaves all that is there as it
is, and registers what it makes. -/
structure Served (s : Synthesizer α) (c : SynthesisCall α) (b : Bench) : Prop where
  written : ∀ path b', s.prepare c b = .ok path b' →
    Prepared s.config c.toMainRequest b path b' ∧
      (c.builder.getD s.builder).EndsAs path (givenOptions c.buildOptions) b' (s.call c b)
  unwritten : ∀ e b', s.prepare c b = .error e b' → s.call c b = .error e b'
  adds : AddsRegistered b (endState (s.prepare c b))

theorem call_served (s : Synthesizer α) (c : SynthesisCall α) {b : Bench} (hPlaced : b.IsPlaced) :
    s.Served c b := by
  obtain ⟨hAdds, hEnds⟩ := prepare_cases hPlaced s.config c.toMainRequest
  refine ⟨fun path b' hEnd => ⟨?_, ?_⟩, fun e b' hEnd => ?_, hAdds⟩
  · rcases hEnds with ⟨path', b'', hEnd', hPrepared⟩ | ⟨e, b'', hEnd'⟩
    · cases hEnd.symm.trans hEnd'
      exact hPrepared
    · cases hEnd.symm.trans hEnd'
  · rw [call_eq, bind_ok hEnd]
    exact Builder.invoke_endsAs _ _ _ _
  · rw [call_eq]
    exact bind_error hEnd

/-- Whether a path is used by a call: a file was registered under it, even if the call failed then, or
its builder was invoked with it. -/
def Uses (s : Synthesizer α) (c : SynthesisCall α) (b : Bench) (path : String) : Prop :=
  (path ∈ (endState (s.prepare c b)).registry.paths ∧ path ∉ b.registry.paths) ∨
    ∃ b', s.prepare c b = .ok path b'

/-- Whether the builder of one of some calls puts an end to what is said of a bench: it is so when the
builder is invoked, and it is not when the call is over. -/
def Ended (s : Synthesizer α) (P : Bench → Prop) (b : Bench) (calls : List (SynthesisCall α)) :
    Prop :=
  ∃ before d after path b', calls = before ++ d :: after ∧
    s.prepare d (s.after b before) = .ok path b' ∧ P b' ∧
      ¬ P (endState (s.call d (s.after b before)))

theorem Ended.cons {s : Synthesizer α} {P : Bench → Prop} {b : Bench} {c : SynthesisCall α}
    {calls : List (SynthesisCall α)} (h : s.Ended P (endState (s.call c b)) calls) :
    s.Ended P b (c :: calls) := by
  obtain ⟨before, d, after, path, b', rfl, hEnd, hSo, hNot⟩ := h
  exact ⟨c :: before, d, after, path, b', rfl, hEnd, hSo, hNot⟩

/-- What remains of all that is there when the builder of a call is about to be invoked, or the call
has failed, until that call and some later ones are over.  A path stays registered, and a file stays as
it is, unless one of the builders puts an end to that.  If all that these do is done by programs that
are run, then no path is forgotten, and a file is changed by a program only. -/
structure Remains (s : Synthesizer α) (c : SynthesisCall α) (b : Bench)
    (later : List (SynthesisCall α)) : Prop where
  registered : ∀ path ∈ (endState (s.prepare c b)).registry.paths,
    path ∈ (s.after b (c :: later)).registry.paths ∨
      s.Ended (fun b' => path ∈ b'.registry.paths) b (c :: later)
  files : ∀ l bytes, (endState (s.prepare c b)).disk.get? l = some (.file bytes) →
    (s.after b (c :: later)).disk.get? l = some (.file bytes) ∨
      s.Ended (fun b' => b'.disk.get? l = some (.file bytes)) b (c :: later)
  byRuns : (∀ d ∈ c :: later, (d.builder.getD s.builder).WorksByRuns) →
    ByRuns (endState (s.prepare c b)) (s.after b (c :: later))

section Steps

variable {s : Synthesizer α} {c : SynthesisCall α} {b : Bench}

/-- What the two parts of a call preserve, the call preserves. -/
theorem preserves_call {P : Bench → Prop} (hFirst : Preserves P (s.prepare c))
    (hSecond : ∀ path options, Preserves P ((s.builderFor c).invoke path options)) :
    Preserves P (s.call c) := by
  rw [call_eq]
  exact hFirst.bind fun path => hSecond path _

/-- After a call, the bench is as orderly as before. -/
theorem call_orderly (hOrderly : (c.builder.getD s.builder).IsOrderly) (hPlaced : b.IsPlaced) :
    (endState (s.call c b)).IsPlaced ∧ b.namesDrawn ≤ (endState (s.call c b)).namesDrawn := by
  have hKeeps : Preserves (fun b' : Bench => b'.IsPlaced ∧ b.namesDrawn ≤ b'.namesDrawn)
      (s.call c) := by
    refine preserves_call (fun b₁ hb₁ => ?_) fun path options b₁ hb₁ => ?_
    · have hAdds := (call_served s c hb₁.1).adds
      exact ⟨hb₁.1.of_current hAdds.current, Nat.le_trans hb₁.2 hAdds.drawn⟩
    · have hEnds := Builder.invoke_endsAs (s.builderFor c) path options b₁
      exact ⟨hOrderly.placed hEnds hb₁.1, Nat.le_trans hb₁.2 (hOrderly.drawn hEnds)⟩
  exact hKeeps b ⟨hPlaced, Nat.le_refl _⟩

/-- A number that was drawn for a call is behind those that are drawn from then on. -/
theorem drawn_of_prepare (hOrderly : (c.builder.getD s.builder).IsOrderly) (hPlaced : b.IsPlaced) :
    (endState (s.prepare c b)).namesDrawn ≤ (endState (s.call c b)).namesDrawn := by
  have hServed := call_served s c hPlaced
  cases hEnd : s.prepare c b with
  | error e b' =>
      rw [hServed.unwritten e b' hEnd]
      exact Nat.le_refl _
  | ok path b' => exact hOrderly.drawn (hServed.written path b' hEnd).2

theorem Uses.drawn (hPlaced : b.IsPlaced) {path : String} (h : s.Uses c b path) :
    DrawnBetween s.config b (endState (s.prepare c b)) path := by
  rcases h with ⟨hRegistered, hNew⟩ | ⟨b', hEnd⟩
  · exact (prepare_registers s.config c.toMainRequest b path hRegistered).resolve_left hNew
  · rw [hEnd]
    exact ((call_served s c hPlaced).written path b' hEnd).1.drawn

/-- What is so when the builder of a call is about to be invoked is so when the call is over, unless
the builder puts an end to it. -/
theorem call_keeps {P : Bench → Prop} (hPlaced : b.IsPlaced) (calls : List (SynthesisCall α))
    (h : P (endState (s.prepare c b))) :
    P (endState (s.call c b)) ∨ s.Ended P b (c :: calls) := by
  cases hEnd : s.prepare c b with
  | error e b' =>
      rw [hEnd] at h
      rw [(call_served s c hPlaced).unwritten e b' hEnd]
      exact .inl h
  | ok path b' =>
      rw [hEnd] at h
      refine Classical.or_iff_not_imp_left.mpr fun hNot => ?_
      exact ⟨[], c, calls, path, b', rfl, hEnd, h, hNot⟩

end Steps

section Runs

variable {s : Synthesizer α} {b : Bench}

/-- So it is after any calls. -/
theorem after_orderly {calls : List (SynthesisCall α)}
    (hOrderly : ∀ c ∈ calls, (c.builder.getD s.builder).IsOrderly) (hPlaced : b.IsPlaced) :
    (s.after b calls).IsPlaced ∧ b.namesDrawn ≤ (s.after b calls).namesDrawn := by
  induction calls generalizing b with
  | nil => exact ⟨hPlaced, Nat.le_refl _⟩
  | cons c rest ih =>
      obtain ⟨hFirst, hRest⟩ := List.forall_mem_cons.mp hOrderly
      obtain ⟨hStill, hDrawn⟩ := call_orderly hFirst hPlaced
      obtain ⟨hEnd, hDrawn'⟩ := ih hRest hStill
      exact ⟨hEnd, Nat.le_trans hDrawn hDrawn'⟩

/-- A path that is used by a call was used by no earlier one. -/
theorem path_ne_earlier {earlier : List (SynthesisCall α)} {c d : SynthesisCall α}
    (hOrderly : ∀ d' ∈ d :: earlier, (d'.builder.getD s.builder).IsOrderly) (hPlaced : b.IsPlaced)
    {path path' : String} (hUses : s.Uses d b path)
    (hUses' : s.Uses c (s.after b (d :: earlier)) path') : path ≠ path' := by
  obtain ⟨hFirst, hRest⟩ := List.forall_mem_cons.mp hOrderly
  obtain ⟨hStill, -⟩ := call_orderly hFirst hPlaced
  obtain ⟨hThen, hDrawn⟩ := after_orderly hRest hStill
  obtain ⟨n, hNumber, -, hBehind⟩ := hUses.drawn hPlaced
  obtain ⟨m, hNumber', hAhead, -⟩ := hUses'.drawn hThen
  have hNext := drawn_of_prepare hFirst hPlaced
  rintro rfl
  have hSame := hNumber.inj hNumber'
  omega

/-- What no preparation of a call changes stays as it is along the calls, unless a builder puts an end
to it. -/
theorem after_keeps {P : Bench → Prop} (hAdds : ∀ {b b' : Bench}, AddsRegistered b b' → P b → P b')
    {c : SynthesisCall α} {later : List (SynthesisCall α)}
    (hOrderly : ∀ d ∈ c :: later, (d.builder.getD s.builder).IsOrderly) (hPlaced : b.IsPlaced)
    (h : P (endState (s.prepare c b))) :
    P (s.after b (c :: later)) ∨ s.Ended P b (c :: later) := by
  induction later generalizing c b with
  | nil => exact call_keeps hPlaced [] h
  | cons d rest ih =>
      obtain ⟨hFirst, hRest⟩ := List.forall_mem_cons.mp hOrderly
      have hStill := (call_orderly hFirst hPlaced).1
      rcases call_keeps hPlaced (d :: rest) h with hNow | hEnded
      · have hNext := hAdds (call_served s d hStill).adds hNow
        exact (ih hRest hStill hNext).imp_right Ended.cons
      · exact .inr hEnded

/-- Nothing but the builders takes away what was there when one of them was about to be invoked. -/
theorem calls_remain {c : SynthesisCall α} {later : List (SynthesisCall α)}
    (hOrderly : ∀ d ∈ c :: later, (d.builder.getD s.builder).IsOrderly) (hPlaced : b.IsPlaced) :
    s.Remains c b later where
  registered path hPath := after_keeps (fun hAdds => hAdds.registered path) hOrderly hPlaced hPath
  files l bytes hFile := after_keeps (fun hAdds => hAdds.untouched l _) hOrderly hPlaced hFile
  byRuns hBuilders := by
    refine (after_keeps (P := ByRuns (endState (s.prepare c b))) (fun hAdds h => h.trans hAdds.byRuns)
      hOrderly hPlaced (.refl _)).resolve_right ?_
    rintro ⟨before, d, after, path, b', hCalls, hEnd, hSo, hNot⟩
    rw [hCalls] at hOrderly hBuilders
    obtain ⟨hBefore, -⟩ := List.forall_mem_append.mp hOrderly
    have hServed := call_served s d (after_orderly hBefore hPlaced).1
    have hBuilder := hBuilders d (List.mem_append_right _ List.mem_cons_self)
    exact hNot (hSo.trans (hBuilder _ _ _ _ (hServed.written path b' hEnd).2))

end Runs

/-! ## The builder of circuits -/

/-- Circuits may be built for one call after the other. -/
theorem isOrderly_ofConfig (config : Value) : (ofConfig config).builder.IsOrderly := by
  have hWorks : ∀ {path options b ending}, (ofConfig config).builder.EndsAs path options b ending →
      Works b.current (fun _ => False) b (endState ending) := by
    intro path options b ending hEnds
    rw [← Builder.endsAs_iff.mp hEnds]
    exact build_works config path options b
  refine ⟨fun hEnds hPlaced => ?_, fun hEnds => (hWorks hEnds).drawn⟩
  rcases (hWorks hEnds).current with hSame | hGone
  · exact hPlaced.of_current hSame
  · exact .inl hGone

/-- All that a build changes is changed by the compiler that it runs. -/
theorem worksByRuns_ofConfig (config : Value) : (ofConfig config).builder.WorksByRuns := by
  intro path options b ending hEnds
  rw [← Builder.endsAs_iff.mp hEnds]
  have hWorks : Works b.current (fun _ => False) b (endState (build config path options b)) :=
    build_works config path options b
  refine ⟨hWorks.registered, ?_⟩
  have hFolders : ∀ current, KeptByFolders (fun d => ∀ l bytes,
      b.disk.get? l = some (.file bytes) → d.get? l = some (.file bytes)) current := by
    intro current d d' around place hKept hMade l bytes hFile
    exact keptByFolders_file l bytes current (hKept l bytes hFile) hMade
  rcases build_cases hFolders (fun _ _ hFile => hFile) config options path with
    hAfter | ⟨hBefore, hOf, -, -, hAfter⟩
  · exact ⟨[], hAfter.runs, fun l bytes hFile => .inl (hAfter.disk l bytes hFile)⟩
  · refine ⟨_, hAfter.runs, fun l bytes hFile => ?_⟩
    rcases Occasion.file_kept (hBefore l bytes hFile) _ with
      hStill | ⟨path', bytes', hMem, hPlace⟩
    · exact .inl ((congrArg (·.get? l) hAfter.disk).trans hStill)
    · exact .inr ⟨_, List.mem_singleton_self _, path', bytes', hMem, hOf.isTold hMem, hPlace⟩

/-! ## Any calls -/

/-- Calls of a synthesizer one after the other, of whatever main components, and with whatever
builders that are orderly.  Each of them does what it should at the bench that the calls before it
have left, whether these went well or not, and uses no path that was used before.  What is there when
its builder is about to be invoked remains, as far as the builders leave it alone.  The builder of
circuits is orderly, and changes files by running the compiler only. -/
theorem calls_served (s : Synthesizer α) {b : Bench} (hPlaced : b.IsPlaced)
    {calls : List (SynthesisCall α)}
    (hOrderly : ∀ c ∈ calls, (c.builder.getD s.builder).IsOrderly) :
    (∀ earlier c later, calls = earlier ++ c :: later →
      s.Served c (s.after b earlier) ∧
      (∀ front d between path path', earlier = front ++ d :: between →
        s.Uses d (s.after b front) path → s.Uses c (s.after b earlier) path' → path ≠ path') ∧
      s.Remains c (s.after b earlier) later) ∧
    ∀ config, (ofConfig config).builder.IsOrderly ∧ (ofConfig config).builder.WorksByRuns := by
  refine ⟨?_, fun config => ⟨isOrderly_ofConfig config, worksByRuns_ofConfig config⟩⟩
  rintro earlier c later rfl
  obtain ⟨hBefore, hSince⟩ := List.forall_mem_append.mp hOrderly
  obtain ⟨hPlaced₁, -⟩ := after_orderly hBefore hPlaced
  refine ⟨call_served s c hPlaced₁, ?_, calls_remain hSince hPlaced₁⟩
  rintro front d between path path' rfl hUses hUses'
  obtain ⟨hFront, hBetween⟩ := List.forall_mem_append.mp hBefore
  rw [after_append] at hUses'
  exact path_ne_earlier hBetween (after_orderly hFront hPlaced).1 hUses hUses'

/-- A call that builds the circuit of a square. -/
def squareCall : SynthesisCall Circuit where
  templateFile := .text "square.circom"
  template := .text "Square"

/-- A builder that refuses its work when it is waited for. -/
def refusingBuilder (e : Error) : Builder Circuit :=
  fun _ _ => return .awaited (throw e)

/-- The circuit of a square is asked for again after two calls that fail, one for a template that has
no file, and one with a builder that refuses. -/
def squareCalls : List (SynthesisCall Circuit) :=
  [squareCall, { squareCall with templateFile := .null },
    { squareCall with builder := some (refusingBuilder (.disk .missing)) }, squareCall]

theorem refusingBuilder_endState {e : Error} {path : String} {options : Value} {b : Bench}
    {ending : EStateM.Result Error Bench Circuit}
    (h : (refusingBuilder e).EndsAs path options b ending) : endState ending = b := by
  rw [← Builder.endsAs_iff.mp h]
  rfl

/-- The last of these calls writes another file than the first one, and ends as the build of that one
does.  The first file is still there then, as it was written. -/
theorem squareCalls_served :
    let s := ofConfig (.table Settings.defaults)
    let before := s.after squareBench (squareCalls.take 3)
    ∃ path path' b' b'', s.prepare squareCall squareBench = .ok path b' ∧
      s.prepare squareCall before = .ok path' b'' ∧ path ≠ path' ∧
      Prepared (.table Settings.defaults) squareCall.toMainRequest before path' b'' ∧
      s.builder.EndsAs path' (.table []) b'' (s.call squareCall before) ∧
      (∃ bytes, b'.disk.get? (resolve [] path) = some (.file bytes) ∧
        (s.after squareBench squareCalls).disk.get? (resolve [] path) = some (.file bytes)) := by
  intro s before
  have hEnds : (outcome (s.prepare squareCall) squareBench).1.toOption =
        some "/tmp/Squarek0000000.circom" ∧
      (outcome (s.prepare squareCall) before).1.toOption = some "/tmp/Squarek0000004.circom" ∧
      ∀ r ∈ (s.after squareBench squareCalls).runs, ∀ deed ∈ r.conduct.deeds,
        resolve [] "/tmp/Squarek0000000.circom" ≠ resolve r.folder deed.path := by
    decide +kernel
  obtain ⟨hFirst, hLast, hSpared⟩ := hEnds
  obtain ⟨b', hFirst⟩ := ok_of_outcome hFirst
  obtain ⟨b'', hLast⟩ := ok_of_outcome hLast
  have hOrderly : ∀ c ∈ squareCalls, (c.builder.getD s.builder).IsOrderly := by
    have hDefault : s.builder.IsOrderly := isOrderly_ofConfig _
    have hRefusing : (refusingBuilder (.disk .missing)).IsOrderly :=
      ⟨fun hEnd hPlaced => by rwa [refusingBuilder_endState hEnd],
        fun hEnd => Nat.le_of_eq (congrArg namesDrawn (refusingBuilder_endState hEnd).symm)⟩
    simp only [squareCalls, List.forall_mem_cons]
    exact ⟨hDefault, hDefault, hRefusing, hDefault, nofun⟩
  have hByRuns : ∀ c ∈ squareCalls, (c.builder.getD s.builder).WorksByRuns := by
    have hDefault : s.builder.WorksByRuns := worksByRuns_ofConfig _
    have hRefusing : (refusingBuilder (.disk .missing)).WorksByRuns := by
      intro path options b ending hEnd
      rw [refusingBuilder_endState hEnd]
      exact .refl b
    simp only [squareCalls, List.forall_mem_cons]
    exact ⟨hDefault, hDefault, hRefusing, hDefault, nofun⟩
  obtain ⟨hCalls, -⟩ := calls_served s (b := squareBench) (.inr (by decide)) hOrderly
  obtain ⟨hServed, -, hRemains⟩ := hCalls [] squareCall _ rfl
  obtain ⟨hServed', hOthers, -⟩ := hCalls (squareCalls.take 3) squareCall [] rfl
  refine ⟨_, _, b', b'', hFirst, hLast, ?_, (hServed'.written _ _ hLast).1,
    (hServed'.written _ _ hLast).2, ?_⟩
  · exact hOthers [] squareCall _ _ _ rfl (.inr ⟨b', hFirst⟩) (.inr ⟨b'', hLast⟩)
  · obtain ⟨-, -, bytes, -, -, -, -, hFile⟩ := (hServed.written _ _ hFirst).1.holds
    obtain ⟨made, hRuns, hFiles⟩ := (hRemains.byRuns hByRuns).files
    refine ⟨bytes, hFile, (hFiles _ bytes ?_).resolve_right ?_⟩
    · rw [show s.prepare squareCall (s.after squareBench []) = _ from hFirst]
      exact hFile
    · rintro ⟨r, hr, path, bytes', hMem, -, hPlace⟩
      refine hSpared r ?_ _ hMem hPlace
      exact hRuns.symm ▸ List.mem_append_right _ hr

end Synthesizer

end CircuitBench.Bench
