import CircuitBench.Pipeline.Run
import CircuitBench.Proofs.Bench.Spared
import CircuitBench.Proofs.Pipeline.Soundness

/-!
# What a workshop leaves alone

Circuits are built, used and released in any order, next to one another, and between this the
registry is used and cleaned up.  Three of these chores remove folders with all that lies in them: a
witness that was computed has its work folder removed, a circuit that is released has the folder that
it was built in removed, if it is its own, and cleaning up removes all that is registered.

Whatever the order, and however each chore ends, all that is removed lies at or below a path that was
registered at some time in between.  Anything else that was there before is there afterwards, and no
file has changed but artifacts that the compiler made.

## Main results

* `leads_perform` : what one chore keeps.
* `leads_run` : what any chores keep.
* `only_registered_removed` : what was there before any chores and is there afterwards.
-/

namespace CircuitBench

open CircuitBench.Path Bench Disk

/-! ## Circuits in use -/

namespace Session

variable {α : Type} {P : Circuit → Prop}

theorem preserves_onBench_circuit (action : Action α) :
    Preserves (fun s : Session => P s.circuit) (onBench action) := by
  intro s hs
  rw [onBench]
  cases action s.bench <;> exact hs

/-- What is said of a circuit, but not of what has been read of its files. -/
def OfFiles (P : Circuit → Prop) : Prop :=
  ∀ c symbols constraints, P c → P { c with symbols := symbols, constraints := constraints }

/-- The work on a witness changes nothing of a circuit but what has been read of its files. -/
theorem circuit_calculateWitness (hP : OfFiles P) (inputs : Value) (strict : Bool) :
    Preserves (fun s : Session => P s.circuit) (calculateWitness inputs strict) := by
  have hNow : Preserves (fun s : Session => P s.circuit) circuitNow := fun s hs => hs
  have hConstraints : Preserves (fun s : Session => P s.circuit) loadConstraints := by
    refine hNow.bind fun c => ?_
    split
    · exact preserves_pure _
    · refine (preserves_onBench_circuit _).bind fun system => ?_
      exact (preserves_modify fun s hs => hP s.circuit _ _ hs).bind fun _ => preserves_pure _
  have hSymbols : Preserves (fun s : Session => P s.circuit) loadSymbols := by
    refine hNow.bind fun c => ?_
    split
    · exact preserves_pure _
    · refine (preserves_onBench_circuit _).bind fun table => ?_
      exact (preserves_modify fun s hs => hP s.circuit _ _ hs).bind fun _ => preserves_pure _
  refine hConstraints.bind fun system => Preserves.bind ?_ fun _ => ?_
  · exact (hSymbols.bind fun symbols => preserves_attempt _).ite (preserves_pure _)
  refine hNow.bind fun c => (preserves_onBench_circuit _).bind fun values => ?_
  exact (preserves_throw _).ite (preserves_pure _)

theorem endState_release (s : Session) : endState (release s) =
    if s.circuit.ownsOutput then
      ⟨s.bench.afterRemoval (s.bench.disk.clearFolder s.bench.current s.circuit.folder.text),
        s.circuit⟩
    else s := by
  rw [release, bind_ok (show circuitNow s = .ok s.circuit s from rfl)]
  cases s.circuit.ownsOutput <;> rfl

end Session

/-! ## Workshops -/

/-- A bench, with the circuits that were built there. -/
structure Workshop where
  bench : Bench
  circuits : List Circuit := []

/-- A chore in a workshop: a source is built, or a main component is written and built; a witness of
a circuit is computed, or the circuit is released; a path is registered, or a file or a folder is
opened; or all that is registered is cleaned up. -/
inductive Chore
  | build (config : Value) (source : String) (options : Value)
  | synthesize (config : Value) (request : MainRequest) (options : Value)
  | calculateWitness (index : Nat) (inputs : Value) (strict : Bool)
  | release (index : Nat)
  | track (path : String)
  | openFile (lead ending : String) (asked : Option String)
  | openFolder (lead : String) (asked : Option String)
  | cleanUp

namespace Workshop

/-- A circuit that could be built is put to the others. -/
def building (w : Workshop) (action : Action Circuit) : Workshop :=
  match action w.bench with
  | .ok c bench => ⟨bench, w.circuits ++ [c]⟩
  | .error _ bench => { w with bench }

/-- Works on the circuit with a number, if there is one. -/
def working {α : Type} (w : Workshop) (index : Nat) (step : Step α) : Workshop :=
  match w.circuits[index]? with
  | none => w
  | some c =>
    let s := endState (step ⟨w.bench, c⟩)
    ⟨s.bench, w.circuits.set index s.circuit⟩

/-- Works at the bench. -/
def atBench {α : Type} (w : Workshop) (action : Action α) : Workshop :=
  { w with bench := endState (action w.bench) }

/-- The workshop after a chore, however it ends. -/
def perform (w : Workshop) : Chore → Workshop
  | .build config source options => w.building (Bench.build config source options)
  | .synthesize config request options =>
    w.building ((Bench.Synthesizer.ofConfig config).call { request with buildOptions := options })
  | .calculateWitness index inputs strict =>
    w.working index (Session.calculateWitness inputs strict)
  | .release index => w.working index Session.release
  | .track path => w.atBench (Bench.track path)
  | .openFile lead ending asked => w.atBench (Bench.openFile lead ending asked)
  | .openFolder lead asked => w.atBench (Bench.openFolder lead asked)
  | .cleanUp => w.atBench Bench.cleanUp

/-- The workshop after one chore after the other. -/
def run (w : Workshop) (chores : List Chore) : Workshop :=
  chores.foldl perform w

/-- The workshop before the chores, and after each of them. -/
def trace (w : Workshop) : List Chore → List Workshop
  | [] => [w]
  | chore :: rest => w :: trace (w.perform chore) rest

theorem mem_trace_self (w : Workshop) (chores : List Chore) : w ∈ w.trace chores := by
  cases chores <;> simp [trace]

theorem trace_cons (w : Workshop) (chore : Chore) (rest : List Chore) :
    w.trace (chore :: rest) = w :: (w.perform chore).trace rest := rfl

/-- Whether a circuit is one of those in a workshop, up to what has been read of its files. -/
def Has (w : Workshop) (c : Circuit) : Prop :=
  ∃ c₀ ∈ w.circuits, c.name = c₀.name ∧ c.folder = c₀.folder ∧ c.ownsOutput = c₀.ownsOutput

end Workshop

/-! ## Circuits that are built -/

/-- What is said of a build that was begun at a bench, with its end: work was done there, and of a
circuit that was built, the folder is held. -/
structure Builds (home : Location) (stray : Location → Prop) (b : Bench)
    (ending : EStateM.Result Error Bench Circuit) : Prop where
  works : Works home stray b (endState ending)
  held : ∀ c b', ending = .ok c b' → '/' ∉ c.name.toList ∧
    ∃ made, b'.runs = b.runs ++ made ∧ ((∀ r ∈ made, r.IsProper) →
      Stands home b.current b.disk → b.disk.IsTree →
        Held home (AtRegistered home b'.registry) c b'.disk)

section Builds

variable {home : Location} {stray : Location → Prop} {b b₁ : Bench}

/-- Other work may be done before a build. -/
theorem Builds.after {ending : EStateM.Result Error Bench Circuit} (hBefore : Works home stray b b₁)
    (h : Builds home stray b₁ ending) : Builds home stray b ending := by
  refine ⟨hBefore.trans h.works, fun c b' hEnd => ?_⟩
  obtain ⟨hName, made', hRuns', hHeld⟩ := h.held c b' hEnd
  obtain ⟨made, hRuns, hSpared⟩ := hBefore.spares
  refine ⟨hName, made ++ made', by rw [hRuns', hRuns, List.append_assoc],
    fun hProper hStands hTree => ?_⟩
  obtain ⟨hFirst, hSecond⟩ := List.forall_mem_append.mp hProper
  have hSpares := hSpared hFirst hStands hTree
  exact hHeld hSecond (stands_of_spares hStands hBefore.current hSpares) (hSpares.tree hTree)

theorem Builds.bind {α : Type} {x : Action α} {f : α → Action Circuit}
    (hWorks : Works home stray b (endState (x b)))
    (hNext : ∀ a b₁, Builds home stray b₁ (f a b₁)) : Builds home stray b ((x >>= f) b) := by
  cases hEnd : x b with
  | error e b₁ =>
      rw [hEnd] at hWorks
      rw [bind_error hEnd]
      exact ⟨hWorks, fun _ _ hBuilt => nomatch hBuilt⟩
  | ok a b₁ =>
      rw [hEnd] at hWorks
      rw [bind_ok hEnd]
      exact .after hWorks (hNext a b₁)

theorem build_builds (config : Value) (source : String) (options : Value) (b : Bench) :
    Builds home stray b (build config source options b) :=
  ⟨build_works config source options b, fun _ _ hEnd => build_held hEnd⟩

/-- A main component is written before it is built. -/
theorem synthesize_builds {builder : String → Value → Action Circuit}
    (hBuilder : ∀ path options b, Builds home stray b (builder path options b)) (config : Value)
    (r : MainRequest) (options : Value) (b : Bench) :
    Builds home stray b (synthesize config r options builder b) := by
  rw [synthesize]
  refine .bind (attempt_works _ b) fun template b₁ => ?_
  refine .bind (inform_works _ _ b₁) fun _ b₂ => ?_
  refine .bind (writeMain_works config r b₂) fun path b₃ => ?_
  cases options <;> exact hBuilder _ _ _

end Builds

/-! ## Chores -/

namespace Workshop

/-- What is known of a workshop wherever its chores lead: witnesses go astray to some places only,
and circuits have names that can be part of those of files. -/
structure Ordered (stray : Location → Prop) (w : Workshop) : Prop where
  strays : ∀ l, w.bench.IsStray l → stray l
  names : ∀ c ∈ w.circuits, '/' ∉ c.name.toList

/-- What is kept in a workshop of which some places may be taken away. -/
structure Kept (home : Location) (E : Location → Prop) (w : Workshop) : Prop where
  stands : Stands home w.bench.current w.bench.disk
  tree : w.bench.disk.IsTree
  held : ∀ c ∈ w.circuits, Held home E c w.bench.disk

/-- Whether one workshop leads to another one by chores that keep it, and take away what lies at some
places only. -/
structure Leads (home : Location) (stray E : Location → Prop) (w w' : Workshop) : Prop where
  ordered : Ordered stray w'
  keeps : ∃ made, w'.bench.runs = w.bench.runs ++ made ∧ ((∀ r ∈ made, r.IsProper) →
    Kept home E w → Kept home E w' ∧
      Spares E (Rewritten home stray made) w.bench.disk w'.bench.disk)

section Leads

variable {home : Location} {stray E : Location → Prop} {w w' w'' : Workshop} {bench : Bench}
variable {circuits : List Circuit}

namespace Leads

theorem refl (hOrdered : Ordered stray w) : Leads home stray E w w :=
  ⟨hOrdered, [], (List.append_nil _).symm, fun _ hKept => ⟨hKept, .refl _ _ _⟩⟩

theorem trans (h : Leads home stray E w w') (h' : Leads home stray E w' w'') :
    Leads home stray E w w'' := by
  obtain ⟨made, hRuns, hKeeps⟩ := h.keeps
  obtain ⟨made', hRuns', hKeeps'⟩ := h'.keeps
  refine ⟨h'.ordered, made ++ made', by rw [hRuns', hRuns, List.append_assoc],
    fun hProper hKept => ?_⟩
  obtain ⟨hFirst, hSecond⟩ := List.forall_mem_append.mp hProper
  obtain ⟨hMiddle, hBefore⟩ := hKeeps hFirst hKept
  obtain ⟨hLast, hAfter⟩ := hKeeps' hSecond hMiddle
  refine ⟨hLast, (hBefore.mono (fun _ hl => hl) fun l _ hl => .inr ?_).trans
    (hAfter.mono (fun _ hl => hl) fun l _ hl => .inr ?_)⟩
  · exact rewritten_mono (fun r hr => List.mem_append_left _ hr) hl
  · exact rewritten_mono (fun r hr => List.mem_append_right _ hr) hl

/-- Circuits that were there are still held, as nothing is taken away but what may be. -/
theorem of_spared {made : List ToolRun} (hOrdered : Ordered stray w)
    (hFolder : bench.workFolder = w.bench.workFolder)
    (hDrawn : w.bench.namesDrawn ≤ bench.namesDrawn)
    (hCurrent : bench.current = w.bench.current ∨ bench.current = nowhere)
    (hRuns : bench.runs = w.bench.runs ++ made)
    (hSpared : (∀ r ∈ made, r.IsProper) → Kept home E w →
      Spares E (Rewritten home stray made) w.bench.disk bench.disk)
    (hCircuits : ∀ c ∈ circuits, w.Has c ∨ '/' ∉ c.name.toList ∧
      ((∀ r ∈ made, r.IsProper) → Kept home E w → Held home E c bench.disk)) :
    Leads home stray E w ⟨bench, circuits⟩ := by
  refine ⟨⟨fun l hl => ?_, fun c hc => ?_⟩, made, hRuns, fun hProper hKept => ?_⟩
  · exact hOrdered.strays l ⟨hFolder ▸ hl.1, inUndrawn_mono hDrawn hl.2⟩
  · rcases hCircuits c hc with ⟨c₀, hMem, hName, -⟩ | ⟨hName, -⟩
    · rw [hName]
      exact hOrdered.names c₀ hMem
    · exact hName
  · have hSpares := hSpared hProper hKept
    refine ⟨⟨stands_of_spares hKept.stands hCurrent hSpares, hSpares.tree hKept.tree,
      fun c hc => ?_⟩, hSpares⟩
    rcases hCircuits c hc with ⟨c₀, hMem, -, hSame, hOwns⟩ | ⟨-, hHeld⟩
    · have hStill := (hKept.held c₀ hMem).spares (fun _ hl => hl) hSpares
      exact ⟨by rw [hSame, hOwns]; exact hStill.owned, by rw [hSame, hOwns]; exact hStill.given⟩
    · exact hHeld hProper hKept

/-- Work at the bench takes nothing away but what is registered when it is over. -/
theorem of_works (hOrdered : Ordered stray w) (hWorks : Works home stray w.bench bench)
    (hAfter : ∀ l, AtRegistered home bench.registry l → E l)
    (hCircuits : ∀ c ∈ circuits, w.Has c ∨ '/' ∉ c.name.toList ∧
      ∃ made, bench.runs = w.bench.runs ++ made ∧ ((∀ r ∈ made, r.IsProper) →
        Stands home w.bench.current w.bench.disk → w.bench.disk.IsTree →
          Held home (AtRegistered home bench.registry) c bench.disk)) :
    Leads home stray E w ⟨bench, circuits⟩ := by
  obtain ⟨made, hRuns, hSpared⟩ := hWorks.spares
  refine of_spared hOrdered hWorks.workFolder hWorks.drawn hWorks.current hRuns
    (fun hProper hKept => ?_) fun c hc => ?_
  · exact (hSpared hProper hKept.stands hKept.tree).mono hAfter fun _ _ hl => .inr hl
  · refine (hCircuits c hc).imp_right fun ⟨hName, made', hRuns', hHeld⟩ => ⟨hName, ?_⟩
    intro hProper hKept
    obtain rfl : made = made' := List.append_cancel_left (hRuns.symm.trans hRuns')
    exact (hHeld hProper hKept.stands hKept.tree).spares hAfter (.refl E (fun _ _ => False) _)

end Leads

theorem has_self {c : Circuit} (h : c ∈ w.circuits) : w.Has c :=
  ⟨c, h, rfl, rfl, rfl⟩

/-- What is done at the bench alone leaves the circuits as they are. -/
theorem leads_atBench {α : Type} {action : Action α} (hOrdered : Ordered stray w)
    (hWorks : ∀ b, Works home stray b (endState (action b)))
    (hAfter : ∀ l, AtRegistered home (w.atBench action).bench.registry l → E l) :
    Leads home stray E w (w.atBench action) :=
  .of_works hOrdered (hWorks w.bench) hAfter fun _ hc => .inl (has_self hc)

/-- A circuit that was built is put to the others. -/
theorem leads_building {action : Action Circuit} (hOrdered : Ordered stray w)
    (hBuilds : Builds home stray w.bench (action w.bench))
    (hAfter : ∀ l, AtRegistered home (w.building action).bench.registry l → E l) :
    Leads home stray E w (w.building action) := by
  obtain ⟨hWorks, hHeld⟩ := hBuilds
  rw [building] at hAfter ⊢
  cases hEnd : action w.bench with
  | error e b =>
      rw [hEnd] at hWorks hAfter
      exact .of_works hOrdered hWorks hAfter fun _ hc => .inl (has_self hc)
  | ok c b =>
      rw [hEnd] at hWorks hAfter
      refine .of_works hOrdered hWorks hAfter fun c' hc => ?_
      rcases List.mem_append.mp hc with hOld | hNew
      · exact .inl (has_self hOld)
      · rw [List.mem_singleton.mp hNew]
        exact .inr (hHeld c b hEnd)

/-- A circuit that is worked on stays in its place. -/
theorem has_of_mem_set {index : Nat} {c c' c₀ : Circuit} (hThere : w.circuits[index]? = some c₀)
    (hSame : c.name = c₀.name ∧ c.folder = c₀.folder ∧ c.ownsOutput = c₀.ownsOutput)
    (hMem : c' ∈ w.circuits.set index c) : w.Has c' := by
  rcases List.mem_or_eq_of_mem_set hMem with hOld | rfl
  · exact has_self hOld
  · exact ⟨c₀, List.mem_of_getElem? hThere, hSame⟩

theorem leads_calculateWitness (hOrdered : Ordered stray w) (index : Nat) (inputs : Value)
    (strict : Bool) (hAfter : ∀ l, AtRegistered home
      (w.perform (.calculateWitness index inputs strict)).bench.registry l → E l) :
    Leads home stray E w (w.perform (.calculateWitness index inputs strict)) := by
  rw [perform, working] at hAfter ⊢
  cases hThere : w.circuits[index]? with
  | none => exact .refl hOrdered
  | some c =>
      rw [hThere] at hAfter
      have hSame := Session.circuit_calculateWitness
        (P := fun c' => c'.name = c.name ∧ c'.folder = c.folder ∧ c'.ownsOutput = c.ownsOutput)
        (fun _ _ _ h => h) inputs strict ⟨w.bench, c⟩ ⟨rfl, rfl, rfl⟩
      refine .of_works hOrdered ?_ hAfter fun c' hc => .inl (has_of_mem_set hThere hSame hc)
      exact calculateWitness_works (s := ⟨w.bench, c⟩)
        (hOrdered.names c (List.mem_of_getElem? hThere)) inputs strict hOrdered.strays

/-- A circuit that is released takes its folder away only if it is its own. -/
theorem leads_release (hOrdered : Ordered stray w) (index : Nat) :
    Leads home stray E w (w.perform (.release index)) := by
  rw [perform, working]
  cases hThere : w.circuits[index]? with
  | none => exact .refl hOrdered
  | some c =>
      have hSame : ∀ c' ∈ w.circuits.set index c, w.Has c' := fun c' hc =>
        has_of_mem_set hThere ⟨rfl, rfl, rfl⟩ hc
      dsimp only
      rw [Session.endState_release]
      cases hOwns : c.ownsOutput with
      | false =>
          refine .of_spared hOrdered rfl (Nat.le_refl _) (.inl rfl)
            (List.append_nil _).symm (fun _ _ => .refl _ _ _) fun c' hc => .inl (hSame c' hc)
      | true =>
          refine .of_spared hOrdered rfl (Nat.le_refl _) (current_afterRemoval _ _)
            (List.append_nil _).symm (fun _ hKept => ?_) fun c' hc => .inl (hSame c' hc)
          exact hKept.stands.clearFolder _
            ((hKept.held c (List.mem_of_getElem? hThere)).owned hOwns)

/-- What is registered goes when all is cleaned up. -/
theorem leads_cleanUp (hOrdered : Ordered stray w)
    (hBefore : ∀ l, AtRegistered home w.bench.registry l → E l) :
    Leads home stray E w (w.perform .cleanUp) := by
  refine .of_spared hOrdered rfl (Nat.le_refl _) (current_afterRemoval _ _)
    (List.append_nil _).symm (fun _ hKept => ?_) fun c hc => .inl (has_self hc)
  refine hKept.stands.discardAll _ fun p hp m hm => hBefore m ⟨p, ?_, hm⟩
  exact List.mem_reverse.mp hp

/-- A chore takes nothing away but what was registered before or is registered when it is over. -/
theorem leads_perform (hOrdered : Ordered stray w) (chore : Chore)
    (hBefore : ∀ l, AtRegistered home w.bench.registry l → E l)
    (hAfter : ∀ l, AtRegistered home (w.perform chore).bench.registry l → E l) :
    Leads home stray E w (w.perform chore) := by
  cases chore with
  | build config source options =>
      exact leads_building hOrdered (build_builds config source options w.bench) hAfter
  | synthesize config request options =>
      refine leads_building hOrdered ?_ hAfter
      exact synthesize_builds (fun path options b => build_builds config path options b) config
        request options w.bench
  | calculateWitness index inputs strict =>
      exact leads_calculateWitness hOrdered index inputs strict hAfter
  | release index => exact leads_release hOrdered index
  | track path => exact leads_atBench hOrdered (track_works path) hAfter
  | openFile lead ending asked => exact leads_atBench hOrdered (openFile_works lead ending asked) hAfter
  | openFolder lead asked => exact leads_atBench hOrdered (openFolder_works lead asked) hAfter
  | cleanUp => exact leads_cleanUp hOrdered hBefore

/-- So do any chores. -/
theorem leads_run (hOrdered : Ordered stray w) (chores : List Chore)
    (hTaken : ∀ w' ∈ w.trace chores, ∀ l, AtRegistered home w'.bench.registry l → E l) :
    Leads home stray E w (w.run chores) := by
  induction chores generalizing w with
  | nil => exact .refl hOrdered
  | cons chore rest ih =>
      rw [trace_cons] at hTaken
      obtain ⟨hBefore, hRest⟩ := List.forall_mem_cons.mp hTaken
      have hFirst : Leads home stray E w (w.perform chore) :=
        leads_perform hOrdered chore hBefore (hRest _ (mem_trace_self _ _))
      exact hFirst.trans (ih hFirst.ordered hRest)

end Leads

/-! ## Any chores -/

/-- Whether a place lies at or below a path that is registered before chores, between them or after
them. -/
def WasRegistered (w : Workshop) (chores : List Chore) (l : Location) : Prop :=
  ∃ w' ∈ w.trace chores, AtRegistered w.bench.current w'.bench.registry l

end Workshop

/-- Whether a bench is ready for chores: its disk is a tree, and its current folder is one that paths
lead to, if there is one.  And if temporary folders have relative paths, then no folder has a name yet
that one of them can be given. -/
structure Bench.IsReady (b : Bench) : Prop where
  tree : b.disk.IsTree
  placed : b.IsPlaced
  nothing : b.disk.get? nowhere = none
  fresh : isAbsolute b.workFolder = true ∨ ∀ around name, Registry.IsUndrawn b.namesDrawn name →
    b.disk.get? (around ++ [name]) ≠ some .folder

/-- At a bench that is ready, witnesses do not go astray to files. -/
theorem Bench.IsReady.not_isStray {b : Bench} (h : b.IsReady) {l : Location} {bytes : List UInt8}
    (hFile : b.disk.get? l = some (.file bytes)) : ¬ b.IsStray l := by
  rintro ⟨hRelative, around, name, last, rfl, hName⟩
  rcases h.fresh with hAbsolute | hFresh
  · cases hRelative.symm.trans hAbsolute
  · have hAround := h.tree (around ++ [name] ++ [last]) (by rw [hFile]; exact Option.some_ne_none _)
    rw [List.dropLast_concat] at hAround
    exact hFresh around name hName hAround

/-- Whatever is built, computed, released, registered or cleaned up at a bench that is ready, in
whatever order, whatever the programs do that are run there, and whether it ends well or not, if
programs are put to their proper use: all that was there before and lies neither at nor below a path
that was registered in between is there afterwards.  A file has other bytes only if a run of the
compiler wrote these bytes there, at or below the output folder that it was told of.  A folder that a
circuit was asked to be built in is there as well. -/
theorem Workshop.only_registered_removed {b : Bench} (hReady : b.IsReady) (chores : List Chore) :
    ∃ made, (run ⟨b, []⟩ chores).bench.runs = b.runs ++ made ∧ ((∀ r ∈ made, r.IsProper) →
      (∀ l, ¬ WasRegistered ⟨b, []⟩ chores l → b.disk.get? l = some .folder →
        (run ⟨b, []⟩ chores).bench.disk.get? l = some .folder) ∧
      (∀ l bytes, ¬ WasRegistered ⟨b, []⟩ chores l → b.disk.get? l = some (.file bytes) →
        (run ⟨b, []⟩ chores).bench.disk.get? l = some (.file bytes) ∨
          ∃ bytes', (∃ r ∈ made, r.MakesArtifact b.current l bytes') ∧
            (run ⟨b, []⟩ chores).bench.disk.get? l = some (.file bytes')) ∧
      ∀ c ∈ (run ⟨b, []⟩ chores).circuits, c.ownsOutput = false →
        ¬ WasRegistered ⟨b, []⟩ chores (resolve b.current c.folder.text) →
          (run ⟨b, []⟩ chores).bench.disk.get? (resolve b.current c.folder.text) = some .folder) := by
  have hOrdered : Ordered b.IsStray ⟨b, []⟩ := ⟨fun _ hl => hl, fun _ hc => nomatch hc⟩
  have hStart : Kept b.current (WasRegistered ⟨b, []⟩ chores) ⟨b, []⟩ :=
    ⟨⟨hReady.placed, .inl rfl, hReady.nothing⟩, hReady.tree, fun _ hc => nomatch hc⟩
  obtain ⟨-, made, hRuns, hKeeps⟩ := leads_run hOrdered chores
    (fun w' hw l hl => (⟨w', hw, hl⟩ : WasRegistered ⟨b, []⟩ chores l))
  refine ⟨made, hRuns, fun hProper => ?_⟩
  obtain ⟨hKept, hSpares⟩ := hKeeps hProper hStart
  refine ⟨hSpares.folders, fun l bytes hOut hFile => ?_, fun c hc hGiven hOut => ?_⟩
  · refine (hSpares.files l bytes hOut hFile).imp_right fun ⟨bytes', hWritten, hStill⟩ =>
      ⟨bytes', ?_, hStill⟩
    exact hWritten.resolve_right (hReady.not_isStray hFile)
  · exact ((hKept.held c hc).given hGiven).resolve_left hOut

/-- A toolbox with a compiler that makes the circuit of a square in the first run, with the scripts of
its witness program, and fails in all others, when it has written the symbols. -/
def unsteadyTools : Toolbox where
  folder := ["bin"]
  circom := some (compiler fun o =>
    if o.number = 0 then
      { squareCompilation with
        scripts := [("generate_witness.js", [1]), ("witness_calculator.js", [2])] }
    else { exitCode := 1, symbols := squareCompilation.symbols })
  node := some (interpreter fun _ => squareGeneration)

/-- A bench with that toolbox, and a folder that holds a note and symbols from an earlier build. -/
def noteBench : Bench :=
  { squareBench with
    disk := ⟨squareBench.disk.nodes ++ [(["keep"], .folder), (["keep", "note"], .file [7]),
      (["keep", "square.sym"], .file [8])]⟩
    toolbox := unsteadyTools }

/-- A circuit is built in that folder, and another one in a temporary folder; a witness of the first
one is computed, it is released, and all is cleaned up. -/
def noteChores : List Chore :=
  [.build (.table Settings.defaults) "square.circom" (.table [(.text "output", .text "keep")]),
    .build (.table Settings.defaults) "square.circom" .null,
    .calculateWitness 0 (.table [(.text "a", .int 10)]) true, .release 0, .cleanUp]

/-- The second build fails.  The note is left alone, and the symbols are those that the compiler
wrote. -/
theorem Workshop.note_left :
    let b := (run ⟨noteBench, []⟩ noteChores).bench
    b.runs.map (fun r => (r.tool, r.conduct.exitCode)) = [(.circom, 0), (.circom, 1), (.node, 0)] ∧
    b.disk.get? ["keep", "note"] = some (.file [7]) ∧
    ∃ bytes, (∃ r ∈ b.runs, r.MakesArtifact [] ["keep", "square.sym"] bytes) ∧
      b.disk.get? ["keep", "square.sym"] = some (.file bytes) := by
  have hReady : noteBench.IsReady :=
    ⟨Disk.isTree_of_nodes (by decide), .inr (by decide), by decide, .inl (by decide)⟩
  have hEnds : (run ⟨noteBench, []⟩ noteChores).bench.runs.map
        (fun r => (r.tool, r.conduct.exitCode)) = [(.circom, 0), (.circom, 1), (.node, 0)] ∧
      (∀ r ∈ (run ⟨noteBench, []⟩ noteChores).bench.runs,
        (argumentAfter? "-o" r.arguments ≠ none → r.tool = .circom) ∧
          ∀ deed ∈ r.conduct.deeds, resolve [] deed.path ≠ ["keep", "note"]) ∧
      (∀ w ∈ (⟨noteBench, []⟩ : Workshop).trace noteChores, ∀ p ∈ w.bench.registry.paths,
        isBelow (resolve [] p) ["keep", "note"] = false ∧
          isBelow (resolve [] p) ["keep", "square.sym"] = false) ∧
      (run ⟨noteBench, []⟩ noteChores).bench.disk.get? ["keep", "square.sym"] ≠ some (.file [8]) := by
    decide +kernel
  obtain ⟨hSeen, hRun, hTrace, hChanged⟩ := hEnds
  obtain ⟨made, hRuns, hLeft⟩ := only_registered_removed hReady noteChores
  rw [show noteBench.runs ++ made = made from rfl] at hRuns
  rw [hRuns] at hRun
  obtain ⟨-, hFiles, -⟩ := hLeft fun r hr => (hRun r hr).1
  refine ⟨hSeen, (hFiles ["keep", "note"] [7] ?_ (by decide)).resolve_right ?_,
    ?_⟩
  · rintro ⟨w, hw, p, hp, hBelow⟩
    cases hBelow.symm.trans (hTrace w hw p hp).1
  · rintro ⟨bytes, ⟨r, hr, -, -, path, hMem, hSame⟩, -⟩
    exact (hRun r hr).2 _ hMem hSame.symm
  · rw [hRuns]
    refine (hFiles ["keep", "square.sym"] [8] ?_ (by decide)).resolve_left hChanged
    rintro ⟨w, hw, p, hp, hBelow⟩
    cases hBelow.symm.trans (hTrace w hw p hp).2

end CircuitBench
