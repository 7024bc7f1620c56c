import CircuitBench.Proofs.Bench.Documents
import CircuitBench.Proofs.Settings.Layers
import CircuitBench.Proofs.Settings.Memory

/-!
# Configurations that are shared

The defaults are one object for all who use them, and so is a configuration that is handed from one
file to the next.  Loading, the pipeline and the build work on references to these objects.  Each of
them makes a copy before it puts anything, and puts into its copy only: a copy of the top level
does, because the options are merged in a table of their own, which then takes the place of the old
one in the copy.

What is computed this way is what the layers say, and whatever was in memory before is there as it
was.

## Main results

* `putEntry_spec` : an entry of a file changes one object, whatever the options are shared with.
* `loadFile_spec` : loading a file changes nothing that was there.
* `configure_spec` : neither does what the pipeline and the build do with it.
* `layers_resolve` : every key comes from its uppermost layer, and no layer is changed.
-/

namespace CircuitBench.Settings

open Bench

/-! ## Loading -/

/-- Puts an entry of a file into a configuration.  Options are merged in a table of their own. -/
def putEntry (config : Nat) (key : Value) (r : Nat) : Work Unit := do
  let value ← look r
  match key, value with
  | .text name, .dict _ =>
    if name = optionsKey then
      let present ← getOrEmpty config optionsKey
      let merged ← newDict present
      update merged r
      setItem config key merged
    else setItem config key r
  | _, _ => setItem config key r

/-- Puts the entries of a file into a configuration in order. -/
def putEntries (config : Nat) : List (Value × Nat) → Work Unit
  | [] => return ()
  | (key, r) :: rest => do
    putEntry config key r
    putEntries config rest

/-- Where a caller's configuration is, or the default one if it is left open. -/
def orDefaultsAt (defaultsAt base : Nat) : Work Nat := do
  match ← look base with
  | .leaf .null => return defaultsAt
  | _ => return base

/-- Loads what a file says over a configuration. -/
def loadFile (defaultsAt base : Nat) (data : Value) : Work Nat := do
  let start ← orDefaultsAt defaultsAt base
  let config ← copy start
  let file ← place data
  match ← look file with
  | .dict es =>
    putEntries config es
    return config
  | .leaf v => throw (.noAttribute v.fullKindName "items")

/-- Loads what files say one on top of the other.  Gives the configurations that a file was loaded
over, and the last one. -/
def loadFiles (defaultsAt : Nat) : Nat → List Value → Work (List Nat × Nat)
  | base, [] => return ([], base)
  | base, data :: rest => do
    let config ← loadFile defaultsAt base data
    let (before, last) ← loadFiles defaultsAt config rest
    return (base :: before, last)

/-! ## The pipeline and the build -/

/-- Puts the entries of a thing into a table, if it counts as true. -/
def updateIfTrue (d r : Nat) : Work Unit := do
  if ← isTrue r then update d r

/-- Puts a configuration over the defaults. -/
def overDefaults (defaultsAt config : Nat) : Work Nat := do
  let merged ← copy defaultsAt
  updateIfTrue merged config
  return merged

/-- What a table has under a key that it must have. -/
def item (r : Nat) (key : String) : Work Nat := do
  match ← look r with
  | .dict es =>
    match refAt? key es with
    | some s => return s
    | none => throw (.missingKey key)
  | .leaf v => throw (.type (.notIndexed v.fullKindName))

/-- Puts the options of a configuration into others, if it counts as true. -/
def updateFromConfig (options config : Nat) : Work Unit := do
  if ← isTrue config then
    let own ← getOrEmpty config optionsKey
    update options own

/-- Puts the options of a configuration over the default ones, and those of the caller on top. -/
def gatherOptions (defaultsAt config overrides : Nat) : Work Nat := do
  let start ← item defaultsAt optionsKey
  let options ← newDict start
  updateFromConfig options config
  updateIfTrue options overrides
  return options

/-- Where the configurations of a run are: those that a file was loaded over, the last one, the one
of the pipeline, and the options of the build. -/
structure Configured where
  before : List Nat
  last : Nat
  config : Nat
  options : Nat

/-- Loads files, and does with the outcome what the pipeline and the build do. -/
def configure (defaultsAt base overrides : Nat) (files : List Value) : Work Configured := do
  let (before, last) ← loadFiles defaultsAt base files
  let config ← overDefaults defaultsAt last
  let options ← gatherOptions defaultsAt config overrides
  return ⟨before, last, config, options⟩

/-! ## What they do -/

/-- Whether a table that shows entries is at an address, without whose object all values of the
entries are shown. -/
def HoldsAt (d : Nat) (fields : Table) (m : Memory) : Prop :=
  Holds (m.without d) d fields m

theorem Memory.without_mono {m m' : Memory} (h : m.view.Within m'.view) (d : Nat) :
    (m.without d).Within (m'.without d) := by
  intro r o hr
  rw [Memory.without] at hr ⊢
  split at hr
  · cases hr
  · rename_i hOther
    rw [if_neg hOther]
    exact h r o hr

theorem HoldsAt.mono {d : Nat} {fields : Table} {m m' : Memory} (h : HoldsAt d fields m)
    (hKept : m.view.Within m'.view) : HoldsAt d fields m' where
  known := Memory.without_within m' d
  apart := if_pos rfl
  entries := by
    obtain ⟨es, hObject, hEntries⟩ := h.entries
    exact ⟨es, hKept _ _ hObject, hEntries.mono (Memory.without_mono hKept d)⟩

/-- A table whose entries are shown without its object is one of the memory. -/
theorem Holds.holdsAt {V : View} {d : Nat} {fields : Table} {m : Memory} (h : Holds V d fields m) :
    HoldsAt d fields m := by
  have hKnown : V.Within (m.without d) := by
    intro r o hr
    have hOther : r ≠ d := by
      rintro rfl
      cases h.apart.symm.trans hr
    rw [Memory.without, if_neg hOther]
    exact h.known r o hr
  obtain ⟨es, hObject, hEntries⟩ := h.entries
  exact ⟨Memory.without_within m d, if_pos rfl, es, hObject, hEntries.mono hKnown⟩

/-- What is new in memory is none of the objects that were there. -/
theorem without_append {m : Memory} {d : Nat} {o : Object} (h : m[d]? = some o) (new : Object) :
    Memory.without (m ++ [new]) d m.length = some new := by
  have hOther : m.length ≠ d := by
    rintro rfl
    cases m.view_length.symm.trans h
  rw [Memory.without, if_neg hOther, List.getElem?_concat_length]

theorem view_within_append (m : Memory) (new : Object) :
    m.view.Within (Memory.view (m ++ [new])) :=
  (m.view_within _).trans (Memory.without_within _ _)

/-- An entry is put into a table, and all other objects stay as they are. -/
theorem HoldsAt.setItem {d : Nat} {fields : Table} {m : Memory} (h : HoldsAt d fields m)
    (key : Value) {r : Nat} {v : Value} (hValue : Shows (m.without d) r v) :
    ∃ m', setItem d key r m = .ok () m' ∧ HoldsAt d (fields.insert key v) m' ∧
      (m.without d).Within (m'.without d) := by
  obtain ⟨m', hPut, hHolds, hSame⟩ := setItem_spec h key hValue
  refine ⟨m', hPut, ?_, ?_⟩
  · rw [HoldsAt, hSame]
    exact hHolds
  · rw [hSame]
    exact View.Within.refl _

/-- The options of a file are merged in a table of their own, which takes the place of the one that
was there. -/
theorem putEntry_options {config : Nat} {fields options : Table} {m : Memory}
    (h : HoldsAt config fields m) (hLayer : IsLayer fields) {r : Nat}
    (hOptions : Shows (m.without config) r (.table options)) :
    ∃ m', putEntry config (.text optionsKey) r m = .ok () m' ∧
      HoldsAt config (fields.insert (.text optionsKey)
        (.table ((Table.ofEntries (optionsIn fields)).merge options))) m' ∧
      (m.without config).Within (m'.without config) := by
  obtain ⟨es, hObject, hEntries⟩ := h.entries
  obtain ⟨options', hFile, -⟩ := id hOptions
  -- the empty table that stands for missing options
  have hKept₁ := view_within_append m (.dict [])
  obtain ⟨s, hGet, hPresent⟩ := getOrEmpty_spec hObject hEntries
    (Memory.without_mono hKept₁ config) (without_append hObject _) optionsKey
  rw [getD_options hLayer] at hPresent
  -- the table in which the options are merged
  obtain ⟨d, m₂, hNew, hHolds₂, hKept₂⟩ := newDict_spec (Memory.without_within _ _) hPresent
  obtain ⟨m₃, hUpdate, hHolds₃, hSame⟩ :=
    update_spec hHolds₂ (hOptions.mono (Memory.without_mono hKept₁ config))
  rw [← hSame] at hKept₂
  have hKept₃ : Memory.view (m ++ [.dict []]) |>.Within m₃.view :=
    hKept₂.trans (Memory.without_within _ _)
  have hApart : d ≠ config := by
    rintro rfl
    have hThere := hKept₂ _ _ (hKept₁ _ _ hObject)
    rw [Memory.without, if_pos rfl] at hThere
    cases hThere
  have hMerged : Shows (m₃.without config) d
      (.table ((Table.ofEntries (optionsIn fields)).merge options)) := by
    obtain ⟨es', hTable, hShown⟩ := hHolds₃.entries
    refine ⟨es', ?_, hShown.mono (Memory.without_mono hKept₃ config)⟩
    rw [Memory.without, if_neg hApart, hTable]
  obtain ⟨m₄, hPut, hHolds₄, hKept₄⟩ :=
    (h.mono (hKept₁.trans hKept₃)).setItem (.text optionsKey) hMerged
  refine ⟨m₄, ?_, hHolds₄, (Memory.without_mono (hKept₁.trans hKept₃) config).trans hKept₄⟩
  rw [putEntry, bind_ok (look_of_some (h.known _ _ hFile))]
  dsimp only
  rw [if_pos rfl, bind_ok hGet, bind_ok hNew, bind_ok hUpdate]
  exact hPut

/-- An entry of a file changes one object, whatever the options are shared with. -/
theorem putEntry_spec {config : Nat} {fields fields' : Table} {m : Memory}
    (h : HoldsAt config fields m) (hLayer : IsLayer fields) {name : String} {r : Nat} {v : Value}
    (hValue : Shows (m.without config) r v)
    (hMerged : mergeEntry fields (.text name, v) = .ok fields') :
    ∃ m', putEntry config (.text name) r m = .ok () m' ∧ HoldsAt config fields' m' ∧
      (m.without config).Within (m'.without config) := by
  obtain ⟨m', hPut, hHolds, hKept⟩ := h.setItem (.text name) hValue
  cases v with
  | table options =>
      by_cases hName : name = optionsKey
      · subst hName
        cases (mergeEntry_options hLayer options).symm.trans hMerged
        exact putEntry_options h hLayer hValue
      · cases (mergeEntry_other fields hName (.table options)).symm.trans hMerged
        obtain ⟨es, hObject, -⟩ := hValue
        refine ⟨m', ?_, hHolds, hKept⟩
        rw [putEntry, bind_ok (look_of_some (h.known _ _ hObject))]
        dsimp only
        rw [if_neg hName]
        exact hPut
  | _ =>
      cases hMerged
      refine ⟨m', ?_, hHolds, hKept⟩
      rw [putEntry, bind_ok (look_of_some (h.known _ _ hValue))]
      exact hPut

/-- So do all entries of a file.  The induction is on the entries, and every one of them is put into
what is a configuration still. -/
theorem putEntries_spec {config : Nat} {fields fields' file : Table} {m : Memory}
    (h : HoldsAt config fields m) (hLayer : IsLayer fields) (hFile : IsLayer file)
    (hTexts : ∀ e ∈ file, ∃ s, e.1 = .text s) {es : List (Value × Nat)}
    (hEntries : ShowsAll (m.without config) es file) (hMerged : merge fields file = .ok fields') :
    ∃ m', putEntries config es m = .ok () m' ∧ HoldsAt config fields' m' ∧
      (m.without config).Within (m'.without config) := by
  induction file generalizing fields es m with
  | nil =>
      cases hMerged
      cases es with
      | nil => exact ⟨m, rfl, h, View.Within.refl _⟩
      | cons e rest => exact hEntries.elim
  | cons e rest ih =>
      obtain ⟨⟨name, hText⟩, hRestTexts⟩ := List.forall_mem_cons.mp hTexts
      obtain ⟨k, v⟩ := e
      obtain rfl : k = .text name := hText
      cases es with
      | nil => exact hEntries.elim
      | cons e' es =>
      obtain ⟨k', r⟩ := e'
      obtain ⟨hKey, hValue, hRest⟩ := hEntries
      obtain rfl : k' = .text name := hKey
      obtain ⟨between, hBetween, hMore⟩ := except_bind_eq_ok hMerged
      obtain ⟨between', hSame, hLayer', -⟩ := mergeEntry_isOver hLayer hFile.head
      cases hBetween.symm.trans hSame
      obtain ⟨m₁, hFirst, hHolds₁, hKept₁⟩ := putEntry_spec h hLayer hValue hBetween
      obtain ⟨m₂, hAll, hHolds₂, hKept₂⟩ :=
        ih hHolds₁ hLayer' hFile.tail hRestTexts (hRest.mono hKept₁) hMore
      refine ⟨m₂, ?_, hHolds₂, hKept₁.trans hKept₂⟩
      rw [putEntries, bind_ok hFirst]
      exact hAll

/-- A copy of a table holds its entries, and nothing that was there changes. -/
theorem copy_spec {r : Nat} {fields : Table} {m : Memory} (h : Shows m.view r (.table fields)) :
    ∃ es, copy r m = .ok m.length (m ++ [.dict es]) ∧
      Holds m.view m.length fields (m ++ [.dict es]) := by
  obtain ⟨es, hObject, hEntries⟩ := h
  refine ⟨es, ?_, holds_append (View.Within.refl _) hEntries⟩
  rw [copy, bind_ok (look_of_some hObject)]
  rfl

theorem orDefaultsAt_spec {defaultsAt r : Nat} {base : Value} {m : Memory}
    (hDefaults : Shows m.view defaultsAt (.table defaults)) (hBase : Shows m.view r base)
    (hOptional : base.IsOptional IsLayer) :
    ∃ start, orDefaultsAt defaultsAt r m = .ok start m ∧
      Shows m.view start (.table (orDefaults base).fields) := by
  cases hOptional with
  | absent =>
      refine ⟨defaultsAt, ?_, hDefaults⟩
      rw [orDefaultsAt, bind_ok (look_of_some hBase)]
      rfl
  | table _ =>
      refine ⟨r, ?_, hBase⟩
      obtain ⟨es, hObject, -⟩ := hBase
      rw [orDefaultsAt, bind_ok (look_of_some hObject)]
      rfl

section Runs

variable {defaultsAt : Nat} {m : Memory}

/-- Loading a file changes nothing that was there, and gives what the file says over the base. -/
theorem loadFile_spec {r : Nat} {base : Value} {file fields' : Table}
    (hDefaults : Shows m.view defaultsAt (.table defaults)) (hBase : Shows m.view r base)
    (hOptional : base.IsOptional IsLayer) (hFile : IsLayer file)
    (hTexts : ∀ e ∈ file, ∃ s, e.1 = .text s)
    (hMerged : merge (orDefaults base).fields file = .ok fields') :
    ∃ config m', loadFile defaultsAt r (.table file) m = .ok config m' ∧
      m.view.Within m'.view ∧ Shows m'.view config (.table fields') := by
  have hLayer : IsLayer (orDefaults base).fields := by
    obtain ⟨fields, hFields, hLayer⟩ := isLayer_orDefaults hOptional
    rw [hFields]
    exact hLayer
  obtain ⟨start, hStart, hShown⟩ := orDefaultsAt_spec hDefaults hBase hOptional
  obtain ⟨es, hCopy, hHolds⟩ := copy_spec hShown
  obtain ⟨r', more, hPlace, hNew⟩ := place_spec (.table file) (m ++ [.dict es])
  -- neither what was there nor the file is shown by means of the copy
  have hOld : m.view.Within (Memory.without (m ++ [.dict es] ++ more) m.length) := by
    rw [List.append_assoc]
    exact m.view_within _
  have hApart : (Memory.since (m ++ [.dict es] ++ more) (m ++ [Object.dict es]).length).Within
      (Memory.without (m ++ [.dict es] ++ more) m.length) :=
    Memory.since_within_without (by rw [List.length_append]; exact Nat.lt_add_one _)
  have hHoldsAt : HoldsAt m.length (orDefaults base).fields (m ++ [.dict es] ++ more) := by
    obtain ⟨es', hObject, hEntries⟩ := hHolds.entries
    refine ⟨Memory.without_within _ _, if_pos rfl, es', ?_, hEntries.mono hOld⟩
    rw [List.getElem?_append_left (by simp), hObject]
  obtain ⟨es', hFileObject, hFileEntries⟩ : Shows _ r' (.table file) := hNew.mono hApart
  obtain ⟨m', hPut, hDone, hKept⟩ :=
    putEntries_spec hHoldsAt hLayer hFile hTexts hFileEntries hMerged
  refine ⟨m.length, m', ?_, (hOld.trans hKept).trans (Memory.without_within _ _), hDone.shows⟩
  rw [loadFile, bind_ok hStart, bind_ok hCopy, bind_ok hPlace,
    bind_ok (look_of_some (Memory.without_within _ _ _ _ hFileObject))]
  dsimp only
  rw [bind_ok hPut]
  rfl

/-- Files are loaded one on top of the other.  All configurations on the way are shown in the end as
they were when a file was loaded over them. -/
theorem loadFiles_spec {b : Bench} {r : Nat} {base : Value} {paths : List String}
    {files : List Table} (hDefaults : Shows m.view defaultsAt (.table defaults))
    (hBase : Shows m.view r base) (hOptional : base.IsOptional IsLayer)
    (hFiles : List.Forall₂ (IsConfigFile b) paths files) {before : List Value} {last : Value}
    (hLoad : loadAll paths base b = .ok (before, last) b) :
    ∃ beforeAt lastAt m', loadFiles defaultsAt r (files.map .table) m = .ok (beforeAt, lastAt) m' ∧
      m.view.Within m'.view ∧ List.Forall₂ (Shows m'.view) beforeAt before ∧
      Shows m'.view lastAt last := by
  induction hFiles generalizing m r base before last with
  | nil =>
      cases hLoad
      exact ⟨[], r, m, rfl, View.Within.refl _, .nil, hBase⟩
  | cons hFile _ ih =>
      obtain ⟨config, hOver, hMerged, hConfig, -⟩ := loadOver_isOver hOptional hFile
      obtain ⟨hLayer, hTexts⟩ := hFile.isLayer
      obtain ⟨configAt, m₁, hFirst, hKept₁, hShown⟩ :=
        loadFile_spec hDefaults hBase hOptional hLayer hTexts hMerged
      rw [loadAll, bind_ok hOver] at hLoad
      obtain ⟨⟨before', last'⟩, b', hRest, hLoad⟩ := bind_eq_ok hLoad
      cases hLoad
      obtain ⟨beforeAt, lastAt, m₂, hAll, hKept₂, hBefore, hLast⟩ :=
        ih (hDefaults.mono hKept₁) hShown (.table hConfig) hRest
      refine ⟨r :: beforeAt, lastAt, m₂, ?_, hKept₁.trans hKept₂,
        .cons (hBase.mono (hKept₁.trans hKept₂)) hBefore, hLast⟩
      rw [List.map_cons, loadFiles, bind_ok hFirst, bind_ok hAll]
      rfl

/-- The entries of what a caller has handed over are put into a table, if it counts as true. -/
theorem updateIfTrue_spec {V : View} {d : Nat} {fields : Table} (h : Holds V d fields m) {r : Nat}
    {v : Value} {P : Table → Prop} (hOptional : v.IsOptional P) (hShown : Shows V r v) :
    ∃ m', updateIfTrue d r m = .ok () m' ∧ Holds V d (fields.merge v.fields) m' ∧
      m'.without d = m.without d := by
  cases hOptional with
  | absent =>
      refine ⟨m, ?_, h, rfl⟩
      rw [updateIfTrue, bind_ok (isTrue_spec h.known hShown rfl)]
      rfl
  | @table t _ =>
      cases t with
      | nil =>
          refine ⟨m, ?_, h, rfl⟩
          rw [updateIfTrue, bind_ok (isTrue_spec h.known hShown rfl)]
          rfl
      | cons e rest =>
          obtain ⟨m', hUpdate, hHolds, hSame⟩ := update_spec h hShown
          refine ⟨m', ?_, hHolds, hSame⟩
          rw [updateIfTrue, bind_ok (isTrue_spec h.known hShown rfl)]
          exact hUpdate

/-- The pipeline puts a configuration into a copy of the defaults. -/
theorem overDefaults_spec {r : Nat} {config : Value}
    (hDefaults : Shows m.view defaultsAt (.table defaults)) (hShown : Shows m.view r config)
    (hOptional : config.IsOptional IsLayer) :
    ∃ merged m', overDefaults defaultsAt r m = .ok merged m' ∧ m.view.Within m'.view ∧
      Shows m'.view merged (.table (defaults.merge config.fields)) := by
  obtain ⟨es, hCopy, hHolds⟩ := copy_spec hDefaults
  obtain ⟨m', hUpdate, hHolds', -⟩ := updateIfTrue_spec hHolds hOptional hShown
  refine ⟨m.length, m', ?_, hHolds'.known, hHolds'.shows⟩
  rw [overDefaults, bind_ok hCopy, bind_ok hUpdate]
  rfl

theorem item_spec {r : Nat} {fields : Table} (h : Shows m.view r (.table fields)) {key : String}
    {v : Value} (hFound : fields.get? key = some v) :
    ∃ s, item r key m = .ok s m ∧ Shows m.view s v := by
  obtain ⟨es, hObject, hEntries⟩ := h
  have hRel := hEntries.refAt? key
  rw [hFound] at hRel
  cases hRef : refAt? key es with
  | none => rw [hRef] at hRel; cases hRel
  | some s =>
      rw [hRef] at hRel
      cases hRel with
      | some hShown =>
          refine ⟨s, ?_, hShown⟩
          rw [item, bind_ok (look_of_some hObject)]
          dsimp only
          rw [hRef]
          rfl

/-- The options of a configuration are put into others.  If it has none, they are taken from an
empty table that nothing else refers to. -/
theorem updateFromConfig_spec {d : Nat} {options : Table} (h : HoldsAt d options m) {r : Nat}
    {config : Table} (hShown : Shows (m.without d) r (.table config)) (hLayer : IsLayer config) :
    ∃ m', updateFromConfig d r m = .ok () m' ∧ HoldsAt d (options.merge (optionsIn config)) m' ∧
      (m.without d).Within (m'.without d) := by
  cases config with
  | nil =>
      refine ⟨m, ?_, h, View.Within.refl _⟩
      rw [updateFromConfig, bind_ok (isTrue_spec h.known hShown rfl)]
      rfl
  | cons e rest =>
      obtain ⟨es, hObject, hEntries⟩ := id hShown
      obtain ⟨_, hTarget, -⟩ := h.entries
      have hKept := view_within_append m (.dict [])
      obtain ⟨s, hGet, hOwn⟩ := getOrEmpty_spec (h.known _ _ hObject) hEntries
        (Memory.without_mono hKept d) (without_append hTarget _) optionsKey
      rw [getD_options hLayer] at hOwn
      obtain ⟨m', hUpdate, hHolds, hSame⟩ := update_spec (h.mono hKept) hOwn
      refine ⟨m', ?_, hHolds.holdsAt, ?_⟩
      · rw [updateFromConfig, bind_ok (isTrue_spec h.known hShown rfl)]
        show (do let own ← getOrEmpty r optionsKey; update d own : Work Unit) m = _
        rw [bind_ok hGet, hUpdate]
      · rw [hSame]
        exact Memory.without_mono hKept d

/-- The build puts the options of a configuration into a copy of the default ones, and those of the
caller on top. -/
theorem gatherOptions_spec {configAt overridesAt : Nat} {config : Table} {overrides : Value}
    (hDefaults : Shows m.view defaultsAt (.table defaults))
    (hConfig : Shows m.view configAt (.table config)) (hLayer : IsLayer config)
    (hOverrides : Shows m.view overridesAt overrides)
    (hOptional : overrides.IsOptional Table.IsDict) :
    ∃ optionsAt m', gatherOptions defaultsAt configAt overridesAt m = .ok optionsAt m' ∧
      m.view.Within m'.view ∧ Shows m'.view optionsAt
        (.table ((defaultOptions.merge (optionsIn config)).merge overrides.fields)) := by
  obtain ⟨start, hItem, hStart⟩ := item_spec hDefaults defaults_tester
  obtain ⟨d, m₁, hNew, hHolds, hKept₁⟩ := newDict_spec (View.Within.refl _) hStart
  obtain ⟨m₂, hFrom, hHolds₂, hKept₂⟩ :=
    updateFromConfig_spec hHolds.holdsAt (hConfig.mono hKept₁) hLayer
  obtain ⟨m₃, hUpdate, hHolds₃, hSame⟩ :=
    updateIfTrue_spec hHolds₂ hOptional (hOverrides.mono (hKept₁.trans hKept₂))
  refine ⟨d, m₃, ?_, (hKept₁.trans hKept₂).trans hHolds₃.known, hHolds₃.shows⟩
  rw [gatherOptions, bind_ok hItem, bind_ok hNew, bind_ok hFrom, bind_ok hUpdate]
  rfl

end Runs

/-! ## Layers -/

/-- Configuration files are loaded one on top of the other, the outcome goes through the pipeline,
and a build resolves its options.  Each option comes from the caller, or else from the last file
that has it among its options, or else from what the caller started from, or else from the default
options; each other key comes from the last file that has it, or else from what the caller started
from, or else from the defaults.  Done on shared tables, this makes the same tables and leaves
everything as it is that was in memory: the defaults, and each configuration that a file was loaded
over. -/
theorem layers_resolve {b : Bench} {base overrides : Value} {paths : List String}
    {files : List Table} (hBase : base.IsOptional IsLayer)
    (hFiles : List.Forall₂ (IsConfigFile b) paths files)
    (hOverrides : overrides.IsOptional Table.IsDict) {m : Memory}
    {defaultsAt baseAt overridesAt : Nat} (hDefaultsAt : Shows m.view defaultsAt (.table defaults))
    (hBaseAt : Shows m.view baseAt base) (hOverridesAt : Shows m.view overridesAt overrides) :
    ∃ before last config options,
      loadAll paths base b = .ok (before, last) b ∧
      pipelineConfig last = .ok config ∧
      resolve (.table config) overrides = .ok options ∧
      (∀ key : Value, options.valueAt? key =
        (overrides.fields.valueAt? key).or ((lastAt? key (files.map optionsIn)).or
          (((optionsIn base.fields).valueAt? key).or (defaultOptions.valueAt? key)))) ∧
      (∀ key : Value, key.sameKey (.text optionsKey) = false → config.valueAt? key =
        (lastAt? key files).or ((base.fields.valueAt? key).or (defaults.valueAt? key))) ∧
      ∃ run m', configure defaultsAt baseAt overridesAt (files.map .table) m = .ok run m' ∧
        Shows m'.view run.config (.table config) ∧ Shows m'.view run.options (.table options) ∧
        m.view.Within m'.view ∧ Shows m'.view defaultsAt (.table defaults) ∧
        List.Forall₂ (Shows m'.view) run.before before ∧ Shows m'.view run.last last := by
  obtain ⟨before, last, hLoad, hLast, hKeys, hOptions⟩ := loadAll_eq hBase hFiles
  have hLayer := (IsLayer.fields hLast).over_defaults
  refine ⟨before, last, _, _, hLoad, pipelineConfig_eq hLast, resolve_eq hLayer hOverrides,
    fun key => ?_, fun key hOther => ?_, ?_⟩
  · rw [valueAt?_resolved hLast hOverrides, hOptions, optionAt]
  · rw [valueAt?_over_defaults hLast, hKeys key hOther, keyAt]
  · obtain ⟨beforeAt, lastAt, m₁, hRun₁, hKept₁, hBefore, hLastAt⟩ :=
      loadFiles_spec hDefaultsAt hBaseAt hBase hFiles hLoad
    obtain ⟨configAt, m₂, hRun₂, hKept₂, hConfigAt⟩ :=
      overDefaults_spec (hDefaultsAt.mono hKept₁) hLastAt hLast
    have hKept := hKept₁.trans hKept₂
    obtain ⟨optionsAt, m₃, hRun₃, hKept₃, hOptionsAt⟩ :=
      gatherOptions_spec (hDefaultsAt.mono hKept) hConfigAt hLayer (hOverridesAt.mono hKept)
        hOverrides
    refine ⟨⟨beforeAt, lastAt, configAt, optionsAt⟩, m₃, ?_, hConfigAt.mono hKept₃, hOptionsAt,
      hKept.trans hKept₃, hDefaultsAt.mono (hKept.trans hKept₃),
      hBefore.imp fun _ _ h => h.mono (hKept₂.trans hKept₃), hLastAt.mono (hKept₂.trans hKept₃)⟩
    rw [configure, bind_ok hRun₁]
    dsimp only
    rw [bind_ok hRun₂, bind_ok hRun₃]
    rfl

/-! ### Two files -/

/-- The defaults, a configuration with another version of the language, and options of a caller, in
memory.  What is said twice lies there once. -/
def smallMemory : Memory := [
  .leaf defaultVersion,
  .leaf defaultSuffix,
  .leaf (.text "circom"),
  .leaf (.text "node"),
  .leaf .null,
  .leaf (.bool true),
  .leaf (.list []),
  .leaf (.bool false),
  .dict [(.text "circom", 2), (.text "node", 3), (.text "output", 4), (.text "recompile", 5),
    (.text "include", 6), (.text "prime", 4), (.text "O", 4), (.text "json", 7),
    (.text "verbose", 7)],
  .dict [(.text "pragma_version", 0), (.text "circuit_suffix", 1), (.text optionsKey, 8)],
  .leaf (.text "2.1.6"),
  .dict [(.text "pragma_version", 10)],
  .dict [(.text "json", 5)]]

def newerBase : Value := .table [(.text "pragma_version", .text "2.1.6")]

def jsonOverrides : Value := .table [(.text "json", .bool true)]

/-- A configuration that sets one option to a number, and its text. -/
def levelFile (n : Nat) : Table := [(.text optionsKey, .table [(.text "O", .int n)])]

def levelText (n : Nat) : String := "\x7b\"tester\":\x7b\"O\":" ++ toString n ++ "\x7d\x7d"

/-- Two files that set the same option. -/
def levelBench : Bench where
  disk := ⟨[(["a.json"], .file (Text.Utf8.encode (levelText 1))),
    (["b.json"], .file (Text.Utf8.encode (levelText 2)))]⟩

/-- Whether a text has been read as such a configuration. -/
def givesLevel (n : Nat) : Except Error Value → Bool
  | .ok (.table [(.text k, .table [(.text k', .int m)])]) => k == optionsKey && k' == "O" && m == n
  | _ => false

theorem eq_of_givesLevel {n : Nat} {r : Except Error Value} (h : givesLevel n r = true) :
    r = .ok (.table (levelFile n)) := by
  rw [givesLevel.eq_def] at h
  split at h
  · rw [Bool.and_eq_true, Bool.and_eq_true, beq_iff_eq, beq_iff_eq, beq_iff_eq] at h
    obtain ⟨⟨rfl, rfl⟩, rfl⟩ := h
    rfl
  · cases h

theorem isConfigFile_level {path : String} {n : Nat}
    (hBytes : levelBench.disk.readFile levelBench.current (FilePath.ofString path).text =
      .ok (Text.Utf8.encode (levelText n)))
    (hText : Text.Utf8.decode? (Text.Utf8.encode (levelText n)) = some (levelText n))
    (hLevel : givesLevel n (parseJson (levelText n)) = true) :
    IsConfigFile levelBench path (levelFile n) where
  read := readDocument?_of_readFile hBytes hText (eq_of_givesLevel hLevel)
  options v h := by
    cases h
    exact ⟨_, rfl⟩

/-- Two files over a configuration: the later one says the option. -/
theorem layers_two_files :
    ∃ before last config options,
      loadAll ["a.json", "b.json"] newerBase levelBench = .ok (before, last) levelBench ∧
      pipelineConfig last = .ok config ∧ resolve (.table config) jsonOverrides = .ok options ∧
      options.get? "O" = some (.int 2) ∧ options.get? "json" = some (.bool true) ∧
      options.get? "node" = some (.text "node") ∧
      config.get? "pragma_version" = some (.text "2.1.6") ∧
      config.get? "circuit_suffix" = some defaultSuffix ∧
      ∃ run m', configure 9 11 12 [.table (levelFile 1), .table (levelFile 2)] smallMemory =
          .ok run m' ∧
        Shows m'.view run.options (.table options) ∧ Shows m'.view 9 (.table defaults) ∧
        Shows m'.view 11 newerBase := by
  have hBase : newerBase.IsOptional IsLayer := .table
    { dict := List.pairwise_singleton _ _
      options := fun _ h => nomatch h }
  have hOverrides : jsonOverrides.IsOptional Table.IsDict := .table (List.pairwise_singleton _ _)
  have hDefaultsAt : Shows smallMemory.view 9 (.table defaults) := by
    simp [Shows, ShowsAll, Memory.view, smallMemory, defaults, defaultOptions, defaultVersion,
      defaultSuffix]
  have hBaseAt : Shows smallMemory.view 11 newerBase := by
    simp [newerBase, Shows, ShowsAll, Memory.view, smallMemory]
  have hOverridesAt : Shows smallMemory.view 12 jsonOverrides := by
    simp [jsonOverrides, Shows, ShowsAll, Memory.view, smallMemory]
  have hFirst : IsConfigFile levelBench "a.json" (levelFile 1) :=
    isConfigFile_level (by decide +kernel) (by decide +kernel) (by decide +kernel)
  have hSecond : IsConfigFile levelBench "b.json" (levelFile 2) :=
    isConfigFile_level (by decide +kernel) (by decide +kernel) (by decide +kernel)
  obtain ⟨before, last, config, options, hLoad, hConfig, hResolve, hOptions, hKeys, run, m', hRun,
    -, hOptionsAt, hKept, hDefaults', -⟩ :=
    layers_resolve hBase (.cons hFirst (.cons hSecond .nil)) hOverrides hDefaultsAt hBaseAt
      hOverridesAt
  refine ⟨before, last, config, options, hLoad, hConfig, hResolve, ?_, ?_, ?_, ?_, ?_, run, m',
    hRun, hOptionsAt, hDefaults', hBaseAt.mono hKept⟩
  · rw [Table.get?_eq_valueAt?, hOptions]
    rfl
  · rw [Table.get?_eq_valueAt?, hOptions]
    rfl
  · rw [Table.get?_eq_valueAt?, hOptions]
    rfl
  · rw [Table.get?_eq_valueAt?, hKeys _ (by decide)]
    rfl
  · rw [Table.get?_eq_valueAt?, hKeys _ (by decide)]
    rfl

end CircuitBench.Settings
