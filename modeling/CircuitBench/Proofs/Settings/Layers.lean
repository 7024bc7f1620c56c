import CircuitBench.Pipeline.Run
import CircuitBench.Proofs.Bench.Preserved
import CircuitBench.Proofs.Json.Readings
import CircuitBench.Proofs.Settings.Sayable
import CircuitBench.Proofs.Value.Keys
import Mathlib.Data.List.Forall2

/-!
# Layers of a configuration

A configuration is put together in layers: the defaults, what a caller starts from, and one file
after another.  A file is merged one level deep, so that of its options only those are replaced that
it names; the pipeline puts the outcome over the defaults without looking into the options; and a
build puts its options over the default ones and under those of the caller.  Taken together, each
option and each other key comes from the uppermost layer that has it.

The keys of a file are different texts, because the reader of JSON puts them one after another.

## Main results

* `merge_isOver` : a file is merged into a configuration as a layer over it.
* `loadAll_eq` : after many files, a key comes from the last file that has it.
* `valueAt?_over_defaults`, `valueAt?_resolved` : the pipeline and the build put the outcome over the
  defaults.
-/

namespace CircuitBench

open Bench

/-! ## Values -/

/-- Whether a caller has handed over a table with a property, or nothing. -/
inductive Value.IsOptional (P : Table → Prop) : Value → Prop
  | absent : IsOptional P .null
  | table {t : Table} (h : P t) : IsOptional P (.table t)

/-- The entries that a caller has handed over, none if it is nothing. -/
def Value.fields : Value → Table
  | .table t => t
  | _ => []

/-- Whether a value is no table, or one that has different texts for keys and whose values are such
values again. -/
inductive Value.IsKeyed : Value → Prop
  | table {t : Table} (texts : ∀ e ∈ t, ∃ s, e.1 = .text s) (dict : t.IsDict)
      (values : ∀ e ∈ t, IsKeyed e.2) : IsKeyed (.table t)
  | other {v : Value} (h : ∀ t, v ≠ .table t) : IsKeyed v

/-- Putting an entry under a text keeps the keys different texts. -/
theorem Value.IsKeyed.put {t : Table} (s : String) {v : Value} (hTable : (Value.table t).IsKeyed)
    (hValue : v.IsKeyed) : (Value.table (t.insert (.text s) v)).IsKeyed := by
  cases hTable with
  | other h => exact absurd rfl (h t)
  | table texts dict values =>
      refine .table (fun e he => ?_) (dict.insert _ _) fun e he => ?_
      · rcases Table.mem_insert he with hMem | ⟨-, hKey | ⟨e', he', hKey⟩⟩
        · exact texts e hMem
        · exact ⟨s, hKey⟩
        · rw [← hKey]
          exact texts e' he'
      · rcases Table.mem_insert he with hMem | ⟨hSame, -⟩
        · exact values e hMem
        · rw [hSame]
          exact hValue

/-- What is read from a text has different texts for keys in its tables. -/
theorem Json.isKeyed_of_read {s : List Char} {v : Value} (h : read s = .ok v) : v.IsKeyed := by
  have hClosed : IsReadClosed Value.IsKeyed fun t => (Value.table t).IsKeyed :=
    { null := .other nofun
      bool := fun _ => .other nofun
      int := fun _ => .other nofun
      float := fun _ => .other nofun
      text := fun _ => .other nofun
      list := fun _ => .other nofun
      empty := .table (fun _ he => absurd he List.not_mem_nil) Table.isDict_nil
        fun _ he => absurd he List.not_mem_nil
      put := fun s _ hTable hValue => hTable.put s hValue
      table := id }
  exact hClosed.of_read h

namespace Settings

/-! ## Configurations -/

/-- The options that a configuration holds. -/
def optionsIn (config : Table) : Table :=
  match config.get? optionsKey with
  | some (.table options) => options
  | _ => []

/-- Whether a configuration has its options, if any, in a table. -/
structure IsLayer (config : Table) : Prop where
  dict : config.IsDict
  options : ∀ v, config.get? optionsKey = some v → ∃ t : Table, v = .table t ∧ t.IsDict

theorem isLayer_defaults : IsLayer defaults where
  dict := by
    unfold defaults Table.IsDict
    decide
  options v h := by
    cases defaults_tester.symm.trans h
    refine ⟨_, rfl, ?_⟩
    unfold defaultOptions Table.IsDict
    decide

theorem isLayer_nil : IsLayer [] where
  dict := Table.isDict_nil
  options _ h := nomatch h

theorem IsLayer.optionsIn_isDict {config : Table} (h : IsLayer config) :
    (optionsIn config).IsDict := by
  unfold optionsIn
  split
  · rename_i options hOptions
    obtain ⟨_, hTable, hDict⟩ := h.options _ hOptions
    cases hTable
    exact hDict
  · exact Table.isDict_nil

theorem optionsIn_of_get? {config options : Table}
    (h : config.get? optionsKey = some (.table options)) : optionsIn config = options := by
  rw [optionsIn, h]

theorem optionsIn_of_none {config : Table} (h : config.get? optionsKey = none) :
    optionsIn config = [] := by
  rw [optionsIn, h]

/-- Putting another key into a configuration does not change its options. -/
theorem optionsIn_insert_of_ne (config : Table) {key : String} (h : key ≠ optionsKey) (v : Value) :
    optionsIn (config.insert (.text key) v) = optionsIn config := by
  rw [optionsIn, optionsIn, Table.get?_insert_of_ne config h.symm]

theorem optionsIn_insert_self (config options : Table) :
    optionsIn (config.insert (.text optionsKey) (.table options)) = options :=
  optionsIn_of_get? (Table.get?_insert_self _ _ _)

/-! ## Files -/

/-- Whether a configuration is another one with a layer over it: each key that the layer has comes
from the layer, and so does each option. -/
structure IsOver (layer below config : Table) : Prop where
  other : ∀ key : Value, key.sameKey (.text optionsKey) = false →
    config.valueAt? key = (layer.valueAt? key).or (below.valueAt? key)
  option : ∀ key : Value, (optionsIn config).valueAt? key =
    ((optionsIn layer).valueAt? key).or ((optionsIn below).valueAt? key)

/-- The options that an entry of a file is merged with. -/
theorem getD_options {config : Table} (h : IsLayer config) :
    config.getD optionsKey (.table []) = .table (optionsIn config) := by
  rw [Table.getD]
  cases hFound : config.get? optionsKey with
  | none => rw [optionsIn_of_none hFound, Option.getD_none]
  | some v =>
      obtain ⟨options, rfl, -⟩ := h.options v hFound
      rw [optionsIn_of_get? hFound, Option.getD_some]

theorem mergeEntry_options {config : Table} (h : IsLayer config) (options : Table) :
    mergeEntry config (.text optionsKey, .table options) = .ok (config.insert (.text optionsKey)
      (.table ((Table.ofEntries (optionsIn config)).merge options))) := by
  rw [mergeEntry, if_pos rfl, getD_options h]
  rfl

theorem mergeEntry_other (config : Table) {key : String} (h : key ≠ optionsKey) (value : Value) :
    mergeEntry config (.text key, value) = .ok (config.insert (.text key) value) := by
  cases value with
  | table options => rw [mergeEntry, if_neg h, Table.put]
  | _ => rfl

theorem IsLayer.insert_options {config options : Table} (h : IsLayer config)
    (hOptions : options.IsDict) :
    IsLayer (config.insert (.text optionsKey) (.table options)) where
  dict := h.dict.insert _ _
  options v hFound := by
    rw [Table.get?_insert_self, Option.some_inj] at hFound
    exact ⟨options, hFound.symm, hOptions⟩

theorem IsLayer.insert_other {config : Table} (h : IsLayer config) {key : String}
    (hKey : key ≠ optionsKey) (value : Value) : IsLayer (config.insert (.text key) value) where
  dict := h.dict.insert _ _
  options v hFound := by
    rw [Table.get?_insert_of_ne config hKey.symm] at hFound
    exact h.options v hFound

/-- An entry of a file is put into a configuration as a layer of its own. -/
theorem mergeEntry_isOver {config : Table} (hConfig : IsLayer config) {key : String} {value : Value}
    (hEntry : IsLayer [(.text key, value)]) :
    ∃ config', mergeEntry config (.text key, value) = .ok config' ∧ IsLayer config' ∧
      IsOver [(.text key, value)] config config' := by
  have hFound : ∀ key' : Value, Table.valueAt? key' [(.text key, value)] =
      if (Value.text key).sameKey key' then some value else none := fun _ => rfl
  by_cases hKey : key = optionsKey
  · subst hKey
    obtain ⟨options, rfl, hDict⟩ := hEntry.options value rfl
    have hMerged : ((Table.ofEntries (optionsIn config)).merge options).IsDict :=
      (Table.isDict_nil.merge _).merge _
    have hNamed : optionsIn [(.text optionsKey, .table options)] = options := optionsIn_of_get? rfl
    refine ⟨_, mergeEntry_options hConfig options, hConfig.insert_options hMerged, ?_, ?_⟩
    · intro key' hOther
      rw [Value.sameKey_comm] at hOther
      rw [Table.valueAt?_insert, hFound, hOther, if_neg Bool.false_ne_true,
        if_neg Bool.false_ne_true, Option.none_or]
    · intro key'
      rw [optionsIn_insert_self, Table.valueAt?_merge _ hDict,
        Table.valueAt?_ofEntries hConfig.optionsIn_isDict, hNamed]
  · refine ⟨_, mergeEntry_other config hKey value, hConfig.insert_other hKey value, ?_, ?_⟩
    · intro key' _
      rw [Table.valueAt?_insert, hFound]
      split <;> rfl
    · intro key'
      have hNone : optionsIn [(.text key, value)] = [] := optionsIn_insert_of_ne [] hKey value
      rw [optionsIn_insert_of_ne config hKey, hNone]
      rfl

section Entries

variable {e : Value × Value} {rest : Table}

theorem IsLayer.head (h : IsLayer (e :: rest)) : IsLayer [e] where
  dict := List.pairwise_singleton _ _
  options v hFound := by
    refine h.options v ?_
    rw [Table.get?] at hFound ⊢
    split at hFound
    · rename_i hSame
      rw [if_pos hSame, hFound]
    · cases hFound

/-- Either the first entry holds the options, or the later ones do. -/
theorem IsLayer.get?_cons (h : IsLayer (e :: rest)) :
    Table.get? optionsKey rest = none ∧
        Table.get? optionsKey (e :: rest) = Table.get? optionsKey [e] ∨
      Table.get? optionsKey [e] = none ∧
        Table.get? optionsKey (e :: rest) = Table.get? optionsKey rest := by
  rw [Table.get?, Table.get?, Table.get?]
  by_cases hSame : e.1.sameKey (.text optionsKey) = true
  · rw [if_pos hSame, if_pos hSame, Table.get?_eq_valueAt?, ← Table.valueAt?_congr rest hSame]
    exact .inl ⟨h.dict.not_in_rest, rfl⟩
  · rw [if_neg hSame, if_neg hSame]
    exact .inr ⟨rfl, rfl⟩

theorem IsLayer.tail (h : IsLayer (e :: rest)) : IsLayer rest where
  dict := (List.pairwise_cons.mp h.dict).2
  options v hFound := by
    rcases h.get?_cons with ⟨hNone, -⟩ | ⟨-, hSame⟩
    · cases hNone.symm.trans hFound
    · exact h.options v (hSame.trans hFound)

theorem IsLayer.optionsIn_cons (h : IsLayer (e :: rest)) (key : Value) :
    (optionsIn (e :: rest)).valueAt? key =
      ((optionsIn rest).valueAt? key).or ((optionsIn [e]).valueAt? key) := by
  rcases h.get?_cons with ⟨hNone, hSame⟩ | ⟨hNone, hSame⟩
  · rw [optionsIn_of_none hNone, optionsIn, hSame, ← optionsIn]
    rfl
  · rw [optionsIn_of_none hNone, optionsIn, hSame, ← optionsIn]
    exact Option.or_none.symm

/-- One layer over another one is both of them over what is below. -/
theorem IsOver.cons (h : IsLayer (e :: rest)) {below between config : Table}
    (hFirst : IsOver [e] below between) (hRest : IsOver rest between config) :
    IsOver (e :: rest) below config where
  other key hOther := by
    rw [hRest.other key hOther, hFirst.other key hOther, h.dict.valueAt?_cons, Option.or_assoc]
  option key := by
    rw [hRest.option, hFirst.option, h.optionsIn_cons, Option.or_assoc]

end Entries

/-- A file is merged into a configuration as a layer over it.  The induction is on the entries of
the file, each of which is a layer of its own. -/
theorem merge_isOver {config file : Table} (hConfig : IsLayer config) (hFile : IsLayer file)
    (hTexts : ∀ e ∈ file, ∃ s, e.1 = .text s) :
    ∃ config', merge config file = .ok config' ∧ IsLayer config' ∧ IsOver file config config' := by
  induction file generalizing config with
  | nil => exact ⟨config, rfl, hConfig, fun _ _ => rfl, fun _ => rfl⟩
  | cons e rest ih =>
      obtain ⟨⟨s, hText⟩, hRestTexts⟩ := List.forall_mem_cons.mp hTexts
      obtain ⟨k, value⟩ := e
      obtain rfl : k = .text s := hText
      obtain ⟨between, hEntry, hBetween, hFirst⟩ := mergeEntry_isOver hConfig hFile.head
      obtain ⟨config', hMerge, hConfig', hRest⟩ := ih hBetween hFile.tail hRestTexts
      refine ⟨config', ?_, hConfig', hFirst.cons hFile hRest⟩
      rw [merge, hEntry, ← hMerge]
      rfl

/-- Whether the file at a path is a configuration with its options, if any, in a table. -/
structure IsConfigFile (b : Bench) (path : String) (entries : Table) : Prop where
  read : readDocument? path b = .ok (some (.table entries)) b
  options : ∀ v, entries.get? optionsKey = some v → ∃ t : Table, v = .table t

theorem IsConfigFile.isLayer {b : Bench} {path : String} {entries : Table}
    (h : IsConfigFile b path entries) :
    IsLayer entries ∧ ∀ e ∈ entries, ∃ s, e.1 = .text s := by
  obtain ⟨s, hRead⟩ := read_of_readDocument? h.read
  cases Json.isKeyed_of_read hRead with
  | other hOther => exact absurd rfl (hOther entries)
  | table texts dict values =>
      refine ⟨⟨dict, fun v hFound => ?_⟩, texts⟩
      obtain ⟨options, rfl⟩ := h.options v hFound
      obtain ⟨e, he, hValue⟩ := Table.exists_of_get? hFound
      have hKeyed := values e he
      rw [hValue] at hKeyed
      cases hKeyed with
      | other hOther => exact absurd rfl (hOther options)
      | table _ hDict _ => exact ⟨options, rfl, hDict⟩

/-! ## Chains of files -/

/-- Loads configuration files one on top of the other.  Gives the configurations that a file was
loaded over, and the last one. -/
def loadAll : List String → Value → Action (List Value × Value)
  | [], base => return ([], base)
  | path :: rest, base => do
    let config ← loadOver path base
    let (before, last) ← loadAll rest config
    return (base :: before, last)

/-- The last value that several tables have under a key. -/
def lastAt? (key : Value) (layers : List Table) : Option Value :=
  layers.reverse.findSome? (Table.valueAt? key)

theorem lastAt?_cons (key : Value) (layer : Table) (rest : List Table) :
    lastAt? key (layer :: rest) = (lastAt? key rest).or (layer.valueAt? key) := by
  rw [lastAt?, List.reverse_cons, List.findSome?_append, List.findSome?_singleton, lastAt?]

/-- What a configuration holds under a key, or else the defaults do. -/
def keyAt (config key : Value) : Option Value :=
  (config.fields.valueAt? key).or (defaults.valueAt? key)

/-- What a configuration holds for an option, or else the default options do. -/
def optionAt (config key : Value) : Option Value :=
  ((optionsIn config.fields).valueAt? key).or (defaultOptions.valueAt? key)

/-- A configuration that is left open says what the defaults say. -/
theorem keyAt_orDefaults {base : Value} (h : base.IsOptional IsLayer) (key : Value) :
    keyAt (orDefaults base) key = keyAt base key := by
  cases h with
  | absent => exact Option.or_self
  | table _ => rfl

theorem optionAt_orDefaults {base : Value} (h : base.IsOptional IsLayer) (key : Value) :
    optionAt (orDefaults base) key = optionAt base key := by
  cases h with
  | absent =>
      have hDefaults : optionsIn defaults = defaultOptions := optionsIn_of_get? defaults_tester
      show ((optionsIn defaults).valueAt? key).or _ = _
      rw [hDefaults, Option.or_self]
      rfl
  | table _ => rfl

section Chain

variable {b : Bench} {base : Value}

/-- A layer over what a caller starts from comes before what that says. -/
theorem IsOver.keyAt_eq {file config : Table} (hBase : base.IsOptional IsLayer)
    (h : IsOver file (orDefaults base).fields config) {key : Value}
    (hOther : key.sameKey (.text optionsKey) = false) :
    keyAt (.table config) key = (file.valueAt? key).or (keyAt base key) := by
  rw [← keyAt_orDefaults hBase, keyAt, keyAt, ← Option.or_assoc, ← h.other key hOther]
  rfl

theorem IsOver.optionAt_eq {file config : Table} (hBase : base.IsOptional IsLayer)
    (h : IsOver file (orDefaults base).fields config) (key : Value) :
    optionAt (.table config) key = ((optionsIn file).valueAt? key).or (optionAt base key) := by
  rw [← optionAt_orDefaults hBase, optionAt, optionAt, ← Option.or_assoc, ← h.option]
  rfl

theorem isLayer_orDefaults (h : base.IsOptional IsLayer) :
    ∃ fields, orDefaults base = .table fields ∧ IsLayer fields := by
  cases h with
  | absent => exact ⟨defaults, rfl, isLayer_defaults⟩
  | table hLayer => exact ⟨_, rfl, hLayer⟩

/-- A file is loaded over what a caller starts from. -/
theorem loadOver_isOver {path : String} {file : Table} (hBase : base.IsOptional IsLayer)
    (hFile : IsConfigFile b path file) :
    ∃ config, loadOver path base b = .ok (.table config) b ∧
      merge (orDefaults base).fields file = .ok config ∧ IsLayer config ∧
      IsOver file (orDefaults base).fields config := by
  obtain ⟨fields, hFields, hLayer⟩ := isLayer_orDefaults hBase
  obtain ⟨hFileLayer, hTexts⟩ := hFile.isLayer
  obtain ⟨config, hMerge, hConfig, hOver⟩ := merge_isOver hLayer hFileLayer hTexts
  have hItems : attempt (Value.table file).items b = .ok file b := rfl
  have hLoad : load path fields b = .ok config b := by
    rw [load, bind_ok hFile.read]
    dsimp only
    rw [bind_ok hItems, hMerge]
    rfl
  refine ⟨config, ?_, ?_, hConfig, ?_⟩
  · rw [loadOver, hFields]
    dsimp only
    rw [bind_ok hLoad]
    rfl
  · rw [hFields]
    exact hMerge
  · rw [hFields]
    exact hOver

/-- Files are loaded one on top of the other, and a key comes from the last file that has it.  The
induction is on the files, the first of which is the lowest layer. -/
theorem loadAll_eq {paths : List String} {files : List Table} (hBase : base.IsOptional IsLayer)
    (hFiles : List.Forall₂ (IsConfigFile b) paths files) :
    ∃ before last, loadAll paths base b = .ok (before, last) b ∧ last.IsOptional IsLayer ∧
      (∀ key : Value, key.sameKey (.text optionsKey) = false →
        keyAt last key = (lastAt? key files).or (keyAt base key)) ∧
      ∀ key, optionAt last key = (lastAt? key (files.map optionsIn)).or (optionAt base key) := by
  induction hFiles generalizing base with
  | nil => exact ⟨[], base, rfl, hBase, fun _ _ => rfl, fun _ => rfl⟩
  | cons hFile _ ih =>
      obtain ⟨config, hLoad, -, hConfig, hOver⟩ := loadOver_isOver hBase hFile
      obtain ⟨before, last, hRest, hLast, hKeys, hOptions⟩ := ih (.table hConfig)
      refine ⟨base :: before, last, ?_, hLast, fun key hOther => ?_, fun key => ?_⟩
      · rw [loadAll, bind_ok hLoad, bind_ok hRest]
        rfl
      · rw [hKeys key hOther, lastAt?_cons, Option.or_assoc, hOver.keyAt_eq hBase hOther]
      · rw [hOptions, List.map_cons, lastAt?_cons, Option.or_assoc, hOver.optionAt_eq hBase]

end Chain

/-! ## The outcome -/

theorem update_eq (t more : Table) : t.update (.table more) = .ok (t.merge more) := rfl

/-- The pipeline puts a configuration over the defaults. -/
theorem pipelineConfig_eq {config : Value} (h : config.IsOptional IsLayer) :
    pipelineConfig config = .ok (defaults.merge config.fields) := by
  cases h with
  | absent => rfl
  | @table t _ => cases t <;> rfl

/-- A build puts the options of a configuration over others. -/
theorem applyConfig_eq {config : Table} (h : IsLayer config) (options : Table) :
    applyConfig options (.table config) = .ok (options.merge (optionsIn config)) := by
  cases config with
  | nil => rfl
  | cons e rest =>
      show options.update (Table.getD (e :: rest) optionsKey (.table [])) = _
      rw [getD_options h, update_eq]

theorem applyOverrides_eq {overrides : Value} {P : Table → Prop} (h : overrides.IsOptional P)
    (options : Table) :
    applyOverrides options overrides = .ok (options.merge overrides.fields) := by
  cases h with
  | absent => rfl
  | @table t _ => cases t <;> rfl

theorem IsLayer.fields {config : Value} (h : config.IsOptional IsLayer) :
    IsLayer config.fields := by
  cases h with
  | absent => exact isLayer_nil
  | table hLayer => exact hLayer

/-- The options over the defaults are those of the configuration, if it has any: they are not merged
with the default ones. -/
theorem get?_over_defaults {config : Table} (h : IsLayer config) :
    Table.get? optionsKey (defaults.merge config) =
      (config.get? optionsKey).or (some (.table defaultOptions)) := by
  rw [Table.get?_eq_valueAt?, Table.valueAt?_merge _ h.dict, ← Table.get?_eq_valueAt?,
    ← Table.get?_eq_valueAt?, defaults_tester]

theorem IsLayer.over_defaults {config : Table} (h : IsLayer config) :
    IsLayer (defaults.merge config) where
  dict := isLayer_defaults.dict.merge config
  options v hFound := by
    rw [get?_over_defaults h] at hFound
    cases hOptions : config.get? optionsKey with
    | some w =>
        rw [hOptions] at hFound
        cases hFound
        exact h.options _ hOptions
    | none =>
        rw [hOptions] at hFound
        exact isLayer_defaults.options v (defaults_tester.trans hFound)

/-- Under the options over the defaults come the default ones in any case. -/
theorem optionsIn_over_defaults {config : Table} (h : IsLayer config) (key : Value) :
    ((optionsIn (defaults.merge config)).valueAt? key).or (defaultOptions.valueAt? key) =
      ((optionsIn config).valueAt? key).or (defaultOptions.valueAt? key) := by
  rw [optionsIn, get?_over_defaults h]
  cases hOptions : config.get? optionsKey with
  | some v =>
      obtain ⟨options, rfl, -⟩ := h.options v hOptions
      rw [optionsIn_of_get? hOptions]
      rfl
  | none =>
      rw [optionsIn_of_none hOptions]
      exact Option.or_self

/-- A build puts its options over the default ones, and those of the caller on top. -/
theorem resolve_eq {config : Table} {overrides : Value} (hConfig : IsLayer config)
    (hOverrides : overrides.IsOptional Table.IsDict) :
    resolve (.table config) overrides =
      .ok ((defaultOptions.merge (optionsIn config)).merge overrides.fields) := by
  rw [resolve, applyConfig_eq hConfig]
  exact applyOverrides_eq hOverrides _

/-- An option of a build comes from the caller, or else from the configuration that the pipeline was
given or the default options. -/
theorem valueAt?_resolved {config overrides : Value} (hConfig : config.IsOptional IsLayer)
    (hOverrides : overrides.IsOptional Table.IsDict) (key : Value) :
    ((defaultOptions.merge (optionsIn (defaults.merge config.fields))).merge
        overrides.fields).valueAt? key =
      (overrides.fields.valueAt? key).or (optionAt config key) := by
  have hLayer := IsLayer.fields hConfig
  have hDict : overrides.fields.IsDict := by
    cases hOverrides with
    | absent => exact Table.isDict_nil
    | table h => exact h
  rw [Table.valueAt?_merge _ hDict, Table.valueAt?_merge _ hLayer.over_defaults.optionsIn_isDict,
    optionsIn_over_defaults hLayer, optionAt]

/-- Any other key of the pipeline's configuration comes from the one it was given, or else from the
defaults. -/
theorem valueAt?_over_defaults {config : Value} (hConfig : config.IsOptional IsLayer)
    (key : Value) : (defaults.merge config.fields).valueAt? key = keyAt config key := by
  rw [Table.valueAt?_merge _ (IsLayer.fields hConfig).dict, keyAt]

end Settings

end CircuitBench
