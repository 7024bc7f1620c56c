import CircuitBench.CommandLine.Run
import CircuitBench.Proofs.Json.Sayable

/-!
# Options that JSON can say

The options of a build that the command line asks for are put together from the defaults, from a
configuration file and from the folder for the output.  All of these can be said in JSON, and merging
brings in nothing else.

## Main results

* `isSayable_configuration` : a configuration of the command line can be said in JSON.
* `isSayable_resolve` : the options of a build can be said if the configuration and the options of
  the caller can.
-/

namespace CircuitBench

open Bench

namespace Settings

/-! ## Defaults -/

theorem isSayable_defaultOptions : defaultOptions.IsSayable := by
  simp only [Table.IsSayable, defaultOptions, List.forall_mem_cons]
  exact ⟨⟨.text _, .text _⟩, ⟨.text _, .text _⟩, ⟨.text _, .null⟩, ⟨.text _, .bool _⟩,
    ⟨.text _, .list fun _ hv => absurd hv List.not_mem_nil⟩,
    ⟨.text _, .null⟩, ⟨.text _, .null⟩, ⟨.text _, .bool _⟩, ⟨.text _, .bool _⟩, Table.isSayable_nil⟩

theorem isSayable_defaults : defaults.IsSayable := by
  simp only [Table.IsSayable, defaults, List.forall_mem_cons]
  exact ⟨⟨.text _, .text _⟩, ⟨.text _, .text _⟩, ⟨.text _, isSayable_defaultOptions.toValue⟩,
    Table.isSayable_nil⟩

/-! ## Merging -/

theorem isSayable_update {base base' : Table} {v : Value} (hBase : base.IsSayable)
    (hValue : v.IsSayable) (h : base.update v = .ok base') : base'.IsSayable := by
  obtain ⟨entries, hEntries, h⟩ := except_bind_eq_ok h
  cases h
  exact hBase.merge (hValue.entries hEntries)

theorem isSayable_mergeEntry {config config' : Table} {entry : Value × Value}
    (hConfig : config.IsSayable) (hEntry : entry.1.IsSayable ∧ entry.2.IsSayable)
    (h : mergeEntry config entry = .ok config') : config'.IsSayable := by
  rw [mergeEntry.eq_def] at h
  split at h
  · split at h
    · obtain ⟨present, hPresent, h⟩ := except_bind_eq_ok h
      cases h
      have hThere := hConfig.getD optionsKey Table.isSayable_nil.toValue
      have hBase : (Table.ofEntries present).IsSayable :=
        Table.isSayable_nil.merge (hThere.entries hPresent)
      exact hConfig.insert (.text _) (hBase.merge (.ofValue hEntry.2)).toValue
    · cases h
      exact hConfig.insert (.text _) hEntry.2
  · cases h
    exact hConfig.insert hEntry.1 hEntry.2

theorem isSayable_merge {config config' entries : Table} (hConfig : config.IsSayable)
    (hEntries : entries.IsSayable) (h : merge config entries = .ok config') : config'.IsSayable := by
  induction entries generalizing config with
  | nil =>
      cases h
      exact hConfig
  | cons entry rest ih =>
      obtain ⟨hFirst, hRest⟩ := List.forall_mem_cons.mp hEntries
      obtain ⟨between, hMerged, h⟩ := except_bind_eq_ok h
      exact ih (isSayable_mergeEntry hConfig hFirst hMerged) hRest h

/-- The options of a build can be said if the configuration and the options of the caller can. -/
theorem isSayable_resolve {config overrides : Value} {options : Table} (hConfig : config.IsSayable)
    (hOverrides : overrides.IsSayable) (h : resolve config overrides = .ok options) :
    options.IsSayable := by
  obtain ⟨configured, hApplied, h⟩ := except_bind_eq_ok h
  have hConfigured : configured.IsSayable := by
    obtain ⟨counts, -, hApplied⟩ := except_bind_eq_ok hApplied
    split at hApplied
    · obtain ⟨fields, hFields, hApplied⟩ := except_bind_eq_ok hApplied
      cases hConfig with
      | table hKeys hValues =>
          cases hFields
          have hThere := (Table.IsSayable.ofValue (.table hKeys hValues)).getD optionsKey
            Table.isSayable_nil.toValue
          exact isSayable_update isSayable_defaultOptions hThere hApplied
      | _ => cases hFields
    · cases hApplied
      exact isSayable_defaultOptions
  obtain ⟨counts, -, h⟩ := except_bind_eq_ok h
  split at h
  · exact isSayable_update hConfigured hOverrides h
  · cases h
    exact hConfigured

end Settings

/-! ## Documents -/

/-- What is read from a document is read from a text. -/
theorem Bench.read_of_readDocument? {path : String} {v : Value} {b b' : Bench}
    (h : readDocument? path b = .ok (some v) b') : ∃ s, Json.read s = .ok v := by
  obtain ⟨there, b₁, -, h⟩ := bind_eq_ok h
  split at h
  · obtain ⟨text, b₂, -, h⟩ := bind_eq_ok h
    obtain ⟨data, b₃, hParsed, h⟩ := bind_eq_ok h
    cases (pure_eq_ok h).1
    obtain ⟨hRead, -⟩ := attempt_eq_ok hParsed
    rw [parseJson] at hRead
    cases hValue : Json.read text.toList with
    | ok value =>
        rw [hValue] at hRead
        cases hRead
        exact ⟨_, hValue⟩
    | error e =>
        rw [hValue] at hRead
        cases hRead
  · cases (pure_eq_ok h).1

/-- What is read from a document can be said in JSON. -/
theorem Bench.isSayable_readDocument? {path : String} {v : Value} {b b' : Bench}
    (h : readDocument? path b = .ok (some v) b') : v.IsSayable := by
  obtain ⟨s, hRead⟩ := read_of_readDocument? h
  exact Json.isSayable_of_read hRead

/-! ## Command lines -/

namespace CommandLine

/-- A configuration of the command line can be said in JSON. -/
theorem isSayable_configuration {a : Arguments} {config : Table} {b b' : Bench}
    (h : configuration a b = .ok config b') : config.IsSayable := by
  rw [configuration] at h
  cases hFile : a.config with
  | none =>
      rw [hFile] at h
      cases (pure_eq_ok h).1
      exact Settings.isSayable_defaults
  | some path =>
      rw [hFile] at h
      obtain ⟨found, b₁, hRead, h⟩ := bind_eq_ok h
      cases found with
      | none => cases h
      | some data =>
          obtain ⟨entries, b₂, hItems, h⟩ := bind_eq_ok h
          have hData : data.IsSayable := isSayable_readDocument? hRead
          cases hData with
          | table hKeys hValues =>
              cases (attempt_eq_ok hItems).1
              exact Settings.isSayable_merge Settings.isSayable_defaults
                (.ofValue (.table hKeys hValues)) (attempt_eq_ok h).1
          | _ => cases (attempt_eq_ok hItems).1

/-- So can the configuration that its pipeline takes. -/
theorem isSayable_pipelineConfig {config config' : Table} (hConfig : config.IsSayable)
    (h : pipelineConfig (.table config) = .ok config') : config'.IsSayable := by
  obtain ⟨counts, -, h⟩ := except_bind_eq_ok h
  split at h
  · exact Settings.isSayable_update Settings.isSayable_defaults hConfig.toValue h
  · cases h
    exact Settings.isSayable_defaults

/-- So can the options of its build. -/
theorem isSayable_buildOptions {a : Arguments} {options : Value} {b b' : Bench}
    (h : buildOptions a b = .ok options b') : options.IsSayable := by
  rw [buildOptions] at h
  cases hFolder : a.outputFolder with
  | none =>
      rw [hFolder] at h
      cases (pure_eq_ok h).1
      exact Table.isSayable_nil.toValue
  | some path =>
      rw [hFolder] at h
      obtain ⟨_, b₁, -, h⟩ := bind_eq_ok h
      cases (pure_eq_ok h).1
      exact Table.IsSayable.toValue (List.forall_mem_singleton.mpr ⟨.text _, .text _⟩)

end CommandLine

end CircuitBench
