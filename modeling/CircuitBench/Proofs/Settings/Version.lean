import CircuitBench.CommandLine.Run
import CircuitBench.Proofs.Bench.Preserved

/-!
# The version of a configuration that is merged

A configuration of the command line goes through two merges: the file that is named is put into the
defaults, and the pipeline puts the result into the defaults once more.  The version comes first among
the defaults, and a merge leaves a key at its place; so it comes first in every configuration, and no
other key is the same.  That is why the second merge finds the version that the first one has left.

## Main results

* `saysVersion_configuration` : every configuration of the command line says a version.
* `version_pipelineConfig` : the pipeline takes that version.
-/

namespace CircuitBench.Settings

open Bench

/-- The key under which a configuration holds the version of the language. -/
def versionKey : Value := .text "pragma_version"

theorem sameKey_versionKey : versionKey.sameKey versionKey = true := by
  decide

/-- Whether a configuration starts with a version, and no later key is that of the version. -/
def SaysVersion (v : Value) (config : Table) : Prop :=
  ∃ rest, config = (versionKey, v) :: rest ∧ ∀ e ∈ rest, versionKey.sameKey e.1 = false

theorem saysVersion_defaults : SaysVersion defaultVersion defaults :=
  ⟨_, rfl, by decide⟩

namespace SaysVersion

variable {v : Value} {config : Table}

theorem version_eq (h : SaysVersion v config) : version config = v := by
  obtain ⟨rest, rfl, -⟩ := h
  rw [version, Table.getD, Table.get?, ← versionKey, if_pos sameKey_versionKey]
  rfl

/-- Another key is put behind the version. -/
theorem insert_other (h : SaysVersion v config) {key : Value} (hOther : versionKey.sameKey key = false)
    (value : Value) : SaysVersion v (config.insert key value) := by
  obtain ⟨rest, rfl, hRest⟩ := h
  rw [Table.insert, hOther, if_neg Bool.false_ne_true]
  refine ⟨_, rfl, ?_⟩
  induction rest with
  | nil => exact List.forall_mem_singleton.mpr hOther
  | cons e more ih =>
      obtain ⟨hFirst, hMore⟩ := List.forall_mem_cons.mp hRest
      rw [Table.insert]
      split
      · exact List.forall_mem_cons.mpr ⟨hFirst, hMore⟩
      · exact List.forall_mem_cons.mpr ⟨hFirst, ih hMore⟩

/-- The key of the version keeps its place. -/
theorem insert_version (h : SaysVersion v config) {key : Value} (hKey : versionKey.sameKey key = true)
    (value : Value) : SaysVersion value (config.insert key value) := by
  obtain ⟨rest, rfl, hRest⟩ := h
  rw [Table.insert, if_pos hKey]
  exact ⟨rest, rfl, hRest⟩

theorem insert (h : SaysVersion v config) (key value : Value) :
    ∃ v', SaysVersion v' (config.insert key value) := by
  cases hKey : versionKey.sameKey key with
  | true => exact ⟨value, h.insert_version hKey value⟩
  | false => exact ⟨v, h.insert_other hKey value⟩

theorem merge_others (h : SaysVersion v config) {more : Table}
    (hOthers : ∀ e ∈ more, versionKey.sameKey e.1 = false) :
    SaysVersion v (config.merge more) := by
  induction more generalizing config with
  | nil => exact h
  | cons e rest ih =>
      obtain ⟨hFirst, hRest⟩ := List.forall_mem_cons.mp hOthers
      exact ih (h.insert_other hFirst e.2) hRest

/-- A configuration that is merged into another one brings its version with it. -/
theorem merge {v' : Value} {config' : Table} (h : SaysVersion v config)
    (h' : SaysVersion v' config') : SaysVersion v' (config.merge config') := by
  obtain ⟨rest, rfl, hRest⟩ := h'
  exact (h.insert_version sameKey_versionKey v').merge_others hRest

/-- What is put into a configuration may bring another version, but some version is there. -/
theorem mergeEntry {entry : Value × Value} {config' : Table} (h : SaysVersion v config)
    (hMerged : Settings.mergeEntry config entry = .ok config') : ∃ v', SaysVersion v' config' := by
  rw [Settings.mergeEntry.eq_def] at hMerged
  split at hMerged
  · split at hMerged
    · obtain ⟨present, -, hMerged⟩ := except_bind_eq_ok hMerged
      cases hMerged
      exact h.insert _ _
    · cases hMerged
      exact h.insert _ _
  · cases hMerged
    exact h.insert _ _

theorem merged {entries : List (Value × Value)} {config' : Table} (h : SaysVersion v config)
    (hMerged : Settings.merge config entries = .ok config') : ∃ v', SaysVersion v' config' := by
  induction entries generalizing config v with
  | nil =>
      cases hMerged
      exact ⟨v, h⟩
  | cons entry rest ih =>
      obtain ⟨between, hFirst, hRest⟩ := except_bind_eq_ok hMerged
      obtain ⟨v₁, hBetween⟩ := h.mergeEntry hFirst
      exact ih hBetween hRest

end SaysVersion

/-- Every configuration of the command line says a version. -/
theorem saysVersion_configuration {a : CommandLine.Arguments} {config : Table} {b b' : Bench}
    (h : CommandLine.configuration a b = .ok config b') : ∃ v, SaysVersion v config := by
  rw [CommandLine.configuration] at h
  cases hFile : a.config with
  | none =>
      rw [hFile] at h
      cases (pure_eq_ok h).1
      exact ⟨_, saysVersion_defaults⟩
  | some path =>
      rw [hFile] at h
      obtain ⟨found, b₁, -, h⟩ := bind_eq_ok h
      cases found with
      | none => cases h
      | some data =>
          obtain ⟨entries, b₂, -, h⟩ := bind_eq_ok h
          exact saysVersion_defaults.merged (attempt_eq_ok h).1

/-- The pipeline takes the version that a configuration says. -/
theorem version_pipelineConfig {v : Value} {config config' : Table} (hSays : SaysVersion v config)
    (h : pipelineConfig (.table config) = .ok config') : version config' = version config := by
  have hMerged : config' = defaults.merge config := by
    obtain ⟨rest, rfl, -⟩ := hSays
    cases h
    rfl
  rw [hMerged, (saysVersion_defaults.merge hSays).version_eq, hSays.version_eq]

end CircuitBench.Settings
