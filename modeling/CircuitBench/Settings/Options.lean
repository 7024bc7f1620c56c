import CircuitBench.Value.Access

/-!
# Options of a build

A configuration is a table.  Two of its keys say how a main component is written, the version of its
language and the ending of its file; the key `tester` holds a table of options for building and
running circuits.  Configurations come from defaults, files and callers, and a later layer wins over
an earlier one: key by key at the top, and key by key among the options.

## Main results

* `defaults_tester` : the default configuration holds the default options.
* `merge_other` : a top-level key of a file replaces the one that was there.
-/

namespace CircuitBench.Settings

/-- The key under which a configuration holds the options of a build. -/
def optionsKey : String := "tester"

/-- The options of a build that nothing else is said of. -/
def defaultOptions : Table := [
  (.text "circom", .text "circom"),
  (.text "node", .text "node"),
  (.text "output", .null),
  (.text "recompile", .bool true),
  (.text "include", .list []),
  (.text "prime", .null),
  (.text "O", .null),
  (.text "json", .bool false),
  (.text "verbose", .bool false)]

/-- The version of the language in which a main component is written. -/
def defaultVersion : Value := .text "2.0.0"

/-- The ending of the file of a main component. -/
def defaultSuffix : Value := .text ".circom"

/-- The configuration that nothing else is said of. -/
def defaults : Table := [
  (.text "pragma_version", defaultVersion),
  (.text "circuit_suffix", defaultSuffix),
  (.text optionsKey, .table defaultOptions)]

/-- The version that a configuration asks for. -/
def version (config : Table) : Value :=
  config.getD "pragma_version" defaultVersion

/-- The ending of files that a configuration asks for. -/
def suffix (config : Table) : Value :=
  config.getD "circuit_suffix" defaultSuffix

/-- Puts the options of a configuration into others, if it counts as true. -/
def applyConfig (options : Table) (config : Value) : Except Error Table := do
  if ← config.truth then
    let fields ← config.record
    options.update (fields.getD optionsKey (.table []))
  else return options

/-- Puts the options of a caller into others, if they count as true. -/
def applyOverrides (options : Table) (overrides : Value) : Except Error Table := do
  if ← overrides.truth then options.update overrides else return options

/-- The options of a build: the default ones, then those of a configuration, then those of the
caller. -/
def resolve (config overrides : Value) : Except Error Table := do
  let options ← applyConfig defaultOptions config
  applyOverrides options overrides

/-- Puts one entry of a configuration file into a configuration.  Options are merged with those that
are there, and anything else replaces what is there. -/
def mergeEntry (config : Table) (entry : Value × Value) : Except Error Table :=
  match entry with
  | (.text key, .table options) =>
    if key = optionsKey then do
      let present ← (config.getD optionsKey (.table [])).entries
      return config.put key (.table ((Table.ofEntries present).merge options))
    else .ok (config.put key (.table options))
  | (key, value) => .ok (config.insert key value)

/-- Puts the entries of a configuration file into a configuration in order. -/
def merge (config : Table) : List (Value × Value) → Except Error Table
  | [] => .ok config
  | entry :: rest => do
    let merged ← mergeEntry config entry
    merge merged rest

/-- A configuration that a caller may leave open: then it is the default one. -/
def orDefaults (config : Value) : Value :=
  match config with
  | .null => .table defaults
  | v => v

/-! ## Laws -/

theorem defaults_tester : defaults.get? optionsKey = some (.table defaultOptions) := by
  simp [defaults, Table.get?, Table.sameKey_text, optionsKey]

theorem resolve_empty : resolve (.table []) (.table []) = .ok defaultOptions := rfl

theorem merge_other (config : Table) (key : String) (value : Value) (h : key ≠ optionsKey) :
    merge config [(.text key, value)] = .ok (config.put key value) := by
  cases value <;> simp [merge, mergeEntry, h, Table.put] <;> rfl

end CircuitBench.Settings
