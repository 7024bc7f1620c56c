import CircuitBench.Json.Document
import CircuitBench.Settings.Options

/-!
# Configuration files

A configuration file holds a JSON object, whose entries are put into a configuration.  The file must
be there, and the configuration it is put into is not changed by a file that cannot be used.  A
caller may hand over what is no table; that is only found out when an entry is to be put into it.

## Main results

* `load_missing` : a file that is not there is named as it was asked for.
-/

namespace CircuitBench.Settings

open Bench

/-- Puts the entries of a configuration file into a configuration. -/
def load (path : String) (base : Table) : Action Table := do
  match ← readDocument? path with
  | none => throw (.configMissing path)
  | some data =>
    let entries ← attempt data.items
    attempt (merge base entries)

/-- Whether a value is a container that can be copied, though its entries have no keys. -/
def isCopied : Value → Bool
  | .list _ => true
  | .set _ => true
  | _ => false

/-- The fault of putting an entry into a container without keys. -/
def entryFault (base : Value) (entry : Value × Value) : Error :=
  match entry, base with
  | (.text key, .table _), _ =>
    if key = optionsKey then .noAttribute base.fullKindName "get" else assignmentFault
  | _, _ => assignmentFault
where
  /-- The fault of assigning to a key of a container without keys. -/
  assignmentFault : Error :=
    match base with
    | .list _ => .type (.listIndexKind entry.1.fullKindName)
    | v => .type (.notAssignable v.fullKindName)

/-- Puts the entries of a configuration file into a copy of what a caller has handed over. -/
def loadOver (path : String) (base : Value) : Action Value :=
  match orDefaults base with
  | .table fields => do return .table (← load path fields)
  | v => do
    if isCopied v then
      match ← load path [] with
      | [] => return v
      | entry :: _ => throw (entryFault v entry)
    else throw (.noAttribute v.fullKindName "copy")

theorem load_missing (path : String) (base : Table) (b : Bench)
    (h : b.disk.probe b.current (FilePath.ofString path).text = .ok false) :
    load path base b = .error (.configMissing path) b := by
  have hexists : pathExists (FilePath.ofString path).text b = .ok false b := ask_ok h
  have hread : readDocument? path b = .ok none b := by
    simp only [readDocument?, bind, EStateM.bind, hexists]
    rfl
  simp only [load, bind, EStateM.bind, hread]
  rfl

end CircuitBench.Settings
