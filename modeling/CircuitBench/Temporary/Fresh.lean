import CircuitBench.Bench.Basic

/-!
# Temporary files and folders

A fresh file or folder stands in a folder under a name that nothing else has: a lead, a part drawn
for it alone, and, for a file, an ending.  It is registered as soon as it is made.  Making one fails
when its folder is not there, or when the lead or the ending leads elsewhere by a slash.

A fresh file is named by an absolute path; a fresh folder by the path of the folder around it, as
that was given.

## Main results

* `withPrivateRegistry_registry` : work with a private registry leaves the registry of the bench
  alone.
-/

namespace CircuitBench.Bench

open CircuitBench.Path Registry

/-- Draws names until one is free for a new file or folder, and gives its path. -/
def create (make : Disk → Location → String → Except DiskFault (Location × Disk))
    (pathOf : String → String) :
    Nat → Action String
  | 0 => fun b => .error (.disk .exists) b
  | attempts + 1 => fun b =>
    let path := pathOf (token b.namesDrawn)
    let drawn := { b with namesDrawn := b.namesDrawn + 1 }
    match make b.disk b.current path with
    | .ok (_, disk) => .ok path { drawn with disk }
    | .error .exists => create make pathOf attempts drawn
    | .error fault => .error (.disk fault) drawn

/-- Registers a path. -/
def track (path : String) : Action Unit :=
  modify fun b => { b with registry := b.registry.track path }

/-- Makes a fresh file in the folder asked for, and gives its path. -/
def openFile (lead ending : String) (asked : Option String) : Action String := do
  let b ← get
  let folder ← attempt (absolutePath b.current ((b.registry.folder asked).getD b.temporary))
  let path ← create Disk.createFile (fun name => join folder (lead ++ name ++ ending)) maxAttempts
  track path
  return path

/-- Makes a fresh folder in the folder asked for, and gives its path. -/
def openFolder (lead : String) (asked : Option String) : Action String := do
  let b ← get
  let folder := (b.registry.folder asked).getD b.temporary
  let path ← create Disk.makeFolder (fun name => join folder (lead ++ name)) maxAttempts
  track path
  return path

/-- Removes all that the registry holds, the last registered first, and says how many of the paths
led to something.  The registry is empty afterwards. -/
def cleanUp : Action Nat := do
  let b ← get
  let (count, disk) := discardAll b.current b.registry.paths.reverse b.disk
  set { b.afterRemoval disk with registry := b.registry.emptied }
  return count

/-- Cleans up after an action, whether that fails or not. -/
def withCleanUp {α : Type} (action : Action α) : Action α :=
  ensuring action (do let _ ← cleanUp; return ())

/-- Does an action with a registry of its own, which is cleaned up afterwards. -/
def withPrivateRegistry {α : Type} (action : Action α) : Action α :=
  fun b =>
    match withCleanUp action { b with registry := {} } with
    | .ok a b' => .ok a { b' with registry := b.registry }
    | .error e b' => .error e { b' with registry := b.registry }

/-! ## Laws -/

theorem track_registry (path : String) (b : Bench) :
    track path b = .ok () { b with registry := b.registry.track path } := rfl

theorem withPrivateRegistry_registry {α : Type} (action : Action α) (b : Bench) :
    (match withPrivateRegistry action b with
      | .ok _ b' => b'.registry
      | .error _ b' => b'.registry) = b.registry := by
  unfold withPrivateRegistry
  cases withCleanUp action { b with registry := {} } <;> rfl

end CircuitBench.Bench
