import CircuitBench.Proofs.Bench.Preserved
import CircuitBench.Proofs.Value.Keys
import CircuitBench.Settings.File

/-!
# Tables that are shared

A table does not hold its values but refers to them, and so do its copies: what is written through
one reference is seen through all of them.  Here tables are objects at addresses of a memory, and
the operations on them are those that work on references: a copy has the entries of the original,
which refer to the same objects, and an entry is put into the object itself.

An address shows a value if what can be reached from there spells it.  That is said of a view, which
is a part of the memory, since what is written to one object leaves everything as it is that is
shown without that object.

## Main results

* `Shows.mono` : what a part of the memory shows is shown by all of it.
* `setItem_spec` : an entry is put into one object, and all others stay as they are.
* `update_spec` : so are all entries of a table.
* `place_spec` : a value that is put into memory is shown by new objects only.
-/

namespace CircuitBench.Settings

open Bench

/-! ## Memory -/

/-- A thing in memory: a table, of which the values lie elsewhere, or a value without entries. -/
inductive Object
  | leaf (v : Value)
  | dict (entries : List (Value × Nat))

/-- The things in memory, each at its address. -/
abbrev Memory := List Object

/-- Work on objects that refer to each other. -/
abbrev Work := EStateM Error Memory

/-- What is known to lie at the addresses of a memory. -/
abbrev View := Nat → Option Object

/-- All that lies in a memory. -/
def Memory.view (m : Memory) : View :=
  fun r => m[r]?

/-- What lies in a memory beside one address. -/
def Memory.without (m : Memory) (d : Nat) : View :=
  fun r => if r = d then none else m[r]?

/-- What lies in a memory from an address on. -/
def Memory.since (m : Memory) (n : Nat) : View :=
  fun r => if r < n then none else m[r]?

/-- Whether what is known in one view is known in another one, too. -/
def View.Within (V W : View) : Prop :=
  ∀ r o, V r = some o → W r = some o

mutual

/-- Whether an address shows a value. -/
def Shows (V : View) (r : Nat) : Value → Prop
  | .table fields => ∃ es, V r = some (.dict es) ∧ ShowsAll V es fields
  | v => V r = some (.leaf v)

/-- Whether entries that refer to values show the entries of a table. -/
def ShowsAll (V : View) : List (Value × Nat) → List (Value × Value) → Prop
  | [], [] => True
  | (k, r) :: es, (k', v) :: fields => k = k' ∧ Shows V r v ∧ ShowsAll V es fields
  | _, _ => False

end

theorem View.Within.refl (V : View) : V.Within V :=
  fun _ _ h => h

theorem View.Within.trans {U V W : View} (h : U.Within V) (h' : V.Within W) : U.Within W :=
  fun r o hr => h' r o (h r o hr)

theorem Memory.without_within (m : Memory) (d : Nat) : (m.without d).Within m.view := by
  intro r o h
  rw [Memory.without] at h
  split at h
  · cases h
  · exact h

theorem Memory.since_within (m more : Memory) {n k : Nat} (h : n ≤ k) :
    (m.since k).Within ((m ++ more).since n) := by
  intro r o hr
  rw [Memory.since] at hr ⊢
  split at hr
  · cases hr
  · obtain ⟨hInside, -⟩ := List.getElem?_eq_some_iff.mp hr
    rw [if_neg (by omega), List.getElem?_append_left hInside, hr]

theorem Memory.since_within_without {m : Memory} {n d : Nat} (h : d < n) :
    (m.since n).Within (m.without d) := by
  intro r o hr
  rw [Memory.since] at hr
  split at hr
  · cases hr
  · rw [Memory.without, if_neg (by omega), hr]

/-- What is put behind a memory leaves all of it as it is. -/
theorem Memory.view_within (m more : Memory) : m.view.Within ((m ++ more).without m.length) := by
  intro r o hr
  obtain ⟨hInside, -⟩ := List.getElem?_eq_some_iff.mp hr
  rw [Memory.without, if_neg (by omega), List.getElem?_append_left hInside]
  exact hr

theorem Memory.view_length (m : Memory) : m.view m.length = none :=
  List.getElem?_eq_none (Nat.le_refl _)

mutual

/-- What a part of the memory shows is shown by all of it. -/
theorem Shows.mono {V W : View} (hWithin : V.Within W) {r : Nat} {v : Value} (h : Shows V r v) :
    Shows W r v := by
  cases v with
  | table fields =>
      obtain ⟨es, hObject, hEntries⟩ := h
      exact ⟨es, hWithin _ _ hObject, hEntries.mono hWithin⟩
  | _ => exact hWithin _ _ h

theorem ShowsAll.mono {V W : View} (hWithin : V.Within W) {es : List (Value × Nat)}
    {fields : List (Value × Value)} (h : ShowsAll V es fields) : ShowsAll W es fields := by
  match es, fields, h with
  | [], [], _ => trivial
  | (_, _) :: _, (_, _) :: _, ⟨hKey, hValue, hRest⟩ =>
      exact ⟨hKey, hValue.mono hWithin, hRest.mono hWithin⟩

end

/-! ## Entries -/

/-- Puts a reference under a key: at the key's place if it is there already, else at the end. -/
def putRef (key : Value) (r : Nat) : List (Value × Nat) → List (Value × Nat)
  | [] => [(key, r)]
  | (k, s) :: rest => if k.sameKey key then (k, r) :: rest else (k, s) :: putRef key r rest

/-- The reference under a key that is a text. -/
def refAt? (key : String) : List (Value × Nat) → Option Nat
  | [] => none
  | (k, r) :: rest => if k.sameKey (.text key) then some r else refAt? key rest

theorem ShowsAll.put {V : View} {es : List (Value × Nat)} {fields : Table}
    (h : ShowsAll V es fields) (key : Value) {r : Nat} {v : Value} (hValue : Shows V r v) :
    ShowsAll V (putRef key r es) (fields.insert key v) := by
  match es, fields, h with
  | [], [], _ => exact ⟨rfl, hValue, trivial⟩
  | (k, s) :: es, (k', w) :: fields, ⟨hKey, hFirst, hRest⟩ =>
      subst hKey
      rw [putRef, Table.insert]
      split
      · exact ⟨rfl, hValue, hRest⟩
      · exact ⟨rfl, hFirst, hRest.put key hValue⟩

/-- What entries that refer to values have under a key shows what the table has. -/
theorem ShowsAll.refAt? {V : View} {es : List (Value × Nat)} {fields : Table}
    (h : ShowsAll V es fields) (key : String) :
    Option.Rel (fun r v => Shows V r v) (refAt? key es) (fields.get? key) := by
  match es, fields, h with
  | [], [], _ => exact .none
  | (k, s) :: es, (k', w) :: fields, ⟨hKey, hFirst, hRest⟩ =>
      subst hKey
      rw [Settings.refAt?, Table.get?]
      split
      · exact .some hFirst
      · exact hRest.refAt? key

theorem ShowsAll.isEmpty {V : View} {es : List (Value × Nat)} {fields : Table}
    (h : ShowsAll V es fields) : es.isEmpty = fields.isEmpty := by
  match es, fields, h with
  | [], [], _ => rfl
  | (_, _) :: _, (_, _) :: _, _ => rfl

/-! ## Operations -/

/-- Puts a thing into memory, at an address of its own. -/
def allocate (o : Object) : Work Nat :=
  fun m => .ok m.length (m ++ [o])

/-- The thing at an address. -/
def look (r : Nat) : Work Object :=
  fun m => .ok (m[r]?.getD (.leaf .null)) m

mutual

/-- Puts a value into memory, which nothing refers to yet. -/
def place : Value → Work Nat
  | .table fields => do
    let es ← placeAll fields
    allocate (.dict es)
  | v => allocate (.leaf v)

/-- Puts the values of a table into memory. -/
def placeAll : List (Value × Value) → Work (List (Value × Nat))
  | [] => return []
  | (k, v) :: rest => do
    let r ← place v
    let es ← placeAll rest
    return (k, r) :: es

end

/-- Makes a copy of a thing, the entries of which refer to the same values. -/
def copy (r : Nat) : Work Nat := do
  match ← look r with
  | .dict es => allocate (.dict es)
  | .leaf v => if isCopied v then allocate (.leaf v) else throw (.noAttribute v.fullKindName "copy")

/-- Puts an entry into a table. -/
def setItem (d : Nat) (key : Value) (r : Nat) : Work Unit := do
  match ← look d with
  | .dict es => modify fun m => m.set d (.dict (putRef key r es))
  | .leaf v => throw (entryFault.assignmentFault v (key, .null))

/-- Puts entries into a table in order. -/
def setItems (d : Nat) : List (Value × Nat) → Work Unit
  | [] => return ()
  | (k, r) :: rest => do
    setItem d k r
    setItems d rest

/-- The entries of a table, or those that a sequence of pairs stands for. -/
def entriesOf (r : Nat) : Work (List (Value × Nat)) := do
  match ← look r with
  | .dict es => return es
  | .leaf v =>
    let pairs ← attempt v.entries
    placeAll pairs

/-- Puts the entries of a thing into a table. -/
def update (d r : Nat) : Work Unit := do
  let es ← entriesOf r
  setItems d es

/-- Makes a table with the entries of a thing. -/
def newDict (r : Nat) : Work Nat := do
  let d ← allocate (.dict [])
  update d r
  return d

/-- What a table has under a key, or an empty table. -/
def getOrEmpty (r : Nat) (key : String) : Work Nat := do
  let empty ← allocate (.dict [])
  match ← look r with
  | .dict es => return (refAt? key es).getD empty
  | .leaf v => throw (.noAttribute v.fullKindName "get")

/-- Whether a thing counts as true. -/
def isTrue (r : Nat) : Work Bool := do
  match ← look r with
  | .dict es => return !es.isEmpty
  | .leaf v => attempt v.truth

/-! ## What the operations do -/

/-- Whether a table that shows entries is at an address, where the values of the entries are known
to lie elsewhere. -/
structure Holds (V : View) (d : Nat) (fields : Table) (m : Memory) : Prop where
  known : V.Within m.view
  apart : V d = none
  entries : ∃ es, m[d]? = some (.dict es) ∧ ShowsAll V es fields

theorem Holds.shows {V : View} {d : Nat} {fields : Table} {m : Memory} (h : Holds V d fields m) :
    Shows m.view d (.table fields) := by
  obtain ⟨es, hObject, hEntries⟩ := h.entries
  exact ⟨es, hObject, hEntries.mono h.known⟩

theorem look_of_some {m : Memory} {r : Nat} {o : Object} (h : m[r]? = some o) :
    look r m = .ok o m := by
  rw [look, h]
  rfl

/-- An entry is put into one object, and all others stay as they are. -/
theorem setItem_spec {V : View} {d : Nat} {fields : Table} {m : Memory} (h : Holds V d fields m)
    (key : Value) {r : Nat} {v : Value} (hValue : Shows V r v) :
    ∃ m', setItem d key r m = .ok () m' ∧ Holds V d (fields.insert key v) m' ∧
      m'.without d = m.without d := by
  obtain ⟨es, hObject, hEntries⟩ := h.entries
  refine ⟨m.set d (.dict (putRef key r es)), ?_, ⟨?_, h.apart, ?_⟩, ?_⟩
  · rw [setItem, bind_ok (look_of_some hObject)]
    rfl
  · intro s o hs
    have hOther : d ≠ s := by
      rintro rfl
      cases h.apart.symm.trans hs
    exact (List.getElem?_set_ne hOther).trans (h.known s o hs)
  · obtain ⟨hInside, -⟩ := List.getElem?_eq_some_iff.mp hObject
    exact ⟨_, List.getElem?_set_self hInside, hEntries.put key hValue⟩
  · funext s
    unfold Memory.without
    split
    · rfl
    · rename_i hOther
      exact List.getElem?_set_ne (Ne.symm hOther)

theorem setItems_spec {V : View} {d : Nat} {fields : Table} {m : Memory} (h : Holds V d fields m)
    {es : List (Value × Nat)} {more : Table} (hMore : ShowsAll V es more) :
    ∃ m', setItems d es m = .ok () m' ∧ Holds V d (fields.merge more) m' ∧
      m'.without d = m.without d := by
  match es, more, hMore with
  | [], [], _ => exact ⟨m, rfl, h, rfl⟩
  | (k, r) :: es, (k', v) :: more, ⟨hKey, hValue, hRest⟩ =>
      subst hKey
      obtain ⟨m₁, hFirst, h₁, hSame₁⟩ := setItem_spec h k hValue
      obtain ⟨m₂, hMore, h₂, hSame₂⟩ := setItems_spec h₁ hRest
      refine ⟨m₂, ?_, h₂, hSame₂.trans hSame₁⟩
      rw [setItems, bind_ok hFirst]
      exact hMore

section Sources

variable {V : View} {m : Memory} (hKnown : V.Within m.view)
include hKnown

theorem entriesOf_spec {r : Nat} {fields : Table} (h : Shows V r (.table fields)) :
    ∃ es, entriesOf r m = .ok es m ∧ ShowsAll V es fields := by
  obtain ⟨es, hObject, hEntries⟩ := h
  refine ⟨es, ?_, hEntries⟩
  rw [entriesOf, bind_ok (look_of_some (hKnown _ _ hObject))]
  rfl

theorem isTrue_spec {r : Nat} {v : Value} (h : Shows V r v) {b : Bool} (hTruth : v.truth = .ok b) :
    isTrue r m = .ok b m := by
  cases v with
  | table fields =>
      obtain ⟨es, hObject, hEntries⟩ := h
      rw [isTrue, bind_ok (look_of_some (hKnown _ _ hObject))]
      cases hTruth
      rw [← hEntries.isEmpty]
      rfl
  | _ =>
      rw [isTrue, bind_ok (look_of_some (hKnown _ _ h))]
      dsimp only
      rw [hTruth]
      rfl

end Sources

/-- All entries of a table are put into an object, and all others stay as they are. -/
theorem update_spec {V : View} {d : Nat} {fields : Table} {m : Memory} (h : Holds V d fields m)
    {r : Nat} {more : Table} (hMore : Shows V r (.table more)) :
    ∃ m', update d r m = .ok () m' ∧ Holds V d (fields.merge more) m' ∧
      m'.without d = m.without d := by
  obtain ⟨es, hSource, hEntries⟩ := entriesOf_spec h.known hMore
  obtain ⟨m', hPut, hHolds, hSame⟩ := setItems_spec h hEntries
  refine ⟨m', ?_, hHolds, hSame⟩
  rw [update, bind_ok hSource]
  exact hPut

/-- A table that is new in memory holds its entries, which lie where they lay. -/
theorem holds_append {V : View} {m : Memory} (hKnown : V.Within m.view) {es : List (Value × Nat)}
    {fields : Table} (hEntries : ShowsAll V es fields) :
    Holds V m.length fields (m ++ [.dict es]) where
  known := hKnown.trans ((m.view_within _).trans (Memory.without_within _ _))
  apart := by
    cases hNew : V m.length with
    | none => rfl
    | some o => cases m.view_length.symm.trans (hKnown _ _ hNew)
  entries := ⟨es, List.getElem?_concat_length, hEntries⟩

/-- A table is made with the entries of another one, and nothing that was there changes. -/
theorem newDict_spec {V : View} {m : Memory} (hKnown : V.Within m.view) {r : Nat} {fields : Table}
    (h : Shows V r (.table fields)) :
    ∃ d m', newDict r m = .ok d m' ∧ Holds V d (Table.ofEntries fields) m' ∧
      m.view.Within (m'.without d) := by
  have hEmpty : Holds V m.length [] (m ++ [.dict []]) := holds_append hKnown trivial
  obtain ⟨m', hUpdate, hHolds, hSame⟩ := update_spec hEmpty h
  refine ⟨m.length, m', ?_, hHolds, ?_⟩
  · have hNew : allocate (.dict []) m = .ok m.length (m ++ [.dict []]) := rfl
    rw [newDict, bind_ok hNew, bind_ok hUpdate]
    rfl
  · rw [hSame]
    exact m.view_within _

/-- What a table has under a key is shown, or a new table that is empty. -/
theorem getOrEmpty_spec {V W : View} {m : Memory} {r : Nat} {es : List (Value × Nat)}
    {fields : Table} (hObject : m[r]? = some (.dict es)) (hEntries : ShowsAll V es fields)
    (hKnown : V.Within W) (hNew : W m.length = some (.dict [])) (key : String) :
    ∃ s, getOrEmpty r key m = .ok s (m ++ [.dict []]) ∧
      Shows W s (fields.getD key (.table [])) := by
  refine ⟨(refAt? key es).getD m.length, ?_, ?_⟩
  · have hEmpty : allocate (.dict []) m = .ok m.length (m ++ [.dict []]) := rfl
    have hThere : (m ++ [.dict []])[r]? = some (.dict es) :=
      Memory.without_within _ _ _ _ (m.view_within [.dict []] r _ hObject)
    rw [getOrEmpty, bind_ok hEmpty, bind_ok (look_of_some hThere)]
    rfl
  · have hFound := hEntries.refAt? key
    rw [Table.getD]
    cases hRef : refAt? key es with
    | none =>
        rw [hRef] at hFound
        cases hValue : fields.get? key with
        | none => exact ⟨[], hNew, trivial⟩
        | some v => rw [hValue] at hFound; cases hFound
    | some s =>
        rw [hRef] at hFound
        cases hValue : fields.get? key with
        | none => rw [hValue] at hFound; cases hFound
        | some v =>
            rw [hValue] at hFound
            cases hFound with
            | some hShows => exact hShows.mono hKnown

mutual

/-- A value that is put into memory is shown by new objects only. -/
theorem place_spec (v : Value) (m : Memory) :
    ∃ r more, place v m = .ok r (m ++ more) ∧ Shows ((m ++ more).since m.length) r v := by
  have hNew : ∀ more : Memory, ∀ o : Object,
      Memory.since (m ++ more ++ [o]) m.length (m ++ more).length = some o := by
    intro more o
    rw [Memory.since, if_neg (by simp), List.getElem?_concat_length]
  have hLeaf : ∀ o : Object, Memory.since (m ++ [o]) m.length m.length = some o := by
    simpa using hNew []
  cases v with
  | table fields =>
      obtain ⟨es, more, hAll, hEntries⟩ := placeAll_spec fields m
      refine ⟨(m ++ more).length, more ++ [.dict es], ?_, es, ?_, ?_⟩
      · rw [place, bind_ok hAll, allocate, List.append_assoc]
      · rw [← List.append_assoc]
        exact hNew more _
      · rw [← List.append_assoc]
        exact hEntries.mono (Memory.since_within _ _ (Nat.le_refl _))
  | _ => exact ⟨m.length, [.leaf _], rfl, hLeaf _⟩

theorem placeAll_spec (fields : List (Value × Value)) (m : Memory) :
    ∃ es more, placeAll fields m = .ok es (m ++ more) ∧
      ShowsAll ((m ++ more).since m.length) es fields := by
  match fields with
  | [] => exact ⟨[], [], by rw [List.append_nil]; rfl, trivial⟩
  | (k, v) :: rest =>
      obtain ⟨r, more, hFirst, hValue⟩ := place_spec v m
      obtain ⟨es, more', hRest, hEntries⟩ := placeAll_spec rest (m ++ more)
      refine ⟨(k, r) :: es, more ++ more', ?_, rfl, ?_, ?_⟩
      · rw [placeAll, bind_ok hFirst, bind_ok hRest, List.append_assoc]
        rfl
      · rw [← List.append_assoc]
        exact hValue.mono (Memory.since_within _ _ (Nat.le_refl _))
      · rw [← List.append_assoc]
        have hEarlier : m.length ≤ (m ++ more).length := by simp
        have hLater := Memory.since_within (m ++ more ++ more') [] hEarlier
        rw [List.append_nil] at hLater
        exact hEntries.mono hLater

end

end CircuitBench.Settings
