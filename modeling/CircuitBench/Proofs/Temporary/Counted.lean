import CircuitBench.Proofs.Temporary.CleanedUp
import CircuitBench.Proofs.Temporary.Registered

/-!
# How many paths are counted when a registry is cleaned up

A path that is opened under a fresh name leads to a place where nothing has ever been.  So of two
paths in a registry, the one that was opened later does not lead to a place on the way of the other:
those places were there when it was opened.  Paths are removed in the reverse order, and therefore a
path that leads to something at the start still does so when its turn comes, even when paths were
opened inside of others.  This is what the order is for, and the number of paths that are removed is
that of the paths that led to something.

The history of a run is kept as the list of the benches that were passed.  One use of the registry is
one step; what a step keeps is that every place on the way of a path in the registry has been there
on one of these benches.

## Main results

* `discardAll_count` : how many paths are counted of which none lies on the way of an earlier one.
* `Traced.perform` : what one more use keeps.
* `cleanUp_counts` : what is removed by cleaning up, and how many paths are counted.
-/

namespace CircuitBench.Registry

open CircuitBench.Path Disk Bench

variable {home current : Location} {d d' : Disk} {path : String} {paths : List String}

/-! ## Paths from a folder -/

/-- Whether a path means what it means from a home folder, or nothing: it is absolute, or the current
folder is home, or there is no current folder. -/
def IsReadFrom (home current : Location) (d : Disk) (path : String) : Prop :=
  isAbsolute path = true ∨ current = home ∨ d.get? current ≠ some .folder

namespace IsReadFrom

theorem of_left (h : IsReadFrom home current d path)
    (hLeft : ∀ m node, d'.get? m = some node → d.get? m = some node) :
    IsReadFrom home current d' path :=
  h.imp_right fun hRest => hRest.imp_right fun hNone hFolder => hNone (hLeft _ _ hFolder)

/-- A path that can be followed is followed from where it is followed at home. -/
theorem start_eq (h : IsReadFrom home current d path) {place : Place}
    (hPlace : d.locate current path = .ok place) :
    (if isAbsolute path then [] else current) = if isAbsolute path then [] else home := by
  cases hAbsolute : isAbsolute path with
  | true => rfl
  | false =>
      rcases h with hTrue | rfl | hNone
      · rw [hAbsolute] at hTrue
        cases hTrue
      · rfl
      · exact absurd (folder_of_relative hPlace hAbsolute) hNone

theorem resolve_eq (h : IsReadFrom home current d path) {place : Place}
    (hPlace : d.locate current path = .ok place) : resolve current path = resolve home path := by
  rw [resolve, h.start_eq hPlace, resolve]

theorem onTheWay_eq (h : IsReadFrom home current d path) {place : Place}
    (hPlace : d.locate current path = .ok place) : OnTheWay current path = OnTheWay home path := by
  rw [OnTheWay, h.start_eq hPlace, OnTheWay]

/-- A path leads to as much as before if nothing on its way has been taken away. -/
theorem exists?_of_left (h : IsReadFrom home current d path)
    (hLeft : ∀ m node, d'.get? m = some node → d.get? m = some node)
    (hWay : ∀ m, OnTheWay home path m → d'.get? m = d.get? m) :
    d'.exists? current path = d.exists? current path := by
  cases hExists : d.exists? current path with
  | true =>
      obtain ⟨l, node, hStatus⟩ := exists?_eq_true.mp hExists
      obtain ⟨place, hPlace⟩ := locate_of_status hStatus
      rw [← hExists]
      refine exists?_congr fun m hm => hWay m ?_
      rwa [← h.onTheWay_eq hPlace]
  | false =>
      refine Bool.eq_false_iff.mpr fun hExists' => ?_
      rw [Disk.exists?_of_left hLeft hExists'] at hExists
      cases hExists

end IsReadFrom

/-! ## Counting -/

/-- Whether a path ends with a plain name, and leads to another place than the root. -/
def EndsPlainly (home : Location) (path : String) : Prop :=
  endsWithDots path = false ∧ resolve home path ≠ []

/-- Whether no place on the way of a path lies at or below the place of another one. -/
def KeepsOff (home : Location) (other path : String) : Prop :=
  ∀ m, OnTheWay home path m → isBelow (resolve home other) m = false

/-- Paths of which none is on the way of a later one are all counted that lead to something at the
start. -/
theorem discardAll_count (hTree : d.IsTree) (hRead : ∀ p ∈ paths, IsReadFrom home current d p)
    (hPlain : ∀ p ∈ paths, EndsPlainly home p) (hApart : paths.Pairwise (KeepsOff home)) :
    (discardAll current paths d).1 = paths.countP (d.exists? current) := by
  induction paths generalizing d with
  | nil => rfl
  | cons path rest ih =>
      obtain ⟨hReadFirst, hReadRest⟩ := List.forall_mem_cons.mp hRead
      obtain ⟨hPlainFirst, hPlainRest⟩ := List.forall_mem_cons.mp hPlain
      obtain ⟨hOff, hApartRest⟩ := List.pairwise_cons.mp hApart
      rw [discardAll_cons_fst, List.countP_cons]
      congr 1
      cases hExists : d.exists? current path with
      | false =>
          rw [discard_of_not_exists hExists]
          exact ih hTree hReadRest hPlainRest hApartRest
      | true =>
          obtain ⟨l, node, hStatus⟩ := exists?_eq_true.mp hExists
          obtain ⟨place, hPlace⟩ := locate_of_status hStatus
          have hEnd : l = resolve home path :=
            (status_eq_ok hStatus).1.trans (hReadFirst.resolve_eq hPlace)
          subst hEnd
          have hCleared := clearedAt_of_status hTree hStatus hPlainFirst.1 hPlainFirst.2
          have hLeft := hCleared.left_of_some
          rw [ih (hCleared.isTree hTree) (fun p hp => (hReadRest p hp).of_left hLeft) hPlainRest
            hApartRest]
          refine List.countP_congr fun p hp => ?_
          rw [(hReadRest p hp).exists?_of_left hLeft fun m hm =>
            hCleared.get?_of_not_isBelow (hOff p hp m hm)]

/-! ## Runs -/

/-- Whether a use neither registers a path by hand nor leaves something outside of folders. -/
def Use.IsOrderly : Use → Prop
  | track _ => False
  | elsewhere left => left.disk.IsTree
  | _ => True

/-- Whether the paths that are handed out by the uses of a registry have fresh names, given the
benches that were passed before: each leads, read from home, to a place where nothing was on any of
these benches, nor on the one at which it is opened. -/
def Use.AreFresh (home : Location) : List Bench → Bench → List Use → Prop
  | _, _, [] => True
  | past, b, use :: rest =>
    use.IsOrderly ∧
      (∀ path, (use.perform b).1 = .handed path →
        IsReadFrom home b.current b.disk path ∧
          ∀ stage ∈ b :: past, stage.disk.get? (resolve home path) = none) ∧
      AreFresh home (b :: past) (use.perform b).2 rest

/-- What holds at a bench with a history: every bench of it was a tree; every place on the way of a
path in the registry was there on one of them; such a path ends with a plain name; and the ones that
were registered later lead to no place on its way. -/
structure Traced (home : Location) (past : List Bench) (b : Bench) : Prop where
  tree : ∀ stage ∈ b :: past, stage.disk.IsTree
  way : ∀ p ∈ b.registry.paths, ∀ m, OnTheWay home p m →
    ∃ stage ∈ b :: past, stage.disk.get? m ≠ none
  plain : ∀ p ∈ b.registry.paths, EndsPlainly home p
  apart : b.registry.paths.Pairwise fun p q => KeepsOff home q p

namespace Traced

variable {past : List Bench} {b b' : Bench}

/-- At the start nothing is registered. -/
theorem start (hTree : b.disk.IsTree) (hEmpty : b.registry.paths = []) : Traced home [] b := by
  refine ⟨?_, ?_, ?_, ?_⟩
  · simpa using hTree
  · simp [hEmpty]
  · simp [hEmpty]
  · simp [hEmpty]

theorem forall_tree (h : Traced home past b) (hTree : b'.disk.IsTree) :
    ∀ stage ∈ b' :: b :: past, stage.disk.IsTree :=
  List.forall_mem_cons.mpr ⟨hTree, h.tree⟩

/-- The history goes on with a bench at which nothing more is registered. -/
theorem unregistered (h : Traced home past b) (hTree : b'.disk.IsTree)
    (hSame : b'.registry = b.registry) : Traced home (b :: past) b' := by
  refine ⟨h.forall_tree hTree, fun p hp m hm => ?_, ?_, ?_⟩
  · rw [hSame] at hp
    obtain ⟨stage, hMem, hThere⟩ := h.way p hp m hm
    exact ⟨stage, List.mem_cons_of_mem _ hMem, hThere⟩
  · rw [hSame]
    exact h.plain
  · rw [hSame]
    exact h.apart

/-- Or with one at which nothing is registered any more. -/
theorem cleared (h : Traced home past b) (hTree : b'.disk.IsTree)
    (hEmpty : b'.registry.paths = []) : Traced home (b :: past) b' := by
  refine ⟨h.forall_tree hTree, ?_, ?_, ?_⟩
  · simp [hEmpty]
  · simp [hEmpty]
  · simp [hEmpty]

/-- A fresh path keeps off the way of every path that is registered. -/
theorem keepsOff (h : Traced home past b)
    (hFresh : ∀ stage ∈ b :: past, stage.disk.get? (resolve home path) = none) :
    ∀ p ∈ b.registry.paths, KeepsOff home path p := by
  intro p hp m hm
  obtain ⟨stage, hMem, hThere⟩ := h.way p hp m hm
  have hFree := hFresh stage hMem
  refine Bool.eq_false_iff.mpr fun hBelow => hThere ?_
  by_cases hSame : m = resolve home path
  · rw [hSame, hFree]
  · exact (h.tree stage hMem).get?_of_isBelow (by simp [hFree]) hBelow hSame

/-- The history goes on with a bench at which a fresh path has been opened. -/
theorem opened (h : Traced home past b) {n : Nat} {l : Location} {node : Node} {d : Disk}
    (hOpens : Opens b path n l node d) (hRead : IsReadFrom home b.current b.disk path)
    (hFresh : ∀ stage ∈ b :: past, stage.disk.get? (resolve home path) = none) :
    Traced home (b :: past) (b.withOpened path n d) := by
  have hTree := h.tree b List.mem_cons_self
  have hEnd : l = resolve home path :=
    (locate_eq_ok hOpens.place).trans (hRead.resolve_eq hOpens.place)
  have hPlain : EndsPlainly home path :=
    ⟨not_endsWithDots_of_free hTree hOpens.place hOpens.free, hEnd ▸ hOpens.inside⟩
  have hOff := h.keepsOff hFresh
  -- the places on the way of the new path are folders at the bench, or have just been taken
  have hWay : ∀ m, OnTheWay home path m →
      ∃ stage ∈ b.withOpened path n d :: b :: past, stage.disk.get? m ≠ none := by
    intro m hm
    rw [← hRead.onTheWay_eq hOpens.place] at hm
    rcases onTheWay_cases hOpens.place hm with hLast | hFolder
    · refine ⟨_, List.mem_cons_self, ?_⟩
      have hPut : (b.withOpened path n d).disk = b.disk.put l node := hOpens.disk
      rw [hPut, hLast, get?_put_self _ hOpens.inside]
      exact Option.some_ne_none node
    · refine ⟨b, List.mem_cons_of_mem _ List.mem_cons_self, ?_⟩
      rw [hFolder]
      exact Option.some_ne_none _
  have hOld : ∀ p ∈ b.registry.paths, ∀ m, OnTheWay home p m →
      ∃ stage ∈ b.withOpened path n d :: b :: past, stage.disk.get? m ≠ none := by
    intro p hp m hm
    obtain ⟨stage, hMem, hThere⟩ := h.way p hp m hm
    exact ⟨stage, List.mem_cons_of_mem _ hMem, hThere⟩
  have hPaths : (b.withOpened path n d).registry.paths = b.registry.paths ∨
      (b.withOpened path n d).registry.paths = b.registry.paths ++ [path] := by
    rw [withOpened, Registry.track]
    split
    · exact .inl rfl
    · exact .inr rfl
  have hNow : ∀ stage ∈ b.withOpened path n d :: b :: past, stage.disk.IsTree :=
    h.forall_tree (hOpens.growsTo.tree hTree)
  rcases hPaths with hPaths | hPaths
  · refine ⟨hNow, ?_, ?_, ?_⟩
    · rwa [hPaths]
    · rw [hPaths]
      exact h.plain
    · rw [hPaths]
      exact h.apart
  · refine ⟨hNow, ?_, ?_, ?_⟩
    · rw [hPaths, List.forall_mem_append, List.forall_mem_singleton]
      exact ⟨hOld, hWay⟩
    · rw [hPaths, List.forall_mem_append, List.forall_mem_singleton]
      exact ⟨h.plain, hPlain⟩
    · rw [hPaths, List.pairwise_append]
      refine ⟨h.apart, List.pairwise_singleton _ _, fun p hp q hq => ?_⟩
      rw [List.mem_singleton.mp hq]
      exact hOff p hp

theorem disk_discardAll (hTree : d.IsTree) (current : Location) (paths : List String) :
    (discardAll current paths d).2.IsTree := by
  induction paths generalizing d with
  | nil => exact hTree
  | cons path rest ih => exact ih (hTree.discard current path)

/-- The history goes on with one more use of the registry. -/
theorem perform (h : Traced home past b) {use : Use} (hOrderly : use.IsOrderly)
    (hFresh : ∀ path, (use.perform b).1 = .handed path →
      IsReadFrom home b.current b.disk path ∧
        ∀ stage ∈ b :: past, stage.disk.get? (resolve home path) = none) :
    Traced home (b :: past) (use.perform b).2 := by
  have hTree := h.tree b List.mem_cons_self
  have hCleaned : b.cleaned.disk.IsTree := disk_discardAll hTree _ _
  cases use with
  | track path => exact hOrderly.elim
  | openFile lead ending asked =>
      rcases openFile_cases lead ending asked b with
        ⟨path, n, l, d, hOpens, -, -, hEnd⟩ | ⟨e, n, -, hEnd⟩
      · rw [Use.perform, hEnd] at hFresh ⊢
        obtain ⟨hRead, hNever⟩ := hFresh path rfl
        exact h.opened hOpens hRead hNever
      · rw [Use.perform, hEnd]
        exact h.unregistered hTree rfl
  | openFolder lead asked =>
      rcases openFolder_cases lead asked b with
        ⟨path, n, l, d, hOpens, -, hEnd⟩ | ⟨e, n, -, hEnd⟩
      · rw [Use.perform, hEnd] at hFresh ⊢
        obtain ⟨hRead, hNever⟩ := hFresh path rfl
        exact h.opened hOpens hRead hNever
      · rw [Use.perform, hEnd]
        exact h.unregistered hTree rfl
  | cleanUp => exact h.cleared hCleaned rfl
  | enter => exact h.unregistered hTree rfl
  | leave ending =>
      have hLeft : (Use.perform b (.leave ending)).2 = b.cleaned := by
        rw [Use.perform, withCleanUp, endState_ensuring]
        cases ending <;> rfl
      rw [hLeft]
      exact h.cleared hCleaned rfl
  | elsewhere left => exact h.unregistered hOrderly rfl

/-- And so it does with any number of uses. -/
theorem performAll (h : Traced home past b) {uses : List Use}
    (hFresh : Use.AreFresh home past b uses) :
    ∃ before, Traced home before (Use.performAll b uses).2 := by
  induction uses generalizing past b with
  | nil => exact ⟨past, h⟩
  | cons use rest ih =>
      obtain ⟨hOrderly, hHanded, hRest⟩ := hFresh
      exact ih (h.perform hOrderly hHanded) hRest

/-- All paths in the registry are counted that lead to something when it is cleaned up. -/
theorem count_eq (h : Traced home past b)
    (hRead : ∀ p ∈ b.registry.paths, IsReadFrom home b.current b.disk p) :
    (discardAll b.current b.registry.paths.reverse b.disk).1 =
      b.registry.paths.countP (b.disk.exists? b.current) := by
  rw [← List.countP_reverse]
  exact discardAll_count (h.tree b List.mem_cons_self)
    (fun p hp => hRead p (List.mem_reverse.mp hp)) (fun p hp => h.plain p (List.mem_reverse.mp hp))
    (List.pairwise_reverse.mpr h.apart)

end Traced

/-- What is removed when a bench is cleaned up of paths without dots.  And if paths have entered the
registry only by being opened under fresh names, as many of them are counted as lead to something
before, dots or no dots; to clean up once more then does nothing either. -/
theorem cleanUp_counts :
    (∀ b : Bench, b.disk.IsTree → b.disk.get? nowhere = none →
      (∀ p ∈ b.registry.paths, IsStraight p) →
      ∃ count left, Bench.cleanUp b = .ok count left ∧ CleansUp b count left) ∧
    ∀ (home : Location) (b : Bench) (uses : List Use),
      b.disk.IsTree → b.registry.paths = [] → Use.AreFresh home [] b uses →
      let left := (Use.performAll b uses).2
      (∀ p ∈ left.registry.paths, IsReadFrom home left.current left.disk p) →
      ∃ left', Bench.cleanUp left =
          .ok (left.registry.paths.countP (left.disk.exists? left.current)) left' ∧
        Bench.cleanUp left' = .ok 0 left' := by
  constructor
  · intro b hTree hNowhere hStraight
    obtain ⟨count, hEnd, hCleans⟩ := cleansUp_of_straight hTree hNowhere hStraight
    exact ⟨count, b.cleaned, hEnd, hCleans⟩
  · intro home b uses hTree hEmpty hFresh left hRead
    obtain ⟨past, hTraced⟩ := (Traced.start hTree hEmpty).performAll hFresh
    refine ⟨left.cleaned, ?_, cleanUp_cleaned left⟩
    rw [cleanUp_eq, hTraced.count_eq hRead]

/-- A bench with a temporary folder. -/
def tidyBench : Bench :=
  { disk := ⟨[(["tmp"], .folder), (["tmp", "kept"], .file [])]⟩ }

/-- A bench at which a file is registered, the folder around it, a path that leads to nothing, and a
file by the path of a folder. -/
def crowdedBench : Bench :=
  { disk := ⟨tidyBench.disk.nodes ++
      [(["tmp", "d"], .folder), (["tmp", "d", "x"], .file []), (["tmp", "y"], .file [])]⟩
    registry := ["/tmp/d/x", "tmp/d", "/tmp/z", "/tmp/y/"].foldl Registry.track {} }

/-- The bench at which a folder has been opened, a file in it, and another folder, of which the last
one has been removed by others. -/
def plunderedBench : Bench :=
  { disk := ⟨tidyBench.disk.nodes ++
      [(["tmp", "dk0000000"], .folder), (["tmp", "dk0000000", "fk0000001.txt"], .file [])]⟩ }

/-- The run in which that happens. -/
def nestedUses : List Use :=
  [.openFolder "d" none, .openFile "f" ".txt" (some "/tmp/dk0000000"), .openFolder "e" none,
    .elsewhere plunderedBench]

/-- The paths that are opened have fresh names. -/
theorem areFresh_nestedUses : Use.AreFresh [] [] tidyBench nestedUses := by
  have hOnly : ∀ {mark : Mark} {path : String} {stages : List Bench}, mark = .handed path →
      isAbsolute path = true → (∀ stage ∈ stages, stage.disk.get? (resolve [] path) = none) →
      ∀ {b : Bench} (other : String), mark = .handed other →
        IsReadFrom [] b.current b.disk other ∧
          ∀ stage ∈ stages, stage.disk.get? (resolve [] other) = none := by
    intro mark path stages hMark hAbsolute hNever b other hOther
    cases hMark.symm.trans hOther
    exact ⟨.inl hAbsolute, hNever⟩
  have hFolder : (Use.perform tidyBench (.openFolder "d" none)).1 = .handed "/tmp/dk0000000" := by
    decide +kernel
  let b₁ := (Use.perform tidyBench (.openFolder "d" none)).2
  have hFile : (Use.perform b₁ (.openFile "f" ".txt" (some "/tmp/dk0000000"))).1 =
      .handed "/tmp/dk0000000/fk0000001.txt" := by
    decide +kernel
  let b₂ := (Use.perform b₁ (.openFile "f" ".txt" (some "/tmp/dk0000000"))).2
  have hOther : (Use.perform b₂ (.openFolder "e" none)).1 = .handed "/tmp/ek0000002" := by
    decide +kernel
  have hFirst : ∀ stage ∈ [tidyBench],
      stage.disk.get? (resolve [] "/tmp/dk0000000") = none := by
    decide +kernel
  have hSecond : ∀ stage ∈ [b₁, tidyBench],
      stage.disk.get? (resolve [] "/tmp/dk0000000/fk0000001.txt") = none := by
    decide +kernel
  have hThird : ∀ stage ∈ [b₂, b₁, tidyBench],
      stage.disk.get? (resolve [] "/tmp/ek0000002") = none := by
    decide +kernel
  refine ⟨trivial, hOnly hFolder (by decide) hFirst, ?_⟩
  refine ⟨trivial, hOnly hFile (by decide) hSecond, ?_⟩
  refine ⟨trivial, hOnly hOther (by decide) hThird, ?_⟩
  refine ⟨isTree_of_nodes (by decide), ?_, trivial⟩
  intro path hPath
  cases hPath

/-- A bench that is cleaned up of paths without dots, and one that is cleaned up after a run: of
three paths that were opened two are left, one of them inside of the other, and both are counted. -/
theorem cleanUp_counts_nested :
    (∃ count left, Bench.cleanUp crowdedBench = .ok count left ∧ CleansUp crowdedBench count left) ∧
      ∃ left', Bench.cleanUp (Use.performAll tidyBench nestedUses).2 = .ok 2 left' ∧
        Bench.cleanUp left' = .ok 0 left' := by
  have hPaths : crowdedBench.registry.paths = ["/tmp/d/x", "tmp/d", "/tmp/z", "/tmp/y/"] := by
    decide +kernel
  have hStraight : ∀ p ∈ crowdedBench.registry.paths, IsStraight p := by
    rw [hPaths]
    simp only [List.forall_mem_cons]
    refine ⟨⟨?_, ?_⟩, ⟨?_, ?_⟩, ⟨?_, ?_⟩, ⟨?_, ?_⟩, fun _ h => absurd h List.not_mem_nil⟩ <;>
      decide +kernel
  refine ⟨cleanUp_counts.1 crowdedBench (isTree_of_nodes (by decide)) rfl hStraight, ?_⟩
  have hCount : (Use.performAll tidyBench nestedUses).2.registry.paths.countP
      ((Use.performAll tidyBench nestedUses).2.disk.exists?
        (Use.performAll tidyBench nestedUses).2.current) = 2 := by
    decide +kernel
  have hTree : tidyBench.disk.IsTree := isTree_of_nodes (by decide)
  have hHome : (Use.performAll tidyBench nestedUses).2.current = [] := by decide +kernel
  have hEnd := cleanUp_counts.2 [] tidyBench nestedUses hTree rfl areFresh_nestedUses
    fun p _ => .inr (.inl hHome)
  rw [← hCount]
  exact hEnd

end CircuitBench.Registry
