import CircuitBench.Proofs.Disk.Discarded
import CircuitBench.Temporary.Fresh
import Mathlib.Data.List.FinRange

/-!
# What is removed when a registry is cleaned up

Paths that are discarded one after another take away the places that they lead to, with all that
lies below, and nothing else.  A path whose place went with that of an earlier one finds nothing any
more when its turn comes; but then nothing is left to be taken away there either, so that the order
does not matter for what is left in the end, if the paths have no dots.  It matters for how many of
them are counted.

After a registry has been cleaned up, none of its paths leads to anything, also if the current
folder was among what was removed.  To clean up once more does nothing.

## Main results

* `Registry.get?_discardAll` : what is left when paths are discarded.
* `Registry.discardAll_fst` : how many are counted.
* `Registry.exists?_discardAll` : which paths still lead to something.
* `Bench.CleansUp` : what it means to clean up, and `Bench.cleansUp_of_straight`.
-/

namespace CircuitBench

open CircuitBench.Path Disk

namespace Registry

variable {d : Disk} {current : Location} {path : String} {paths : List String}

/-! ## Discarding -/

theorem discardAll_cons_fst (current : Location) (path : String) (rest : List String) (d : Disk) :
    (discardAll current (path :: rest) d).1 =
      (discardAll current rest (d.discard current path).2).1 +
        if d.exists? current path then 1 else 0 := by
  have hFirst : (discardAll current (path :: rest) d).1 =
      if (d.discard current path).1 then
        (discardAll current rest (d.discard current path).2).1 + 1
      else (discardAll current rest (d.discard current path).2).1 := rfl
  rw [hFirst, discard_fst]
  split <;> rfl

theorem discardAll_cons_snd (current : Location) (path : String) (rest : List String) (d : Disk) :
    (discardAll current (path :: rest) d).2 =
      (discardAll current rest (d.discard current path).2).2 := rfl

/-- The paths are counted that lead to something when their turn comes, on the disk that the ones
before them have left. -/
theorem discardAll_fst (current : Location) (paths : List String) (d : Disk) :
    (discardAll current paths d).1 = (List.finRange paths.length).countP fun i : Fin paths.length =>
      (discardAll current (paths.take i) d).2.exists? current paths[i] := by
  induction paths generalizing d with
  | nil => rfl
  | cons path rest ih =>
      rw [discardAll_cons_fst, ih]
      show _ = (List.finRange (rest.length + 1)).countP fun i : Fin (rest.length + 1) =>
        (discardAll current ((path :: rest).take i) d).2.exists? current (path :: rest)[i]
      rw [List.finRange_succ, List.countP_cons, List.countP_map]
      rfl

/-- Whether paths that lead to something take a place away: it is where one of them leads to, or
lies below. -/
def takes (d : Disk) (current : Location) (paths : List String) (m : Location) : Bool :=
  paths.any fun p => d.exists? current p && isBelow (resolve current p) m

theorem takes_eq_true {m : Location} : takes d current paths m = true ↔
    ∃ p ∈ paths, d.exists? current p = true ∧ isBelow (resolve current p) m = true := by
  rw [takes, List.any_eq_true]
  simp only [Bool.and_eq_true]

/-- What lies below a place that is taken away is taken away. -/
theorem takes_below {m n : Location} (h : takes d current paths m = true)
    (hBelow : isBelow m n = true) : takes d current paths n = true := by
  obtain ⟨p, hMem, hExists, hPlace⟩ := takes_eq_true.mp h
  exact takes_eq_true.mpr ⟨p, hMem, hExists, isBelow_trans hPlace hBelow⟩

section Straight

variable (hTree : d.IsTree) (hStraight : ∀ p ∈ paths, IsStraight p)

include hStraight

/-- When a place has been cleared, the paths that led there, or below, take nothing away any more;
but what they took away was below that place. -/
private theorem takes_of_clearedAt {l : Location} {d' : Disk} (hCleared : ClearedAt l d d')
    {m : Location} (hm : isBelow l m = false) :
    takes d' current paths m = takes d current paths m := by
  rw [Bool.eq_iff_iff, takes_eq_true, takes_eq_true]
  refine exists_congr fun p => and_congr_right fun hMem => and_congr_left fun hBelow => ?_
  have hKept : isBelow l (resolve current p) = false := by
    refine Bool.eq_false_iff.mpr fun hGone => ?_
    rw [isBelow_trans hGone hBelow] at hm
    cases hm
  rw [(hStraight p hMem).exists?_of_taken hCleared fun _ _ => isBelow_trans, hKept, Bool.not_false,
    Bool.and_true]

include hTree

/-- What is left when paths without dots are discarded: all but the places that they lead to, and
what lies below them. -/
theorem get?_discardAll (m : Location) :
    (discardAll current paths d).2.get? m =
      if takes d current paths m then none else d.get? m := by
  induction paths generalizing d with
  | nil => rfl
  | cons path rest ih =>
      obtain ⟨hFirst, hRest⟩ := List.forall_mem_cons.mp hStraight
      have hCons : takes d current (path :: rest) m =
          (d.exists? current path && isBelow (resolve current path) m ||
            takes d current rest m) := List.any_cons
      rw [discardAll_cons_snd, hCons]
      cases hExists : d.exists? current path with
      | false =>
          rw [discard_of_not_exists hExists, ih hTree hRest]
          rfl
      | true =>
          have hCleared := hFirst.clearedAt hTree hExists
          rw [ih (hCleared.isTree hTree) hRest, hCleared m]
          cases hBelow : isBelow (resolve current path) m with
          | true => exact ite_self none
          | false =>
              rw [takes_of_clearedAt hRest hCleared hBelow]
              rfl

/-- Of the paths without dots those lead to something still that led to something, and were not
taken away. -/
theorem exists?_discardAll (hPath : IsStraight path) :
    (discardAll current paths d).2.exists? current path =
      (d.exists? current path && !takes d current paths (resolve current path)) :=
  hPath.exists?_of_taken (get?_discardAll hTree hStraight) fun _ _ => takes_below

/-- None of the paths that were discarded leads to anything. -/
theorem not_exists?_discardAll (hMem : path ∈ paths) :
    (discardAll current paths d).2.exists? current path = false := by
  rw [exists?_discardAll hTree hStraight (hStraight path hMem)]
  cases hExists : d.exists? current path with
  | false => rfl
  | true =>
      rw [takes_eq_true.mpr ⟨path, hMem, hExists, isBelow_self _⟩]
      rfl

end Straight

end Registry

/-! ## Cleaning up -/

namespace Bench

open Registry

variable {b : Bench}

/-- The bench after it has been cleaned up. -/
def cleaned (b : Bench) : Bench :=
  { b.afterRemoval (discardAll b.current b.registry.paths.reverse b.disk).2 with
    registry := b.registry.emptied }

theorem cleanUp_eq (b : Bench) :
    cleanUp b = .ok (discardAll b.current b.registry.paths.reverse b.disk).1 b.cleaned := rfl

/-- To remove nothing more changes nothing more. -/
theorem afterRemoval_again (b : Bench) (disk : Disk) :
    (b.afterRemoval disk).afterRemoval disk = b.afterRemoval disk := by
  rw [afterRemoval, afterRemoval]
  by_cases hThere : disk.isFolderAt b.current = true
  · simp only [hThere, if_true]
  · simp only [hThere, if_false, ite_self, Bool.false_eq_true]

/-- To clean up once more does nothing. -/
theorem cleanUp_cleaned (b : Bench) : cleanUp b.cleaned = .ok 0 b.cleaned := by
  have hAgain : b.cleaned.cleaned = b.cleaned := by
    have hEmpty : b.cleaned.cleaned =
        { b.cleaned.afterRemoval b.cleaned.disk with registry := b.cleaned.registry } := rfl
    have hDisk := afterRemoval_again b (discardAll b.current b.registry.paths.reverse b.disk).2
    rw [hEmpty]
    exact congrArg (fun left : Bench => { left with registry := b.registry.emptied }) hDisk
  rw [cleanUp_eq, hAgain]
  rfl

/-- A path leads from the folder that is current after a removal to what it leads to from the one
that was current before. -/
theorem exists?_afterRemoval (b : Bench) {disk : Disk} (hNowhere : disk.get? nowhere = none)
    (path : String) :
    disk.exists? (b.afterRemoval disk).current path = disk.exists? b.current path := by
  have hCurrent : (b.afterRemoval disk).current =
      if disk.isFolderAt b.current then b.current else nowhere := rfl
  rw [hCurrent]
  split
  · rfl
  · rename_i hGone
    cases hAbsolute : isAbsolute path with
    | true => exact exists?_of_absolute hAbsolute _ _
    | false =>
        have hNone : disk.get? b.current ≠ some .folder := by
          simpa [isFolderAt] using hGone
        rw [not_exists_of_relative hAbsolute (by simp [hNowhere]),
          not_exists_of_relative hAbsolute hNone]

/-- What it means that a bench is cleaned up, with some number for an answer: none of the paths in
the registry leads to anything then; what lies neither at the place of one of them nor below is as
it was; the registry is empty; the answer is how many of the paths, the last registered first, led to
something on the disk that the ones before them had left, which are those that led to something at
the start, at no place that the ones before them take away; and to clean up once more does
nothing. -/
structure CleansUp (b : Bench) (count : Nat) (left : Bench) : Prop where
  gone : ∀ p ∈ b.registry.paths, left.disk.exists? left.current p = false
  kept : ∀ m, (∀ p ∈ b.registry.paths, isBelow (resolve b.current p) m = false) →
    left.disk.get? m = b.disk.get? m
  taken : ∀ m, left.disk.get? m =
    if takes b.disk b.current b.registry.paths.reverse m then none else b.disk.get? m
  paths : left.registry.paths = []
  seen : ∀ path, path ∉ left.registry.seen
  count : count = (List.finRange b.registry.paths.reverse.length).countP
    fun i : Fin b.registry.paths.reverse.length =>
      (discardAll b.current (b.registry.paths.reverse.take i) b.disk).2.exists? b.current
        b.registry.paths.reverse[i]
  reached : ∀ i : Fin b.registry.paths.reverse.length,
    (discardAll b.current (b.registry.paths.reverse.take i) b.disk).2.exists? b.current
        b.registry.paths.reverse[i] =
      (b.disk.exists? b.current b.registry.paths.reverse[i] &&
        !takes b.disk b.current (b.registry.paths.reverse.take i)
          (resolve b.current b.registry.paths.reverse[i]))
  again : cleanUp left = .ok 0 left

/-- A bench is cleaned up of paths without dots. -/
theorem cleansUp_of_straight (hTree : b.disk.IsTree) (hNowhere : b.disk.get? nowhere = none)
    (hStraight : ∀ p ∈ b.registry.paths, IsStraight p) :
    ∃ count, cleanUp b = .ok count b.cleaned ∧ CleansUp b count b.cleaned := by
  have hReverse : ∀ p ∈ b.registry.paths.reverse, IsStraight p :=
    fun p hp => hStraight p (List.mem_reverse.mp hp)
  have hTaken : ∀ m, (discardAll b.current b.registry.paths.reverse b.disk).2.get? m =
      if takes b.disk b.current b.registry.paths.reverse m then none else b.disk.get? m :=
    get?_discardAll hTree hReverse
  refine ⟨_, cleanUp_eq b, ?_, ?_, hTaken, rfl, ?_, discardAll_fst _ _ _, ?_, cleanUp_cleaned b⟩
  · intro p hp
    have hNone : (discardAll b.current b.registry.paths.reverse b.disk).2.get? nowhere = none := by
      rw [hTaken, hNowhere, ite_self]
    exact (exists?_afterRemoval b hNone p).trans
      (not_exists?_discardAll hTree hReverse (List.mem_reverse.mpr hp))
  · intro m hm
    have hNot : takes b.disk b.current b.registry.paths.reverse m = false := by
      refine Bool.eq_false_iff.mpr fun hTakes => ?_
      obtain ⟨p, hp, -, hBelow⟩ := takes_eq_true.mp hTakes
      rw [hm p (List.mem_reverse.mp hp)] at hBelow
      cases hBelow
    exact (hTaken m).trans (by rw [hNot]; rfl)
  · exact fun path => Std.TreeSet.not_mem_emptyc
  · intro i
    exact exists?_discardAll hTree (fun p hp => hReverse p (List.mem_of_mem_take hp))
      (hReverse _ (List.getElem_mem i.isLt))

end Bench

end CircuitBench
