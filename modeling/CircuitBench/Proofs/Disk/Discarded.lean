import CircuitBench.Proofs.Disk.Spared

/-!
# What a path leads to when others are discarded

What a path leads to depends on the places on its way and on nothing else.  So it stays the same as
long as none of these is taken away; and where less is left, no path leads to more.

A path without dots climbs nowhere: every place on its way lies around the one that it leads to.
When such a path leads to something, it is discarded with all that lies below, and then only the
paths do not lead there any more that led to that place or below.

## Main results

* `status_congr` : what a path leads to depends on the places on its way.
* `status_of_left` : where less is left, a path leads to nothing new.
* `discard_fst`, `discard_of_not_exists` : what is discarded was there.
* `IsStraight.exists?_of_taken` : which paths without dots lead to something when some places have
  been taken away with all that lies below.
-/

namespace CircuitBench.Disk

open CircuitBench.Path

variable {d d' : Disk} {current : Location} {path : String}

/-! ## The way of a path -/

theorem walk_congr {here : Location} {ns : List String}
    (h : ∀ m, Through here ns m → d'.get? m = d.get? m) : d'.walk here ns = d.walk here ns := by
  induction ns generalizing here with
  | nil => rfl
  | cons n rest ih =>
      have hRest : ∀ m, Through (step here n) rest m → d'.get? m = d.get? m := by
        rintro m ⟨front, hFront, rfl⟩
        exact h _ ⟨n :: front, List.cons_prefix_cons.mpr ⟨rfl, hFront⟩, rfl⟩
      rw [walk, walk, h here ⟨[], List.nil_prefix, rfl⟩]
      split
      · rename_i hEmpty
        rw [step, if_pos (.inl hEmpty)] at hRest
        exact ih hRest
      · rw [ih hRest]

/-- What a path leads to depends on the places on its way. -/
theorem status_congr (h : ∀ m, OnTheWay current path m → d'.get? m = d.get? m) :
    d'.status current path = d.status current path := by
  have hLocate : d'.locate current path = d.locate current path := by
    rw [locate, locate, walk_congr h]
  rw [status, status, hLocate]
  cases hPlace : d.locate current path with
  | error fault => rfl
  | ok place =>
      have hEnd : OnTheWay current path place.location :=
        ⟨names path, List.prefix_rfl, locate_eq_ok hPlace⟩
      dsimp only
      rw [h _ hEnd]

/-- Where less is left, a path leads to nothing new. -/
theorem status_of_left (hLeft : ∀ m node, d'.get? m = some node → d.get? m = some node)
    {result : Location × Node} (h : d'.status current path = .ok result) :
    d.status current path = .ok result := by
  rw [status] at h ⊢
  cases hPlace : d'.locate current path with
  | error fault =>
      rw [hPlace] at h
      cases h
  | ok place =>
      rw [hPlace] at h
      rw [locate_of_folders (fun m => hLeft m .folder) hPlace]
      dsimp only at h ⊢
      cases hNode : d'.get? place.location with
      | none =>
          rw [hNode] at h
          cases h
      | some node =>
          rw [hNode] at h
          rw [hLeft _ _ hNode]
          exact h

/-! ## What is there -/

/-- A path that leads to something can be followed. -/
theorem locate_of_status {result : Location × Node} (h : d.status current path = .ok result) :
    ∃ place, d.locate current path = .ok place := by
  rw [status] at h
  split at h
  · cases h
  · rename_i place hPlace
    exact ⟨place, hPlace⟩

theorem exists?_eq_true : d.exists? current path = true ↔
    ∃ l node, d.status current path = .ok (l, node) := by
  rw [exists?]
  cases d.status current path with
  | error fault =>
      refine iff_of_false Bool.false_ne_true ?_
      rintro ⟨l, node, h⟩
      cases h
  | ok result => exact iff_of_true rfl ⟨_, _, rfl⟩

theorem exists?_congr (h : ∀ m, OnTheWay current path m → d'.get? m = d.get? m) :
    d'.exists? current path = d.exists? current path := by
  rw [exists?, exists?, status_congr h]

theorem exists?_of_left (hLeft : ∀ m node, d'.get? m = some node → d.get? m = some node)
    (h : d'.exists? current path = true) : d.exists? current path = true := by
  obtain ⟨l, node, hStatus⟩ := exists?_eq_true.mp h
  exact exists?_eq_true.mpr ⟨l, node, status_of_left hLeft hStatus⟩

/-- An absolute path leads to the same from every folder. -/
theorem status_of_absolute (h : isAbsolute path = true) (a b : Location) :
    d.status a path = d.status b path := by
  rw [status, status, locate, locate, h]
  rfl

theorem exists?_of_absolute (h : isAbsolute path = true) (a b : Location) :
    d.exists? a path = d.exists? b path := by
  rw [exists?, exists?, status_of_absolute h a b]

theorem readFile_of_absolute (h : isAbsolute path = true) (a b : Location) :
    d.readFile a path = d.readFile b path := by
  rw [readFile, readFile, status_of_absolute h a b]

/-- A relative path leads to nothing where there is no folder to start from. -/
theorem not_exists_of_relative (h : isAbsolute path = false)
    (hNone : d.get? current ≠ some .folder) : d.exists? current path = false := by
  refine Bool.eq_false_iff.mpr fun hExists => ?_
  obtain ⟨l, node, hStatus⟩ := exists?_eq_true.mp hExists
  obtain ⟨place, hPlace⟩ := locate_of_status hStatus
  exact hNone (folder_of_relative hPlace h)

/-- A path is said to have led to something exactly if it did. -/
theorem discard_fst (d : Disk) (current : Location) (path : String) :
    (d.discard current path).1 = d.exists? current path := by
  rw [discard, exists?]
  split
  · rename_i hStatus
    rw [hStatus]
    rfl
  · rename_i hStatus
    rw [hStatus]
    rfl
  · rename_i hStatus
    rw [hStatus]
    rfl

/-- What is not there need not be discarded. -/
theorem discard_of_not_exists (h : d.exists? current path = false) :
    (d.discard current path).2 = d := by
  rw [discard]
  cases hStatus : d.status current path with
  | error fault => rfl
  | ok result =>
      rw [exists?_eq_true.mpr ⟨_, _, hStatus⟩] at h
      cases h

theorem IsTree.discard (hTree : d.IsTree) (current : Location) (path : String) :
    (d.discard current path).2.IsTree := by
  rw [Disk.discard]
  split
  · rw [clearFolder]
    split
    · exact hTree.removeTree _ _
    · exact hTree
  · rename_i hStatus
    have hFile := (status_eq_ok hStatus).2
    exact hTree.remove (by simp [hFile])
  · exact hTree

/-- Nothing is left at a place that was cleared but what was there. -/
theorem ClearedAt.left_of_some {l : Location} (h : ClearedAt l d d') (m : Location) (node : Node)
    (hm : d'.get? m = some node) : d.get? m = some node := by
  have hNot := (h.left (by rw [hm]; exact Option.some_ne_none _)).2
  rwa [h.get?_of_not_isBelow hNot] at hm

/-! ## Paths without dots -/

/-- Whether a path has no names of dots, and is not that of the root. -/
structure IsStraight (path : String) : Prop where
  noDots : ∀ n ∈ names path, n ≠ "." ∧ n ≠ ".."
  notRoot : isAbsolute path = true → ∃ n ∈ names path, n ≠ ""

namespace IsStraight

/-- Names that are not dots lead downwards. -/
private theorem follow_eq_append {ns : List String} (h : ∀ n ∈ ns, n ≠ "." ∧ n ≠ "..")
    (here : Location) : follow here ns = here ++ ns.filter (· != "") := by
  induction ns generalizing here with
  | nil => exact (List.append_nil here).symm
  | cons n rest ih =>
      obtain ⟨⟨hDot, hUp⟩, hRest⟩ := List.forall_mem_cons.mp h
      have hStep : follow here (n :: rest) = follow (step here n) rest := rfl
      rw [hStep, ih hRest]
      by_cases hEmpty : n = ""
      · rw [step, if_pos (.inl hEmpty), List.filter_cons, hEmpty]
        rfl
      · rw [step_plain ⟨hEmpty, hDot, hUp⟩, List.filter_cons, if_pos (bne_iff_ne.mpr hEmpty),
          List.append_assoc]
        rfl

/-- The places on the way lie around the one at its end. -/
theorem isBelow_of_onTheWay (h : IsStraight path) {m : Location} (hm : OnTheWay current path m) :
    isBelow m (resolve current path) = true := by
  obtain ⟨front, ⟨back, hNames⟩, rfl⟩ := hm
  have hBack : ∀ n ∈ back, n ≠ "." ∧ n ≠ ".." := by
    intro n hn
    exact h.noDots n (by rw [← hNames]; exact List.mem_append_right _ hn)
  rw [resolve, ← hNames, follow_append, follow_eq_append hBack]
  exact isBelow_append _ _

/-- A path that can be followed has a plain name at its end. -/
theorem of_locate (h : IsStraight path) {place : Place}
    (hPlace : d.locate current path = .ok place) :
    endsWithDots path = false ∧ resolve current path ≠ [] := by
  have hSome : (names path).filter (· != "") ≠ [] := by
    cases hAbsolute : isAbsolute path with
    | true =>
        obtain ⟨n, hMem, hNonempty⟩ := h.notRoot hAbsolute
        exact List.ne_nil_of_mem (List.mem_filter.mpr ⟨hMem, bne_iff_ne.mpr hNonempty⟩)
    | false => exact names_of_relative hAbsolute (locate_names hPlace).1
  constructor
  · rw [endsWithDots, List.getLast?_eq_some_getLast hSome]
    have hMem := (List.mem_filter.mp (List.getLast_mem hSome)).1
    obtain ⟨hDot, hUp⟩ := h.noDots _ hMem
    exact Bool.or_eq_false_iff.mpr ⟨beq_false_of_ne hDot, beq_false_of_ne hUp⟩
  · rw [resolve, follow_eq_append h.noDots]
    exact List.append_ne_nil_of_right_ne_nil _ hSome

/-- What such a path leads to is discarded with all that lies below. -/
theorem clearedAt (h : IsStraight path) (hTree : d.IsTree)
    (hExists : d.exists? current path = true) :
    ClearedAt (resolve current path) d (d.discard current path).2 := by
  obtain ⟨l, node, hStatus⟩ := exists?_eq_true.mp hExists
  obtain ⟨rfl, -⟩ := status_eq_ok hStatus
  obtain ⟨place, hPlace⟩ := locate_of_status hStatus
  obtain ⟨hDots, hInside⟩ := h.of_locate hPlace
  exact clearedAt_of_status hTree hStatus hDots hInside

/-- Of the paths that led to something, those do so still that do not lead to a place that has been
taken away. -/
theorem exists?_of_taken (h : IsStraight path) {taken : Location → Bool}
    (hTaken : ∀ m, d'.get? m = if taken m then none else d.get? m)
    (hBelow : ∀ m n, taken m = true → isBelow m n = true → taken n = true) :
    d'.exists? current path = (d.exists? current path && !taken (resolve current path)) := by
  cases hEnd : taken (resolve current path) with
  | true =>
      rw [Bool.not_true, Bool.and_false]
      refine Bool.eq_false_iff.mpr fun hExists => ?_
      obtain ⟨l, node, hStatus⟩ := exists?_eq_true.mp hExists
      obtain ⟨rfl, hNode⟩ := status_eq_ok hStatus
      rw [hTaken, hEnd] at hNode
      cases hNode
  | false =>
      rw [Bool.not_false, Bool.and_true]
      refine exists?_congr fun m hm => ?_
      have hKept : taken m = false := by
        refine Bool.eq_false_iff.mpr fun hGone => ?_
        rw [hBelow m _ hGone (h.isBelow_of_onTheWay hm)] at hEnd
        cases hEnd
      rw [hTaken, hKept]
      rfl

end IsStraight

end CircuitBench.Disk
