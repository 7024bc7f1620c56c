import CircuitBench.Sort.Search

/-!
# Merging two sorted runs

Two runs that stand next to each other are merged into one.  Items that are in their places already,
at the start of the first run and at the end of the second, are left out; the rest is merged from
the end at which the shorter run lies, so that only that run has to make room.  Of items that are
equal, those of the first run come first.

A merge compares item by item.  When one run has won several times in a row, it is searched for how
far it goes on winning; this is kept up as long as it pays, and how soon it is tried again depends
on how well it paid.

## Main results

* `takeFirst_perm`, `takeSecond_perm` : no item is lost on the way from a run to its place.
* `result_perm` : nor at the end.
-/

namespace CircuitBench.Sort

variable {α ε : Type}

/-- Whether one item comes before another, which may be no question to ask. -/
abbrev Before (α ε : Type) := α → α → Except ε Bool

/-- The end of the runs at which a merge begins. -/
inductive Start
  | front
  | back
deriving DecidableEq, Repr

/-! ## Merges in progress -/

/-- A merge in progress: what is left of the two runs, in the order in which it will be taken, and
what has been placed, the last first. -/
structure Merging (α : Type) where
  first : List α
  second : List α
  placed : List α

namespace Merging

/-- Places items of the first run. -/
def takeFirst (m : Merging α) (count : Nat) : Merging α :=
  { m with first := m.first.drop count, placed := (m.first.take count).reverse ++ m.placed }

/-- Places items of the second run. -/
def takeSecond (m : Merging α) (count : Nat) : Merging α :=
  { m with second := m.second.drop count, placed := (m.second.take count).reverse ++ m.placed }

/-- Whether the place of all that is left is known: one run has come to its end, or the shorter one
to its last item, which is known to come last. -/
def isDone (m : Merging α) : Start → Bool
  | .front => m.second.isEmpty || m.first.length ≤ 1
  | .back => m.first.isEmpty || m.second.length ≤ 1

/-- The merged run, once the place of all that is left is known. -/
def result (m : Merging α) : Start → List α
  | .front => m.placed.reverse ++ (m.second ++ m.first)
  | .back => (m.placed.reverse ++ (m.first ++ m.second)).reverse

/-- All items of a merge. -/
def items (m : Merging α) : List α :=
  m.first ++ m.second ++ m.placed

end Merging

/-! ## Searching runs -/

/-- A test of the items of a list, by number. -/
def testAt (test : α → Except ε Bool) (items : Array α) (n : Nat) : Except ε Bool :=
  match items[n]? with
  | some x => test x
  | none => .ok true

/-- How many items of a run, in the order in which they are taken, are not separated by a test from
the one taken next: those that do not come after, at the front, and those that do, at the back. -/
def countFrom (start : Start) (isAfter : α → Except ε Bool) (run : List α) : Except ε Nat :=
  match start with
  | .front => searchFrom (testAt isAfter run.toArray) run.length 0
  | .back =>
    (searchFrom (testAt isAfter run.reverse.toArray) run.length (run.length - 1)).map fun n => run.length - n

/-! ## Merging -/

/-- The least number of items in a row for which searching pays. -/
def worthwhile : Nat := 7

/-- Places items one by one until the merge is done or a run has won as often in a row as `patience`
says.  The wins in a row so far are counted. -/
def alternate (before : Before α ε) (start : Start) (patience : Nat) :
    Nat → Nat → Nat → Merging α → Except ε (Merging α)
  | 0, _, _, m => .ok m
  | steps + 1, firstWins, secondWins, m =>
    match m.first, m.second with
    | x :: _, y :: _ => do
      let isBefore ← before y x
      if isBefore = decide (start = .front) then
        let m := m.takeSecond 1
        if m.isDone start ∨ patience ≤ secondWins + 1 then return m
        else alternate before start patience steps 0 (secondWins + 1) m
      else
        let m := m.takeFirst 1
        if m.isDone start ∨ patience ≤ firstWins + 1 then return m
        else alternate before start patience steps (firstWins + 1) 0 m
    | _, _ => .ok m

/-- Places as many items of the first run at once as come before the second run, and then one of the
second; and the other way round.  This is kept up while it pays.  Gives the patience that is
left. -/
def searching (before : Before α ε) (start : Start) :
    Nat → Nat → Merging α → Except ε (Nat × Merging α)
  | 0, patience, m => .ok (patience, m)
  | steps + 1, patience, m =>
    let patience := if 1 < patience then patience - 1 else patience
    match m.second with
    | [] => .ok (patience, m)
    | y :: _ => do
      let firstCount ← countFrom start (fun x => before y x) m.first
      let m := m.takeFirst firstCount
      if 0 < firstCount ∧ m.isDone start then return (patience, m)
      let m := m.takeSecond 1
      if m.isDone start then return (patience, m)
      match m.first with
      | [] => return (patience, m)
      | x :: _ =>
        let secondCount ← countFrom start (fun z => (before z x).map not) m.second
        let m := m.takeSecond secondCount
        if 0 < secondCount ∧ m.isDone start then return (patience, m)
        let m := m.takeFirst 1
        if m.isDone start then return (patience, m)
        if firstCount < worthwhile ∧ secondCount < worthwhile then return (patience + 1, m)
        else searching before start steps patience m

/-- Goes on with a merge until it is done. -/
def advance (before : Before α ε) (start : Start) :
    Nat → Nat → Merging α → Except ε (Nat × Merging α)
  | 0, patience, m => .ok (patience, m)
  | steps + 1, patience, m => do
    if m.isDone start then return (patience, m)
    let m ← alternate before start patience (steps + 1) 0 0 m
    if m.isDone start then return (patience, m)
    let (patience, m) ← searching before start (steps + 1) (patience + 1) m
    advance before start steps patience m

/-- Merges two runs of which the second one starts before all of the first and the first one ends
after all of the second. -/
def mergeFrom (before : Before α ε) (start : Start) (patience : Nat) (first second : List α) :
    Except ε (Nat × List α) := do
  let m : Merging α :=
    match start with
    | .front => Merging.takeSecond ⟨first, second, []⟩ 1
    | .back => Merging.takeFirst ⟨first.reverse, second.reverse, []⟩ 1
  let (patience, m) ← advance before start (first.length + second.length) patience m
  return (patience, m.result start)

/-- Merges two runs, the second of which stands behind the first. -/
def mergeRuns (before : Before α ε) (patience : Nat) (first second : List α) :
    Except ε (Nat × List α) :=
  match second.head? with
  | none => .ok (patience, first)
  | some head => do
    let settled ← searchFrom (testAt (fun x => before head x) first.toArray) first.length 0
    let rest := first.drop settled
    match rest.getLast? with
    | none => return (patience, first ++ second)
    | some last =>
      let mixed ← searchFrom (testAt (fun y => (before y last).map not) second.toArray) second.length
        (second.length - 1)
      if mixed = 0 then return (patience, first ++ second)
      let start := if rest.length ≤ mixed then Start.front else Start.back
      let (patience, merged) ← mergeFrom before start patience rest (second.take mixed)
      return (patience, first.take settled ++ merged ++ second.drop mixed)

/-! ## Laws -/

theorem Merging.takeFirst_perm (m : Merging α) (count : Nat) :
    (m.takeFirst count).items.Perm m.items := by
  simp only [items, takeFirst]
  have h : (m.first.drop count ++ (m.first.take count).reverse).Perm m.first :=
    (List.Perm.append_left _ (List.reverse_perm _)).trans
      (List.perm_append_comm.trans (by rw [List.take_append_drop]))
  rw [← List.append_assoc]
  refine List.Perm.append_right _ ?_
  rw [List.append_assoc]
  refine (List.Perm.append_left _ List.perm_append_comm).trans ?_
  rw [← List.append_assoc]
  exact List.Perm.append_right _ h

theorem Merging.takeSecond_perm (m : Merging α) (count : Nat) :
    (m.takeSecond count).items.Perm m.items := by
  simp only [items, takeSecond]
  have h : (m.second.drop count ++ (m.second.take count).reverse).Perm m.second :=
    (List.Perm.append_left _ (List.reverse_perm _)).trans
      (List.perm_append_comm.trans (by rw [List.take_append_drop]))
  rw [← List.append_assoc]
  refine List.Perm.append_right _ ?_
  rw [List.append_assoc]
  exact List.Perm.append_left _ h

theorem Merging.result_perm (m : Merging α) (start : Start) : (m.result start).Perm m.items := by
  have hfront : (m.placed.reverse ++ (m.second ++ m.first)).Perm m.items :=
    (List.Perm.append (List.reverse_perm _) List.perm_append_comm).trans List.perm_append_comm
  have hback : (m.placed.reverse ++ (m.first ++ m.second)).Perm m.items :=
    (List.Perm.append_right _ (List.reverse_perm _)).trans List.perm_append_comm
  cases start
  · exact hfront
  · exact (List.reverse_perm _).trans hback

end CircuitBench.Sort
