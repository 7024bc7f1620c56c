import CircuitBench.Sort.Merge

/-!
# Sorting by an order that may fail

Items are sorted by asking of two of them at a time whether one comes before the other.  Where that
is no question to ask, sorting fails with the failure of the first question that has no answer; so
it matters which questions are asked, and in which order.

The items are taken apart into runs that are in order already, or in the opposite order, and are
then turned round.  A run that is short is filled up with the items behind it, each put into its
place by halving.  Runs are merged as they are found, those with the middles closest to each other
first.  Equal items keep their order.

## Main results

* `sort_short` : a single item is sorted.
-/

namespace CircuitBench.Sort

variable {α ε : Type}

/-! ## Finding runs -/

/-- The number of items behind `last` that go on with a run in which each item is not before the one
in front of it. -/
def risingLength (before : Before α ε) (last : α) : List α → Except ε Nat
  | [] => .ok 0
  | x :: rest => do
    if ← before x last then return 0
    let more ← risingLength before x rest
    return more + 1

/-- The number of items behind `last` that go on with a run in which each item is before the one in
front of it. -/
def fallingLength (before : Before α ε) (last : α) : List α → Except ε Nat
  | [] => .ok 0
  | x :: rest => do
    if ← before x last then
      let more ← fallingLength before x rest
      return more + 1
    return 0

/-- The sorted run that items start with, and the items behind it. -/
def firstRun (before : Before α ε) : List α → Except ε (List α × List α)
  | x :: y :: rest => do
    if ← before y x then
      let more ← fallingLength before y rest
      return ((x :: y :: rest.take more).reverse, rest.drop more)
    let more ← risingLength before y rest
    return (x :: y :: rest.take more, rest.drop more)
  | few => .ok (few, [])

/-- Puts items into their places in a run, one after another. -/
def insertAll (before : Before α ε) (run : List α) : List α → Except ε (List α)
  | [] => .ok run
  | x :: rest => do
    let place ← halve (testAt (fun y => before x y) run.toArray) 0 run.length
    insertAll before (run.take place ++ x :: run.drop place) rest

/-- The length to which short runs are filled up, so that about a power of two of them make up the
whole. -/
def leastRun (count odd : Nat) : Nat :=
  if count < 64 then count + odd else leastRun (count / 2) (max odd (count % 2))
termination_by count

/-- The run that items start with, filled up to a length, and the items behind it. -/
def filledRun (before : Before α ε) (least : Nat) (items : List α) :
    Except ε (List α × List α) := do
  let (run, rest) ← firstRun before items
  if run.length < least then
    let filled ← insertAll before run (rest.take (least - run.length))
    return (filled, rest.drop (least - run.length))
  else return (run, rest)

/-! ## Merging runs -/

/-- A run with the number of items in front of it, and how early its border to the run behind it
divides the whole. -/
structure Run (α : Type) where
  offset : Nat
  items : List α
  rank : Nat

/-- The first binary place in which two fractions of a whole differ. -/
def rankOf (whole : Nat) : Nat → Nat → Nat → Nat
  | 0, _, _ => 1
  | places + 1, a, b =>
    if whole ≤ a then rankOf whole places (2 * (a - whole)) (2 * (b - whole)) + 1
    else if whole ≤ b then 1
    else rankOf whole places (2 * a) (2 * b) + 1

/-- The runs that wait to be merged, the last first, and the patience that merging has left. -/
structure Pending (α : Type) where
  runs : List (Run α)
  patience : Nat

/-- Merges two runs into one. -/
def joinRuns (before : Before α ε) (patience : Nat) (first second : Run α) :
    Except ε (Nat × Run α) := do
  let (patience, items) ← mergeRuns before patience first.items second.items
  return (patience, { first with items })

/-- Merges the last two runs for as long as the border between them divides the whole later than a
new border does. -/
def joinLater (before : Before α ε) (rank patience : Nat) :
    List (Run α) → Run α → Except ε (Pending α)
  | under :: below, top =>
    if rank < under.rank then do
      let (patience, joined) ← joinRuns before patience under top
      joinLater before rank patience below joined
    else .ok ⟨{ top with rank } :: under :: below, patience⟩
  | [], top => .ok ⟨[{ top with rank }], patience⟩

/-- Adds a run behind those that wait, merging some of these first. -/
def Pending.push (before : Before α ε) (whole : Nat) (p : Pending α) (items : List α) :
    Except ε (Pending α) := do
  match p.runs with
  | [] => return { p with runs := [⟨0, items, 0⟩] }
  | top :: below =>
    let a := 2 * top.offset + top.items.length
    let b := a + top.items.length + items.length
    let joined ← joinLater before (rankOf whole (whole + 1) a b) p.patience below top
    return { joined with runs := ⟨top.offset + top.items.length, items, 0⟩ :: joined.runs }

/-- Merges all runs that wait: the last two, or the two in front of the last one if that is the
longest. -/
def joinAll (before : Before α ε) : Nat → Pending α → Except ε (List α)
  | count + 1, ⟨top :: under :: third :: below, patience⟩ => do
    if third.items.length < top.items.length then
      let (patience, joined) ← joinRuns before patience third under
      joinAll before count ⟨top :: joined :: below, patience⟩
    else
      let (patience, joined) ← joinRuns before patience under top
      joinAll before count ⟨joined :: third :: below, patience⟩
  | _, ⟨[top, under], patience⟩ => do
    let (_, joined) ← joinRuns before patience under top
    return joined.items
  | _, p => .ok (p.runs.reverse.flatMap Run.items)

/-! ## Sorting -/

/-- Takes all runs off items, merging on the way. -/
def collectRuns (before : Before α ε) (whole least : Nat) :
    Nat → Pending α → List α → Except ε (Pending α)
  | _, p, [] => .ok p
  | 0, p, _ => .ok p
  | steps + 1, p, items => do
    let (run, rest) ← filledRun before least items
    let p ← p.push before whole run
    collectRuns before whole least steps p rest

/-- Sorts items by an order that may fail. -/
def sort (before : Before α ε) (items : List α) : Except ε (List α) :=
  match items with
  | [] => .ok []
  | [x] => .ok [x]
  | items => do
    let p ← collectRuns before items.length (leastRun items.length 0) items.length ⟨[], worthwhile⟩ items
    joinAll before p.runs.length p

/-! ## Laws -/

theorem sort_short (before : Before α ε) (x : α) : sort before [x] = .ok [x] := rfl

end CircuitBench.Sort
