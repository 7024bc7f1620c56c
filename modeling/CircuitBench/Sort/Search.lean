/-!
# Searching among sorted items

Where something belongs among sorted items is the number of the first item that comes after it.
Asking whether an item comes after may fail, and then so does the search; so it is part of a search
which items it asks about, and in which order.  One search halves what is left.  The other starts at
a guess and strides away from it, each stride about twice as long as the one before, until it has
gone too far, and halves only the last stride.

## Main results

* `halve_le` : a place found by halving lies between the bounds.
-/

namespace CircuitBench.Sort

variable {ε : Type}

/-- The first number from `low` on, but not beyond `high`, for which a test holds, found by
halving. -/
def halve (isAfter : Nat → Except ε Bool) (low high : Nat) : Except ε Nat :=
  if low < high then
    match isAfter (low + (high - low) / 2) with
    | .error e => .error e
    | .ok true => halve isAfter low (low + (high - low) / 2)
    | .ok false => halve isAfter (low + (high - low) / 2 + 1) high
  else .ok low
termination_by high - low

/-- Lengthens a stride while the items at its end are passed, but not beyond a limit: the longest
stride that is known to pass, and the one that is too long. -/
def stride (passes : Nat → Except ε Bool) (limit passed length : Nat) : Except ε (Nat × Nat) :=
  if length < limit then
    match passes length with
    | .error e => .error e
    | .ok true => stride passes limit length (2 * length + 1)
    | .ok false => .ok (passed, length)
  else .ok (passed, limit)
termination_by limit - length

/-- The first of `count` numbers for which a test holds, or `count`, found from a guess. -/
def searchFrom (isAfter : Nat → Except ε Bool) (count guess : Nat) : Except ε Nat :=
  match isAfter guess with
  | .error e => .error e
  | .ok false =>
    match stride (fun k => (isAfter (guess + k)).map not) (count - guess) 0 1 with
    | .error e => .error e
    | .ok (passed, length) => halve isAfter (guess + passed + 1) (guess + length)
  | .ok true =>
    match stride (fun k => isAfter (guess - k)) (guess + 1) 0 1 with
    | .error e => .error e
    | .ok (passed, length) => halve isAfter (guess + 1 - length) (guess - passed)

/-! ## Laws -/

theorem halve_le {isAfter : Nat → Except ε Bool} {low high n : Nat} (hle : low ≤ high)
    (h : halve isAfter low high = .ok n) : low ≤ n ∧ n ≤ high := by
  fun_induction halve isAfter low high with
  | case1 => exact nomatch h
  | case2 low high _ _ ih =>
    have := ih (by omega) h
    omega
  | case3 low high _ _ ih =>
    have := ih (by omega) h
    omega
  | case4 low high _ =>
    cases h
    omega

end CircuitBench.Sort
