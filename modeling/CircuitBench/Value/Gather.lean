import CircuitBench.Value.Basic

/-!
# Gathering values into a set

A set holds each of its members once, and lists them in the order of the slots they lie in.  There
are always a power of two slots.  A member's hash says where the search for a free slot starts; the
search looks at a run of neighbours, and then jumps by a rule that uses up the upper bits of the
hash.  Once three fifths of the slots are taken, the members move to more slots, in the order in
which they lay.

The hash of a number depends on its value alone: it is the residue modulo the prime `2 ^ 61 - 1`, in
which halving is possible, so that fractions have one too.  Hashes are words of 64 bits; a negative
one is kept as its complement.

Texts and the like have hashes that nobody can foresee.  A set that holds such a member lists its
members in the order in which they came.

## Main results

* `length_place` : placing a member leaves as many slots.
* `gather_of_unknown` : members without a known hash are listed as they came.
-/

namespace CircuitBench.Value

open Number

/-! ## Hashes -/

/-- How many hashes there are. -/
def wordCount : Nat := 0x10000000000000000

/-- The prime that numbers are reduced by. -/
def hashPrime : Nat := 0x1FFFFFFFFFFFFFFF

/-- The hash of a residue with a sign.  Minus one is no hash, as it would say that there is none. -/
def signedHash (negative : Bool) (residue : Nat) : Nat :=
  if negative then if residue = 1 then wordCount - 2 else (wordCount - residue) % wordCount
  else residue

/-- The hash of an integer. -/
def integerHash (n : Int) : Nat :=
  signedHash (n < 0) (n.natAbs % hashPrime)

/-- The hash of a floating-point number.  The powers of two recur after sixty-one. -/
def floatingHash? : Binary → Option Nat
  | .finite negative m e => some (signedHash negative (m * Nat.pow 2 (e % 61).toNat % hashPrime))
  | .infinite negative => some (signedHash negative 314159)
  | .nan => none

/-- Mixes the hash of one more part into that of the parts before it. -/
def mixHash (sofar part : Nat) : Nat :=
  let sum := (sofar + part * 14029467366897019727) % wordCount
  let turned := sum * 0x80000000 % wordCount + sum / 0x200000000
  turned * 11400714785074694791 % wordCount

/-- The hash of a sequence that cannot change, from those of its parts. -/
def sequenceHash (parts : List Nat) : Nat :=
  let start := 2870177450012600261
  let mixed := (parts.foldl mixHash start + (parts.length ^^^ (start ^^^ 3527539))) % wordCount
  if mixed = wordCount - 1 then 1546275796 else mixed

mutual

/-- The hash of a value, where it can be foreseen. -/
def hash? : Value → Option Nat
  | bool b => some b.toNat
  | int n => some (integerHash n)
  | float x => floatingHash? x
  | boolCell b => some b.toNat
  | integerCell _ n => some (integerHash n)
  | floatCell _ x => floatingHash? x
  | tuple items => (hashes? items).map sequenceHash
  | text s => if s.isEmpty then some 0 else none
  | textCell s => if s.isEmpty then some 0 else none
  | bytes bs => if bs.isEmpty then some 0 else none
  | _ => none

/-- The hashes of some values, where all can be foreseen. -/
def hashes? : List Value → Option (List Nat)
  | [] => some []
  | v :: vs => do return (← hash? v) :: (← hashes? vs)

end

/-! ## Slots -/

/-- The slots of a set: each holds at most one member, next to its hash. -/
abbrev Slots := List (Option (Nat × Value))

/-- Slots that are free. -/
def freeSlots (count : Nat) : Slots := List.replicate count none

/-- The first free slot of a run that starts at a slot: ten slots, or only that one where ten would
run over the end. -/
def freeInRun? (slots : Slots) (start : Nat) : Option Nat :=
  let run := if start + 9 < slots.length then 10 else 1
  (List.range' start run).find? fun k =>
    match slots[k]? with
    | some none => true
    | _ => false

/-- Searches for a free slot, run after run.  The fuel is a bound on the runs. -/
def freeSlot (slots : Slots) (start rest : Nat) : Nat → Nat
  | 0 => start
  | fuel + 1 =>
    match freeInRun? slots start with
    | some k => k
    | none => freeSlot slots ((start * 5 + 1 + rest / 32) % slots.length) (rest / 32) fuel

/-- Places a member that is not there yet.  The upper bits of its hash last for thirteen jumps, and
from then on as many jumps as there are slots come to each of them. -/
def place (slots : Slots) (member : Nat × Value) : Slots :=
  slots.set (freeSlot slots (member.1 % slots.length) member.1 (slots.length + 14)) (some member)

/-- The members in slots, in order. -/
def placed (slots : Slots) : List (Nat × Value) := slots.filterMap id

/-- The number of slots, at least eight, that is beyond a bound.  The fuel is a bound on the
doublings. -/
def slotCount (bound count : Nat) : Nat → Nat
  | 0 => count
  | fuel + 1 => if bound < count then count else slotCount bound (2 * count) fuel

/-- Moves the members to more slots once too few are free. -/
def relieve (slots : Slots) : Slots :=
  let members := placed slots
  let used := members.length
  if used * 5 < (slots.length - 1) * 3 then slots
  else
    let bound := if 50000 < used then used * 2 else used * 4
    members.foldl place (freeSlots (slotCount bound 8 bound))

/-- Orders members that differ, with their hashes, by the slots they come to lie in. -/
def inSlots (members : List (Nat × Value)) : List (Nat × Value) :=
  placed (members.foldl (fun slots member => relieve (place slots member)) (freeSlots 8))

/-! ## Sets -/

/-- Values without those that are the same as an earlier one. -/
def distinct (items : List Value) : List Value :=
  items.foldl (fun found v => if found.any (sameKey · v) then found else found ++ [v]) []

/-- The set of some values. -/
def gather (items : List Value) : Value :=
  let members := distinct items
  match hashes? members with
  | some codes => set ((inSlots (codes.zip members)).map Prod.snd)
  | none => set members

/-! ## Laws -/

theorem length_place (slots : Slots) (member : Nat × Value) :
    (place slots member).length = slots.length := by
  simp [place]

theorem gather_of_unknown {items : List Value} (h : hashes? (distinct items) = none) :
    gather items = set (distinct items) := by
  simp [gather, h]

end CircuitBench.Value
