import CircuitBench.Constraint.System

/-!
# The wires of a constraint

The support of a constraint is the set of the wires that its three linear forms name, whatever their
coefficients.  A summary of a constraint lists the support in increasing order and counts the
coefficients that are not zero.

## Main results

* `mem_support` : the support holds exactly the wires of the three forms.
-/

namespace CircuitBench

/-- Inserts an integer into an increasing list, unless it is there. -/
def insertIncreasing (n : Int) : List Int → List Int
  | [] => [n]
  | m :: rest =>
    if n < m then n :: m :: rest else if n = m then m :: rest else m :: insertIncreasing n rest

/-- The wires that a constraint names, in increasing order. -/
def Constraint.support (k : Constraint) : List Int :=
  (k.forms.flatMap LinearForm.wires).foldl (fun wires w => insertIncreasing w wires) []

/-- The number of coefficients of a constraint that are not zero. -/
def Constraint.nonzeroCount (k : Constraint) : Nat :=
  k.forms.flatten.countP fun t => t.2 != 0

/-- The wires of a constraint and the number of its coefficients that are not zero. -/
structure ConstraintSummary where
  supportSize : Nat
  nonzeroCount : Nat
  support : List Int
deriving DecidableEq, Repr

/-- The summary of a constraint. -/
def Constraint.summary (k : Constraint) : ConstraintSummary :=
  ⟨k.support.length, k.nonzeroCount, k.support⟩

theorem mem_insertIncreasing (n m : Int) (ms : List Int) :
    m ∈ insertIncreasing n ms ↔ m = n ∨ m ∈ ms := by
  induction ms with
  | nil => simp [insertIncreasing]
  | cons x rest ih =>
    unfold insertIncreasing
    split
    · simp
    · split
      · rename_i h
        subst h
        simp
      · simp only [List.mem_cons, ih]
        constructor
        · rintro (h | h | h)
          · exact .inr (.inl h)
          · exact .inl h
          · exact .inr (.inr h)
        · rintro (h | h | h)
          · exact .inr (.inl h)
          · exact .inl h
          · exact .inr (.inr h)

theorem mem_foldl_insertIncreasing (m : Int) (ns ms : List Int) :
    m ∈ ns.foldl (fun wires w => insertIncreasing w wires) ms ↔ m ∈ ns ∨ m ∈ ms := by
  induction ns generalizing ms with
  | nil => simp
  | cons n rest ih =>
    rw [List.foldl_cons, ih, mem_insertIncreasing, List.mem_cons]
    constructor
    · rintro (h | h | h)
      · exact .inl (.inr h)
      · exact .inl (.inl h)
      · exact .inr h
    · rintro ((h | h) | h)
      · exact .inr (.inl h)
      · exact .inl h
      · exact .inr (.inr h)

theorem Constraint.mem_support (k : Constraint) (w : Int) :
    w ∈ k.support ↔ w ∈ k.a.wires ∨ w ∈ k.b.wires ∨ w ∈ k.c.wires := by
  rw [Constraint.support, mem_foldl_insertIncreasing]
  simp [Constraint.forms]

theorem Constraint.mem_support_of_form {k : Constraint} {f : LinearForm} (hf : f ∈ k.forms)
    {w : Int} (hw : w ∈ f.wires) : w ∈ k.support := by
  rw [mem_support]
  simp only [forms, List.mem_cons, List.not_mem_nil, or_false] at hf
  rcases hf with rfl | rfl | rfl
  · exact .inl hw
  · exact .inr (.inl hw)
  · exact .inr (.inr hw)

end CircuitBench
