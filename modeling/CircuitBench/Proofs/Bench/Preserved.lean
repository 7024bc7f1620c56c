import CircuitBench.Bench.Basic

/-!
# Steps of work and what they preserve

A step that ends well went through all its parts, and each of them ended well; this is how a result
is traced back to what it was made of.  What must not happen on the way is stated the other way
round: a property of the state is preserved by a step if it holds afterwards whenever it held
before, however the step ends.  That is put together from the parts without a look at how they end.

## Main results

* `bind_eq_ok` : the parts of a step that ends well.
* `Preserves.bind`, `Preserves.ensuring` : what the parts preserve, the whole preserves.
-/

namespace CircuitBench

/-! ## Ending well -/

theorem Except.eq_ok_of_toOption {ε α : Type} {x : Except ε α} {a : α} (h : x.toOption = some a) :
    x = .ok a := by
  cases x with
  | ok b =>
      cases h
      rfl
  | error e => cases h

section EndingWell

variable {ε σ α β : Type}

/-- A step of which the outcome is a result ends well. -/
theorem ok_of_outcome {x : EStateM Error σ α} {s : σ} {a : α}
    (h : (Bench.outcome x s).1.toOption = some a) : ∃ s', x s = .ok a s' := by
  rw [Bench.outcome] at h
  split at h
  · rename_i s' hEnd
    cases h
    exact ⟨s', hEnd⟩
  · cases h

/-- The parts of a sequence that ends well. -/
theorem except_bind_eq_ok {x : Except ε α} {f : α → Except ε β} {b : β}
    (h : (x >>= f) = .ok b) : ∃ a, x = .ok a ∧ f a = .ok b := by
  cases x with
  | error e => cases h
  | ok a => exact ⟨a, rfl, h⟩

/-- The part of a sequence that fails. -/
theorem except_bind_eq_error {x : Except ε α} {f : α → Except ε β} {e : ε}
    (h : (x >>= f) = .error e) : x = .error e ∨ ∃ a, x = .ok a ∧ f a = .error e := by
  cases x with
  | error fault =>
      cases h
      exact .inl rfl
  | ok a => exact .inr ⟨a, rfl, h⟩

/-- A step that ends well was done in two parts that end well. -/
theorem bind_eq_ok {x : EStateM ε σ α} {f : α → EStateM ε σ β} {s s' : σ} {b : β}
    (h : (x >>= f) s = .ok b s') : ∃ a s₁, x s = .ok a s₁ ∧ f a s₁ = .ok b s' := by
  have hSplit : (x >>= f) s = EStateM.bind x f s := rfl
  rw [hSplit, EStateM.bind] at h
  split at h
  · rename_i a s₁ hx
    exact ⟨a, s₁, hx, h⟩
  · cases h

/-- Two parts that end well make a step that ends well. -/
theorem bind_ok {x : EStateM ε σ α} {f : α → EStateM ε σ β} {s s₁ : σ} {a : α}
    (h : x s = .ok a s₁) :
    (x >>= f) s = f a s₁ := by
  have hSplit : (x >>= f) s = EStateM.bind x f s := rfl
  rw [hSplit, EStateM.bind, h]

/-- If the first part fails, so does the step. -/
theorem bind_error {x : EStateM ε σ α} {f : α → EStateM ε σ β} {s s₁ : σ} {e : ε}
    (h : x s = .error e s₁) : (x >>= f) s = .error e s₁ := by
  have hSplit : (x >>= f) s = EStateM.bind x f s := rfl
  rw [hSplit, EStateM.bind, h]

theorem pure_eq_ok {a b : α} {s s' : σ} (h : (pure a : EStateM ε σ α) s = .ok b s') :
    a = b ∧ s = s' := by
  cases h
  exact ⟨rfl, rfl⟩

end EndingWell

section Questions

variable {σ α : Type}

/-- A computation that was asked for and did not fail left the state as it was. -/
theorem attempt_eq_ok {result : Except Error α} {a : α} {s s' : σ}
    (h : Bench.attempt result s = .ok a s') : result = .ok a ∧ s = s' := by
  cases result with
  | ok a' =>
      cases h
      exact ⟨rfl, rfl⟩
  | error e => cases h

/-- Work that asks for a computation first goes on with what that gives. -/
theorem attempt_bind_ok {β : Type} {result : Except Error α} {a : α} {f : α → EStateM Error σ β}
    {s : σ} (h : result = .ok a) : (Bench.attempt result >>= f) s = f a s := by
  rw [h]
  rfl

/-- And ends if that fails. -/
theorem attempt_bind_error {β : Type} {result : Except Error α} {e : Error}
    {f : α → EStateM Error σ β} {s : σ} (h : result = .error e) :
    (Bench.attempt result >>= f) s = .error e s := by
  rw [h]
  rfl

/-- A question to the file system that was not refused left the bench as it was. -/
theorem ask_eq_ok {question : Bench → Except DiskFault α} {a : α} {b b' : Bench}
    (h : Bench.ask question b = .ok a b') : question b = .ok a ∧ b = b' := by
  rw [Bench.ask] at h
  split at h
  · rename_i hOk
    cases h
    exact ⟨hOk, rfl⟩
  · cases h

/-- When a step and the one that follows in any case end well together, each of them did. -/
theorem ensuring_eq_ok {first : EStateM Error σ α} {second : EStateM Error σ Unit} {a : α}
    {s s' : σ} (h : Bench.ensuring first second s = .ok a s') :
    ∃ s₁, first s = .ok a s₁ ∧ second s₁ = .ok () s' := by
  rw [Bench.ensuring] at h
  split at h
  · rename_i hFirst
    split at h
    · rename_i hSecond
      cases h
      exact ⟨_, hFirst, hSecond⟩
    · cases h
  · split at h
    · cases h
    · cases h

/-- A step that is followed in any case by one that ends well ends as it does. -/
theorem ensuring_of_ok {first : EStateM Error σ α} {second : EStateM Error σ Unit} {a : α}
    {s s₁ s₂ : σ} (hFirst : first s = .ok a s₁) (hSecond : second s₁ = .ok () s₂) :
    Bench.ensuring first second s = .ok a s₂ := by
  rw [Bench.ensuring, hFirst]
  dsimp only
  rw [hSecond]

theorem ensuring_of_error {first : EStateM Error σ α} {second : EStateM Error σ Unit} {e : Error}
    {s s₁ s₂ : σ} (hFirst : first s = .error e s₁) (hSecond : second s₁ = .ok () s₂) :
    Bench.ensuring first second s = .error e s₂ := by
  rw [Bench.ensuring, hFirst]
  dsimp only
  rw [hSecond]

end Questions

/-! ## Ending badly -/

section EndingBadly

variable {σ α β : Type}

/-- A step that fails does so in its first part, or in its second after the first has ended well. -/
theorem bind_eq_error {ε : Type} {x : EStateM ε σ α} {f : α → EStateM ε σ β} {s s' : σ} {e : ε}
    (h : (x >>= f) s = .error e s') :
    x s = .error e s' ∨ ∃ a s₁, x s = .ok a s₁ ∧ f a s₁ = .error e s' := by
  cases hx : x s with
  | ok a s₁ =>
      rw [bind_ok hx] at h
      exact .inr ⟨a, s₁, rfl, h⟩
  | error e₁ s₁ =>
      rw [bind_error hx] at h
      cases h
      exact .inl rfl

/-- A computation that was asked for and failed left the state as it was. -/
theorem attempt_eq_error {result : Except Error α} {e : Error} {s s' : σ}
    (h : Bench.attempt result s = .error e s') : result = .error e ∧ s' = s := by
  cases result with
  | ok a => cases h
  | error e₁ =>
      cases h
      exact ⟨rfl, rfl⟩

/-- A question to the file system that was refused left the bench as it was. -/
theorem ask_eq_error {question : Bench → Except DiskFault α} {e : Error} {b b' : Bench}
    (h : Bench.ask question b = .error e b') :
    ∃ fault, question b = .error fault ∧ e = .disk fault ∧ b' = b := by
  rw [Bench.ask] at h
  split at h
  · cases h
  · rename_i fault hFault
    cases h
    exact ⟨fault, hFault, rfl, rfl⟩

end EndingBadly

/-! ## Preservation -/

/-- The state in which a step of work ends. -/
def endState {ε σ α : Type} : EStateM.Result ε σ α → σ
  | .ok _ s => s
  | .error _ s => s

/-- What holds at every end of the first part, and at every end of what comes after it, holds at the
end of the sequence. -/
theorem endState_bind {ε σ α β : Type} {P : σ → Prop} {x : EStateM ε σ α} {f : α → EStateM ε σ β}
    {s : σ} (hError : ∀ e s₁, x s = .error e s₁ → P s₁)
    (hOk : ∀ a s₁, x s = .ok a s₁ → P (endState (f a s₁))) : P (endState ((x >>= f) s)) := by
  cases h : x s with
  | ok a s₁ =>
      rw [bind_ok h]
      exact hOk a s₁ h
  | error e s₁ =>
      rw [bind_error h]
      exact hError e s₁ h

/-- What holds before a computation that is asked for, and at every end of what comes after it, holds
at the end. -/
theorem endState_attempt_bind {σ α β : Type} {P : σ → Prop} {result : Except Error α}
    {f : α → EStateM Error σ β} {s : σ} (hBefore : P s)
    (hOk : ∀ a, result = .ok a → P (endState (f a s))) :
    P (endState ((Bench.attempt result >>= f) s)) := by
  cases result with
  | ok a => exact hOk a rfl
  | error e => exact hBefore

/-- Whether a property of the state holds after a step whenever it held before, however the step
ends. -/
def Preserves {ε σ α : Type} (P : σ → Prop) (x : EStateM ε σ α) : Prop :=
  ∀ s, P s → P (endState (x s))

section Closure

variable {ε σ α β : Type} {P : σ → Prop}

theorem preserves_pure (a : α) : Preserves P (pure a : EStateM ε σ α) :=
  fun _ hs => hs

theorem preserves_throw (e : ε) : Preserves P (throw e : EStateM ε σ α) :=
  fun _ hs => hs

theorem preserves_get : Preserves P (get : EStateM ε σ σ) :=
  fun _ hs => hs

theorem preserves_modify {change : σ → σ} (h : ∀ s, P s → P (change s)) :
    Preserves P (modify change : EStateM ε σ Unit) :=
  h

theorem preserves_attempt (result : Except Error α) :
    Preserves P (Bench.attempt result : EStateM Error σ α) := by
  intro s hs
  cases result with
  | ok a => exact hs
  | error e => exact hs

/-- A question to the file system changes nothing. -/
theorem preserves_ask {Q : Bench → Prop} (question : Bench → Except DiskFault α) :
    Preserves Q (Bench.ask question) := by
  intro b hb
  rw [Bench.ask]
  cases question b with
  | ok a => exact hb
  | error fault => exact hb

namespace Preserves

theorem of_ok {x : EStateM ε σ α} (hx : Preserves P x) {s s' : σ} {a : α} (h : x s = .ok a s')
    (hs : P s) : P s' := by
  have hEnd := hx s hs
  rwa [h] at hEnd

theorem of_error {x : EStateM ε σ α} (hx : Preserves P x) {s s' : σ} {e : ε}
    (h : x s = .error e s') (hs : P s) : P s' := by
  have hEnd := hx s hs
  rwa [h] at hEnd

/-- What two parts preserve, the step that is made of them preserves.  The second part may take it
for granted that the first one has given the result that it goes on with. -/
theorem bind_of {x : EStateM ε σ α} {f : α → EStateM ε σ β} (hx : Preserves P x)
    (hf : ∀ {a : α} {s s₁ : σ}, x s = .ok a s₁ → Preserves P (f a)) : Preserves P (x >>= f) := by
  intro s hs
  have hSplit : (x >>= f) s = EStateM.bind x f s := rfl
  have hFirst := hx s hs
  rw [hSplit, EStateM.bind]
  cases hEnd : x s with
  | ok a s₁ =>
      rw [hEnd] at hFirst
      exact hf hEnd s₁ hFirst
  | error e s₁ =>
      rw [hEnd] at hFirst
      exact hFirst

theorem bind {x : EStateM ε σ α} {f : α → EStateM ε σ β} (hx : Preserves P x)
    (hf : ∀ a, Preserves P (f a)) : Preserves P (x >>= f) :=
  hx.bind_of fun _ => hf _

theorem ite {c : Prop} [Decidable c] {x y : EStateM ε σ α} (hx : Preserves P x)
    (hy : Preserves P y) :
    Preserves P (if c then x else y) := by
  split
  · exact hx
  · exact hy

/-- What a step and the one that follows in any case preserve, the two together preserve. -/
theorem ensuring {first : EStateM Error σ α} {second : EStateM Error σ Unit}
    (hFirst : Preserves P first) (hSecond : Preserves P second) :
    Preserves P (Bench.ensuring first second) := by
  intro s hs
  have hMiddle := hFirst s hs
  rw [Bench.ensuring]
  cases hEnd : first s with
  | ok a s₁ =>
      rw [hEnd] at hMiddle
      have hLast := hSecond s₁ hMiddle
      dsimp only
      cases hEnd' : second s₁ <;> rw [hEnd'] at hLast <;> exact hLast
  | error e s₁ =>
      rw [hEnd] at hMiddle
      have hLast := hSecond s₁ hMiddle
      dsimp only
      cases hEnd' : second s₁ <;> rw [hEnd'] at hLast <;> exact hLast

end Preserves

end Closure

end CircuitBench
