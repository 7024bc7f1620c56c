import CircuitBench.Proofs.Disk.Growth
import CircuitBench.Temporary.Fresh

/-!
# Temporary paths that are cleaned up

A path that is opened leads to a place that was free before.  Paths that are opened one after
another are removed the other way round, and this order matters: a path is followed through folders
that were there before it was opened, and none of them lies in what was opened later, for that was
still free then.  So each of the paths can still be followed when its turn comes, and what it leads
to goes with all that lies in it.

Names are told apart by the number in them that was drawn for them alone.

## Main results

* `Registry.append_token_inj` : a name that ends with a token ends with no other one.
* `Opened` : paths that were opened one after another.
* `Opened.left_discardAll` : nothing of what was opened is left when the paths are discarded.
* `Opened.elsewhere` : without a current folder, all paths are absolute.
-/

namespace CircuitBench

open CircuitBench.Path

/-! ## Names -/

namespace Registry

/-- Whether a name ends with a token that has not been drawn before the one of a number. -/
def IsUndrawn (drawn : Nat) (name : String) : Prop :=
  ∃ lead n, drawn ≤ n ∧ name = lead ++ token n

private theorem ofDigitChars_zeros (count : Nat) (digits : List Char) :
    Nat.ofDigitChars 10 (List.replicate count '0' ++ digits) 0 = Nat.ofDigitChars 10 digits 0 := by
  induction count with
  | zero => rfl
  | succ count ih =>
      rw [List.replicate_succ, List.cons_append, Nat.ofDigitChars_cons]
      exact ih

/-- The characters of a token: a letter, and digits of its number. -/
private theorem toList_token (n : Nat) : ∃ digits, (token n).toList = 'k' :: digits ∧
    'k' ∉ digits ∧ Nat.ofDigitChars 10 digits 0 = n := by
  refine ⟨List.replicate (7 - (Nat.toDigits 10 n).length) '0' ++ Nat.toDigits 10 n, ?_, ?_, ?_⟩
  · simp [token]
  · intro hMem
    rcases List.mem_append.mp hMem with hZero | hDigit
    · exact absurd (List.eq_of_mem_replicate hZero) (by decide)
    · exact absurd (Nat.isDigit_of_mem_toDigits (by decide) (by decide) hDigit) (by decide)
  · rw [ofDigitChars_zeros, Nat.ofDigitChars_ten_toDigits]

/-- A name that ends with a token ends with no other one. -/
theorem append_token_inj {a b : String} {n m : Nat} (h : a ++ token n = b ++ token m) : n = m := by
  obtain ⟨digits, hDigits, hNone, hValue⟩ := toList_token n
  obtain ⟨digits', hDigits', hNone', hValue'⟩ := toList_token m
  have hChars := congrArg String.toList h
  rw [String.toList_append, String.toList_append, hDigits, hDigits'] at hChars
  have hEnd : ∀ (front digits : List Char), 'k' ∉ digits →
      (front ++ 'k' :: digits).reverse.takeWhile (· != 'k') = digits.reverse := by
    intro front digits hNone
    rw [List.reverse_append, List.reverse_cons, List.append_assoc,
      List.takeWhile_append_of_pos, List.singleton_append, List.takeWhile_cons_of_neg (by decide),
      List.append_nil]
    intro c hc
    rw [bne_iff_ne]
    rintro rfl
    exact hNone (List.mem_reverse.mp hc)
  have hSame := congrArg (fun s : List Char => s.reverse.takeWhile (· != 'k')) hChars
  rw [hEnd _ _ hNone, hEnd _ _ hNone'] at hSame
  rw [← hValue, ← hValue', List.reverse_inj.mp hSame]

/-- A name that was drawn is drawn no more. -/
theorem not_isUndrawn_append_token (lead : String) {n drawn : Nat} (h : n < drawn) :
    ¬ IsUndrawn drawn (lead ++ token n) := by
  rintro ⟨lead', m, hLater, hSame⟩
  have hNumber := append_token_inj hSame
  omega

theorem IsUndrawn.mono {name : String} {drawn drawn' : Nat} (h : IsUndrawn drawn' name)
    (hMore : drawn ≤ drawn') : IsUndrawn drawn name := by
  obtain ⟨lead, n, hLater, rfl⟩ := h
  exact ⟨lead, n, Nat.le_trans hMore hLater, rfl⟩

/-- The last character of a name that ends with a token is a digit. -/
theorem IsUndrawn.last {name : String} {drawn : Nat} (h : IsUndrawn drawn name) :
    ∃ c, name.toList.getLast? = some c ∧ c.isDigit = true := by
  obtain ⟨lead, n, -, rfl⟩ := h
  have hNonempty : Nat.toDigits 10 n ≠ [] := Nat.toDigits_ne_nil
  obtain ⟨front, c, hDigits⟩ : ∃ front c, Nat.toDigits 10 n = front ++ [c] :=
    ⟨_, _, (List.dropLast_concat_getLast hNonempty).symm⟩
  refine ⟨c, ?_, Nat.isDigit_of_mem_toDigits (b := 10) (n := n) (by decide) (by decide) ?_⟩
  · have hChars : (lead ++ token n).toList =
        lead.toList ++ 'k' :: (List.replicate (7 - (front ++ [c]).length) '0' ++ front) ++ [c] := by
      simp [token, hDigits]
    rw [hChars, List.getLast?_concat]
  · rw [hDigits]
    exact List.mem_append_right _ (List.mem_singleton.mpr rfl)

/-- A name that ends with a token is not short. -/
theorem IsUndrawn.length {name : String} {drawn : Nat} (h : IsUndrawn drawn name) :
    8 ≤ name.length := by
  obtain ⟨lead, n, -, rfl⟩ := h
  have hToken : (token n).length =
      7 - (Nat.toDigits 10 n).length + (Nat.toDigits 10 n).length + 1 := by
    rw [← String.length_toList]
    simp [token]
  rw [String.length_append, hToken]
  omega

end Registry

/-! ## Openings -/

open Disk Registry

/-- Whether paths were opened one after another, the last one first, on the way to a disk: each led
to a free place on a disk before, of which the folders are still there. -/
inductive Opened (current : Location) : List String → Disk → Prop
  | nil (d : Disk) : Opened current [] d
  | cons {path : String} {paths : List String} {before d : Disk} {l : Location}
      (earlier : Opened current paths before) (tree : before.IsTree)
      (place : before.locate current path = .ok ⟨l, false⟩) (free : before.get? l = none)
      (kept : ∀ m, before.get? m = some .folder → d.get? m = some .folder) :
      Opened current (path :: paths) d

namespace Opened

variable {current : Location} {path : String} {paths : List String} {d d' : Disk}

/-- More may be done on the disk if the folders stay. -/
theorem mono (h : Opened current paths d)
    (hKept : ∀ m, d.get? m = some .folder → d'.get? m = some .folder) : Opened current paths d' := by
  cases h with
  | nil => exact .nil d'
  | cons hEarlier hTree hPlace hFree hBefore =>
      exact .cons hEarlier hTree hPlace hFree fun m hm => hKept m (hBefore m hm)

/-- What is left after all of the paths were discarded is as it was, and lies below none of their
places. -/
theorem left_discardAll (h : Opened current paths d) (hTree : d.IsTree) {m : Location}
    (hLeft : (discardAll current paths d).2.get? m ≠ none) :
    (discardAll current paths d).2.get? m = d.get? m ∧
      ∀ p ∈ paths, isBelow (resolve current p) m = false := by
  induction paths generalizing d with
  | nil => exact ⟨rfl, fun p hp => absurd hp List.not_mem_nil⟩
  | cons path rest ih =>
      cases h with
      | cons hEarlier hBefore hPlace hFree hKept =>
          rename_i before l
          have hDots := not_endsWithDots_of_free hBefore hPlace hFree
          have hInside : l ≠ [] := by
            rintro rfl
            cases hFree
          have hCleared := clearedAt_discard hTree (locate_of_folders hKept hPlace) hDots hInside
          obtain ⟨hThere, hBelow⟩ := ih
            (hEarlier.mono (hCleared.kept hBefore hFree hKept))
            (hCleared.isTree hTree) hLeft
          have hSame : (discardAll current (path :: rest) d).2 =
              (discardAll current rest (d.discard current path).2).2 := rfl
          rw [hSame] at hLeft ⊢
          obtain ⟨-, hNot⟩ := hCleared.left (by rwa [← hThere])
          refine ⟨by rw [hThere, hCleared.get?_of_not_isBelow hNot],
            List.forall_mem_cons.mpr ⟨?_, hBelow⟩⟩
          rwa [← locate_eq_ok hPlace]

/-- Without a current folder, all of the paths are absolute. -/
theorem isAbsolute (h : Opened current paths d) (hNone : d.get? current ≠ some .folder) :
    ∀ p ∈ paths, isAbsolute p = true := by
  induction paths generalizing d with
  | nil => exact fun p hp => absurd hp List.not_mem_nil
  | cons path rest ih =>
      cases h with
      | cons hEarlier hBefore hPlace hFree hKept =>
          have hNotThen := fun hFolder => hNone (hKept current hFolder)
          refine List.forall_mem_cons.mpr ⟨?_, ih hEarlier hNotThen⟩
          cases hAbsolute : Path.isAbsolute path with
          | true => rfl
          | false => exact absurd (folder_of_relative hPlace hAbsolute) hNotThen

/-- Absolute paths lead to the same places from every folder. -/
theorem elsewhere (h : Opened current paths d) (hAbsolute : ∀ p ∈ paths, Path.isAbsolute p = true)
    (other : Location) : Opened other paths d := by
  induction paths generalizing d with
  | nil => exact .nil d
  | cons path rest ih =>
      cases h with
      | cons hEarlier hBefore hPlace hFree hKept =>
          obtain ⟨hFirst, hRest⟩ := List.forall_mem_cons.mp hAbsolute
          refine .cons (ih hEarlier hRest) hBefore ?_ hFree hKept
          rw [locate, hFirst] at hPlace ⊢
          exact hPlace

/-- A path that is registered when it is opened is opened last, unless it was before. -/
theorem track {r : Registry} {l : Location} (h : Opened current r.paths.reverse d)
    (hTree : d.IsTree) (hPlace : d.locate current path = .ok ⟨l, false⟩) (hFree : d.get? l = none)
    (hKept : ∀ m, d.get? m = some .folder → d'.get? m = some .folder) :
    Opened current (r.track path).paths.reverse d' := by
  rw [Registry.track]
  split
  · exact h.mono hKept
  · dsimp only
    rw [List.reverse_append]
    exact .cons h hTree hPlace hFree hKept

end Opened

namespace Bench

/-! ## Opening at a bench -/

/-- Names are drawn until one is free, or until there is another reason to stop.  Only the one that
is free changes the disk. -/
theorem create_cases (make : Disk → Location → String → Except DiskFault (Location × Disk))
    (pathOf : String → String) (attempts : Nat) (b : Bench) :
    (∃ n l d, b.namesDrawn ≤ n ∧ make b.disk b.current (pathOf (token n)) = .ok (l, d) ∧
      create make pathOf attempts b =
        .ok (pathOf (token n)) { b with disk := d, namesDrawn := n + 1 }) ∨
    ∃ e n, b.namesDrawn ≤ n ∧
      create make pathOf attempts b = .error e { b with namesDrawn := n } := by
  induction attempts generalizing b with
  | zero => exact .inr ⟨_, _, Nat.le_refl _, rfl⟩
  | succ attempts ih =>
      rw [create]
      dsimp only
      cases hMade : make b.disk b.current (pathOf (token b.namesDrawn)) with
      | ok made => exact .inl ⟨_, _, _, Nat.le_refl _, hMade, rfl⟩
      | error fault =>
          cases fault with
          | «exists» =>
              rcases ih { b with namesDrawn := b.namesDrawn + 1 } with
                ⟨n, l, d, hLater, hMade, hEnd⟩ | ⟨e, n, hLater, hEnd⟩
              · exact .inl ⟨n, l, d, Nat.le_of_succ_le hLater, hMade, hEnd⟩
              · exact .inr ⟨e, n, Nat.le_of_succ_le hLater, hEnd⟩
          | _ => exact .inr ⟨_, _, Nat.le_succ _, rfl⟩

/-- Whether a fresh path with a number in its name leads to a free place, where a node is put. -/
structure Opens (b : Bench) (path : String) (n : Nat) (l : Location) (node : Node) (d : Disk) :
    Prop where
  drawn : b.namesDrawn ≤ n
  place : b.disk.locate b.current path = .ok ⟨l, false⟩
  around : b.disk.get? l.dropLast = some .folder
  free : b.disk.get? l = none
  disk : d = b.disk.put l node

namespace Opens

variable {b : Bench} {path : String} {n : Nat} {l : Location} {node : Node} {d : Disk}

theorem inside (h : Opens b path n l node d) : l ≠ [] := by
  rintro rfl
  cases h.free

theorem isFolder (h : Opens b path n l .folder d) : d.get? l = some .folder := by
  rw [h.disk, get?_put_self _ h.inside]

theorem growsTo (h : Opens b path n l node d) :
    b.disk.GrowsTo (· = l) (fun m => m = l ∧ node = .folder) d := by
  rw [h.disk]
  cases node with
  | file bytes =>
      exact (put_file_growsTo h.around (by simp [h.free]) bytes).mono (fun _ hm => hm)
        fun _ hNone => hNone.elim
  | folder =>
      exact (put_folder_growsTo h.around h.free).mono (fun _ hm => hm) fun _ hm => ⟨hm, rfl⟩

/-- The place has the name that was drawn for it. -/
theorem location_eq (h : Opens b path n l node d) {folder lead : String}
    (hPath : path = join folder (lead ++ token n)) (hSlash : '/' ∉ lead.toList) :
    l = resolve b.current folder ++ [lead ++ token n] := by
  rw [← AfterRuns.resolve_join_token b.current folder hSlash n, ← hPath]
  exact locate_eq_ok h.place

/-- The path of a folder can be followed from then on, and leads through folders. -/
theorem isFolder_of_onTheWay (h : Opens b path n l .folder d) {m : Location}
    (hm : OnTheWay b.current path m) : d.get? m = some .folder :=
  folder_of_onTheWay (locate_of_folders h.growsTo.kept h.place) h.isFolder hm

end Opens

/-- The bench with a path opened. -/
def withOpened (b : Bench) (path : String) (n : Nat) (d : Disk) : Bench :=
  { b with disk := d, namesDrawn := n + 1, registry := b.registry.track path }

/-- A fresh file is opened, or only names have been drawn. -/
theorem openFile_cases (lead ending : String) (asked : Option String) (b : Bench) :
    (∃ path n l d, Opens b path n l (.file []) d ∧ isAbsolute path = true ∧
      (∃ folder, path = join folder (lead ++ token n ++ ending)) ∧
      openFile lead ending asked b = .ok path (b.withOpened path n d)) ∨
    ∃ e n, b.namesDrawn ≤ n ∧
      openFile lead ending asked b = .error e { b with namesDrawn := n } := by
  cases hFolder : absolutePath b.current ((b.registry.folder asked).getD b.temporary) with
  | error e =>
      refine .inr ⟨e, b.namesDrawn, Nat.le_refl _, (bind_ok rfl).trans (bind_error ?_)⟩
      rw [hFolder]
      rfl
  | ok folder =>
      have hStart : attempt (absolutePath b.current ((b.registry.folder asked).getD b.temporary)) b =
          .ok folder b := by rw [hFolder]; rfl
      rcases create_cases Disk.createFile (fun name => join folder (lead ++ name ++ ending))
          maxAttempts b with
        ⟨n, l, d, hLater, hMade, hEnd⟩ | ⟨e, n, hLater, hEnd⟩
      · obtain ⟨-, hAround, hFree, hDisk⟩ := createFile_eq_ok hMade
        exact .inl ⟨_, n, l, d, ⟨hLater, locate_of_createFile hMade, hAround, hFree, hDisk⟩,
          isAbsolute_join (isAbsolute_of_absolutePath hFolder), ⟨folder, rfl⟩,
          (bind_ok rfl).trans ((bind_ok hStart).trans (bind_ok hEnd))⟩
      · exact .inr ⟨e, n, hLater,
          (bind_ok rfl).trans ((bind_ok hStart).trans (bind_error hEnd))⟩

theorem getLast?_join (folder : String) {name : String} {c : Char}
    (h : name.toList.getLast? = some c) : (join folder name).toList.getLast? = some c := by
  rw [join]
  split
  · exact h
  · split
    · rw [String.toList_append, List.getLast?_append, h]
      rfl
    · rw [String.toList_append, List.getLast?_append, h]
      rfl

/-- A fresh folder is opened, or only names have been drawn. -/
theorem openFolder_cases (lead : String) (asked : Option String) (b : Bench) :
    (∃ path n l d, Opens b path n l .folder d ∧
      path = join ((b.registry.folder asked).getD b.temporary) (lead ++ token n) ∧
      openFolder lead asked b = .ok path (b.withOpened path n d)) ∨
    ∃ e n, b.namesDrawn ≤ n ∧
      openFolder lead asked b = .error e { b with namesDrawn := n } := by
  rcases create_cases Disk.makeFolder (fun name =>
      join ((b.registry.folder asked).getD b.temporary) (lead ++ name)) maxAttempts b with
    ⟨n, l, d, hLater, hMade, hEnd⟩ | ⟨e, n, hLater, hEnd⟩
  · obtain ⟨-, hAround, hFree, hDisk⟩ := makeFolder_eq_ok hMade
    have hSlash : endsWithSlash
        (join ((b.registry.folder asked).getD b.temporary) (lead ++ token n)) = false := by
      obtain ⟨c, hLast, hDigit⟩ := IsUndrawn.last ⟨lead, n, Nat.le_refl n, rfl⟩
      rw [endsWithSlash, getLast?_join _ hLast]
      refine beq_false_of_ne ?_
      rintro ⟨⟩
      exact absurd hDigit (by decide)
    have hPlace := locate_of_makeFolder hMade
    rw [hSlash] at hPlace
    exact .inl ⟨_, n, l, d, ⟨hLater, hPlace, hAround, hFree, hDisk⟩, rfl, bind_ok hEnd⟩
  · exact .inr ⟨e, n, hLater, (bind_ok rfl).trans (bind_error hEnd)⟩

/-! ## Private registries -/

/-- The bench after work with a private registry that has left a bench behind: cleaned up, and with
its own registry again. -/
def tidied (b left : Bench) : Bench :=
  { endState (cleanUp left) with registry := b.registry }

theorem withPrivateRegistry_ok {α : Type} {action : Action α} {a : α} {b left : Bench}
    (h : action { b with registry := {} } = .ok a left) :
    withPrivateRegistry action b = .ok a (tidied b left) := by
  rw [withPrivateRegistry, withCleanUp, ensuring, h]
  rfl

theorem withPrivateRegistry_error {α : Type} {action : Action α} {e : Error} {b left : Bench}
    (h : action { b with registry := {} } = .error e left) :
    withPrivateRegistry action b = .error e (tidied b left) := by
  rw [withPrivateRegistry, withCleanUp, ensuring, h]
  rfl

end Bench

end CircuitBench
