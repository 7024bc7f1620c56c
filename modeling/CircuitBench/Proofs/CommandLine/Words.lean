import CircuitBench.CommandLine.Run
import CircuitBench.Proofs.Bench.Preserved

/-!
# A command line without one of its flags

The flag that asks for the source only takes no value and has no letter, so it has words of its own:
its name, or the front of its name.  Without these words, a command line gives the same options but
for the flag, and is refused or accepted as before.  Words behind two dashes are no options and stay.

## Main results

* `parse_withoutRenderOnly` : the options that are given without the flag.
* `ofGiven_othersOf` : what they ask for.
-/

namespace CircuitBench.CommandLine

/-! ## Words -/

/-- Whether a word is the flag that asks for the source only. -/
def asksToRender (text : String) : Bool :=
  match classify text.toList with
  | .ok (.named .renderOnly _ none) => true
  | _ => false

/-- The words of a command line without those that ask for the source only. -/
def withoutRenderOnly : List String → List String
  | [] => []
  | text :: rest =>
    if text = "--" then text :: rest
    else if asksToRender text then withoutRenderOnly rest
    else text :: withoutRenderOnly rest

/-- Whether an item is that flag. -/
def Item.rendersOnly : Item → Bool
  | .word _ (.named .renderOnly _ none) => true
  | _ => false

/-- Options without the flag. -/
def othersOf (given : List Given) : List Given :=
  given.filter fun g => g.1 ≠ .renderOnly

theorem classifyAll_withoutRenderOnly {words : List String} {items : List Item}
    (h : classifyAll words = .ok items) :
    classifyAll (withoutRenderOnly words) = .ok (items.filter (!·.rendersOnly)) := by
  induction words generalizing items with
  | nil =>
      cases h
      rfl
  | cons text rest ih =>
      rw [classifyAll] at h
      rw [withoutRenderOnly]
      split at h
      · rename_i hDashes
        cases h
        rw [if_pos hDashes, hDashes, classifyAll_dashes, List.filter_eq_self.mpr]
        simp [Item.rendersOnly]
      · rename_i hWord
        obtain ⟨kind, hKind, h⟩ := except_bind_eq_ok h
        obtain ⟨more, hMore, h⟩ := except_bind_eq_ok h
        cases h
        rw [if_neg hWord, List.filter_cons]
        have hSame : (Item.word text kind).rendersOnly = asksToRender text := by
          rw [asksToRender, hKind]
          cases kind with
          | named choice long attached => cases choice <;> cases attached <;> rfl
          | _ => rfl
        rw [hSame]
        cases hAsks : asksToRender text with
        | true => exact ih hMore
        | false =>
            rw [if_neg Bool.false_ne_true, classifyAll, if_neg hWord, hKind]
            simp only [ih hMore]
            rfl

/-! ## Names -/

theorem name_of_mem_table : ∀ e ∈ Choice.table, e.2 = .renderOnly → e.1 = "--render-only" := by
  decide

theorem name_of_ofName? {name : String} (h : Choice.ofName? name = some .renderOnly) :
    name = "--render-only" := by
  obtain ⟨e, hFound, hChoice⟩ := Option.map_eq_some_iff.mp h
  have hName : e.1 = name := by simpa using List.find?_some hFound
  rw [← hName]
  exact name_of_mem_table e (List.mem_of_find?_eq_some hFound) hChoice

/-- No letter stands for the flag. -/
theorem ofName?_letter (letter : Char) :
    Choice.ofName? (String.ofList ['-', letter]) ≠ some .renderOnly := by
  intro h
  have hLength := congrArg (fun s : String => s.toList.length) (name_of_ofName? h)
  simp at hLength

/-- A word that may be meant for the flag is the front of its long name. -/
theorem long_of_mem_candidates {word : List Char} {name : String} {long : Bool}
    {attached : Option Attachment}
    (h : (name, Word.named .renderOnly long attached) ∈ candidates word) : long = true := by
  have hLong : ∀ e ∈ Choice.table, e.2 = .renderOnly → isLong e.1.toList = true := by
    intro e hMem hChoice
    rw [name_of_mem_table e hMem hChoice]
    decide
  rw [candidates] at h
  generalize splitMark word = parts at h
  obtain ⟨front, text⟩ := parts
  split at h
  · obtain ⟨⟨title, choice⟩, hMem, hFound⟩ := List.mem_filterMap.mp h
    obtain ⟨-, hSame⟩ := Option.ite_none_right_eq_some.mp hFound
    cases hSame
    exact hLong (title, .renderOnly) hMem rfl
  · obtain ⟨⟨title, choice⟩, hMem, hFound⟩ := List.mem_filterMap.mp h
    split at hFound
    · rename_i hLetter
      cases hFound
      -- a letter and its dash are no more than two characters
      have hLength := congrArg List.length hLetter
      rw [name_of_mem_table (title, .renderOnly) hMem rfl, List.length_take] at hLength
      exact absurd (Nat.le_trans (Nat.le_of_eq hLength) (Nat.min_le_left _ _)) (by decide)
    · obtain ⟨-, hSame⟩ := Option.ite_none_right_eq_some.mp hFound
      cases hSame
      exact hLong (title, .renderOnly) hMem rfl

/-- The name of the flag is a long one. -/
theorem long_of_classify {word : List Char} {long : Bool} {attached : Option Attachment}
    (h : classify word = .ok (.named .renderOnly long attached)) : long = true := by
  have hInexact : classifyInexact word = .ok (.named .renderOnly long attached) → long = true := by
    intro h
    rw [classifyInexact] at h
    split at h
    · split at h <;> cases h
    · rename_i name found hOnly
      cases h
      exact long_of_mem_candidates (by rw [hOnly]; exact List.mem_singleton_self _)
    · cases h
  have hNamed : ∀ {name : List Char}, Choice.ofName? (String.ofList name) = some .renderOnly →
      isLong name = true := by
    intro name hName
    rw [← String.toList_ofList (l := name), name_of_ofName? hName]
    decide
  rw [classify.eq_def] at h
  split at h
  · split at h
    · rename_i hName
      cases h
      exact hNamed hName
    · split at h
      · cases h
      · split at h
        · split at h
          · rename_i hName
            cases h
            exact hNamed hName
          · exact hInexact h
        · exact hInexact h
  · cases h

/-! ## Options -/

/-- Whether the options of a word are others than the flag. -/
structure Cluster.IsOther (found : Cluster) : Prop where
  complete : ∀ g ∈ found.complete, g.1 ≠ .renderOnly
  waiting : found.waiting ≠ some .renderOnly

theorem Cluster.IsOther.after {found : Cluster} (h : found.IsOther) {choice : Choice}
    {value : Option String} (hOther : choice ≠ .renderOnly) :
    (found.after (choice, value)).IsOther :=
  ⟨List.forall_mem_cons.mpr ⟨hOther, h.complete⟩, h.waiting⟩

theorem isOther_single {choice : Choice} (hOther : choice ≠ .renderOnly) :
    (Cluster.single choice).IsOther := by
  rw [Cluster.single]
  split
  · exact ⟨fun _ h => absurd h List.not_mem_nil, fun h => hOther (Option.some.inj h)⟩
  · exact ⟨List.forall_mem_singleton.mpr hOther, fun h => nomatch h⟩

theorem isOther_unread {convention : Convention} {choice : Choice} {text : List Char}
    {found : Cluster} (hOther : choice ≠ .renderOnly)
    (h : Cluster.unread convention choice text = .ok found) : found.IsOther := by
  cases convention with
  | former => cases h
  | present =>
      cases h
      exact ⟨List.forall_mem_singleton.mpr hOther, fun h => nomatch h⟩

/-- Nothing can be attached to the flag, and it is not among the letters of a word. -/
theorem isOther_expand {convention : Convention} {choice : Choice} {long : Bool} {a : Attachment}
    {found : Cluster} (hLong : choice = .renderOnly → long = true)
    (h : expand convention choice long a = .ok found) : found.IsOther := by
  have hOther : ∀ {choice : Choice} {long : Bool}, (choice = .renderOnly → long = true) →
      ¬ long = true → choice ≠ .renderOnly := fun hLong hShort hChoice => hShort (hLong hChoice)
  induction choice, long, a using expand.induct convention generalizing found with
  | case1 choice long a hValue =>
      rw [expand.eq_def, if_pos hValue] at h
      cases h
      refine ⟨List.forall_mem_singleton.mpr ?_, fun h => nomatch h⟩
      rintro rfl
      cases hValue
  | case2 choice a hFlag =>
      rw [expand.eq_def, if_neg hFlag, if_pos rfl] at h
      cases h
  | case3 choice long hFlag hShort marked =>
      rw [expand.eq_def, if_neg hFlag, if_neg hShort] at h
      cases h
  | case4 choice long hFlag hShort marked letter rest hForbidden =>
      rw [expand.eq_def, if_neg hFlag, if_neg hShort] at h
      simp only [if_pos hForbidden] at h
      cases h
  | case5 choice long hFlag hShort marked letter rest hAllowed hNone =>
      rw [expand.eq_def, if_neg hFlag, if_neg hShort] at h
      simp only [if_neg hAllowed, hNone] at h
      exact isOther_unread (hOther hLong hShort) h
  | case6 choice long hFlag hShort marked letter rest hAllowed next hNext hLast =>
      rw [expand.eq_def, if_neg hFlag, if_neg hShort] at h
      simp only [if_neg hAllowed, hNext, if_pos hLast] at h
      cases h
      refine (isOther_single ?_).after (hOther hLong hShort)
      rintro rfl
      exact ofName?_letter letter hNext
  | case7 choice long hFlag hShort marked letter rest hAllowed next hNext hMore ih =>
      rw [expand.eq_def, if_neg hFlag, if_neg hShort] at h
      simp only [if_neg hAllowed, hNext, if_neg hMore] at h
      obtain ⟨found', hFound, h⟩ := except_bind_eq_ok h
      cases h
      refine (ih (fun hNow => ?_) hFound).after (hOther hLong hShort)
      exact absurd (hNow ▸ hNext) (ofName?_letter letter)

theorem isOther_cluster {convention : Convention} {choice : Choice} {long : Bool}
    {attached : Option Attachment} {found : Cluster}
    (hLong : choice = .renderOnly → long = true)
    (hNotAlone : choice = .renderOnly → attached ≠ none)
    (h : cluster convention choice long attached = .ok found) : found.IsOther := by
  cases attached with
  | none =>
      cases h
      exact isOther_single fun hChoice => hNotAlone hChoice rfl
  | some a => exact isOther_expand hLong h

/-! ## Collecting -/

/-- What was collected, without the flag. -/
def Collected.withoutRenderOnly (c : Collected) : Collected :=
  ⟨othersOf c.given, c.leftOver⟩

/-- Whether an option other than the flag is given does not depend on the flag. -/
theorem contains_othersOf (given : List Given) {choice : Choice} (hOther : choice ≠ .renderOnly) :
    ((othersOf given).map Prod.fst).contains choice = (given.map Prod.fst).contains choice := by
  rw [Bool.eq_iff_iff, List.contains_iff_mem, List.contains_iff_mem, List.mem_map, List.mem_map]
  refine ⟨fun ⟨g, hMem, hSame⟩ => ⟨g, (List.mem_filter.mp hMem).1, hSame⟩, fun ⟨g, hMem, hSame⟩ => ?_⟩
  exact ⟨g, List.mem_filter.mpr ⟨hMem, by simp [hSame, hOther]⟩, hSame⟩

theorem withoutRenderOnly_before {given : List Given} (hOther : ∀ g ∈ given, g.1 ≠ .renderOnly)
    (leftOver : List String) (c : Collected) :
    (c.before given leftOver).withoutRenderOnly = c.withoutRenderOnly.before given leftOver := by
  have hSame : othersOf given = given := List.filter_eq_self.mpr fun g hg => by simp [hOther g hg]
  rw [Collected.withoutRenderOnly, Collected.before, othersOf, List.filter_append]
  change Collected.mk (othersOf given ++ _) _ = _
  rw [hSame]
  rfl

/-- What follows a word is collected without the flag if the word is not the flag. -/
theorem following_withoutRenderOnly {given : List Given}
    (hOther : ∀ g ∈ given, g.1 ≠ .renderOnly) (leftOver : List String)
    {rest rest' : Except Fault Collected} {c : Collected}
    (hRest : ∀ more, rest = .ok more → rest' = .ok more.withoutRenderOnly)
    (h : Collected.following given leftOver rest = .ok c) :
    Collected.following given leftOver rest' = .ok c.withoutRenderOnly := by
  rw [Collected.following] at h ⊢
  split at h
  · rename_i hHelp
    cases h
    have hSame : othersOf given = given :=
      List.filter_eq_self.mpr fun g hg => by simp [hOther g hg]
    rw [if_pos hHelp, Collected.withoutRenderOnly, hSame]
  · rename_i hHelp
    obtain ⟨more, hMore, h⟩ := except_bind_eq_ok h
    cases h
    rw [if_neg hHelp, hRest more hMore, withoutRenderOnly_before hOther]
    rfl

/-- Whether options that wait for a value, with those before them in the same word, are others than
the flag. -/
def WaitsForOther (waiting : Option (List Given × Choice)) : Prop :=
  ∀ w ∈ waiting, (∀ g ∈ w.1, g.1 ≠ .renderOnly) ∧ w.2 ≠ .renderOnly

theorem waitsForOther_none : WaitsForOther none :=
  fun _ h => nomatch h

theorem rendersOnly_iff {text : String} {choice : Choice} {long : Bool}
    {attached : Option Attachment} :
    (Item.word text (.named choice long attached)).rendersOnly = true ↔
      choice = .renderOnly ∧ attached = none := by
  cases choice <;> cases attached <;> simp [Item.rendersOnly]

/-- Without the items that are the flag, the rest is collected as before. -/
theorem collect_withoutRenderOnly {convention : Convention}
    {waiting : Option (List Given × Choice)} {items : List Item} {c : Collected}
    (hLong : ∀ text long attached,
      .word text (.named .renderOnly long attached) ∈ items → long = true)
    (hWaiting : WaitsForOther waiting) (h : collect convention waiting items = .ok c) :
    collect convention waiting (items.filter (!·.rendersOnly)) = .ok c.withoutRenderOnly := by
  have hEmpty : ∀ g ∈ ([] : List Given), g.1 ≠ .renderOnly := fun _ h => nomatch h
  induction waiting, items using collect.induct generalizing c with
  | case1 =>
      cases h
      rfl
  | case2 given choice => cases h
  | case3 given choice text rest ih =>
      obtain ⟨hGiven, hChoice⟩ := hWaiting (given, choice) rfl
      have hRest := fun more => ih (c := more)
        (fun t l a ht => hLong t l a (List.mem_cons_of_mem _ ht)) waitsForOther_none
      rw [List.filter_cons_of_pos rfl]
      exact following_withoutRenderOnly (List.forall_mem_append.mpr
        ⟨hGiven, List.forall_mem_singleton.mpr hChoice⟩) [] hRest h
  | case4 given choice item rest hNotPlain =>
      rw [collect] at h
      · cases h
      · exact hNotPlain
  | case5 rest ih =>
      have hRest := fun more => ih (c := more)
        (fun t l a ht => hLong t l a (List.mem_cons_of_mem _ ht)) waitsForOther_none
      rw [List.filter_cons_of_pos rfl]
      exact following_withoutRenderOnly hEmpty ["--"] hRest h
  | case6 text rest ih =>
      have hRest := fun more => ih (c := more)
        (fun t l a ht => hLong t l a (List.mem_cons_of_mem _ ht)) waitsForOther_none
      rw [List.filter_cons_of_pos rfl]
      exact following_withoutRenderOnly hEmpty [text] hRest h
  | case7 text rest ih =>
      have hRest := fun more => ih (c := more)
        (fun t l a ht => hLong t l a (List.mem_cons_of_mem _ ht)) waitsForOther_none
      rw [List.filter_cons_of_pos rfl]
      exact following_withoutRenderOnly hEmpty [text] hRest h
  | case8 text choice long attached rest ihWaiting ih =>
      obtain ⟨found, hFound, h⟩ := except_bind_eq_ok h
      have hLongRest := fun t l a ht => hLong t l a (List.mem_cons_of_mem _ ht)
      have hRest := fun more => ih (c := more) hLongRest waitsForOther_none
      by_cases hFlag : choice = .renderOnly ∧ attached = none
      · obtain ⟨rfl, rfl⟩ := hFlag
        cases hFound
        obtain ⟨more, hMore, h⟩ := except_bind_eq_ok h
        cases h
        rw [List.filter_cons_of_neg (by simp [Item.rendersOnly]), hRest more hMore]
        rfl
      · have hOther := isOther_cluster
          (fun hChoice => hLong text long attached (hChoice ▸ List.mem_cons_self))
          (fun hChoice hAlone => hFlag ⟨hChoice, hAlone⟩) hFound
        have hKept : (Item.word text (.named choice long attached)).rendersOnly = false :=
          Bool.eq_false_iff.mpr (mt rendersOnly_iff.mp hFlag)
        rw [List.filter_cons_of_pos (by rw [hKept]; rfl), collect, hFound]
        cases hWaits : found.waiting with
        | some next =>
            simp only [hWaits] at h
            have hNext : next ≠ .renderOnly := fun hSame => hOther.waiting (hSame ▸ hWaits)
            have hMore := ihWaiting found next hLongRest
              (fun w hw => by cases hw; exact ⟨hOther.complete, hNext⟩) h
            simp only [bind, Except.bind, hWaits]
            exact hMore
        | none =>
            simp only [hWaits] at h
            simp only [bind, Except.bind, hWaits]
            exact following_withoutRenderOnly hOther.complete found.leftOver hRest h

/-! ## Command lines -/

theorem long_of_classifyAll {words : List String} {items : List Item}
    (h : classifyAll words = .ok items) : ∀ text long attached,
      .word text (.named .renderOnly long attached) ∈ items → long = true := by
  induction words generalizing items with
  | nil =>
      cases h
      exact fun _ _ _ hMem => absurd hMem List.not_mem_nil
  | cons word rest ih =>
      intro text long attached hMem
      rw [classifyAll] at h
      split at h
      · cases h
        simp at hMem
      · obtain ⟨kind, hKind, h⟩ := except_bind_eq_ok h
        obtain ⟨more, hMore, h⟩ := except_bind_eq_ok h
        cases h
        rcases List.mem_cons.mp hMem with hSame | hLater
        · cases hSame
          exact long_of_classify hKind
        · exact ih hMore text long attached hLater

/-- Without the flag, the same other options are given. -/
theorem parse_withoutRenderOnly {convention : Convention} {words : List String}
    {given : List Given} (h : parse convention words = .ok given) :
    parse convention (withoutRenderOnly words) = .ok (othersOf given) := by
  obtain ⟨items, hItems, h⟩ := except_bind_eq_ok h
  obtain ⟨c, hCollected, h⟩ := except_bind_eq_ok h
  have hOthers := collect_withoutRenderOnly (long_of_classifyAll hItems) waitsForOther_none hCollected
  have hHelp : ((c.withoutRenderOnly.given).map Prod.fst).contains .help =
      (c.given.map Prod.fst).contains .help := contains_othersOf c.given (by decide)
  have hMissing : missingChoices c.withoutRenderOnly.given = missingChoices c.given := by
    refine List.filter_congr fun choice _ => ?_
    cases choice with
    | renderOnly => rfl
    | _ => rw [Collected.withoutRenderOnly, contains_othersOf _ (by decide)]
  rw [parse, classifyAll_withoutRenderOnly hItems]
  simp only [bind, Except.bind, hOthers, hHelp, hMissing]
  split at h
  · rename_i hGiven
    cases h
    rw [if_pos hGiven]
    rfl
  · rename_i hNotGiven
    split at h
    · cases h
    · rename_i hNone
      split at h
      · cases h
      · rename_i hNothing
        cases h
        have hNothing' : ¬ c.withoutRenderOnly.leftOver ≠ [] := hNothing
        rw [if_neg hNotGiven, if_neg hNone, if_neg hNothing']
        rfl

/-! ## What is asked for -/

/-- Whether the source only is asked for depends on the flag. -/
theorem renderOnly_foldl (given : List Given) (a : Arguments) :
    (given.foldl Arguments.apply a).renderOnly =
      (a.renderOnly || (given.map Prod.fst).contains .renderOnly) := by
  induction given generalizing a with
  | nil => simp
  | cons g rest ih =>
      obtain ⟨choice, value⟩ := g
      rw [List.foldl_cons, ih, List.map_cons, List.contains_cons]
      cases choice with
      | renderOnly => simp [Arguments.apply]
      | _ => rfl

theorem renderOnly_ofGiven (given : List Given) :
    (Arguments.ofGiven given).renderOnly = (given.map Prod.fst).contains .renderOnly :=
  (renderOnly_foldl given {}).trans (Bool.false_or _)

theorem foldl_othersOf (given : List Given) (a a' : Arguments)
    (h : a' = { a with renderOnly := false }) :
    (othersOf given).foldl Arguments.apply a' =
      { given.foldl Arguments.apply a with renderOnly := false } := by
  induction given generalizing a a' with
  | nil => exact h
  | cons g rest ih =>
      obtain ⟨choice, value⟩ := g
      subst h
      cases choice <;> exact ih _ _ rfl

/-- All else that is asked for does not depend on it. -/
theorem ofGiven_othersOf (given : List Given) :
    Arguments.ofGiven (othersOf given) =
      { Arguments.ofGiven given with renderOnly := false } :=
  foldl_othersOf given {} {} rfl

end CircuitBench.CommandLine
