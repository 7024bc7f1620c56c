import CircuitBench.Text.Digit
import CircuitBench.Text.Quoted

/-!
# The words of a command line

A command line is a list of words.  An option is named by a long name after two dashes or by a
letter after one; it is either a flag or takes one value.  The value is the next word, or stands in
the same word: after an equals sign, or right after the letter.  Flags named by letters may share
one word; a letter that takes a value then takes the rest of the word.  A long name may be cut short
as long as no other option starts that way.

What stands in the same word as an option has been read by two conventions.  By the former one, two
dashes there are no value, though the option is given, and an equals sign behind a letter that
shares its word is part of the value.  By the present one, two dashes are a value like any other,
such an equals sign stands before the value, and letters are looked for right behind a flag only.

A word that is a lone dash, a negative number, or an unknown name with a blank in it is no option;
neither is any word after one of two dashes alone.  Words that belong to no option are left over.

All words are first told apart, so that a name that fits two options is refused before anything
else.  Behind a word that asks for help, no other one is looked at.

## Main results

* `classify_exact` : a word that is the name of an option is that option.
* `classifyAll_dashes` : after two dashes, no word is an option.
-/

namespace CircuitBench.CommandLine

open Text

/-! ## Options -/

/-- The options of the command line. -/
inductive Choice
  | help
  | templateFile
  | template
  | publicSignal
  | parameters
  | input
  | config
  | outputFolder
  | renderOnly
  | quiet
  | verbose
deriving DecidableEq, Repr

namespace Choice

/-- All options in order. -/
def all : List Choice :=
  [help, templateFile, template, publicSignal, parameters, input, config, outputFolder, renderOnly,
    quiet, verbose]

/-- The names of an option, each as the word that it is given by. -/
def names : Choice → List String
  | help => ["-h", "--help"]
  | templateFile => ["--template-file", "-f"]
  | template => ["--template", "-t"]
  | publicSignal => ["--public", "-p"]
  | parameters => ["--params"]
  | input => ["--input", "-i"]
  | config => ["--config", "-c"]
  | outputFolder => ["--out-dir", "-o"]
  | renderOnly => ["--render-only"]
  | quiet => ["--quiet"]
  | verbose => ["--verbose", "-v"]

/-- Whether an option takes a value. -/
def takesValue : Choice → Bool
  | help => false
  | renderOnly => false
  | quiet => false
  | verbose => false
  | _ => true

/-- Whether an option must be given. -/
def required : Choice → Bool
  | templateFile => true
  | template => true
  | _ => false

/-- All names of an option, as messages give them. -/
def title (c : Choice) : String :=
  "/".intercalate c.names

/-- All names with their options, in order. -/
def table : List (String × Choice) :=
  all.flatMap fun c => c.names.map fun name => (name, c)

/-- The option of a name. -/
def ofName? (name : String) : Option Choice :=
  (table.find? fun e => e.1 == name).map Prod.snd

end Choice

/-! ## Faults -/

/-- What is wrong with a command line. -/
inductive Fault
  | ambiguous (word : String) (names : List String)
  | expectedValue (choice : Choice)
  | unusedValue (choice : Choice) (text : String)
  | missing (choices : List Choice)
  | leftOver (words : List String)
deriving DecidableEq, Repr

/-- The report of a fault. -/
def Fault.message : Fault → String
  | ambiguous word names =>
    "ambiguous option: " ++ word ++ " could match " ++ ", ".intercalate names
  | expectedValue choice => "argument " ++ choice.title ++ ": expected one argument"
  | unusedValue choice text =>
    "argument " ++ choice.title ++ ": ignored explicit argument " ++ quoted text
  | missing choices =>
    "the following arguments are required: " ++ ", ".intercalate (choices.map Choice.title)
  | leftOver words => "unrecognized arguments: " ++ " ".intercalate words

/-! ## Telling words apart -/

/-- What stands in a word behind a name: a text, which may be marked by an equals sign. -/
structure Attachment where
  marked : Bool
  text : List Char
deriving DecidableEq, Repr

/-- What a word is: one that belongs to no option, a name that no option has, or the name of an
option, long or by a letter, with what stands in the word after it. -/
inductive Word
  | plain
  | unknown
  | named (choice : Choice) (long : Bool) (attached : Option Attachment)
deriving DecidableEq, Repr

/-- Whether a name is a long one. -/
def isLong (name : List Char) : Bool :=
  name.take 2 == ['-', '-']

/-- The part of a word before the first equals sign, and the part after it, if there is one. -/
def splitMark (word : List Char) : List Char × Option Attachment :=
  let name := word.takeWhile (· != '=')
  match word.drop name.length with
  | [] => (name, none)
  | _ :: text => (name, some ⟨true, text⟩)

/-- The names that a word may be meant for, each with what is attached to it. -/
def candidates (word : List Char) : List (String × Word) :=
  if isLong word then
    let (name, attached) := splitMark word
    Choice.table.filterMap fun e =>
      if name.isPrefixOf e.1.toList then some (e.1, .named e.2 (isLong e.1.toList) attached)
      else none
  else
    Choice.table.filterMap fun e =>
      if e.1.toList = word.take 2 then some (e.1, .named e.2 false (some ⟨false, word.drop 2⟩))
      else if word.isPrefixOf e.1.toList then some (e.1, .named e.2 (isLong e.1.toList) none)
      else none

/-- Whether a text is one or more decimal digits. -/
def isDigits (s : List Char) : Bool :=
  !s.isEmpty && s.all fun c => (decimalDigit? c).isSome

/-- A text without a new line at its end. -/
def dropLineEnd (s : List Char) : List Char :=
  if s.getLast? = some '\n' then s.dropLast else s

/-- Whether a word is a negative number: a dash and digits, with a point before some of them or
without. -/
def isNegativeNumber (word : List Char) : Bool :=
  match dropLineEnd word with
  | '-' :: body =>
    let whole := body.takeWhile fun c => (decimalDigit? c).isSome
    match body.drop whole.length with
    | [] => isDigits whole
    | '.' :: fraction => isDigits fraction
    | _ => false
  | _ => false

/-- What a word is that is no exact name. -/
def classifyInexact (word : List Char) : Except Fault Word :=
  match candidates word with
  | [] => .ok (if isNegativeNumber word ∨ word.contains ' ' then .plain else .unknown)
  | [(_, found)] => .ok found
  | several => .error (.ambiguous (String.ofList word) (several.map Prod.fst))

/-- What a word is. -/
def classify (word : List Char) : Except Fault Word :=
  match word with
  | '-' :: rest =>
    match Choice.ofName? (String.ofList word) with
    | some c => .ok (.named c (isLong word) none)
    | none =>
      if rest.isEmpty then .ok .plain
      else
        match splitMark word with
        | (name, some attached) =>
          match Choice.ofName? (String.ofList name) with
          | some c => .ok (.named c (isLong name) (some attached))
          | none => classifyInexact word
        | (_, none) => classifyInexact word
  | _ => .ok .plain

/-- A word of a command line with what it is.  A word of two dashes ends the options, and is the
value of none. -/
inductive Item
  | word (text : String) (kind : Word)
  | dashes
deriving DecidableEq, Repr

/-- Tells the words of a command line apart. -/
def classifyAll : List String → Except Fault (List Item)
  | [] => .ok []
  | text :: rest =>
    if text = "--" then .ok (.dashes :: rest.map fun t => .word t .plain)
    else do
      let kind ← classify text.toList
      let more ← classifyAll rest
      return .word text kind :: more

/-! ## Collecting options -/

/-- By which convention it is read what stands in the same word as an option. -/
inductive Convention
  | former
  | present
deriving DecidableEq, Repr

/-- An option that is given, with its value, if it has one. -/
abbrev Given := Choice × Option String

/-- The options in one word: those that are complete, and the one that waits for the next word.
What no option stands for is left over. -/
structure Cluster where
  complete : List Given
  waiting : Option Choice := none
  leftOver : List String := []

/-- An option in front of those that follow in the same word. -/
def Cluster.after (given : Given) (c : Cluster) : Cluster :=
  { c with complete := given :: c.complete }

/-- An option to which nothing is attached. -/
def Cluster.single (choice : Choice) : Cluster :=
  if choice.takesValue then ⟨[], some choice, []⟩ else ⟨[(choice, none)], none, []⟩

/-- A flag behind which stands what is no letter of an option. -/
def Cluster.unread (convention : Convention) (choice : Choice) (text : List Char) :
    Except Fault Cluster :=
  match convention with
  | .former => .error (.unusedValue choice (String.ofList text))
  | .present => .ok ⟨[(choice, none)], none, [String.ofList ('-' :: text)]⟩

/-- The value that a text in the same word as an option gives it. -/
def attachedValue (convention : Convention) (text : List Char) : Option String :=
  match convention with
  | .former => if text = ['-', '-'] then none else some (String.ofList text)
  | .present => some (String.ofList text)

/-- Whether no letter may stand behind a flag: there is a mark, or a dash. -/
def Convention.forbids (convention : Convention) (marked : Bool) (letter : Char) : Bool :=
  convention == .present && (marked || letter == '-')

/-- What is attached to a letter behind which stands a text. -/
def Convention.attach (convention : Convention) (text : List Char) : Attachment :=
  match convention, text with
  | .present, '=' :: value => ⟨true, value⟩
  | _, _ => ⟨false, text⟩

theorem Convention.length_attach_le (convention : Convention) (text : List Char) :
    (convention.attach text).text.length ≤ text.length := by
  rw [attach.eq_def]
  split
  · exact Nat.le_succ _
  · exact Nat.le_refl _

/-- An option of a word with what is attached to it: its value, or further options by their
letters. -/
def expand (convention : Convention) (choice : Choice) (long : Bool) (a : Attachment) :
    Except Fault Cluster :=
  if choice.takesValue then .ok { complete := [(choice, attachedValue convention a.text)] }
  else if long then .error (.unusedValue choice (String.ofList a.text))
  else
    match a with
    | ⟨_, []⟩ => .error (.unusedValue choice "")
    | ⟨marked, letter :: rest⟩ =>
      if convention.forbids marked letter then
        .error (.unusedValue choice (String.ofList (letter :: rest)))
      else
        match Choice.ofName? (String.ofList ['-', letter]) with
        | none => Cluster.unread convention choice (letter :: rest)
        | some next =>
          if rest.isEmpty then .ok ((Cluster.single next).after (choice, none))
          else do
            let found ← expand convention next false (convention.attach rest)
            return found.after (choice, none)
termination_by a.text.length
decreasing_by exact Nat.lt_succ_of_le (convention.length_attach_le rest)

/-- The options of a word. -/
def cluster (convention : Convention) (choice : Choice) (long : Bool) :
    Option Attachment → Except Fault Cluster
  | none => .ok (Cluster.single choice)
  | some a => expand convention choice long a

/-- The options that are given, in order, and the words that are left over. -/
structure Collected where
  given : List Given := []
  leftOver : List String := []

/-- Options in front of others. -/
def Collected.before (given : List Given) (leftOver : List String) (c : Collected) : Collected :=
  ⟨given ++ c.given, leftOver ++ c.leftOver⟩

/-- The options of a word with those of the words behind it.  These are not looked at if the word
asks for help. -/
def Collected.following (given : List Given) (leftOver : List String)
    (rest : Except Fault Collected) : Except Fault Collected :=
  if (given.map Prod.fst).contains .help then .ok ⟨given, leftOver⟩
  else do
    let more ← rest
    return more.before given leftOver

/-- Collects the options of items, given the options of the word before that wait for a value
together with the last of them. -/
def collect (convention : Convention) :
    Option (List Given × Choice) → List Item → Except Fault Collected
  | none, [] => .ok {}
  | some (_, choice), [] => .error (.expectedValue choice)
  | some (given, choice), .word text .plain :: rest =>
    Collected.following (given ++ [(choice, some text)]) [] (collect convention none rest)
  | some (_, choice), _ :: _ => .error (.expectedValue choice)
  | none, .dashes :: rest => Collected.following [] ["--"] (collect convention none rest)
  | none, .word text .plain :: rest =>
    Collected.following [] [text] (collect convention none rest)
  | none, .word text .unknown :: rest =>
    Collected.following [] [text] (collect convention none rest)
  | none, .word _ (.named choice long attached) :: rest => do
    let found ← cluster convention choice long attached
    match found.waiting with
    | some waiting => collect convention (some (found.complete, waiting)) rest
    | none => Collected.following found.complete found.leftOver (collect convention none rest)

/-- The required options that are not given. -/
def missingChoices (given : List Given) : List Choice :=
  Choice.all.filter fun c => c.required && !(given.map Prod.fst).contains c

/-- The options that a command line gives. -/
def parse (convention : Convention) (words : List String) : Except Fault (List Given) := do
  let items ← classifyAll words
  let collected ← collect convention none items
  if (collected.given.map Prod.fst).contains .help then return collected.given
  else if missingChoices collected.given ≠ [] then
    .error (.missing (missingChoices collected.given))
  else if collected.leftOver ≠ [] then .error (.leftOver collected.leftOver)
  else return collected.given

/-! ## Laws -/

theorem classify_exact {rest : List Char} {c : Choice}
    (h : Choice.ofName? (String.ofList ('-' :: rest)) = some c) :
    classify ('-' :: rest) = .ok (.named c (isLong ('-' :: rest)) none) := by
  simp only [classify, h]

theorem classifyAll_dashes (words : List String) :
    classifyAll ("--" :: words) = .ok (.dashes :: words.map fun t => .word t .plain) := by
  simp [classifyAll]

end CircuitBench.CommandLine
