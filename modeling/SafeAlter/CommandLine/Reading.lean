import SafeAlter.CommandLine.Usage

/-! # Reading the words of a command line

Words are read from left to right. A word that starts with a hyphen names options, the word behind
an option without a value of its own is that value, and every other word fills the next place.
After the word `--` all words fill places. What was gathered for an item is taken down only when
the next item comes, so that a word which cannot be read at all is told first.
-/
namespace SafeAlter.CommandLine
open SafeAlter.Text

/-- The options and places that a command knows. -/
structure Vocabulary where
  options : List (String × Item)
  /-- Options by a single letter; only flags have one. -/
  letters : List (Char × Item)
  places : List Item

inductive Word where
  | divider
  | option (name : String) (value : Option String)
  | letters (cs : List Char)
  | plain
  deriving DecidableEq, Repr

/-- A single hyphen is a word like any other. -/
def Word.ofString (s : String) : Word :=
  match s.toList with
  | ['-', '-'] => .divider
  | '-' :: '-' :: cs =>
    match cutFirst '=' cs with
    | some (name, value) => .option (String.ofList name) (some (String.ofList value))
    | none => .option (String.ofList cs) none
  | '-' :: c :: cs => .letters (c :: cs)
  | _ => .plain

/-- A draft, and an item with what was gathered for it but not yet taken down. -/
structure Reading where
  draft : Draft
  gathered : Option (Item × Option String)

namespace Reading

def empty : Reading := ⟨{}, none⟩

def awaitsValue (r : Reading) : Bool :=
  match r.gathered with
  | some (_, none) => true
  | _ => false

def settled (r : Reading) : Except UsageFault Draft :=
  match r.gathered with
  | none => .ok r.draft
  | some (item, none) => .error (.withoutValue item)
  | some (item, some value) => r.draft.set item value

/-- Goes on to an item whose value is complete. -/
def give (r : Reading) (item : Item) (value : String) : Except UsageFault Reading := do
  return ⟨← (← r.settled).set item value, none⟩

/-- Goes on to an item whose value is gathered. -/
def gather (r : Reading) (item : Item) (value : Option String) : Except UsageFault Reading := do
  return ⟨← r.settled, some (item, value)⟩

def takeLetters (v : Vocabulary) (word : String) (r : Reading) :
    List Char → Except UsageFault Reading
  | [] => .ok r
  | c :: cs => do
    let item ← orRefuse (.unknownArgument word) (v.letters.lookup c)
    (← r.give item "").takeLetters v word cs

/-- Reads a word as options or as the value of one, if it is either. -/
def takeOption (v : Vocabulary) (word : String) (r : Reading) :
    Except UsageFault (Option Reading) :=
  match Word.ofString word with
  | .option name value => do
    let item ← orRefuse (.unknownArgument word) (v.options.lookup name)
    match item.isFlag, value with
    | false, some value => return some (← r.give item value)
    | false, none => return some (← r.gather item none)
    | true, some value => throw (.unneededValue item value)
    | true, none => return some (← r.give item "")
  | .letters cs => return some (← r.takeLetters v word cs)
  | .divider | .plain =>
    match r.gathered with
    | some (item, none) => return some ⟨r.draft, some (item, some word)⟩
    | _ => return none

/-- Fills the next place with a word, and tells the places that are left. -/
def takePlace (word : String) (r : Reading) :
    List Item → Except UsageFault (Reading × List Item)
  | [] => .error (.unknownArgument word)
  | item :: later => do
    return (← r.gather item (some word), if item.repeats then item :: later else later)

def takePlaces (r : Reading) (places : List Item) : List String → Except UsageFault Draft
  | [] => r.settled
  | word :: rest => do
    let (r, places) ← r.takePlace word places
    r.takePlaces places rest

def takeWords (v : Vocabulary) (r : Reading) (places : List Item) :
    List String → Except UsageFault Draft
  | [] => r.settled
  | word :: rest =>
    if Word.ofString word = .divider then r.takePlaces places rest
    else do
      match ← r.takeOption v word with
      | some r => r.takeWords v places rest
      | none =>
        let (r, places) ← r.takePlace word places
        r.takeWords v places rest

end Reading

end SafeAlter.CommandLine
