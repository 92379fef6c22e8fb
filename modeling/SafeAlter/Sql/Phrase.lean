import SafeAlter.Text.Blank
import SafeAlter.Text.WordCharacter

/-! # Phrases in a text

A phrase is a row of keywords with blank text between them. It is looked for in the bare text, so
that quotes and comments are text like any other: it has to start at the start of a word and to
close as it says. The letters of a keyword match in any case, which for K and S takes in the
Kelvin sign and the long s.
-/
namespace SafeAlter.Sql
open SafeAlter.Text

inductive Closing where
  /-- The last keyword is a whole word. -/
  | wordEnd
  | blank
  /-- An equals sign follows, after blank text or at once. -/
  | equals
  deriving DecidableEq, Repr

structure Phrase where
  keywords : List String
  closing : Closing

/-- Whether a character is a capital letter up to letter case. -/
def matchesLetter (capital c : Char) : Bool :=
  c.toUpper == capital || (capital == 'K' && c == '\u212A') || (capital == 'S' && c == '\u017F')

def afterKeyword? : List Char → List Char → Option (List Char)
  | [], s => some s
  | _ :: _, [] => none
  | k :: ks, c :: s => if matchesLetter k c then afterKeyword? ks s else none

/-- What follows a row of keywords, blank text between them, at the front of a text. -/
def afterKeywords? : List (List Char) → List Char → Option (List Char)
  | [], s => some s
  | [k], s => afterKeyword? k s
  | k :: ks, s =>
    match afterKeyword? k s with
    | some (c :: rest) => if isBlank c then afterKeywords? ks (trimStart rest) else none
    | _ => none

def Closing.holds (closing : Closing) (rest : List Char) : Bool :=
  match closing with
  | .wordEnd => !rest.head?.any isWordCharacter
  | .blank => rest.head?.any isBlank
  | .equals => (trimStart rest).head? == some '='

/-- Whether a phrase stands at the front of a text that follows a given character. -/
def Phrase.startsAt (p : Phrase) (before : Option Char) (s : List Char) : Bool :=
  !before.any isWordCharacter &&
    (afterKeywords? (p.keywords.map String.toList) s).any p.closing.holds

/-- Whether a phrase stands in a text that follows a given character. -/
def Phrase.occursAfter (p : Phrase) (before : Option Char) : List Char → Bool
  | [] => p.startsAt before []
  | c :: s => p.startsAt before (c :: s) || p.occursAfter (some c) s

def Phrase.occursIn (p : Phrase) (s : List Char) : Bool :=
  p.occursAfter none s

end SafeAlter.Sql
