/-! # Searching a text

A text is cut at the first or the last occurrence of a character, searched for another text, and
changed by leaving out a given beginning or by replacing the occurrences of another text from left
to right. Letter case, where it is ignored, is that of the ASCII letters only.
-/
namespace SafeAlter.Text

def cutFirst (mark : Char) : List Char → Option (List Char × List Char)
  | [] => none
  | c :: s =>
    if c = mark then some ([], s)
    else (cutFirst mark s).map fun p => (c :: p.1, p.2)

def cutLast (mark : Char) : List Char → Option (List Char × List Char)
  | [] => none
  | c :: s =>
    match cutLast mark s with
    | some p => some (c :: p.1, p.2)
    | none => if c = mark then some ([], s) else none

/-- The text without a given beginning, or all of it where it begins otherwise. -/
def withoutStart (start s : List Char) : List Char :=
  (start.isPrefixOf? s).getD s

def occursIn (needle : List Char) : List Char → Bool
  | [] => needle.isEmpty
  | c :: s => needle.isPrefixOf (c :: s) || occursIn needle s

/-- The text with every occurrence of `old` replaced, found from left to right and not
overlapping. An empty `old` is found nowhere. -/
def replaceAll (old new : List Char) : List Char → List Char
  | [] => []
  | c :: s =>
    if !old.isEmpty && old.isPrefixOf (c :: s) then
      new ++ replaceAll old new (s.drop (old.length - 1))
    else c :: replaceAll old new s
  termination_by s => s.length
  decreasing_by all_goals simp; try omega

def lowerCase (s : List Char) : List Char :=
  s.map Char.toLower

def sameIgnoringCase (s t : List Char) : Bool :=
  lowerCase s == lowerCase t

/-- What follows a given beginning, whose ASCII letters may have any case. -/
def afterIgnoringCase? (start s : List Char) : Option (List Char) :=
  if sameIgnoringCase start (s.take start.length) then some (s.drop start.length) else none

def occursInIgnoringCase (needle s : List Char) : Bool :=
  occursIn (lowerCase needle) (lowerCase s)

end SafeAlter.Text
