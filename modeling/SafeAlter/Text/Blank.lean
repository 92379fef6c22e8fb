/-! # Blank text

Blank characters are those of the Unicode property White_Space. Trimming removes them from the
two ends of a text and nothing else; the words of a text are its longest stretches without one.
-/
namespace SafeAlter.Text

/-- Whether the code point of a character lies in one of the closed ranges. -/
def inRanges (ranges : List (Nat × Nat)) (c : Char) : Bool :=
  ranges.any fun r => r.1 ≤ c.toNat && c.toNat ≤ r.2

def blankRanges : List (Nat × Nat) :=
  [(0x09, 0x0D), (0x20, 0x20), (0x85, 0x85), (0xA0, 0xA0), (0x1680, 0x1680), (0x2000, 0x200A),
   (0x2028, 0x2029), (0x202F, 0x202F), (0x205F, 0x205F), (0x3000, 0x3000)]

def isBlank (c : Char) : Bool :=
  inRanges blankRanges c

/-- The text without its longest end that lies in a class. -/
def dropEndWhile (p : Char → Bool) (s : List Char) : List Char :=
  (s.reverse.dropWhile p).reverse

def trimStart (s : List Char) : List Char :=
  s.dropWhile isBlank

def trimEnd (s : List Char) : List Char :=
  dropEndWhile isBlank s

def trim (s : List Char) : List Char :=
  trimEnd (trimStart s)

def words (s : List Char) : List (List Char) :=
  (s.splitOnP isBlank).filter (!·.isEmpty)

/-- A statement without the run of `;` at its end, and without the blank text before that run. -/
def dropTerminators (s : List Char) : List Char :=
  trimEnd (dropEndWhile (· == ';') s)

def trimmed (s : String) : String :=
  String.ofList (trim s.toList)

example : (blankRanges.map fun r => r.2 + 1 - r.1).sum = 25 := rfl

end SafeAlter.Text
