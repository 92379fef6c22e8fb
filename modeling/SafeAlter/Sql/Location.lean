/-! # Places in a text

A place is named in two ways: by its line and column, both counted from one in characters, or by
the number of bytes in front of it. A cursor walks a text once, forward, and turns the first name
into the second. Two places of the second kind cut a piece out of the text.
-/
namespace SafeAlter.Sql

structure Location where
  line : Nat
  column : Nat
  deriving DecidableEq, Repr

namespace Location

/-- The place in front of the first character. -/
def start : Location := ⟨1, 1⟩

def next (l : Location) (c : Char) : Location :=
  if c = '\n' then ⟨l.line + 1, 1⟩ else ⟨l.line, l.column + 1⟩

/-- The place reached by reading a text from a given place. -/
def after (l : Location) (s : List Char) : Location :=
  s.foldl next l

/-- The order in which the places of a text are met. -/
def isBefore (l m : Location) : Bool :=
  l.line < m.line || (l.line == m.line && l.column < m.column)

end Location

/-- The number of bytes of a text in UTF-8. -/
def byteLength : List Char → Nat
  | [] => 0
  | c :: s => c.utf8Size + byteLength s

theorem byteLength_append (s t : List Char) :
    byteLength (s ++ t) = byteLength s + byteLength t := by
  induction s with
  | nil => simp [byteLength]
  | cons c s ih => simp [byteLength, ih, Nat.add_assoc]

/-- A position in a text: what is still unread, and both names of the place. -/
structure Cursor where
  unread : List Char
  location : Location
  offset : Nat

namespace Cursor

def start (s : List Char) : Cursor := ⟨s, Location.start, 0⟩

/-- Moves forward to a location, or to the end of a text that has no such location. -/
def seek (target : Location) : Cursor → Cursor
  | ⟨[], l, n⟩ => ⟨[], l, n⟩
  | ⟨c :: s, l, n⟩ =>
    if l.isBefore target then seek target ⟨s, l.next c, n + c.utf8Size⟩ else ⟨c :: s, l, n⟩
  termination_by k => k.unread.length

/-- The byte offsets of locations that are visited one after another. -/
def offsets : Cursor → List Location → List Nat
  | _, [] => []
  | k, l :: ls => (k.seek l).offset :: offsets (k.seek l) ls

end Cursor

/-- The bytes of a text from one offset up to another. -/
structure Span where
  start : Nat
  stop : Nat
  deriving DecidableEq, Repr

/-- The text without its first bytes. -/
def dropBytes (n : Nat) : List Char → List Char
  | [] => []
  | c :: s => if n = 0 then c :: s else dropBytes (n - c.utf8Size) s

/-- The first bytes of a text. -/
def takeBytes (n : Nat) : List Char → List Char
  | [] => []
  | c :: s => if n = 0 then [] else c :: takeBytes (n - c.utf8Size) s

/-- The characters that begin in a span of a text. -/
def Span.cut (span : Span) (text : List Char) : List Char :=
  takeBytes (span.stop - span.start) (dropBytes span.start text)

end SafeAlter.Sql
