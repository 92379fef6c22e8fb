import SafeAlter.Sql.Lexeme

/-! # The statements of a script

A script is cut at the statement terminators among its lexemes. A statement reaches from the first
to the last of the lexemes of a section that are not blank, and a section that has none is no
statement. Each lexeme is known by the bytes it takes up, and a statement is cut out of the script
by its bytes, so that it keeps the spelling it has there.
-/
namespace SafeAlter.Sql
open SafeAlter.Text

def Lexeme.isBlank (l : Lexeme) : Bool := l.kind == .blank

def Lexeme.isTerminator (l : Lexeme) : Bool := l.kind == .terminator

def dropBlank (ls : List Lexeme) : List Lexeme :=
  ls.dropWhile Lexeme.isBlank

structure PlacedLexeme where
  kind : LexemeKind
  span : Span
  deriving DecidableEq, Repr

/-- The bytes of lexemes that follow one another from a location on. A cursor finds them, which
visits the start and the end of each lexeme in turn. -/
def placedFrom (cursor : Cursor) (place : Location) : List Lexeme → List PlacedLexeme
  | [] => []
  | l :: ls =>
    let stop := place.after l.spelling
    let atStart := cursor.seek place
    let atStop := atStart.seek stop
    ⟨l.kind, ⟨atStart.offset, atStop.offset⟩⟩ :: placedFrom atStop stop ls

def placedLexemes (script : List Char) : Except LexicalError (List PlacedLexeme) := do
  return placedFrom (Cursor.start script) Location.start (← lexemes script)

/-- The spans of the statements among lexemes, given that of a statement that has begun. Blank
lexemes are in a statement only if a lexeme that is not blank follows. -/
def statementSpans (begun : Option Span) : List PlacedLexeme → List Span
  | [] => begun.toList
  | l :: ls =>
    match l.kind with
    | .terminator => begun.toList ++ statementSpans none ls
    | .blank => statementSpans begun ls
    | _ => statementSpans (some ⟨(begun.map Span.start).getD l.span.start, l.span.stop⟩) ls

/-- The statements of a script, in order. -/
def statementsOf (script : List Char) : Except LexicalError (List (List Char)) := do
  return (statementSpans none (← placedLexemes script)).map (·.cut script)

def statements (script : String) : Except LexicalError (List String) := do
  return (← statementsOf script.toList).map String.ofList

end SafeAlter.Sql
