import SafeAlter.Sql.Lexeme

/-! # Faults of a statement

The reasons for which a statement is refused before a server sees it, and their wording.
-/
namespace SafeAlter.Sql

inductive StatementFault where
  /-- The text is no row of lexemes. -/
  | unreadable (error : LexicalError)
  | notAlterTable
  | invalidName (written : String)
  | nameless
  /-- Nothing follows the table name. -/
  | nothingToAlter
  | noStatements
  /-- A refusal in words of its own. -/
  | reported (text : String)
  deriving DecidableEq, Repr

def StatementFault.message : StatementFault → String
  | .unreadable e => e.message
  | .notAlterTable => "statement is not an ALTER TABLE statement"
  | .invalidName written => s!"invalid table name '{written}'"
  | .nameless => "could not extract table name from DDL statement"
  | .nothingToAlter => "no ALTER specification found after the table name"
  | .noStatements => "no statements given; pass ALTER TABLE statements or --file"
  | .reported text => text

end SafeAlter.Sql
