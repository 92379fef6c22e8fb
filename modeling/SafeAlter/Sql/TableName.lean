import SafeAlter.Text.Search
import SafeAlter.Text.Blank
import SafeAlter.Sql.Fault

/-! # Table names

The name of the table is read from the text of an ALTER TABLE statement, right after those two
words: one or two identifiers, joined by a period, each in backticks or plain. A text that starts
with no identifier is given a second chance by its first word, read without its backticks.
-/
namespace SafeAlter.Sql
open SafeAlter.Text

/-- A table name as it is written; it need not say in which database the table is. -/
structure TableName where
  database : Option String
  table : String
  deriving DecidableEq, Repr

structure QualifiedTable where
  database : String
  table : String
  deriving DecidableEq, Repr

def QualifiedTable.text (t : QualifiedTable) : String :=
  t.database ++ "." ++ t.table

def TableName.text (n : TableName) : String :=
  match n.database with
  | some d => d ++ "." ++ n.table
  | none => n.table

/-- The table that a name stands for where `current` is the database in use. -/
def TableName.within (n : TableName) (current : String) : QualifiedTable :=
  ⟨n.database.getD current, n.table⟩

/-- A character that may stand in a plain identifier. -/
def isPlain (c : Char) : Bool :=
  !isBlank c && !(['\x60', '.', ',', ';', '('].contains c)

/-- The identifier at the front of a text, without its backticks, and what follows it. -/
def identifier : List Char → Option Piece
  | [] => none
  | c :: s =>
    if c = '\x60' then
      let name := s.takeWhile (· ≠ '\x60')
      match s.dropWhile (· ≠ '\x60') with
      | [] => none
      | _ :: rest => if name.isEmpty then none else some (name, rest)
    else
      let name := stretch isPlain (c :: s)
      if name.1.isEmpty then none else some name

/-- The name that a text starts with. A period counts only if a second identifier follows it. -/
def leadingName (s : List Char) : Option TableName :=
  match identifier s with
  | none => none
  | some (first, rest) =>
    match rest with
    | '.' :: rest =>
      match identifier rest with
      | some (second, _) => some ⟨some (String.ofList first), String.ofList second⟩
      | none => some ⟨none, String.ofList first⟩
    | _ => some ⟨none, String.ofList first⟩

/-- Reads `table` or `database.table`, taking no notice of backticks. -/
def TableName.parse (written : String) : Except StatementFault TableName :=
  let bare := (trim written.toList).filter (· ≠ '\x60')
  match cutFirst '.' bare with
  | some (database, table) =>
    if database.isEmpty || table.isEmpty then .error (.invalidName written)
    else .ok ⟨some (String.ofList database), String.ofList table⟩
  | none =>
    if bare.isEmpty then .error (.invalidName written) else .ok ⟨none, String.ofList bare⟩

/-- What follows the words ALTER TABLE at the front of a text and the blank text after them. No
word end is asked for. -/
def afterAlterTable? (s : List Char) : Option (List Char) :=
  (afterIgnoringCase? "ALTER TABLE".toList s).map trimStart

def tableNameOf (statement : List Char) : Except StatementFault TableName :=
  match afterAlterTable? (trim statement) with
  | none => .error .notAlterTable
  | some rest =>
    match leadingName rest with
    | some name => .ok name
    | none =>
      match words rest with
      | [] => .error .nameless
      | word :: _ => TableName.parse (String.ofList word)

def extractTableName (statement : String) : Except StatementFault TableName :=
  tableNameOf statement.toList

end SafeAlter.Sql
