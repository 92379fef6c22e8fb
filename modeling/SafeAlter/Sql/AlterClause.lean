import SafeAlter.Sql.Script
import SafeAlter.Sql.TableName

/-! # The alteration part of a statement

The clause of an ALTER TABLE statement is what follows the table name, without the terminators at
its end. It is found among the lexemes; where the text has none, because a quote is left open,
say, the first word that starts like an alteration marks where the clause begins.
-/
namespace SafeAlter.Sql
open SafeAlter.Text

/-- Whether a lexeme is a given word, written without backticks and in any letter case. -/
def Lexeme.isKeyword (l : Lexeme) (keyword : String) : Bool :=
  l.kind == .word false && sameIgnoringCase l.spelling keyword.toList

def Lexeme.isWord (l : Lexeme) : Bool := Sql.isWord l.kind

/-- The lexemes after a table name whose first word has just been read. Nothing may stand between
a database, the period and the table. -/
def afterQualifier : List Lexeme → List Lexeme
  | p :: t :: ls => if p.kind == .period && t.isWord then ls else p :: t :: ls
  | ls => ls

/-- The lexemes after the table name of an ALTER TABLE statement. -/
def afterTableName? (ls : List Lexeme) : Option (List Lexeme) :=
  match dropBlank ls with
  | [] => none
  | a :: ls =>
    match dropBlank ls with
    | [] => none
    | t :: ls =>
      match dropBlank ls with
      | [] => none
      | n :: ls =>
        if a.isKeyword "ALTER" && t.isKeyword "TABLE" && n.isWord then some (afterQualifier ls)
        else none

/-- The words that an alteration may start with. -/
def alterationKeywords : List String :=
  ["ADD", "DROP", "MODIFY", "CHANGE", "ALTER", "RENAME"]

/-- The capital form of a character, as far as it has ASCII letters in it. -/
def capital (c : Char) : List Char :=
  match c with
  | 'ß' => ['S', 'S']
  | 'ı' => ['I']
  | 'ŉ' => ['ʼ', 'N']
  | 'ſ' => ['S']
  | 'ǰ' => ['J', '\u030C']
  | 'ẖ' => ['H', '\u0331']
  | 'ẗ' => ['T', '\u0308']
  | 'ẘ' => ['W', '\u030A']
  | 'ẙ' => ['Y', '\u030A']
  | 'ẚ' => ['A', 'ʾ']
  | 'ﬀ' => ['F', 'F']
  | 'ﬁ' => ['F', 'I']
  | 'ﬂ' => ['F', 'L']
  | 'ﬃ' => ['F', 'F', 'I']
  | 'ﬄ' => ['F', 'F', 'L']
  | 'ﬅ' => ['S', 'T']
  | 'ﬆ' => ['S', 'T']
  | c => [c.toUpper]

def startsAlteration (word : List Char) : Bool :=
  alterationKeywords.any fun k => k.toList.isPrefixOf (word.flatMap capital)

/-- The clause of a text that is no row of lexemes: from the first word, after the three that hold
the name, that starts like an alteration. -/
def clauseFromWords (s : List Char) : List Char :=
  match words s, afterAlterTable? s with
  | _ :: _ :: _ :: rest, some _ =>
    match rest.dropWhile (!startsAlteration ·) with
    | [] => [' '].intercalate rest
    | found => [' '].intercalate found
  | _, _ => s

/-- The alteration part of an ALTER TABLE statement. Any other statement is its own clause. -/
def clauseOf (statement : List Char) : List Char :=
  let s := trim statement
  match lexemes s with
  | .error _ => clauseFromWords s
  | .ok ls =>
    match afterTableName? ls with
    | some rest => dropTerminators (trim (spelled rest))
    | none => s

def alterClause (statement : String) : String :=
  String.ofList (clauseOf statement.toList)

end SafeAlter.Sql
