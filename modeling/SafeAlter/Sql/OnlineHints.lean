import SafeAlter.Sql.Phrase

/-! # Asking for an alteration in place

A statement asks the server to alter a table in place, without a lock, by two settings at its end.
A setting that the text names already is left as it is.
-/
namespace SafeAlter.Sql
open SafeAlter.Text

def algorithmPhrase : Phrase := ⟨["ALGORITHM"], .equals⟩

def lockPhrase : Phrase := ⟨["LOCK"], .equals⟩

def missingHints (s : List Char) : List Char :=
  (if algorithmPhrase.occursIn s then [] else ", ALGORITHM=INPLACE".toList) ++
    (if lockPhrase.occursIn s then [] else ", LOCK=NONE".toList)

/-- A statement, without the terminators at its end, that asks for an alteration in place. -/
def hinted (statement : List Char) : List Char :=
  dropTerminators (trim statement) ++ missingHints (trim statement)

def withOnlineHints (statement : String) : String :=
  String.ofList (hinted statement.toList)

end SafeAlter.Sql
