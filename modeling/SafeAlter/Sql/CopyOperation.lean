import SafeAlter.Sql.Phrase

/-! # Alterations that copy the table

Most alterations run in place while the table stays in use. A few rebuild the table from a copy
and block its writers; they are told by their first words. This is a reading of the bare text and
errs on the side of caution: the server has the last word when the change is made.
-/
namespace SafeAlter.Sql

/-- The alterations that copy the table, by the phrase that tells them and by their name. -/
def copyOperations : List (Phrase × String) :=
  [(⟨["ADD", "FULLTEXT"], .wordEnd⟩, "ADD FULLTEXT INDEX"),
   (⟨["ADD", "SPATIAL"], .wordEnd⟩, "ADD SPATIAL INDEX"),
   (⟨["DROP", "PRIMARY", "KEY"], .wordEnd⟩, "DROP PRIMARY KEY"),
   (⟨["MODIFY", "COLUMN"], .wordEnd⟩, "MODIFY COLUMN"),
   (⟨["MODIFY"], .blank⟩, "MODIFY"),
   (⟨["CHANGE", "COLUMN"], .wordEnd⟩, "CHANGE COLUMN"),
   (⟨["CHANGE"], .blank⟩, "CHANGE")]

def blockingOperation (clause : String) : Option String :=
  (copyOperations.find? fun o => o.1.occursIn clause.toList).map Prod.snd

def isOnline (clause : String) : Bool :=
  (blockingOperation clause).isNone

end SafeAlter.Sql
