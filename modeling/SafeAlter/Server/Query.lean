import SafeAlter.Failure
import SafeAlter.Sql.TableName

/-! # Questions to the server

All that is asked of a database server, each question with the type of its answer. Only one of
them changes anything.
-/
namespace SafeAlter
open SafeAlter.Sql

/-- The sum of two byte counts, or the greatest count there is. -/
def saturatingAdd (a b : UInt64) : UInt64 :=
  UInt64.ofNat (min (a.toNat + b.toNat) (UInt64.size - 1))

structure Footprint where
  data : UInt64
  index : UInt64
  deriving DecidableEq, Repr

def Footprint.total (f : Footprint) : UInt64 :=
  saturatingAdd f.data f.index

inductive Query where
  | version
  /-- The value of a system variable; there is none where it is null. -/
  | systemVariable (name : String)
  /-- The value that the server lists for a variable, if it lists it. -/
  | listedVariable (name : String)
  | currentDatabase
  /-- The storage engine of a table, if the table exists. -/
  | storageEngine (table : QualifiedTable)
  | rowCount (table : QualifiedTable)
  | footprint (table : QualifiedTable)
  /-- The bytes of all tables of a database. -/
  | databaseBytes (database : String)
  | hasPrimaryKey (table : QualifiedTable)
  /-- Whether some unique key has no column that may be null. -/
  | hasUniqueKey (table : QualifiedTable)
  | hasForeignKeys (table : QualifiedTable)
  | hasTriggers (table : QualifiedTable)
  /-- Runs a statement that changes a table. -/
  | execute (statement : String)
  deriving DecidableEq, Repr

abbrev Query.Answer : Query → Type
  | .version => String
  | .systemVariable _ | .listedVariable _ | .currentDatabase | .storageEngine _ => Option String
  | .rowCount _ | .databaseBytes _ => UInt64
  | .footprint _ => Footprint
  | .hasPrimaryKey _ | .hasUniqueKey _ | .hasForeignKeys _ | .hasTriggers _ => Bool
  | .execute _ => Unit

end SafeAlter
