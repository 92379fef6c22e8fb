import SafeAlter.Program

/-! # Finding a table on the server

A name that says no database is completed with the database in use, which is asked of the server
for such a name only.
-/
namespace SafeAlter
open SafeAlter.Sql

def resolve (name : TableName) : Act QualifiedTable :=
  match name.database with
  | some database => return ⟨database, name.table⟩
  | none => do
    match ← Act.ask .currentDatabase with
    | some database => return ⟨database, name.table⟩
    | none => throw (.metadata (.noDatabase name.table))

end SafeAlter
