import SafeAlter.Server.Probe

/-! # Reports of a validation

For every statement a report says what is known of its table, whether the change can be made in
place, and, if not, whether it can be made by copy. The report of a batch begins with the server.
-/
namespace SafeAlter

structure StatementReport where
  statement : String
  tableName : String
  storageEngine : String
  engineValid : Bool
  onlinePossible : Bool
  onlineReason : String
  /-- Looked into only where the change cannot be made in place. -/
  copyPossible : Bool
  copyReason : String
  rows : UInt64
  megabytes : Float
  warnings : List String
  errors : List String

namespace StatementReport

def blank (statement : String) : StatementReport :=
  ⟨statement, "", "", false, false, "", false, "", 0, 0.0, [], []⟩

end StatementReport

structure Report where
  flavor : Flavor
  version : String
  binaryLog : Bool
  statements : List StatementReport
  warnings : List String
  errors : List String

def Report.hasErrors (r : Report) : Bool :=
  !r.errors.isEmpty || r.statements.any fun s => !s.errors.isEmpty

end SafeAlter
