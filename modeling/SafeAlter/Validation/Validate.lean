import SafeAlter.Backup.Capacity
import SafeAlter.Server.Table
import SafeAlter.Sql.AlterClause
import SafeAlter.Sql.CopyOperation
import SafeAlter.Validation.Prerequisite
import SafeAlter.Validation.Report

/-! # Validating statements

Statements are validated one by one against the server, without changing anything there. Only the
probe of the server can fail; what is wrong with a statement is said in its report, and every
statement has one.
-/
namespace SafeAlter
open SafeAlter.Text SafeAlter.Sql

namespace Validation

def missingTable : String := "Table does not exist"

def noBinaryLog : String := "Binary log is not enabled"

def engineReason : String := "Storage engine is not InnoDB - Online DDL requires InnoDB"

def onlineReason : String :=
  "Operation supports Online DDL (ALGORITHM=INPLACE, LOCK=NONE); " ++
    "the server makes the final decision when the change is executed"

def copyReason (operation : String) : String :=
  s!"{operation} does not support Online DDL (ALGORITHM=INPLACE, LOCK=NONE) - will use table lock"

def isInnoDb (engine : String) : Bool :=
  sameIgnoringCase engine.toList "InnoDB".toList

/-- Whether a statement can run in place on a table with an engine, and why. -/
def judgeOnline (engineValid : Bool) (statement : String) : Bool × String :=
  if engineValid then
    match blockingOperation (alterClause statement) with
    | none => (true, onlineReason)
    | some operation => (false, copyReason operation)
  else (false, engineReason)

/-- The bytes of a table in megabytes, or zero if the server does not tell them. -/
def tableSize (table : QualifiedTable) : Program Float := do
  match ← (Act.ask (.footprint table)).run with
  | .ok f => return Capacity.megabytes f.total
  | .error e =>
    Act.note .debug s!"Size lookup for {table.text} failed, reporting 0: {e.message}"
    return 0.0

/-- Completes the report of a statement whose table, engine and row count are known. -/
def judge (statement : String) (table : QualifiedTable) (r : StatementReport) :
    Program StatementReport := do
  let size ← tableSize table
  let (possible, reason) := judgeOnline r.engineValid statement
  let r := { r with megabytes := size, onlinePossible := possible, onlineReason := reason }
  if possible then return r
  else
    let a ← assess table
    return { r with
      copyPossible := a.possible
      copyReason := a.reason
      warnings := r.warnings ++ a.warnings }

/-- The report of a statement, and what it adds to the errors of the batch. -/
def reportStatement (statement : String) : Program (StatementReport × List String) := do
  let r := StatementReport.blank (trimmed statement)
  match extractTableName statement with
  | .error fault => return ({ r with errors := [(Failure.statement fault).message] }, [])
  | .ok name =>
    let r := { r with tableName := name.text }
    match ← (resolve name).run with
    | .error e => return ({ r with errors := [e.message] }, [])
    | .ok table =>
      let r := { r with tableName := table.text }
      match ← (Act.ask (.storageEngine table)).run with
      | .error e => return ({ r with errors := [e.message] }, [])
      | .ok none => return ({ r with errors := [missingTable] }, [])
      | .ok (some engine) =>
        let valid := isInnoDb engine
        let r := { r with
          storageEngine := engine
          engineValid := valid
          warnings := if valid then [] else [s!"Storage engine is {engine}, not InnoDB"] }
        match ← (Act.ask (.rowCount table)).run with
        | .error e =>
          return ({ r with errors := ["Could not read row count: " ++ e.message] },
            [s!"Failed to validate statement '{r.statement}': {e.message}"])
        | .ok rows => return (← judge statement table { r with rows := rows }, [])

end Validation

def validate (statements : List String) : Act Report := do
  let server ← probe
  let reports ← liftM (statements.mapM Validation.reportStatement)
  let report : Report :=
    { flavor := server.flavor
      version := server.version
      binaryLog := server.binaryLog
      statements := reports.map Prod.fst
      warnings := if server.binaryLog then [] else [Validation.noBinaryLog]
      errors := (reports.map Prod.snd).flatten }
  liftM (Act.note .info
    s!"Validated {reports.length} statement(s) against {server.flavor.name} {server.version}")
  return report

end SafeAlter
