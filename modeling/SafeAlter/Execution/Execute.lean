import SafeAlter.Execution.Strategy

/-! # Making a change

A change is made after the backup that was asked for, if any, and by the first strategy that
applies and succeeds. A failed backup ends everything before a strategy is tried.
-/
namespace SafeAlter
open SafeAlter.Sql

structure Execution where
  backupPerformed : Bool
  backupPath : Option String
  changeExecuted : Bool
  strategy : Option Strategy
  warnings : List String
  /-- Failures that a later strategy made up for. -/
  errors : List String
  deriving DecidableEq, Repr

namespace Execution

def strategies : List Strategy := [.onlineDdl, .externalTool, .lockingAlter]

def backUp (o : ChangeOptions) (name : TableName) : Act (Option String) :=
  match o.backup with
  | .none => return none
  | method => do
    let table ← resolve name
    BackupRequest.perform ⟨method, table, o.config, Credentials.resolve o.config o.dsn, o.debug⟩

/-- Tries strategies one after another, given what earlier ones had to say. -/
def tryEach (o : ChangeOptions) (name : TableName) (backupPath : Option String) :
    List Strategy → List String → List String → Act Execution
  | [], _, _ => throw (.change .noStrategy)
  | s :: rest, warnings, errors =>
    if s.applies o then do
      let a ← liftM (s.attempt o name)
      let warnings := warnings ++ a.warnings
      let errors := errors ++ a.errors
      match a.outcome with
      | .ok () =>
        liftM (Act.note .info s!"Schema change on {name.text} applied with {s.name}")
        return ⟨backupPath.isSome, backupPath, true, some s, warnings, errors⟩
      | .error e =>
        if s.isLast then throw e
        else
          liftM (Act.note .debug s!"{s.name} failed, trying next strategy: {e.message}")
          tryEach o name backupPath rest warnings errors
    else tryEach o name backupPath rest warnings errors

end Execution

/-- Makes a change. A failure means that the change as a whole was not made. -/
def execute (o : ChangeOptions) : Act Execution := do
  let name ← match o.tableName with
    | some name => pure name
    | none => Act.ofExcept Failure.statement (extractTableName o.statement)
  let backupPath ← Execution.backUp o name
  Execution.tryEach o name backupPath Execution.strategies [] []

end SafeAlter
