import SafeAlter.Backup.Perform
import SafeAlter.Server.Table
import SafeAlter.Sql.AlterClause
import SafeAlter.Sql.OnlineHints

/-! # Ways of making a change

A change is made by the server in place, by a tool that copies the table, or by the server with the
statement as it is written, which may lock the table. The tool makes a dry run first, and only a
dry run that succeeds is followed by the change.
-/
namespace SafeAlter
open SafeAlter.Text SafeAlter.Sql

/-- What a change is to be made with. -/
structure ChangeOptions where
  statement : String
  /-- Read from the statement where it is not given. -/
  tableName : Option TableName
  dsn : Option Dsn
  backup : BackupMethod
  /-- Whether the tool is to make the change. -/
  byTool : Bool
  config : Config
  debug : Bool

inductive Strategy where
  | onlineDdl
  | externalTool
  | lockingAlter
  deriving DecidableEq, Repr

/-- What came of a strategy: its outcome, and what it has to say either way. -/
structure Attempt where
  outcome : Except Failure Unit
  warnings : List String
  errors : List String

namespace Strategy

def name : Strategy → String
  | .onlineDdl => "Online DDL"
  | .externalTool => "pt-online-schema-change"
  | .lockingAlter => "regular ALTER (with table lock warning)"

/-- Whether a strategy is one for the options at hand. -/
def applies (o : ChangeOptions) : Strategy → Bool
  | .onlineDdl | .lockingAlter => !o.byTool
  | .externalTool => o.byTool

/-- Whether a failure of a strategy ends the change, with no other strategy to follow. -/
def isLast : Strategy → Bool
  | .onlineDdl => false
  | .externalTool | .lockingAlter => true

def unsupportedWarning : String := "Online DDL not supported for this operation"

def lockWarning : String :=
  "Executing schema change without Online DDL - table may be locked during execution"

def refusalWarning (message : String) : String :=
  if occursIn "ALGORITHM".toList message.toList || occursIn "LOCK=NONE".toList message.toList then
    unsupportedWarning
  else "Online DDL failed, falling back: " ++ message

def attemptOnline (o : ChangeOptions) : Program Attempt := do
  let statement := withOnlineHints o.statement
  if o.debug then Act.note .debug s!"Executing Online DDL statement: {statement}"
  match ← (Act.ask (.execute statement)).run with
  | .ok () => return ⟨.ok (), [], []⟩
  | .error e => return ⟨.error e, [refusalWarning e.message], [e.message]⟩

def toolDsn (c : Credentials) (t : QualifiedTable) : String :=
  s!"h={c.host},P={c.port},u={c.user},p={c.password},D={t.database},t={t.table}"

def toolArguments (mode : String) (c : Credentials) (t : QualifiedTable) (clause : String)
    (preserveTriggers : Bool) : List String :=
  [mode, toolDsn c t, "--alter=" ++ clause] ++
    (if preserveTriggers then ["--preserve-triggers"] else [])

/-- Whether the tool has triggers to keep. If that cannot be found out, a warning says so and the
answer is no. -/
def findTriggers (table : QualifiedTable) : Program (Bool × List String) := do
  match ← (Act.ask (.hasTriggers table)).run with
  | .ok triggers => return (triggers, [])
  | .error e =>
    Act.note .warn s!"Could not check triggers on {table.text}: {e.message}"
    return (false, ["Could not verify triggers: " ++ e.message])

def toolCalls (o : ChangeOptions) (table : QualifiedTable) (clause : String)
    (preserveTriggers : Bool) : ToolCall × ToolCall :=
  let c := Credentials.resolve o.config o.dsn
  let call (label mode : String) : ToolCall :=
    ⟨label, o.config.ptoscPath, toolArguments mode c table clause preserveTriggers, c.password,
      o.debug⟩
  (call "pt-online-schema-change dry-run" "--dry-run", call "pt-online-schema-change" "--execute")

def attemptTool (o : ChangeOptions) (name : TableName) : Program Attempt := do
  match ← (resolve name).run with
  | .error e => return ⟨.error e, [], []⟩
  | .ok table =>
    let clause := alterClause o.statement
    if clause.isEmpty then return ⟨.error (.statement .nothingToAlter), [], []⟩
    else
      let (triggers, warnings) ← findTriggers table
      let (dryRun, change) := toolCalls o table clause triggers
      let outcome ← ExceptT.run do
        discard dryRun.run
        discard change.run
      return ⟨outcome, warnings, []⟩

def attemptLocking (o : ChangeOptions) : Program Attempt := do
  if o.debug then
    Act.note .debug s!"Executing regular ALTER statement (without Online DDL): {o.statement}"
  return ⟨← (Act.ask (.execute o.statement)).run, [lockWarning], []⟩

def attempt (o : ChangeOptions) (name : TableName) : Strategy → Program Attempt
  | .onlineDdl => attemptOnline o
  | .externalTool => attemptTool o name
  | .lockingAlter => attemptLocking o

end Strategy

end SafeAlter
