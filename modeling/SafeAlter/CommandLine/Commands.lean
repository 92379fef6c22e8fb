import SafeAlter.CommandLine.Invocation
import SafeAlter.CommandLine.Template
import SafeAlter.Configuration.Load
import SafeAlter.Execution.Render
import SafeAlter.Sql.Script
import SafeAlter.Validation.Render
import SafeAlter.Validation.Validate

/-! # Carrying out an order

Statements are gathered before the server is reached, so that an order without any is refused at
once. A template never takes the place of a file unless that is asked for.
-/
namespace SafeAlter
open SafeAlter.Sql

def scriptStatements (text : String) : Act (List String) :=
  Act.ofExcept (fun e => .statement (.unreadable e)) (statements text)

def fileStatements (path : String) : Act (List String) := do
  scriptStatements (← Act.readText path)

namespace CommandLine

inductive ExitStatus where
  | success
  | failure
  deriving DecidableEq, Repr

def ExitStatus.code : ExitStatus → UInt32
  | .success => 0
  | .failure => 1

def print (text : String) : Program Unit := Act.request (.print text)

def complain (text : String) : Program Unit := Act.request (.complain text)

/-- All statements of an order, those of the file last. -/
def gatherStatements (given : List String) (file : Option String) : Act (List String) := do
  let fromFile ← match file with
    | some path => fileStatements path
    | none => pure []
  let all := given ++ fromFile
  if all.isEmpty then throw (.statement .noStatements) else return all

def openServer (text : String) : Act Dsn := do
  let dsn ← Act.ofExcept (fun f => .connection (.dsn f)) (Dsn.parse text)
  ExceptT.mk (Act.request (.connect dsn))
  return dsn

def rendered (painted : Bool) (r : Report) : OutputFormat → String
  | .text => r.text painted
  | .json => r.json ++ "\n"

def validateOrder (painted : Bool) (dsn : String) (given : List String) (file : Option String)
    (format : OutputFormat) : Act Unit := do
  let all ← gatherStatements given file
  discard (openServer dsn)
  let report ← validate all
  liftM (print (rendered painted report format))

def executeOrder (painted : Bool) (config dsn statement : String) (backup : BackupMethod)
    (byTool debug : Bool) : Act Unit := do
  let config ← liftM (Config.loadOrDefault config)
  let dsn ← openServer dsn
  let done ← execute ⟨statement, none, some dsn, backup, byTool, config, debug⟩
  liftM (print (done.text painted))

def nextSteps (path : String) (existed : Bool) : String :=
  (if existed then "✓ Overwrote " else "✓ Created ") ++ path ++ "\n\nNext steps:\n" ++
    s!"1. Edit {path} with your MySQL credentials and tool paths\n" ++
    "2. Point RELEEM_CONFIG (or --config) at it\n" ++
    "3. Run 'schema-guard validate \"ALTER TABLE ...\"' before executing a change\n"

def initialiseOrder (path : String) (overwrite : Bool) : Program ExitStatus := do
  let existed ← Act.request (.fileExists path)
  if existed && !overwrite then
    complain s!"Error: {path} already exists\nUse --force to overwrite the existing file\n"
    return .failure
  else
    match ← Act.request (.writeText path template) with
    | .ok () =>
      print (nextSteps path existed)
      return .success
    | .error reason =>
      complain s!"Error: Failed to write config file: {reason}\n"
      return .failure

def failureText (f : Failure) : String :=
  s!"Error: {f.code}\n\n  × {f.message}\n" ++
    (match f.advice with
      | some advice => s!"  help: {advice}\n"
      | none => "")

/-- Ends the program as an act ends. -/
def concluded (act : Act Unit) : Program ExitStatus := do
  match ← act.run with
  | .ok () => return .success
  | .error f =>
    complain (failureText f)
    return .failure

def Invocation.carryOut (painted : Bool) (i : Invocation) : Program ExitStatus :=
  match i.order with
  | .validate given file format => concluded (validateOrder painted i.dsn given file format)
  | .execute statement backup byTool debug =>
    concluded (executeOrder painted i.config i.dsn statement backup byTool debug)
  | .initialise path overwrite => initialiseOrder path overwrite

end CommandLine

end SafeAlter
