import SafeAlter.CommandLine.Commands

/-! # The program

The outer layer: it reads the command line and the environment, answers the requests of an order
from files and streams, and ends with the order's code. It has no driver for a server, so that an
order which needs one ends when it connects, before any tool could be run.
-/
namespace SafeAlter.CommandLine

def programVersion : String := "schema-guard 0.1.0\n"

def helpText : String :=
  "Validate and safely apply MySQL/MariaDB ALTER TABLE changes\n\n" ++
    "Usage: schema-guard [--config <FILE>] [--dsn <DSN>] <COMMAND>\n\n" ++
    "Commands:\n" ++
    "  validate [--file <FILE>] [--format text|json] [DDL]...\n" ++
    "  execute [--debug] <SQL> [BACKUP_METHOD] [USE_PTOSC]\n" ++
    "  init [--path <FILE>] [--force]\n" ++
    "  help [COMMAND]\n"

/-- The code of a program that was called in the wrong way. -/
def usageCode : UInt32 := 2

def reportUsage : UsageFault → IO UInt32
  | .helpWanted => do
    IO.print helpText
    return 0
  | .versionWanted => do
    IO.print programVersion
    return 0
  | .nothingGiven => do
    IO.eprint helpText
    return usageCode
  | fault => do
    IO.eprintln ("error: " ++ fault.message)
    return usageCode

def outOfReach : String := "no driver for the server"

def caught {α : Type} (act : IO α) : IO (Except String α) := do
  match ← act.toBaseIO with
  | .ok a => return .ok a
  | .error e => return .error (toString e)

/-- Answers what files and streams can answer. -/
def answer : (r : Request) → IO r.Answer
  | .ask _ => return .error (.metadata (.reported outOfReach))
  | .run _ => return .error outOfReach
  | .makeDirectory path => caught (IO.FS.createDirAll path)
  | .freeSpace _ => return .error outOfReach
  | .clock => return ""
  | .fileExists path => do return (← caught (IO.FS.realPath path)).toOption.isSome
  | .readText path => caught (IO.FS.readFile path)
  | .writeText path text => caught (IO.FS.writeFile path text)
  | .connect _ => return .error (.connection (.reported outOfReach))
  | .print text => IO.print text
  | .complain text => IO.eprint text

/-- Writes a record, unless it is one for debugging and those are not wanted. -/
def record (debug : Bool) (r : Record) : IO Unit := do
  if debug || r.level != .debug then IO.eprintln r.line

/-- Whether an order wants the records for debugging. -/
def Order.debug : Order → Bool
  | .execute _ _ _ debug => debug
  | _ => false

def start (words : List String) : IO UInt32 := do
  let env : Environment := ⟨← IO.getEnv configVariable, ← IO.getEnv dsnVariable⟩
  match Invocation.ofWords words env with
  | .error fault => reportUsage fault
  | .ok i => do
    let painted ← (← IO.getStdout).isTty
    let status ← (i.carryOut painted).interpret (record i.order.debug) answer
    return status.code

end SafeAlter.CommandLine

def main (words : List String) : IO UInt32 :=
  SafeAlter.CommandLine.start words
