import SafeAlter.Finding
import SafeAlter.Server.Probe

/-! # Prerequisites of a change by copy

A tool that changes a table by copying it row by row needs a binary log and a key to go by, and
takes care over foreign keys and triggers. Each prerequisite is looked into on its own: one that
cannot be verified gives a warning and has no say over the others.
-/
namespace SafeAlter
open SafeAlter.Text SafeAlter.Sql

inductive Prerequisite where
  | binaryLog
  | chunkKey
  | foreignKeys
  | triggers
  deriving DecidableEq, Repr

namespace Prerequisite

def all : List Prerequisite := [.binaryLog, .chunkKey, .foreignKeys, .triggers]

/-- What is verified, in words for people. -/
def subject : Prerequisite → String
  | .binaryLog => "binary log"
  | .chunkKey => "PRIMARY KEY/UNIQUE key"
  | .foreignKeys => "foreign keys"
  | .triggers => "triggers"

def finding : Prerequisite → Finding
  | .binaryLog => ⟨.fatal, "Binary log must be enabled for pt-online-schema-change"⟩
  | .chunkKey => ⟨.fatal, "Table must have a PRIMARY KEY or UNIQUE NOT NULL key"⟩
  | .foreignKeys =>
    ⟨.warning, "Table has foreign keys - pt-online-schema-change will require " ++
      "additional considerations"⟩
  | .triggers =>
    ⟨.warning, "Table has triggers - pt-online-schema-change requires " ++
      "--preserve-triggers flag"⟩

/-- Whether the server keeps a binary log. A replica may list the log as switched off and still
write it, which the name of its files tells; if that name cannot be asked for there is none. -/
def logsChanges : Act Bool := do
  let log ← Act.ask (.listedVariable "log_bin")
  if log.any isEnabled then return true
  let files ← Act.observe (Act.ask (.listedVariable "log_bin_basename"))
  return match files with
    | .ok (some name) => !(trimmed name).isEmpty
    | _ => false

/-- Whether a table has what the prerequisite is about and so gives no finding. -/
def isMet (table : QualifiedTable) : Prerequisite → Act Bool
  | .binaryLog => logsChanges
  | .chunkKey => do
    if ← Act.ask (.hasPrimaryKey table) then return true
    Act.ask (.hasUniqueKey table)
  | .foreignKeys => do return !(← Act.ask (.hasForeignKeys table))
  | .triggers => do return !(← Act.ask (.hasTriggers table))

def check (table : QualifiedTable) (p : Prerequisite) : Act (Option Finding) := do
  return if ← p.isMet table then none else some p.finding

end Prerequisite

/-- Whether a change by copy is possible, why or why not, and what to mind. -/
structure Assessment where
  possible : Bool
  reason : String
  warnings : List String
  deriving DecidableEq, Repr

namespace Assessment

def possibleReason : String :=
  "pt-online-schema-change can be used as a fallback strategy " ++
    "(tool path should be configured)"

abbrev Result := Except Failure (Option Finding)

def fatalMessage? : Result → Option String
  | .ok (some f) => if f.isFatal then some f.message else none
  | _ => none

def warning? (p : Prerequisite) : Result → Option String
  | .ok (some f) => if f.isFatal then none else some f.message
  | .ok none => none
  | .error e => some s!"Could not verify {p.subject}: {e.message}"

/-- The assessment that the results for some prerequisites, in order, make. -/
def ofResults (results : List (Prerequisite × Result)) : Assessment :=
  let reasons := results.filterMap fun r => fatalMessage? r.2
  { possible := reasons.isEmpty
    reason := if reasons.isEmpty then possibleReason else "; ".intercalate reasons
    warnings := results.filterMap fun r => warning? r.1 r.2 }

/-- Looks into one prerequisite; a failure is recorded and kept as a result. -/
def lookInto (table : QualifiedTable) (p : Prerequisite) : Program (Prerequisite × Result) := do
  let result ← (p.check table).run
  if let .error e := result then
    Act.note .debug s!"Prerequisite check '{p.subject}' failed: {e.message}"
  return (p, result)

end Assessment

def assess (table : QualifiedTable) : Program Assessment := do
  return Assessment.ofResults (← Prerequisite.all.mapM (Assessment.lookInto table))

end SafeAlter
