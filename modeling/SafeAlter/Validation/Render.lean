import SafeAlter.Decimal.Layout
import SafeAlter.Text.Json
import SafeAlter.Text.Paint
import SafeAlter.Validation.Report

/-! # A validation report as text and as data

For people a report is written line by line, with what is not known left out; for programs it is
written as a JSON object with all of its fields.
-/
namespace SafeAlter
open SafeAlter.Text SafeAlter.Decimal

def listing (ink : Ink) (painted : Bool) (heading : String) (items : List String) : String :=
  if items.isEmpty then ""
  else ink.paint painted heading ++ "\n" ++ String.join (items.map fun i => "  - " ++ i ++ "\n")

def yesNo (painted b : Bool) : String :=
  if b then Ink.green.paint painted "true" else Ink.red.paint painted "false"

namespace StatementReport

def textLines (painted : Bool) (number : Nat) (r : StatementReport) : List String :=
  [Ink.boldCyan.paint painted s!"--- Statement {number} ---", "DDL: " ++ r.statement,
   "Table: " ++ r.tableName, "Storage Engine: " ++ r.storageEngine,
   "Storage Engine Valid (InnoDB): " ++ yesNo painted r.engineValid,
   "Online DDL Possible: " ++ yesNo painted r.onlinePossible] ++
  (if r.onlineReason.isEmpty then [] else ["Online DDL Reason: " ++ r.onlineReason]) ++
  (if !r.onlinePossible && !r.copyReason.isEmpty then
    ["pt-online-schema-change Possible: " ++ yesNo painted r.copyPossible,
     "pt-online-schema-change Reason: " ++ r.copyReason]
   else []) ++
  (if 0 < r.rows then [s!"Table Rows: {r.rows.toNat}"] else []) ++
  (if 0.0 < r.megabytes then ["Table Size (MB): " ++ fixed 2 r.megabytes] else [])

def text (painted : Bool) (number : Nat) (r : StatementReport) : String :=
  String.join ((r.textLines painted number).map (· ++ "\n")) ++
    listing .boldYellow painted "Warnings:" r.warnings ++
    listing .boldRed painted "Errors:" r.errors ++ "\n"

def data (r : StatementReport) : Json.Written :=
  Json.object
    [("statement", Json.string r.statement), ("table_name", Json.string r.tableName),
     ("storage_engine", Json.string r.storageEngine),
     ("storage_engine_valid", Json.bool r.engineValid),
     ("online_ddl_possible", Json.bool r.onlinePossible),
     ("online_ddl_reason", Json.string r.onlineReason),
     ("ptosc_possible", Json.bool r.copyPossible), ("ptosc_reason", Json.string r.copyReason),
     ("table_rows", Json.natural r.rows.toNat), ("table_size_mb", Json.number r.megabytes),
     ("warnings", Json.list (r.warnings.map Json.string)),
     ("errors", Json.list (r.errors.map Json.string))]

end StatementReport

namespace Report

def text (painted : Bool) (r : Report) : String :=
  Ink.boldWhite.paint painted "=== Phase 1 Validation Results ===" ++ "\n" ++
    s!"Database Flavor: {r.flavor.name}\n" ++ s!"Version: {r.version}\n" ++
    s!"Binary Log Enabled: {yesNo painted r.binaryLog}\n" ++
    s!"Number of Statements: {r.statements.length}\n\n" ++
    String.join ((r.statements.zipIdx 1).map fun s => s.1.text painted s.2) ++
    listing .boldYellow painted "General Warnings:" r.warnings ++
    listing .boldRed painted "General Errors:" r.errors

def json (r : Report) : String :=
  Json.object
    [("flavor", Json.string r.flavor.key), ("version", Json.string r.version),
     ("binary_log_enabled", Json.bool r.binaryLog),
     ("statements", Json.list (r.statements.map StatementReport.data)),
     ("validation_warnings", Json.list (r.warnings.map Json.string)),
     ("validation_errors", Json.list (r.errors.map Json.string))] 0

end Report

end SafeAlter
