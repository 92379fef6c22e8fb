import SafeAlter.Decimal.Layout
import SafeAlter.Dsn
import SafeAlter.Sql.Fault

/-! # Failures

Everything that can end an operation, told by its cause. The wording, the code and the advice that
go with a failure are functions of it.
-/
namespace SafeAlter
open SafeAlter.Decimal SafeAlter.Sql

inductive ConfigFault where
  | unreadable (reason : String)
  /-- The text is not in the configuration format. -/
  | malformed (reason : String)
  | bufferPercent (value : Float)
  | port (value : String)

def ConfigFault.message : ConfigFault → String
  | .unreadable reason => "Failed to read config file: " ++ reason
  | .malformed reason => "Failed to parse config file: " ++ reason
  | .bufferPercent value =>
    s!"Invalid backup_space_buffer: {plain.render value}. " ++
      "Expected a non-negative percentage (e.g., 20)"
  | .port value => s!"Invalid mysql_port: {value}. Expected a TCP port number"

inductive ToolFault where
  | notStarted (program reason : String)
  | exited (code : Int) (output : String)
  | killed (output : String)
  | reported (text : String)
  deriving DecidableEq, Repr

def ToolFault.message : ToolFault → String
  | .notStarted program reason => s!"could not start {program}: {reason}"
  | .exited code output => s!"exit code {code}: {output}"
  | .killed output => s!"terminated by signal: {output}"
  | .reported text => text

inductive MetadataFault where
  | noDatabase (table : String)
  | reported (text : String)
  deriving DecidableEq, Repr

def MetadataFault.message : MetadataFault → String
  | .noDatabase table => s!"no database selected and table '{table}' is not qualified"
  | .reported text => text

inductive ChangeFault where
  | noStrategy
  | rejected (text : String)
  deriving DecidableEq, Repr

def ChangeFault.message : ChangeFault → String
  | .noStrategy => "no execution strategy could be attempted"
  | .rejected text => text

inductive ConnectionFault where
  | dsn (fault : Dsn.Fault)
  | reported (text : String)
  deriving DecidableEq, Repr

def ConnectionFault.message : ConnectionFault → String
  | .dsn fault => fault.message
  | .reported text => text

inductive Failure where
  | statement (fault : StatementFault)
  | metadata (fault : MetadataFault)
  /-- Sizes are in megabytes. -/
  | capacity (required available bufferPercent : Float)
  | tool (label : String) (fault : ToolFault)
  | change (fault : ChangeFault)
  | connection (fault : ConnectionFault)
  | io (reason : String)
  | config (fault : ConfigFault)

namespace Failure

def message : Failure → String
  | .statement f => "Failed to parse DDL: " ++ f.message
  | .metadata f => "Metadata query failed: " ++ f.message
  | .capacity required available bufferPercent =>
    s!"Insufficient disk space: required {fixed 2 required} MB " ++
      s!"(with {fixed 1 bufferPercent}% buffer), available {fixed 2 available} MB"
  | .tool label f => label ++ " failed: " ++ f.message
  | .change f => "Schema change failed: " ++ f.message
  | .connection f => "Failed to connect to database: " ++ f.message
  | .io _ => "I/O error"
  | .config _ => "Configuration error"

def code : Failure → String
  | .statement _ => "schema_guard::parse_error"
  | .metadata _ => "schema_guard::metadata_error"
  | .capacity .. => "schema_guard::capacity_error"
  | .tool .. => "schema_guard::subprocess_error"
  | .change _ => "schema_guard::ddl_execution_error"
  | .connection _ => "schema_guard::connection_error"
  | .io _ => "schema_guard::io_error"
  | .config _ => "schema_guard::config_error"

def advice : Failure → Option String
  | .statement _ =>
    some ("Only ALTER TABLE statements are supported, " ++
      "e.g. ALTER TABLE db.users ADD COLUMN age INT")
  | .metadata _ =>
    some "Check that the monitoring user can read information_schema and server variables"
  | .capacity .. =>
    some "Free space in the backup directory or point backup_dir at a larger filesystem"
  | .tool .. => some "Run with --debug to see the exact command line (credentials are masked)"
  | .change _ => none
  | .connection _ => some "Check MYSQL_DSN or the --dsn argument"
  | .io _ => some "Ensure the backup directory exists and is writable"
  | .config _ => some "Run 'schema-guard init' to create a valid configuration file"

end Failure

/-- What a connection to a server may report. -/
inductive DriverFault where
  | io (text : String)
  | driver (text : String)
  | url (text : String)
  | value (text : String)
  | server (text : String)

/-- Troubles of the driver itself and of the address are those of the connection; all others are
taken for failed questions. -/
def Failure.ofDriver : DriverFault → Failure
  | .driver text | .url text => .connection (.reported text)
  | .io text | .value text | .server text => .metadata (.reported text)

end SafeAlter
