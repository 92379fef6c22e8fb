import SafeAlter.Failure

/-! # Settings

The settings of the program: credentials for the tools, where backups go, where the tools are, and
how much free space a backup asks for beyond its estimate. Credentials may be left empty; they then
come from the connection string, and host and port at last from a default.
-/
namespace SafeAlter
open SafeAlter.Text SafeAlter.Decimal

structure Config where
  host : String
  /-- A port in decimal digits, or nothing. -/
  port : String
  user : String
  password : String
  backupDir : String
  ptoscPath : String
  mysqldumpPath : String
  xtrabackupPath : String
  /-- The free space asked for beyond a backup's estimate, in percent of the estimate. -/
  spaceBuffer : Float

namespace Config

def defaultHost : String := "127.0.0.1"
def defaultPort : String := "3306"
def defaultBackupDir : String := "/tmp/backups"
def defaultPtoscPath : String := "pt-online-schema-change"
def defaultMysqldumpPath : String := "mysqldump"
def defaultXtrabackupPath : String := "xtrabackup"
def defaultSpaceBuffer : Float := 20.0

/-- The settings in force where there is no configuration file. -/
def default : Config :=
  ⟨"", "", "", "", defaultBackupDir, defaultPtoscPath, defaultMysqldumpPath,
    defaultXtrabackupPath, defaultSpaceBuffer⟩

def orDefault (value fallback : String) : String :=
  if (trimmed value).isEmpty then fallback else value

/-- Trims host and port and fills in the defaults of blank settings. -/
def normalized (c : Config) : Config :=
  { c with
    host := trimmed c.host
    port := trimmed c.port
    backupDir := orDefault c.backupDir defaultBackupDir
    ptoscPath := orDefault c.ptoscPath defaultPtoscPath
    mysqldumpPath := orDefault c.mysqldumpPath defaultMysqldumpPath
    xtrabackupPath := orDefault c.xtrabackupPath defaultXtrabackupPath }

/-- Refuses a buffer that is no percentage and a port that is no port. -/
def validated (c : Config) : Except ConfigFault Config :=
  if c.spaceBuffer < 0.0 || !isFinite c.spaceBuffer then .error (.bufferPercent c.spaceBuffer)
  else if !c.port.isEmpty && (Dsn.readPort? c.port.toList).isNone then .error (.port c.port)
  else .ok c

/-- The buffer in force: a buffer of zero means the default. -/
def bufferPercent (c : Config) : Float :=
  if 0.0 < c.spaceBuffer then c.spaceBuffer else defaultSpaceBuffer

/-- Numbers among the fields: with a point, and with an exponent when very large or small. -/
def fieldNumber : Layout := ⟨-4, 16, true, false, .up⟩

def fields (c : Config) : List (String × String) :=
  [("mysql_host", quoted c.host), ("mysql_port", quoted c.port), ("mysql_user", quoted c.user),
   ("mysql_password", quoted "***"), ("backup_dir", quoted c.backupDir),
   ("ptosc_path", quoted c.ptoscPath), ("mysqldump_path", quoted c.mysqldumpPath),
   ("xtrabackup_path", quoted c.xtrabackupPath),
   ("backup_space_buffer", fieldNumber.render c.spaceBuffer)]

def line (c : Config) : String :=
  "Config \x7b " ++ ", ".intercalate (c.fields.map fun f => f.1 ++ ": " ++ f.2) ++ " \x7d"

def lines (c : Config) : String :=
  "Config \x7b\n" ++ String.join (c.fields.map fun f => "    " ++ f.1 ++ ": " ++ f.2 ++ ",\n") ++
    "\x7d"

end Config

structure Credentials where
  host : String
  port : String
  user : String
  password : String
  deriving DecidableEq, Repr

namespace Credentials

def firstOf (a b : String) : String :=
  if a.isEmpty then b else a

/-- Settings win over the connection string, and what neither names has a default. -/
def resolve (c : Config) (dsn : Option Dsn) : Credentials :=
  { host := firstOf (firstOf c.host ((dsn.map Dsn.host).getD "")) Config.defaultHost
    port := firstOf (firstOf c.port ((dsn.map fun d => toString d.port.toNat).getD ""))
      Config.defaultPort
    user := firstOf c.user ((dsn.map Dsn.user).getD "")
    password := firstOf c.password ((dsn.map Dsn.password).getD "") }

end Credentials

end SafeAlter
