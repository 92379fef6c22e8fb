import SafeAlter.Backup.Capacity
import SafeAlter.Backup.Path
import SafeAlter.Configuration.Settings
import SafeAlter.Tool.Call

/-! # Making a backup

A backup is made only after the disk was found to have room for it. A dump is one run of its tool;
a copy is a run that copies and a run that prepares the copy for import. Whatever goes wrong ends
the backup.
-/
namespace SafeAlter
open SafeAlter.Sql

structure BackupRequest where
  method : BackupMethod
  table : QualifiedTable
  config : Config
  credentials : Credentials
  debug : Bool

namespace BackupRequest

/-- A password flag; without a password there is none, for a bare flag would ask on the
terminal. -/
def passwordFlag (flag password : String) : List String :=
  if password.isEmpty then [] else [flag ++ password]

def dumpArguments (r : BackupRequest) (path : String) : List String :=
  ["-h", r.credentials.host, "-P", r.credentials.port, "-u", r.credentials.user] ++
    passwordFlag "-p" r.credentials.password ++
    [r.table.database, r.table.table, "--single-transaction", "--quick", "--lock-tables=false",
      "-r", path]

def copyArguments (r : BackupRequest) (target : String) : List String :=
  ["--backup", s!"--tables={r.table.text}", s!"--target-dir={target}",
    s!"--user={r.credentials.user}"] ++
    passwordFlag "--password=" r.credentials.password ++
    [s!"--host={r.credentials.host}", s!"--port={r.credentials.port}"]

def prepareArguments (target : String) : List String :=
  ["--prepare", "--export", s!"--target-dir={target}"]

def call (r : BackupRequest) (label program : String) (arguments : List String) : ToolCall :=
  ⟨label, program, arguments, r.credentials.password, r.debug⟩

def dumpCall (r : BackupRequest) (path : String) : ToolCall :=
  r.call "mysqldump" r.config.mysqldumpPath (r.dumpArguments path)

def copyCall (r : BackupRequest) (target : String) : ToolCall :=
  r.call "xtrabackup backup" r.config.xtrabackupPath (r.copyArguments target)

def prepareCall (r : BackupRequest) (target : String) : ToolCall :=
  r.call "xtrabackup prepare" r.config.xtrabackupPath (prepareArguments target)

/-- Where the backup goes, and the calls that make it, one after another. -/
def plan (r : BackupRequest) (timestamp : String) : Option (String × List ToolCall) :=
  match r.method with
  | .none => none
  | .logicalDump =>
    let path := BackupPath.dump r.config.backupDir timestamp r.table
    some (path, [r.dumpCall path])
  | .physicalCopy =>
    let target := BackupPath.copy r.config.backupDir timestamp r.table
    some (target, [r.copyCall target, r.prepareCall target])

/-- Makes the backup and tells where it is; nothing is done where none is wanted. -/
def perform (r : BackupRequest) : Act (Option String) := do
  match ← Capacity.estimate r.method r.table with
  | none => return none
  | some estimate =>
    Act.makeDirectory r.config.backupDir
    let available ← Act.freeSpace r.config.backupDir
    discard <| Capacity.check estimate r.config.bufferPercent available
    match r.plan (← Act.clock) with
    | none => return none
    | some (path, calls) =>
      calls.forM fun c => discard c.run
      liftM (Act.note .info s!"Backup of {r.table.text} written to {path}")
      return some path

end BackupRequest

end SafeAlter
