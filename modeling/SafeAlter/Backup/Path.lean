import SafeAlter.Sql.TableName

/-! # Where a backup goes

The name of a backup in the backup directory is made of its time, the kind of backup and the names
of the table, with underscores between them.
-/
namespace SafeAlter.BackupPath
open SafeAlter.Sql

/-- A name below a directory. A name that starts at the root stays as it is. -/
def join (directory name : String) : String :=
  if name.startsWith "/" || directory.isEmpty then name
  else if directory.endsWith "/" then directory ++ name
  else directory ++ "/" ++ name

def dump (directory timestamp : String) (t : QualifiedTable) : String :=
  join directory (timestamp ++ "_" ++ t.database ++ "_" ++ t.table ++ ".sql")

def copy (directory timestamp : String) (t : QualifiedTable) : String :=
  join directory (timestamp ++ "_xtrabackup_" ++ t.database ++ "_" ++ t.table)

end SafeAlter.BackupPath
