import SafeAlter.Text.Search

/-! # Kinds of backup

A change may be made without a backup, after a dump of the table as SQL text, or after a copy of
its files. Each kind has a name; the two that make one have a second name.
-/
namespace SafeAlter
open SafeAlter.Text

inductive BackupMethod where
  | none
  | logicalDump
  | physicalCopy
  deriving DecidableEq, Repr

namespace BackupMethod

def all : List BackupMethod := [.none, .logicalDump, .physicalCopy]

def name : BackupMethod → String
  | .none => "none"
  | .logicalDump => "mysqldump"
  | .physicalCopy => "xtrabackup"

def names : BackupMethod → List String
  | .none => ["none"]
  | .logicalDump => ["mysqldump", "logical"]
  | .physicalCopy => ["xtrabackup", "physical"]

/-- The kind of backup that a text names; the letter case may be taken as it comes. -/
def ofName? (text : String) (ignoreCase : Bool) : Option BackupMethod :=
  all.find? fun m => m.names.any fun n =>
    n == text || (ignoreCase && sameIgnoringCase n.toList text.toList)

def unknown (text : String) : String := "invalid variant: " ++ text

end BackupMethod

end SafeAlter
