import SafeAlter.Program
import SafeAlter.Text.Search

/-! # What a server is

A server is told by its flavor, its version and whether it keeps a binary log. All three are asked
of it in a fixed order, and the first question that fails ends the probe.
-/
namespace SafeAlter
open SafeAlter.Text

inductive Flavor where
  | mySql
  | mariaDb
  deriving DecidableEq, Repr

namespace Flavor

def name : Flavor → String
  | .mySql => "MySQL"
  | .mariaDb => "MariaDB"

def key : Flavor → String
  | .mySql => "MySql"
  | .mariaDb => "MariaDb"

def ofComment (comment : String) : Flavor :=
  if occursInIgnoringCase "mariadb".toList comment.toList then .mariaDb else .mySql

end Flavor

/-- Whether a variable is switched on, which is said by `1` or by `on`. -/
def isEnabled (value : String) : Bool :=
  let v := trim value.toList
  v == ['1'] || sameIgnoringCase v "on".toList

structure ServerInfo where
  flavor : Flavor
  version : String
  binaryLog : Bool
  deriving DecidableEq, Repr

def ServerInfo.summary (s : ServerInfo) : String :=
  s!"Server {s.flavor.name} {s.version} (binary log " ++ (if s.binaryLog then "on)" else "off)")

def probe : Act ServerInfo := do
  let version ← Act.ask .version
  let comment ← Act.ask (.systemVariable "version_comment")
  let binaryLog ← Act.ask (.systemVariable "log_bin")
  let info : ServerInfo :=
    ⟨Flavor.ofComment (comment.getD ""), version, isEnabled (binaryLog.getD "")⟩
  liftM (Act.note .debug info.summary)
  return info

end SafeAlter
