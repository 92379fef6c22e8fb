import SafeAlter.Program
import SafeAlter.Backup.Method

/-! # Room for a backup

The size of a backup is estimated from what the server says of the table: a dump takes about twice
the bytes of the table, a copy a fifth more than the bytes of the database. The disk must have room
for the estimate and a buffer on top of it; exactly that much is enough. Only the file system of
the backup directory itself is looked at.
-/
namespace SafeAlter
open SafeAlter.Sql SafeAlter.Decimal

namespace Capacity

def bytesPerMegabyte : Float := 1048576.0

/-- The least estimate, so that an empty table still needs some room. -/
def leastEstimate : Float := 0.1

def dumpFactor : Float := 2.0
def copyFactor : Float := 1.2

def megabytes (bytes : UInt64) : Float :=
  bytes.toFloat / bytesPerMegabyte

/-- Rounded to the nearest byte; what is not positive is none, what is too large the greatest
count. -/
def bytes (megabytes : Float) : UInt64 :=
  (megabytes * bytesPerMegabyte).round.toUInt64

def atLeast (least x : Float) : Float :=
  if least ≤ x then x else least

def dumpEstimate (f : Footprint) : Float :=
  atLeast leastEstimate (megabytes f.total * dumpFactor)

def copyEstimate (databaseBytes : UInt64) : Float :=
  atLeast leastEstimate (megabytes databaseBytes * copyFactor)

def estimate (method : BackupMethod) (table : QualifiedTable) : Act (Option Float) :=
  match method with
  | .none => return none
  | .logicalDump => do return some (dumpEstimate (← Act.ask (.footprint table)))
  | .physicalCopy => do return some (copyEstimate (← Act.ask (.databaseBytes table.database)))

/-- An estimate and a buffer of some percent of it. -/
def requiredBytes (estimate bufferPercent : Float) : UInt64 :=
  let estimated := bytes estimate
  saturatingAdd estimated (estimated.toFloat * bufferPercent / 100.0).toUInt64

structure Plan where
  estimated : UInt64
  required : UInt64
  available : UInt64
  bufferPercent : Float

def plan (estimate bufferPercent : Float) (available : UInt64) : Plan :=
  ⟨bytes estimate, requiredBytes estimate bufferPercent, available, bufferPercent⟩

/-- The plan, unless less is available than required. -/
def Plan.checked (p : Plan) : Except Failure Plan :=
  if p.available < p.required then
    .error (.capacity (megabytes p.required) (megabytes p.available) p.bufferPercent)
  else .ok p

def Plan.summary (p : Plan) (estimate : Float) : String :=
  s!"Estimated backup size: {fixed 2 estimate} MB, " ++
    s!"required with {fixed 1 p.bufferPercent}% buffer: {fixed 2 (megabytes p.required)} MB, " ++
    s!"available: {fixed 2 (megabytes p.available)} MB"

def check (estimate bufferPercent : Float) (available : UInt64) : Act Plan := ExceptT.mk do
  let p := plan estimate bufferPercent available
  Act.note .debug (p.summary estimate)
  return p.checked

end Capacity

end SafeAlter
