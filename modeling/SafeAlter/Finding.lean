/-! # Findings

A finding says that something a change needs is not there. A fatal one rules the way of making the
change out; a warning does not.
-/
namespace SafeAlter

inductive Severity where
  | fatal
  | warning
  deriving DecidableEq, Repr

def Severity.name : Severity → String
  | .fatal => "fatal"
  | .warning => "warning"

structure Finding where
  severity : Severity
  message : String
  deriving DecidableEq, Repr

namespace Finding

def isFatal (f : Finding) : Bool := f.severity == .fatal

def text (f : Finding) : String := f.severity.name ++ ": " ++ f.message

end Finding

end SafeAlter
