import SafeAlter.Program
import SafeAlter.Tool.Redaction

/-! # Calling a tool

A tool is called with a label for what it does. The call succeeds when the tool ends with code
zero. What is recorded of the call, and what its failure says, shows masked arguments and output
only.
-/
namespace SafeAlter
open SafeAlter.Text

structure ToolCall where
  /-- What the tool does, in words for people. -/
  label : String
  program : String
  arguments : List String
  /-- The password to mask in the output. -/
  secret : String
  /-- Whether command line and output are recorded. -/
  debug : Bool

namespace ToolCall

def command (c : ToolCall) : Command := ⟨c.program, c.arguments⟩

/-- Leaves a record only where the call is to be recorded. -/
def trace (c : ToolCall) (text : String) : Program Unit :=
  if c.debug then Act.note .debug text else .done ()

def codeText : Option Int → String
  | some code => s!"Some({code})"
  | none => "None"

def outcome (c : ToolCall) (exit : ToolExit) : Except Failure ToolExit :=
  let output := maskOutput exit.output c.secret
  match exit.code with
  | some code =>
    if code = 0 then .ok ⟨some 0, output⟩
    else .error (.tool c.label (.exited code (trimmed output)))
  | none => .error (.tool c.label (.killed (trimmed output)))

def run (c : ToolCall) : Act ToolExit := ExceptT.mk do
  c.trace s!"{c.label} command: {c.program}"
  c.trace (c.label ++ " args: " ++ " ".intercalate (c.arguments.map maskArgument))
  match ← Act.request (.run c.command) with
  | .error reason => return .error (.tool c.label (.notStarted c.program reason))
  | .ok exit =>
    let output := maskOutput exit.output c.secret
    if !output.isEmpty then c.trace s!"{c.label} output:\n{output}"
    c.trace s!"{c.label} exit code: {codeText exit.code}"
    return c.outcome exit

end ToolCall

end SafeAlter
