import SafeAlter.Execution.Execute
import SafeAlter.Validation.Render

/-! # A change that was made, as text
-/
namespace SafeAlter
open SafeAlter.Text

def Execution.text (painted : Bool) (e : Execution) : String :=
  Ink.boldGreen.paint painted "✅ Change executed successfully!" ++ "\n" ++
    (match e.strategy with
      | some s => "Method used: " ++ Ink.cyan.paint painted s.name ++ "\n"
      | none => "") ++
    (match e.backupPath with
      | some path => "Backup created at: " ++ Ink.yellow.paint painted path ++ "\n"
      | none => "") ++
    listing .boldYellow painted "Warnings:" e.warnings

end SafeAlter
