import SafeAlter.Proofs.Execution.Alteration

/-! # The gate of the dry run

An attempt with the tool that copies the table runs it at most twice. The first run is a dry run,
and only a dry run that was started and ended with code zero is followed by the change itself, with
the same arguments but for the mode. The attempt ends well exactly if both runs did; otherwise its
failure is that of the step that went wrong last.
-/
namespace SafeAlter
open SafeAlter.Sql History

namespace Strategy

variable {o : ChangeOptions} {name : TableName} {questions : List Asked} {g : History}
  {table : QualifiedTable} {runs : List ToolRun} {keep : Bool}

end Strategy

end SafeAlter
