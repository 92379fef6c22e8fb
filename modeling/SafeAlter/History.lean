import SafeAlter.Program

/-! # What a run did

The history of a run is looked at in three ways: the questions that the server was asked, the
tools that were run, and the records that were left, each in order and each with its outcome.
-/
namespace SafeAlter

abbrev History := List Event

/-- A question to the server with its answer. -/
structure Asked where
  query : Query
  answer : Except Failure query.Answer

/-- A run of a tool with its end, or with the reason for which it did not start. -/
structure ToolRun where
  command : Command
  outcome : Except String ToolExit

/-- Whether a tool was started and ended with code zero. -/
def ToolRun.succeeded (r : ToolRun) : Bool :=
  match r.outcome with
  | .ok e => e.succeeded
  | .error _ => false

namespace Event

def record? : Event → Option Record
  | .noted r => some r
  | .answered .. => none

def asked? : Event → Option Asked
  | .answered (.ask q) a => some ⟨q, a⟩
  | _ => none

def toolRun? : Event → Option ToolRun
  | .answered (.run c) a => some ⟨c, a⟩
  | _ => none

end Event

namespace History

def records (h : History) : List Record := h.filterMap Event.record?

def asked (h : History) : List Asked := h.filterMap Event.asked?

def toolRuns (h : History) : List ToolRun := h.filterMap Event.toolRun?

@[simp] theorem asked_append (g h : History) : asked (g ++ h) = asked g ++ asked h :=
  List.filterMap_append

@[simp] theorem toolRuns_append (g h : History) : toolRuns (g ++ h) = toolRuns g ++ toolRuns h :=
  List.filterMap_append

end History

end SafeAlter
