import SafeAlter.Proofs.Execution.Course

/-! # What alters a table

A table is altered by a statement that is sent to the server and by the tool that copies it. The
tool is told by its mode, the first argument: a dry run or the change itself. A history that holds
neither a sent statement nor such a run is still; finding a table and making a backup are.
-/
namespace SafeAlter
open SafeAlter.Sql

namespace Command

def isDryRun (c : Command) : Bool := c.arguments.head? == some "--dry-run"

def isChange (c : Command) : Bool := c.arguments.head? == some "--execute"

def isCopying (c : Command) : Bool := c.isDryRun || c.isChange

end Command

structure Sent where
  statement : String
  answer : Except Failure Unit

namespace Event

def sent? : Event → Option Sent
  | .answered (.ask (.execute statement)) x => some ⟨statement, x⟩
  | _ => none

/-- Whether an event sends a statement or runs the tool that copies the table. -/
def alters : Event → Bool
  | .answered (.ask (.execute _)) _ => true
  | .answered (.run c) _ => c.isCopying
  | _ => false

end Event

namespace History

def sent (h : History) : List Sent := h.filterMap Event.sent?

@[simp] theorem sent_nil : sent [] = [] := rfl

@[simp] theorem sent_append (g h : History) : sent (g ++ h) = sent g ++ sent h :=
  List.filterMap_append

theorem sent_exchanges (h : History) : sent (exchanges h) = sent h := by
  induction h with
  | nil => rfl
  | cons e h ih => cases e <;> simp_all [sent, List.filterMap_cons, Event.sent?]

@[simp] theorem sent_executed (statement : String) (x : Except Failure Unit) (h : History) :
    sent (.executed statement x :: h) = ⟨statement, x⟩ :: sent h := rfl

@[simp] theorem toolRuns_executed (statement : String) (x : Except Failure Unit) (h : History) :
    toolRuns (.executed statement x :: h) = toolRuns h := rfl

@[simp] theorem sent_asked (table : QualifiedTable) (x : Except Failure Bool) (h : History) :
    sent (.answered (.ask (.hasTriggers table)) x :: h) = sent h := rfl

@[simp] theorem toolRuns_asked (q : Query) (x : Except Failure q.Answer) (h : History) :
    toolRuns (.answered (.ask q) x :: h) = toolRuns h := rfl

@[simp] theorem sent_runs (runs : List ToolRun) : sent (runs.map ToolRun.event) = [] := by
  induction runs with
  | nil => rfl
  | cons x runs ih => exact ih

@[simp] theorem asked_asked (q : Query) (x : Except Failure q.Answer) (h : History) :
    asked (.answered (.ask q) x :: h) = ⟨q, x⟩ :: asked h := rfl

@[simp] theorem asked_runs (runs : List ToolRun) : asked (runs.map ToolRun.event) = [] := by
  induction runs with
  | nil => rfl
  | cons x runs ih => exact ih

/-- Nothing in the history alters a table. -/
def Still (h : History) : Prop := ∀ e ∈ h, e.alters = false

theorem still_append {g h : History} : Still (g ++ h) ↔ Still g ∧ Still h := by
  simp [Still, or_imp, forall_and]

theorem still_exchanges {h : History} : Still (exchanges h) ↔ Still h := by
  constructor
  · intro hs e he
    cases e with
    | noted => rfl
    | answered r x => exact hs _ (mem_exchanges.2 he)
  · exact fun hs e he => hs e (List.mem_filter.1 he).1

theorem Still.sent {h : History} (hs : Still h) : sent h = [] := by
  refine List.filterMap_eq_nil_iff.2 fun e he => ?_
  have ha := hs e he
  unfold Event.sent?
  split
  · cases ha
  · rfl

theorem Still.not_copying {h : History} (hs : Still h) :
    ∀ x ∈ toolRuns h, x.command.isCopying = false :=
  fun _ hx => hs _ (mem_toolRuns.1 hx)

end History

open History

theorem Resolved.still {name : TableName} {g : History} {r : Except Failure QualifiedTable}
    (h : Resolved name g r) : Still g := by
  cases h <;> simp [Still, Event.alters]

theorem Resolved.toolRuns_eq_nil {name : TableName} {g : History}
    {r : Except Failure QualifiedTable} (h : Resolved name g r) : toolRuns g = [] := by
  cases h <;> rfl

theorem Capacity.Estimated.still {table : QualifiedTable} {method : BackupMethod} {g : History}
    {r : Except Failure (Option Float)} (h : Capacity.Estimated table method g r) : Still g := by
  cases h <;> simp [Still, Event.alters]

namespace BackupRequest

/-- The first argument of a backup tool is never a mode of the tool that copies the table. -/
theorem not_isCopying_of_plan {r : BackupRequest} {time path : String} {calls : List ToolCall}
    (hp : r.plan time = some (path, calls)) : ∀ c ∈ calls, c.command.isCopying = false := by
  rcases plan_cases hp with ⟨-, -, rfl⟩ | ⟨-, -, rfl⟩
  · intro c hc
    rw [List.mem_singleton.1 hc]
    rfl
  · intro c hc
    rcases List.mem_cons.1 hc with rfl | hc
    · rfl
    · rw [List.mem_singleton.1 hc]
      rfl

theorem runs_not_copying {r : BackupRequest} {time path : String} {calls : List ToolCall}
    {runs : List ToolRun} {out : Except Failure Unit} (hp : r.plan time = some (path, calls))
    (hs : ToolCall.Sequence calls runs out) : ∀ x ∈ runs, x.command.isCopying = false := by
  intro x hx
  obtain ⟨c, hc, he⟩ := hs.command_mem hx
  rw [he]
  exact not_isCopying_of_plan hp c hc

theorem Ends.still {r : BackupRequest} {g : History} {out : Except Failure (Option String)}
    (h : r.Ends g out) : Still g := by
  cases h with
  | notWanted => simp [Still]
  | noEstimate he => exact he.still
  | noDirectory _ he => exact still_append.2 ⟨he.still, by simp [Still, Event.alters]⟩
  | noFreeSpace _ he => exact still_append.2 ⟨he.still, by simp [Still, Event.alters]⟩
  | noRoom he => exact still_append.2 ⟨he.still, by simp [Still, Event.alters]⟩
  | called he _ hplan hs =>
    refine still_append.2 ⟨still_append.2 ⟨he.still, by simp [Still, Event.alters]⟩, ?_⟩
    intro e hm
    obtain ⟨x, hx, rfl⟩ := List.mem_map.1 hm
    exact runs_not_copying hplan hs x hx

end BackupRequest

namespace Strategy

theorem toolCalls_modes (o : ChangeOptions) (table : QualifiedTable) (clause : String)
    (keep : Bool) :
    let calls := toolCalls o table clause keep
    calls.1.command.isDryRun = true ∧ calls.1.command.isChange = false ∧
      calls.2.command.isDryRun = false ∧ calls.2.command.isChange = true ∧
      calls.1.command.program = o.config.ptoscPath ∧
      calls.2.command.program = o.config.ptoscPath :=
  ⟨rfl, rfl, rfl, rfl, rfl, rfl⟩

theorem runs_copying {o : ChangeOptions} {table : QualifiedTable} {clause : String} {keep : Bool}
    {runs : List ToolRun} {out : Except Failure Unit}
    (hs : ToolCall.Sequence [(toolCalls o table clause keep).1, (toolCalls o table clause keep).2]
      runs out) : ∀ x ∈ runs, x.command.isCopying = true := by
  intro x hx
  obtain ⟨c, hc, he⟩ := hs.command_mem hx
  simp only [List.mem_cons, List.not_mem_nil, or_false] at hc
  rw [he]
  rcases hc with rfl | rfl <;> rfl

end Strategy

theorem Execution.BackedUp.still {o : ChangeOptions} {name : TableName} {g : History}
    {r : Except Failure (Option String)} (h : BackedUp o name g r) : Still g := by
  cases h with
  | notWanted => simp [Still]
  | unresolved _ hg => exact hg.still
  | performed _ hg hk => exact still_append.2 ⟨hg.still, hk.still⟩

end SafeAlter
