import SafeAlter.Proofs.Program.Quieter
import SafeAlter.Execution.Execute

/-! # What debugging adds to a change

Whether a change is made with debugging decides about records only. Without it the same change asks
the server the same, runs the same tools on the same command lines, and ends alike; its records are
those of the change with debugging, but for some of the debug level.
-/
namespace SafeAlter
open SafeAlter.Sql Program History

/-! ## Calls of a tool -/

namespace ToolCall

def withDebug (c : ToolCall) (debug : Bool) : ToolCall :=
  { c with debug := debug }

theorem trace_quieter (c : ToolCall) (text : String) :
    Program.Quieter ((c.withDebug false).trace text) ((c.withDebug true).trace text) :=
  .added rfl (.done ())

theorem run_quieter (c : ToolCall) :
    Program.Quieter (c.withDebug false).run.run (c.withDebug true).run.run := by
  refine (c.trace_quieter _).bind fun _ => (c.trace_quieter _).bind fun _ => .request _ fun x => ?_
  cases x with
  | error reason => exact .refl _
  | ok exit =>
    have hended := (c.trace_quieter s!"{c.label} exit code: {codeText exit.code}").bind fun _ =>
      .refl (.done (c.outcome exit))
    -- Both record what the tool said, or neither does.
    exact .ite ((c.trace_quieter _).bind fun _ => hended) hended

theorem quieter_forM (cs : List ToolCall) :
    Program.Quieter ((cs.map (withDebug · false)).forM fun c => discard c.run : Act Unit).run
      ((cs.map (withDebug · true)).forM fun c => discard c.run : Act Unit).run := by
  induction cs with
  | nil => exact .refl _
  | cons c cs ih => exact Act.quieter_bind (Act.quieter_discard c.run_quieter) fun _ => ih

end ToolCall

/-! ## Backups -/

namespace BackupRequest

def withDebug (r : BackupRequest) (debug : Bool) : BackupRequest :=
  { r with debug := debug }

/-- Debugging decides nothing about a plan but whether its calls are recorded. -/
theorem plan_withDebug (r : BackupRequest) (debug : Bool) (time : String) :
    (r.withDebug debug).plan time =
      (r.plan time).map fun p => (p.1, p.2.map (ToolCall.withDebug · debug)) := by
  have hmethod : (r.withDebug debug).method = r.method := rfl
  unfold plan
  rw [hmethod]
  cases r.method with
  | none => rfl
  | logicalDump => rfl
  | physicalCopy => rfl

theorem perform_quieter (r : BackupRequest) :
    Program.Quieter (r.withDebug false).perform.run (r.withDebug true).perform.run := by
  refine Act.quieter_bind (.refl _) fun estimate => ?_
  cases estimate with
  | none => exact .refl _
  | some estimate =>
    refine Act.quieter_bind (.refl _) fun _ => Act.quieter_bind (.refl _) fun available =>
      Act.quieter_bind (.refl _) fun _ => Act.quieter_bind (.refl _) fun time => ?_
    rw [plan_withDebug, plan_withDebug]
    cases r.plan time with
    | none => exact .refl _
    | some p => exact Act.quieter_bind (ToolCall.quieter_forM p.2) fun _ => .refl _

end BackupRequest

/-! ## Strategies -/

def ChangeOptions.withDebug (o : ChangeOptions) (debug : Bool) : ChangeOptions :=
  { o with debug := debug }

namespace Strategy
variable (o : ChangeOptions) (name : TableName)

theorem applies_withDebug (debug : Bool) (s : Strategy) :
    s.applies (o.withDebug debug) = s.applies o := by
  cases s with
  | onlineDdl => rfl
  | externalTool => rfl
  | lockingAlter => rfl

theorem attemptOnline_quieter :
    Program.Quieter (attemptOnline (o.withDebug false)) (attemptOnline (o.withDebug true)) :=
  .added rfl (.refl _)

theorem attemptLocking_quieter :
    Program.Quieter (attemptLocking (o.withDebug false)) (attemptLocking (o.withDebug true)) :=
  .added rfl (.refl _)

theorem toolCalls_withDebug (debug : Bool) (table : QualifiedTable) (clause : String)
    (triggers : Bool) :
    toolCalls (o.withDebug debug) table clause triggers =
      ((toolCalls o table clause triggers).1.withDebug debug,
        (toolCalls o table clause triggers).2.withDebug debug) := rfl

theorem attemptTool_quieter :
    Program.Quieter (attemptTool (o.withDebug false) name) (attemptTool (o.withDebug true) name) := by
  refine (Quieter.refl _).bind fun resolved => ?_
  cases resolved with
  | error e => exact .refl _
  | ok table =>
    refine .ite (.refl _) ((Quieter.refl _).bind fun (triggers, warnings) => ?_)
    dsimp only
    rw [toolCalls_withDebug, toolCalls_withDebug]
    refine Quieter.bind ?_ fun _ => .refl _
    exact Act.quieter_bind (Act.quieter_discard (ToolCall.run_quieter _)) fun _ =>
      Act.quieter_discard (ToolCall.run_quieter _)

theorem attempt_quieter (s : Strategy) :
    Program.Quieter (s.attempt (o.withDebug false) name) (s.attempt (o.withDebug true) name) := by
  cases s with
  | onlineDdl => exact attemptOnline_quieter o
  | externalTool => exact attemptTool_quieter o name
  | lockingAlter => exact attemptLocking_quieter o

end Strategy

/-! ## Changes -/

namespace Execution
variable (o : ChangeOptions) (name : TableName)

theorem backUp_quieter :
    Program.Quieter (backUp (o.withDebug false) name).run (backUp (o.withDebug true) name).run := by
  have hbackup : ∀ debug, (o.withDebug debug).backup = o.backup := fun _ => rfl
  unfold backUp
  rw [hbackup, hbackup]
  split
  · exact .refl _
  · exact Act.quieter_bind (.refl _) fun table => BackupRequest.perform_quieter
      ⟨o.backup, table, o.config, Credentials.resolve o.config o.dsn, o.debug⟩

theorem tryEach_quieter (path : Option String) (ss : List Strategy) (ws es : List String) :
    Program.Quieter (tryEach (o.withDebug false) name path ss ws es).run
      (tryEach (o.withDebug true) name path ss ws es).run := by
  -- A strategy that failed leaves the same to say behind either way, so `ws` and `es` are general.
  induction ss generalizing ws es with
  | nil => exact .refl _
  | cons s rest ih =>
    unfold tryEach
    rw [Strategy.applies_withDebug, Strategy.applies_withDebug]
    split
    · refine Act.quieter_bind ?_ fun a => ?_
      · exact (Strategy.attempt_quieter o name s).bind fun _ => .refl _
      · cases a.outcome with
        | ok _ => exact .refl _
        | error e => exact .ite (.refl _) (Act.quieter_bind (.refl _) fun _ => ih _ _)
    · exact ih ws es

theorem execute_quieter :
    Program.Quieter (execute (o.withDebug false)).run (execute (o.withDebug true)).run := by
  have hnamed : ∀ name, Program.Quieter
      (backUp (o.withDebug false) name >>= fun path =>
        tryEach (o.withDebug false) name path strategies [] []).run
      (backUp (o.withDebug true) name >>= fun path =>
        tryEach (o.withDebug true) name path strategies [] []).run := fun name =>
    Act.quieter_bind (backUp_quieter o name) fun path => tryEach_quieter o name path strategies [] []
  have htable : ∀ debug, (o.withDebug debug).tableName = o.tableName := fun _ => rfl
  unfold execute
  rw [htable, htable]
  cases o.tableName with
  | some name => exact Act.quieter_bind (.refl _) hnamed
  | none => exact Act.quieter_bind (.refl _) hnamed

end Execution

/-- Debugging adds records to a change and is without any other effect on it: whatever the
surroundings do, both ways to make the change end alike and ask for the same in the same order. -/
theorem debug_only_records {σ : Type} (o : ChangeOptions) (env : Surroundings σ) (s : σ) :
    let quiet := (execute { o with debug := false }).run.run env s
    let loud := (execute { o with debug := true }).run.run env s
    quiet.Quieter loud ∧ asked quiet.history = asked loud.history ∧
      toolRuns quiet.history = toolRuns loud.history := by
  have h := (Execution.execute_quieter o).run env s
  exact ⟨h, h.asked, h.toolRuns⟩

end SafeAlter
