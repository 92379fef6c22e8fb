import SafeAlter.Proofs.Execution.Alteration

/-! # A change is applied once or not at all

A change counts as applied for each statement that the server accepted and for each run of the
copying tool, in the mode that changes the table, that ended with code zero. Whatever the server
and the tools answer, a change that ends well was applied exactly once and one that ends in a
failure was not applied, and the server and the tool are never both used.
-/
namespace SafeAlter
open SafeAlter.Sql History

def Sent.accepted (x : Sent) : Bool := x.answer.isOk

def ToolRun.applied (x : ToolRun) : Bool := x.command.isChange && x.succeeded

/-- How often a history applies a change. -/
def History.applications (h : History) : Nat :=
  (sent h).countP Sent.accepted + (toolRuns h).countP ToolRun.applied

@[simp] theorem Sent.accepted_ok (statement : String) :
    (⟨statement, .ok ()⟩ : Sent).accepted = true := rfl

@[simp] theorem Sent.accepted_error (statement : String) (e : Failure) :
    (⟨statement, .error e⟩ : Sent).accepted = false := rfl

theorem Sent.accepted_iff {x : Sent} : x.accepted = true ↔ Succeeds x.answer := by
  obtain ⟨statement, _ | ⟨⟨⟩⟩⟩ := x <;> simp

namespace History

theorem countP_applied_eq_zero {runs : List ToolRun}
    (h : ∀ x ∈ runs, x.command.isCopying = false) : runs.countP ToolRun.applied = 0 := by
  refine List.countP_eq_zero.2 fun x hx ha => ?_
  have hc := h x hx
  simp_all [ToolRun.applied, Command.isCopying]

theorem applications_exchanges (h : History) : applications (exchanges h) = applications h := by
  simp only [applications, sent_exchanges, toolRuns_exchanges]

end History

namespace Execution
variable {o : ChangeOptions} {g : History} {r : Except Failure Execution}

/-- What a change that the server is to make sends: nothing, or one statement that is taken, or
one that is refused and then a second, whose answer decides. -/
theorem Ends.native (ht : o.byTool = false) (h : Ends o g r) :
    (∀ x ∈ toolRuns g, x.command.isCopying = false) ∧
      ((sent g = [] ∧ ¬Succeeds r) ∨
        (sent g = [⟨withOnlineHints o.statement, .ok ()⟩] ∧ Succeeds r) ∨
        ∃ e x, sent g = [⟨withOnlineHints o.statement, .error e⟩, ⟨o.statement, x⟩] ∧
          (Succeeds r ↔ Succeeds x)) := by
  cases h with
  | unnamed => exact ⟨by simp [toolRuns], .inl ⟨rfl, by simp⟩⟩
  | notBackedUp _ hb => exact ⟨hb.still.not_copying, .inl ⟨hb.still.sent, by simp⟩⟩
  | tried _ hb hr =>
    have hn := hb.still.not_copying
    have hs := hb.still.sent
    rcases hr.native ht with ⟨rfl, rfl⟩ | ⟨e, x, rfl, rfl⟩
    · exact ⟨by simpa using hn, .inr (.inl ⟨by simp [hs], by simp⟩)⟩
    · exact ⟨by simpa using hn, .inr (.inr ⟨e, x, by simp [hs], by simp⟩)⟩

theorem Ends.tool (ht : o.byTool = true) (h : Ends o g r) :
    sent g = [] ∧ ∃ before runs, toolRuns g = before ++ runs ∧
      (∀ x ∈ before, x.command.isCopying = false) ∧
      ((runs = [] ∧ ¬Succeeds r) ∨
        ∃ table keep out, ToolCall.Sequence
          [(Strategy.toolCalls o table (alterClause o.statement) keep).1,
            (Strategy.toolCalls o table (alterClause o.statement) keep).2] runs out ∧
          (Succeeds r ↔ Succeeds out)) := by
  cases h with
  | unnamed => exact ⟨rfl, [], [], rfl, by simp, .inl ⟨rfl, by simp⟩⟩
  | notBackedUp _ hb =>
    exact ⟨hb.still.sent, _, [], by simp, hb.still.not_copying, .inl ⟨rfl, by simp⟩⟩
  | tried _ hb hr =>
    have hn := hb.still.not_copying
    have hs := hb.still.sent
    obtain ⟨a, ha, rfl⟩ := hr.tool ht
    cases ha with
    | unresolved hg =>
      have hq := still_append.2 ⟨hb.still, hg.still⟩
      exact ⟨hq.sent, _, [], by simp, hq.not_copying, .inl ⟨rfl, by simp⟩⟩
    | nothingToAlter hg =>
      have hq := still_append.2 ⟨hb.still, hg.still⟩
      exact ⟨hq.sent, _, [], by simp, hq.not_copying, .inl ⟨rfl, by simp⟩⟩
    | @called _ table hg _ x runs out hseq =>
      have hx : Still [.answered (.ask (.hasTriggers table)) x] := by simp [Still, Event.alters]
      have hq := still_append.2 ⟨hb.still, still_append.2 ⟨hg.still, hx⟩⟩
      refine ⟨?_, _, runs, ?_, hq.not_copying, .inr ⟨_, _, _, hseq, by simp⟩⟩
      · simp [hs, hg.still.sent]
      · simp

/-- What is to be seen of a change that the server is to make, in the statements that were sent
and the tools that were run, where `ok` says that the change ended well. -/
structure MadeByServer (o : ChangeOptions) (statements : List Sent) (runs : List ToolRun)
    (ok : Prop) : Prop where
  noCopying : ∀ x ∈ runs, x.command.isCopying = false
  atMostTwo : statements.length ≤ 2
  firstIsHinted : ∀ x, statements[0]? = some x → x.statement = withOnlineHints o.statement
  secondIsAsWritten : ∀ y, statements[1]? = some y → y.statement = o.statement ∧
    ∃ x, statements[0]? = some x ∧ x.accepted = false
  lastDecides : ok ↔ ∃ x, statements.getLast? = some x ∧ x.accepted = true
  nothingAfterAccepted : ∀ i x, statements[i]? = some x → x.accepted = true →
    i + 1 = statements.length

/-- What is to be seen of a change that the tool is to make. -/
structure MadeByTool (o : ChangeOptions) (statements : List Sent) (runs : List ToolRun)
    (ok : Prop) : Prop where
  nothingSent : statements = []
  ofTheTool : ∀ x ∈ runs, x.command.isCopying = true → x.command.program = o.config.ptoscPath
  changeDecides : ok ↔ ∃ x ∈ runs, x.command.isChange = true ∧ x.succeeded = true

theorem Ends.madeByServer (ht : o.byTool = false) (h : Ends o g r) :
    MadeByServer o (sent g) (toolRuns g) (Succeeds r) := by
  obtain ⟨hn, ⟨hg, hr⟩ | ⟨hg, hr⟩ | ⟨e, x, hg, hr⟩⟩ := h.native ht
  · refine ⟨hn, ?_, ?_, ?_, ?_, ?_⟩ <;> simp [hg, hr]
  · refine ⟨hn, ?_, ?_, ?_, ?_, ?_⟩ <;> simp only [hg, hr]
    · simp
    · simp
    · simp
    · simp
    · intro i y hy _
      obtain ⟨hi, -⟩ := List.getElem?_eq_some_iff.1 hy
      simp only [List.length_cons, List.length_nil] at hi ⊢
      omega
  · refine ⟨hn, ?_, ?_, ?_, ?_, ?_⟩ <;> simp only [hg, hr]
    · simp
    · simp
    · simp
    · simp [Sent.accepted_iff]
    · rintro (_ | i) y hy ha
      · rw [List.getElem?_cons_zero, Option.some.injEq] at hy
        rw [← hy, Sent.accepted_error] at ha
        contradiction
      · obtain ⟨hi, -⟩ := List.getElem?_eq_some_iff.1 hy
        simp only [List.length_cons, List.length_nil] at hi ⊢
        omega

theorem toolCalls_applied {table : QualifiedTable} {keep : Bool} {runs : List ToolRun}
    {out : Except Failure Unit}
    (h : ToolCall.Sequence
      [(Strategy.toolCalls o table (alterClause o.statement) keep).1,
        (Strategy.toolCalls o table (alterClause o.statement) keep).2] runs out) :
    (∀ x ∈ runs, x.command.program = o.config.ptoscPath) ∧
      (Succeeds out → runs.countP ToolRun.applied = 1) ∧
      (¬Succeeds out → runs.countP ToolRun.applied = 0) := by
  obtain ⟨-, hd, -, hx, hp, hq⟩ := Strategy.toolCalls_modes o table (alterClause o.statement) keep
  rcases h.of_pair with ⟨x, e, rfl, -, rfl⟩ | ⟨x, exit, y, r, rfl, -, hy, rfl⟩
  · simp [ToolRun.applied, hd, hp]
  · have hs := hy.succeeds_iff
    simp [ToolRun.applied, hd, hx, hp, hq, hs, List.countP_cons]

theorem Ends.runs_applied (ht : o.byTool = true) (h : Ends o g r) :
    sent g = [] ∧
      (∀ x ∈ toolRuns g, x.command.isCopying = true → x.command.program = o.config.ptoscPath) ∧
      (Succeeds r → (toolRuns g).countP ToolRun.applied = 1) ∧
      (¬Succeeds r → (toolRuns g).countP ToolRun.applied = 0) := by
  obtain ⟨hsent, before, runs, hg, hn, hk⟩ := h.tool ht
  refine ⟨hsent, ?_⟩
  rw [hg, List.countP_append, countP_applied_eq_zero hn, Nat.zero_add]
  rcases hk with ⟨rfl, hr⟩ | ⟨table, keep, out, hseq, hr⟩
  · refine ⟨fun x hx hc => ?_, fun h => absurd h hr, fun _ => rfl⟩
    rw [hn x (by simpa using hx)] at hc
    contradiction
  · obtain ⟨hp, h1, h0⟩ := toolCalls_applied hseq
    refine ⟨fun x hx hc => ?_, fun h => h1 (hr.1 h), fun h => h0 fun h' => h (hr.2 h')⟩
    rcases List.mem_append.1 hx with hx | hx
    · rw [hn x hx] at hc
      contradiction
    · exact hp x hx

theorem Ends.madeByTool (ht : o.byTool = true) (h : Ends o g r) :
    MadeByTool o (sent g) (toolRuns g) (Succeeds r) := by
  obtain ⟨hsent, hp, h1, h0⟩ := h.runs_applied ht
  refine ⟨hsent, hp, ?_⟩
  constructor
  · intro hr
    have hc : 0 < (toolRuns g).countP ToolRun.applied := by
      rw [h1 hr]
      exact Nat.one_pos
    obtain ⟨x, hx, ha⟩ := List.countP_pos_iff.1 hc
    exact ⟨x, hx, by simpa [ToolRun.applied] using ha⟩
  · rintro ⟨x, hx, hc, hs⟩
    refine Classical.byContradiction fun hr => ?_
    exact List.countP_eq_zero.1 (h0 hr) x hx (by simp [ToolRun.applied, hc, hs])

theorem Ends.applications (h : Ends o g r) :
    (Succeeds r → applications g = 1) ∧ (¬Succeeds r → applications g = 0) := by
  cases ht : o.byTool with
  | true =>
    obtain ⟨hsent, -, h1, h0⟩ := h.runs_applied ht
    simp only [History.applications, hsent, List.countP_nil, Nat.zero_add]
    exact ⟨h1, h0⟩
  | false =>
    obtain ⟨hn, hg⟩ := h.native ht
    simp only [History.applications, countP_applied_eq_zero hn, Nat.add_zero]
    rcases hg with ⟨hg, hr⟩ | ⟨hg, hr⟩ | ⟨e, x, hg, hr⟩
    · simp [hg, hr]
    · simp [hg, hr]
    · simp [hg, hr, List.countP_cons, Sent.accepted_iff]

end Execution

open Execution

/-- Whatever the server, the tools and the files answer, a change that ends well was applied
exactly once, and one that ends in a failure was not applied. -/
theorem succeeds_iff_applied_once {σ : Type} (o : ChangeOptions) (env : Surroundings σ) (s : σ) :
    let run := (execute o).run.run env s
    (Succeeds run.value ↔ applications run.history = 1) ∧
      (¬Succeeds run.value ↔ applications run.history = 0) ∧
      (o.byTool = false →
        MadeByServer o (sent run.history) (toolRuns run.history) (Succeeds run.value)) ∧
      (o.byTool = true →
        MadeByTool o (sent run.history) (toolRuns run.history) (Succeeds run.value)) ∧
      (sent run.history = [] ∨ ∀ x ∈ toolRuns run.history, x.command.isCopying = false) := by
  intro run
  have he := course_execute (Program.course_run env (execute o).run s)
  obtain ⟨h1, h0⟩ := he.applications
  rw [applications_exchanges] at h1 h0
  rw [← sent_exchanges run.history, ← toolRuns_exchanges run.history]
  refine ⟨⟨h1, fun h => ?_⟩, ⟨h0, fun h hr => ?_⟩, fun ht => he.madeByServer ht,
    fun ht => he.madeByTool ht, ?_⟩
  · refine Classical.byContradiction fun hr => ?_
    rw [h0 hr] at h
    contradiction
  · rw [h1 hr] at h
    contradiction
  · cases ht : o.byTool with
    | true => exact .inl (he.madeByTool ht).nothingSent
    | false => exact .inr (he.madeByServer ht).noCopying

end SafeAlter
