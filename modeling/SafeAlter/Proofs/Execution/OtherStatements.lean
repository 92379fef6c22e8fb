import SafeAlter.Proofs.Backup.Account
import SafeAlter.Proofs.Execution.Alteration

/-! # Statements that are not ALTER TABLE

Whether a statement begins with ALTER TABLE is looked at only when the table name is read from it.
Where no name is given, any other statement is refused before anything is asked, sent or run. Where
a name is given, nothing stands in the way of the statement: unless the tool is to make the change,
finds no clause to pass on, and no backup is made first, there are surroundings in which it is sent
or a tool is run for it.
-/
namespace SafeAlter
open SafeAlter.Text SafeAlter.Sql History

/-- Whether a statement begins, after blank text, with ALTER TABLE in any letter case. -/
def startsAlterTable (statement : String) : Bool :=
  sameIgnoringCase "ALTER TABLE".toList ((trim statement.toList).take "ALTER TABLE".toList.length)

theorem extractTableName_of_other {statement : String} (h : startsAlterTable statement = false) :
    extractTableName statement = .error .notAlterTable := by
  have hn : afterAlterTable? (trim statement.toList) = none := by
    unfold startsAlterTable at h
    rw [afterAlterTable?, afterIgnoringCase?, h]
    rfl
  simp only [extractTableName, tableNameOf, hn]

/-- A refused change fails, and nothing was sent to the server and no tool was run for it. -/
structure Refused {σ : Type} (run : Run σ (Except Failure Execution)) : Prop where
  fails : ¬Succeeds run.value
  nothingSent : sent run.history = []
  nothingRun : toolRuns run.history = []

/-! ## Obliging answers -/

theorem Resolved.succeeds_of_obliged {name : TableName} {g : History}
    {r : Except Failure QualifiedTable} (h : Resolved name g r) (ho : Obliged g) : Succeeds r := by
  cases h with
  | qualified => exact succeeds_ok _
  | completed => exact succeeds_ok _
  | noDatabase => cases ho _ _ (List.mem_singleton_self _)
  | failed => cases ho _ _ (List.mem_singleton_self _)

theorem ToolCall.Sequence.runs_ne_nil {c : ToolCall} {cs : List ToolCall} {runs : List ToolRun}
    {r : Except Failure Unit} (h : ToolCall.Sequence (c :: cs) runs r) : runs ≠ [] := by
  cases h <;> simp

namespace Execution
variable {o : ChangeOptions} {name : TableName} {g : History}

theorem BackedUp.runs_of_obliged {r : Except Failure (Option String)} (hb : o.backup ≠ .none)
    (h : BackedUp o name g r) (ho : Obliged g) : toolRuns g ≠ [] := by
  cases h with
  | notWanted hn => exact absurd hn hb
  | unresolved _ hg => exact absurd (hg.succeeds_of_obliged ho) (not_succeeds_error _)
  | performed _ hg hk =>
    rw [toolRuns_append, hg.toolRuns_eq_nil, List.nil_append]
    exact hk.accounted.runs_of_obliged hb (obliged_append.1 ho).2

theorem Chain.touches_of_obliged {path : Option String} {r : Except Failure Execution}
    (hclause : o.byTool = true → alterClause o.statement ≠ "")
    (h : Chain o name path strategies [] [] g r) (ho : Obliged g) :
    sent g ≠ [] ∨ toolRuns g ≠ [] := by
  cases ht : o.byTool with
  | false => rcases h.native ht with ⟨rfl, -⟩ | ⟨e, x, rfl, -⟩ <;> simp
  | true =>
    obtain ⟨a, ha, -⟩ := h.tool ht
    cases ha with
    | unresolved hg => exact absurd (hg.succeeds_of_obliged ho) (not_succeeds_error _)
    | nothingToAlter _ hn => exact absurd (by simpa using hn) (hclause ht)
    | called _ _ _ hs => simp [hs.runs_ne_nil]

/-- With a given name nothing but an empty clause keeps a change from the table, and that only
where the tool is to make it and no backup is made. -/
theorem Ends.touches_of_obliged {r : Except Failure Execution} (hn : o.tableName ≠ none)
    (hclause : o.byTool = true → o.backup = .none → alterClause o.statement ≠ "")
    (h : Ends o g r) (ho : Obliged g) : sent g ≠ [] ∨ toolRuns g ≠ [] := by
  by_cases hb : o.backup = .none
  · cases h with
    | unnamed ht => exact absurd ht hn
    | notBackedUp _ hg =>
      cases hg with
      | unresolved hb' => exact absurd hb hb'
      | performed hb' => exact absurd hb hb'
    | tried _ hg hr =>
      rcases hr.touches_of_obliged (fun ht => hclause ht hb) (obliged_append.1 ho).2 with hs | ht
      · exact .inl (by simp [hs])
      · exact .inr (by simp [ht])
  · right
    cases h with
    | unnamed ht => exact absurd ht hn
    | notBackedUp _ hg => exact hg.runs_of_obliged hb ho
    | tried _ hg hr =>
      have ht := hg.runs_of_obliged hb (obliged_append.1 ho).1
      simp [ht]

/-- A statement without a name to go with it is refused unless it is an ALTER TABLE statement. -/
theorem Ends.refused_of_unnamed {r : Except Failure Execution} (hn : o.tableName = none)
    (hs : startsAlterTable o.statement = false) (h : Ends o g r) : ¬Succeeds r ∧ g = [] := by
  have hnot : ∀ name, ¬Names o name := by
    intro name hname
    simp [Names, hn, extractTableName_of_other hs] at hname
  cases h with
  | unnamed => exact ⟨not_succeeds_error _, rfl⟩
  | notBackedUp hname => exact absurd hname (hnot _)
  | tried hname => exact absurd hname (hnot _)

/-- With no backup to make and no clause to pass on, a change by the tool ends before its first
run. -/
theorem Ends.refused_of_no_clause {r : Except Failure Execution} (ht : o.byTool = true)
    (hb : o.backup = .none) (hclause : alterClause o.statement = "") (h : Ends o g r) :
    ¬Succeeds r ∧ sent g = [] ∧ toolRuns g = [] := by
  cases h with
  | unnamed => exact ⟨not_succeeds_error _, rfl, rfl⟩
  | notBackedUp _ hg =>
    cases hg with
    | unresolved hb' => exact absurd hb hb'
    | performed hb' => exact absurd hb hb'
  | tried _ hg hr =>
    cases hg with
    | performed hb' => exact absurd hb hb'
    | notWanted =>
      obtain ⟨a, ha, rfl⟩ := hr.tool ht
      cases ha with
      | unresolved hg => exact ⟨by simp, by simp [hg.still.sent], by simp [hg.toolRuns_eq_nil]⟩
      | nothingToAlter hg =>
        exact ⟨by simp, by simp [hg.still.sent], by simp [hg.toolRuns_eq_nil]⟩
      | called _ hn => simp [hclause] at hn

end Execution

/-- A statement that is not ALTER TABLE is refused in all surroundings exactly if no table name
is given, or if the tool is to make the change, no backup is made first, and the statement has no
clause. -/
theorem refused_iff (o : ChangeOptions) (hs : startsAlterTable o.statement = false) :
    (∀ (σ : Type) (env : Surroundings σ) (s : σ), Refused ((execute o).run.run env s)) ↔
      o.tableName = none ∨
        o.byTool = true ∧ o.backup = .none ∧ alterClause o.statement = "" := by
  constructor
  · intro hr
    refine Classical.byContradiction fun hno => ?_
    obtain ⟨hn, hclause⟩ := not_or.1 hno
    have hrun := hr Unit .obliging ()
    have hends := Execution.course_execute (Program.course_run .obliging (execute o).run ())
    have ho := Program.obliged_run (execute o).run
    rcases hends.touches_of_obliged hn (fun ht hb he => hclause ⟨ht, hb, he⟩) ho with hx | hx
    · exact hx (by rw [sent_exchanges, hrun.nothingSent])
    · exact hx (by rw [toolRuns_exchanges, hrun.nothingRun])
  · intro hno σ env s
    have hends := Execution.course_execute (Program.course_run env (execute o).run s)
    rcases hno with hn | ⟨ht, hb, hclause⟩
    · obtain ⟨hfail, hg⟩ := hends.refused_of_unnamed hn hs
      exact ⟨hfail, by rw [← sent_exchanges, hg, sent_nil],
        by rw [← toolRuns_exchanges, hg, toolRuns_nil]⟩
    · obtain ⟨hfail, hsent, hrun⟩ := hends.refused_of_no_clause ht hb hclause
      exact ⟨hfail, by rw [← sent_exchanges, hsent], by rw [← toolRuns_exchanges, hrun]⟩

/-- A change of `shop.orders` by the server, without a backup. -/
def orderChange (statement : String) (name : Option TableName) : ChangeOptions :=
  ⟨statement, name, none, .none, false, .default, false⟩

theorem refused_drop :
    let o := orderChange "DROP TABLE shop.orders" none
    startsAlterTable o.statement = false ∧
      ∀ (σ : Type) (env : Surroundings σ) (s : σ), Refused ((execute o).run.run env s) :=
  ⟨by decide, (refused_iff _ (by decide)).2 (.inl rfl)⟩

/-- With the name of its table beside it, a DROP TABLE statement is sent to the server. -/
theorem sent_drop :
    let o := orderChange "DROP TABLE shop.orders" (some ⟨some "shop", "orders"⟩)
    let run := (execute o).run.run .obliging ()
    startsAlterTable o.statement = false ∧ ¬Refused run ∧
      (sent run.history).map Sent.statement =
        ["DROP TABLE shop.orders, ALGORITHM=INPLACE, LOCK=NONE"] := by
  have hsent : (sent ((execute (orderChange "DROP TABLE shop.orders"
      (some ⟨some "shop", "orders"⟩))).run.run .obliging ()).history).map Sent.statement =
        ["DROP TABLE shop.orders, ALGORITHM=INPLACE, LOCK=NONE"] := by
    decide +kernel
  refine ⟨by decide, fun hr => ?_, hsent⟩
  rw [hr.nothingSent] at hsent
  cases hsent

end SafeAlter
