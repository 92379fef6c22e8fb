import SafeAlter.Proofs.Backup.Course
import SafeAlter.Validation.Validate

/-! # The courses of a validation

What the probe of the server, the report of one statement and the validation of a batch can ask of
the surroundings, and how each of them ends. A report is settled by the first answer that is no
good; a statement that can be changed in place is asked about no further.
-/
namespace SafeAlter
open SafeAlter.Text SafeAlter.Sql Program

/-- The exchanges of the probe, and what comes of them. -/
inductive Probed : History → Except Failure ServerInfo → Prop where
  | noVersion (e : Failure) : Probed [.answered (.ask .version) (.error e)] (.error e)
  | noComment (version : String) (e : Failure) :
      Probed [.answered (.ask .version) (.ok version),
        .answered (.ask (.systemVariable "version_comment")) (.error e)] (.error e)
  | noBinaryLog (version : String) (comment : Option String) (e : Failure) :
      Probed [.answered (.ask .version) (.ok version),
        .answered (.ask (.systemVariable "version_comment")) (.ok comment),
        .answered (.ask (.systemVariable "log_bin")) (.error e)] (.error e)
  | told (version : String) (comment binaryLog : Option String) :
      Probed [.answered (.ask .version) (.ok version),
        .answered (.ask (.systemVariable "version_comment")) (.ok comment),
        .answered (.ask (.systemVariable "log_bin")) (.ok binaryLog)]
        (.ok ⟨Flavor.ofComment (comment.getD ""), version, isEnabled (binaryLog.getD "")⟩)

theorem course_probe {h : History} {r : Except Failure ServerInfo} (hc : probe.run.Course h r) :
    Probed h.exchanges r := by
  rcases Act.course_bind.1 hc with ⟨version, g, k, hg, hk, rfl⟩ | ⟨e, hg, rfl⟩
  · rw [Act.course_ask] at hg
    subst hg
    rcases Act.course_bind.1 hk with ⟨comment, g, l, hg, hl, rfl⟩ | ⟨e, hg, rfl⟩
    · rw [Act.course_ask] at hg
      subst hg
      rcases Act.course_bind.1 hl with ⟨binaryLog, g, m, hg, hm, rfl⟩ | ⟨e, hg, rfl⟩
      · rw [Act.course_ask] at hg
        subst hg
        rcases Act.course_bind.1 hm with ⟨_, g, n, hg, hn, rfl⟩ | ⟨e, hg, rfl⟩
        · obtain ⟨_, hnote, -⟩ := Act.course_liftM.1 hg
          obtain ⟨rfl, rfl⟩ := Act.course_pure.1 hn
          rw [Act.course_note.1 hnote]
          exact .told version comment binaryLog
        · obtain ⟨_, -, he⟩ := Act.course_liftM.1 hg
          cases he
      · rw [Act.course_ask] at hg
        subst hg
        exact .noBinaryLog version comment e
    · rw [Act.course_ask] at hg
      subst hg
      exact .noComment version e
  · rw [Act.course_ask] at hg
    subst hg
    exact .noVersion e

namespace Validation

/-- The size of a table as it is reported, which is zero where the server does not tell it. -/
def reportedSize : Except Failure Footprint → Float
  | .ok f => Capacity.megabytes f.total
  | .error _ => 0.0

/-- The report of a statement whose table has an engine, before the rows are counted. -/
def examined (statement : String) (table : QualifiedTable) (engine : String) : StatementReport :=
  { StatementReport.blank (trimmed statement) with
    tableName := table.text
    storageEngine := engine
    engineValid := isInnoDb engine
    warnings := if isInnoDb engine then [] else [s!"Storage engine is {engine}, not InnoDB"] }

/-- The exchanges by which a report is completed, and the complete report. -/
inductive Judged (statement : String) (table : QualifiedTable) (r : StatementReport) :
    History → StatementReport → Prop where
  | online (x : Except Failure Footprint) {reason : String}
      (ho : judgeOnline r.engineValid statement = (true, reason)) :
      Judged statement table r [.answered (.ask (.footprint table)) x]
        { r with megabytes := reportedSize x, onlinePossible := true, onlineReason := reason }
  | byCopy (x : Except Failure Footprint) {reason : String} {k : History} {a : Assessment}
      (ho : judgeOnline r.engineValid statement = (false, reason))
      (ha : (assess table).Course k a) :
      Judged statement table r (.answered (.ask (.footprint table)) x :: k.exchanges)
        { r with
          megabytes := reportedSize x
          onlinePossible := false
          onlineReason := reason
          copyPossible := a.possible
          copyReason := a.reason
          warnings := r.warnings ++ a.warnings }

/-- The exchanges for one statement, its report, and what it adds to the errors of the batch. -/
inductive Ends (statement : String) : History → StatementReport × List String → Prop where
  | unnamed {fault : StatementFault} (hn : extractTableName statement = .error fault) :
      Ends statement []
        ({ StatementReport.blank (trimmed statement) with
          errors := [(Failure.statement fault).message] }, [])
  | unresolved {name : TableName} {g : History} {e : Failure}
      (hn : extractTableName statement = .ok name) (hg : Resolved name g (.error e)) :
      Ends statement g
        ({ StatementReport.blank (trimmed statement) with
          tableName := name.text
          errors := [e.message] }, [])
  | noEngine {name : TableName} {table : QualifiedTable} {g : History} (e : Failure)
      (hn : extractTableName statement = .ok name) (hg : Resolved name g (.ok table)) :
      Ends statement (g ++ [.answered (.ask (.storageEngine table)) (.error e)])
        ({ StatementReport.blank (trimmed statement) with
          tableName := table.text
          errors := [e.message] }, [])
  | missing {name : TableName} {table : QualifiedTable} {g : History}
      (hn : extractTableName statement = .ok name) (hg : Resolved name g (.ok table)) :
      Ends statement (g ++ [.answered (.ask (.storageEngine table)) (.ok none)])
        ({ StatementReport.blank (trimmed statement) with
          tableName := table.text
          errors := [missingTable] }, [])
  | uncounted {name : TableName} {table : QualifiedTable} {g : History} (engine : String)
      (e : Failure) (hn : extractTableName statement = .ok name)
      (hg : Resolved name g (.ok table)) :
      Ends statement
        (g ++ [.answered (.ask (.storageEngine table)) (.ok (some engine)),
          .answered (.ask (.rowCount table)) (.error e)])
        ({ examined statement table engine with
          errors := ["Could not read row count: " ++ e.message] },
          [s!"Failed to validate statement '{trimmed statement}': {e.message}"])
  | judged {name : TableName} {table : QualifiedTable} {g k : History} {r : StatementReport}
      (engine : String) (rows : UInt64) (hn : extractTableName statement = .ok name)
      (hg : Resolved name g (.ok table))
      (hr : Judged statement table { examined statement table engine with rows := rows } k r) :
      Ends statement
        (g ++ .answered (.ask (.storageEngine table)) (.ok (some engine)) ::
          .answered (.ask (.rowCount table)) (.ok rows) :: k)
        (r, [])

variable {statement : String} {table : QualifiedTable} {r r' : StatementReport} {h : History}

/-- However it ends, the report names the statement it is about. -/
theorem Ends.statement_eq {out : StatementReport × List String} (he : Ends statement h out) :
    out.1.statement = trimmed statement := by
  cases he with
  | unnamed => rfl
  | unresolved => rfl
  | noEngine => rfl
  | missing => rfl
  | uncounted => rfl
  | judged engine rows hn hg hr => cases hr <;> rfl

theorem course_tableSize {size : Float} (hc : (tableSize table).Course h size) :
    ∃ x, h.exchanges = [.answered (.ask (.footprint table)) x] ∧ size = reportedSize x := by
  obtain ⟨x, _, k, hask, hk, rfl⟩ := Program.course_bind.1 hc
  rw [Act.course_ask] at hask
  subst hask
  refine ⟨x, ?_⟩
  cases x with
  | ok f =>
    obtain ⟨rfl, rfl⟩ := course_done.1 hk
    exact ⟨rfl, rfl⟩
  | error e =>
    obtain ⟨_, k₁, k₂, hk₁, hk₂, rfl⟩ := Program.course_bind.1 hk
    obtain ⟨rfl, rfl⟩ := course_done.1 hk₂
    rw [Act.course_note.1 hk₁]
    exact ⟨rfl, rfl⟩

theorem course_judge (hc : (judge statement table r).Course h r') :
    Judged statement table r h.exchanges r' := by
  obtain ⟨size, g, k, hg, hk, rfl⟩ := Program.course_bind.1 hc
  obtain ⟨x, hx, rfl⟩ := course_tableSize hg
  rw [History.exchanges_append, hx]
  cases ho : judgeOnline r.engineValid statement with
  | mk possible reason =>
    cases possible with
    | true =>
      simp only [ho] at hk
      obtain ⟨rfl, rfl⟩ := course_done.1 hk
      exact .online x ho
    | false =>
      simp only [ho] at hk
      obtain ⟨a, ha, rfl⟩ := course_map.1 hk
      exact .byCopy x ho ha

/-- Whatever is answered, the report of a statement takes one of the courses laid down for it. -/
theorem course_reportStatement {out : StatementReport × List String}
    (hc : (reportStatement statement).Course h out) : Ends statement h.exchanges out := by
  unfold reportStatement at hc
  cases hn : extractTableName statement with
  | error fault =>
    simp only [hn] at hc
    obtain ⟨rfl, rfl⟩ := course_done.1 hc
    exact .unnamed hn
  | ok name =>
    simp only [hn] at hc
    obtain ⟨resolved, g, k, hg, hk, rfl⟩ := Program.course_bind.1 hc
    have hg := course_resolve hg
    rw [History.exchanges_append]
    cases resolved with
    | error e =>
      obtain ⟨rfl, rfl⟩ := course_done.1 hk
      simpa using Ends.unresolved hn hg
    | ok table =>
      obtain ⟨engine, _, l, hask, hl, rfl⟩ := Program.course_bind.1 hk
      rw [Act.course_ask] at hask
      subst hask
      match engine with
      | .error e =>
        obtain ⟨rfl, rfl⟩ := course_done.1 hl
        exact .noEngine e hn hg
      | .ok none =>
        obtain ⟨rfl, rfl⟩ := course_done.1 hl
        exact .missing hn hg
      | .ok (some engine) =>
        obtain ⟨rows, _, m, hask, hm, rfl⟩ := Program.course_bind.1 hl
        rw [Act.course_ask] at hask
        subst hask
        cases rows with
        | error e =>
          obtain ⟨rfl, rfl⟩ := course_done.1 hm
          exact .uncounted engine e hn hg
        | ok rows =>
          obtain ⟨r, hr, rfl⟩ := course_map.1 hm
          exact .judged engine rows hn hg (course_judge hr)

end Validation

end SafeAlter
