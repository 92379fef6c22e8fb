import Mathlib.Data.List.Forall2
import Mathlib.Logic.Basic
import SafeAlter.Proofs.Text.Trimming
import SafeAlter.Proofs.Validation.Composition
import SafeAlter.Proofs.Validation.Isolation

/-! # Reports agree with themselves

A report is filled in as the answers come. However far it gets, its fields agree: a statement with
an error is promised nothing, and any other can either be changed in place, with nothing more to
say, or cannot, and then the engine of the table or the clause of the statement is the reason.
-/
namespace SafeAlter
open SafeAlter.Text SafeAlter.Sql Program Validation

namespace StatementReport

/-- What the report of a statement with an error says: nothing. -/
structure SaysNothing (r : StatementReport) : Prop where
  notOnline : r.onlinePossible = false ∧ r.onlineReason = ""
  notByCopy : r.copyPossible = false ∧ r.copyReason = ""
  nothingCounted : r.rows = 0 ∧ r.megabytes = 0.0

/-- What the report of a statement that can be changed in place says. -/
structure SaysOnline (r : StatementReport) : Prop where
  possible : r.onlinePossible = true
  engineValid : r.engineValid = true
  notBlocked : blockingOperation (alterClause r.statement) = none
  noWarning : r.warnings = []
  notByCopy : r.copyPossible = false ∧ r.copyReason = ""

/-- Why a statement cannot be changed in place. -/
inductive Hindered (r : StatementReport) : Prop where
  | engine (hengine : isInnoDb r.storageEngine = false)
      (hwarning : s!"Storage engine is {r.storageEngine}, not InnoDB" ∈ r.warnings)
      (hreason : r.onlineReason = engineReason)
  | operation {operation rest : String} (hengine : isInnoDb r.storageEngine = true)
      (hblocked : blockingOperation (alterClause r.statement) = some operation)
      (hreason : r.onlineReason = operation ++ rest)

/-- What the report of a statement that cannot be changed in place says. -/
structure SaysOffline (r : StatementReport) : Prop where
  notOnline : r.onlinePossible = false
  copyReason : r.copyReason ≠ ""
  hindered : r.Hindered

/-- A report whose fields agree. -/
structure IsConsistent (r : StatementReport) : Prop where
  engine : r.engineValid = isInnoDb r.storageEngine
  oneError : r.errors.length ≤ 1
  failed : r.errors ≠ [] → r.SaysNothing
  judged : r.errors = [] → r.onlineReason ≠ "" ∧ Xor r.SaysOnline r.SaysOffline

variable {r : StatementReport}

theorem SaysOnline.isConsistent (h : r.SaysOnline) (he : r.engineValid = isInnoDb r.storageEngine)
    (hnone : r.errors = []) (hreason : r.onlineReason ≠ "") : r.IsConsistent := by
  refine ⟨he, by simp [hnone], fun herror => absurd hnone herror, fun _ => ⟨hreason, .inl ⟨h, ?_⟩⟩⟩
  intro hoffline
  have hpossible := h.possible
  rw [hoffline.notOnline] at hpossible
  cases hpossible

theorem SaysOffline.isConsistent (h : r.SaysOffline)
    (he : r.engineValid = isInnoDb r.storageEngine) (hnone : r.errors = [])
    (hreason : r.onlineReason ≠ "") : r.IsConsistent := by
  refine ⟨he, by simp [hnone], fun herror => absurd hnone herror, fun _ => ⟨hreason, .inr ⟨h, ?_⟩⟩⟩
  intro honline
  have hpossible := honline.possible
  rw [h.notOnline] at hpossible
  cases hpossible

theorem SaysNothing.isConsistent (h : r.SaysNothing)
    (he : r.engineValid = isInnoDb r.storageEngine) {error : String} (herror : r.errors = [error]) :
    r.IsConsistent := by
  refine ⟨he, by simp [herror], fun _ => h, fun hnone => ?_⟩
  rw [herror] at hnone
  cases hnone

end StatementReport

/-! ## The reason of an assessment -/

theorem intercalate_ne_empty (mark : String) {reasons : List String} (hne : reasons ≠ [])
    (h : ∀ reason ∈ reasons, reason ≠ "") : mark.intercalate reasons ≠ "" := by
  obtain ⟨first, rest, rfl⟩ := List.exists_cons_of_ne_nil hne
  intro hempty
  have hfirst : first = "" := by
    cases rest with
    | nil => simpa using hempty
    | cons second rest =>
      rw [String.intercalate_cons_cons, String.append_eq_empty_iff, String.append_eq_empty_iff]
        at hempty
      exact hempty.1.1
  exact h first (List.mem_cons_self ..) hfirst

namespace Assessment
variable {table : QualifiedTable} {h : History}

theorem reason_ne_empty {a : Assessment} (hc : (assess table).Course h a) : a.reason ≠ "" := by
  obtain ⟨results, hresults, rfl⟩ := course_map.1 hc
  obtain ⟨portions, -, -, rfl, hall⟩ := course_mapM.1 hresults
  simp only [ofResults]
  split
  · decide
  · next hne =>
    refine intercalate_ne_empty _ (fun he => hne (List.isEmpty_iff.2 he)) fun reason hreason => ?_
    obtain ⟨result, hresult, hmessage⟩ := List.mem_filterMap.1 hreason
    obtain ⟨portion, hportion, rfl⟩ := List.mem_map.1 hresult
    obtain ⟨met, hmet⟩ := course_lookInto (hall portion hportion)
    rw [hmet, fatalMessage?_outcome] at hmessage
    split at hmessage
    · cases hmessage
      cases portion.item <;> decide
    · cases hmessage

end Assessment

/-! ## The report of a statement -/

namespace Validation
variable {statement : String} {table : QualifiedTable} {r r' : StatementReport} {h : History}

theorem judgeOnline_eq_true {valid : Bool} {reason : String}
    (h : judgeOnline valid statement = (true, reason)) :
    valid = true ∧ blockingOperation (alterClause statement) = none ∧ reason = onlineReason := by
  unfold judgeOnline at h
  split at h
  · next hvalid =>
    split at h
    · next hnone =>
      cases h
      exact ⟨hvalid, hnone, rfl⟩
    · cases h
  · cases h

theorem judgeOnline_eq_false {valid : Bool} {reason : String}
    (h : judgeOnline valid statement = (false, reason)) :
    (valid = false ∧ reason = engineReason) ∨
      ∃ operation, valid = true ∧ blockingOperation (alterClause statement) = some operation ∧
        reason = copyReason operation := by
  unfold judgeOnline at h
  split at h
  · next hvalid =>
    split at h
    · cases h
    · next operation hsome =>
      cases h
      exact .inr ⟨operation, hvalid, hsome, rfl⟩
  · next hvalid =>
    cases h
    exact .inl ⟨Bool.eq_false_iff.2 hvalid, rfl⟩

theorem judgeOnline_reason_ne {valid possible : Bool} {reason : String}
    (h : judgeOnline valid statement = (possible, reason)) : reason ≠ "" := by
  cases possible with
  | true =>
    obtain ⟨-, -, rfl⟩ := judgeOnline_eq_true h
    decide
  | false =>
    rcases judgeOnline_eq_false h with ⟨-, rfl⟩ | ⟨operation, -, -, rfl⟩
    · decide
    · intro hempty
      have hrest := (String.append_eq_empty_iff.1 hempty).2
      revert hrest
      decide

theorem alterClause_trimmed (statement : String) :
    alterClause (trimmed statement) = alterClause statement := by
  simp only [alterClause, clauseOf, trimmed, String.toList_ofList, trim_trim]

theorem Judged.isConsistent {engine : String} {rows : UInt64} {h : History} {r : StatementReport}
    (hj : Judged statement table { examined statement table engine with rows := rows } h r) :
    r.IsConsistent := by
  cases hj with
  | online x ho =>
    obtain ⟨hvalid, hnone, -⟩ := judgeOnline_eq_true ho
    have hinno : isInnoDb engine = true := hvalid
    refine StatementReport.SaysOnline.isConsistent ⟨rfl, hvalid, ?_, ?_, rfl, rfl⟩ rfl rfl
      (judgeOnline_reason_ne ho)
    · exact (congrArg blockingOperation (alterClause_trimmed statement)).trans hnone
    · exact if_pos hinno
  | byCopy x ho ha =>
    refine StatementReport.SaysOffline.isConsistent
      ⟨rfl, Assessment.reason_ne_empty ha, ?_⟩ rfl rfl (judgeOnline_reason_ne ho)
    rcases judgeOnline_eq_false ho with ⟨hvalid, rfl⟩ | ⟨operation, hvalid, hsome, rfl⟩
    · have hother : isInnoDb engine = false := hvalid
      refine .engine hother (List.mem_append_left _ ?_) rfl
      simp [examined, hother]
    · exact .operation hvalid
        ((congrArg blockingOperation (alterClause_trimmed statement)).trans hsome) rfl

theorem isConsistent_of_error (statement name error : String) :
    { StatementReport.blank statement with
      tableName := name
      errors := [error] }.IsConsistent :=
  StatementReport.SaysNothing.isConsistent ⟨⟨rfl, rfl⟩, ⟨rfl, rfl⟩, ⟨rfl, rfl⟩⟩ rfl rfl

theorem Ends.isConsistent {h : History} {out : StatementReport × List String}
    (he : Ends statement h out) : out.1.IsConsistent := by
  cases he with
  | unnamed hn => exact isConsistent_of_error ..
  | unresolved hn hg => exact isConsistent_of_error ..
  | noEngine e hn hg => exact isConsistent_of_error ..
  | missing hn hg => exact isConsistent_of_error ..
  | uncounted engine e hn hg =>
    exact StatementReport.SaysNothing.isConsistent ⟨⟨rfl, rfl⟩, ⟨rfl, rfl⟩, ⟨rfl, rfl⟩⟩ rfl rfl
  | judged engine rows hn hg hr => exact hr.isConsistent

end Validation

/-- What is promised of the report of a statement: it is about this statement, and its fields
agree. -/
structure ReportsOn (statement : String) (r : StatementReport) : Prop where
  named : r.statement = trimmed statement
  clause : alterClause r.statement = alterClause statement
  consistent : r.IsConsistent

theorem reportsOn_of_ends {statement : String} {h : History} {out : StatementReport × List String}
    (he : Ends statement h out) : ReportsOn statement out.1 := by
  refine ⟨he.statement_eq, ?_, he.isConsistent⟩
  rw [he.statement_eq, alterClause_trimmed]

/-- Whatever the server answers, the report of a statement is about this statement and agrees with
itself; and so are the entries in the report of a batch, each about the statement in its place. -/
theorem report_consistent {σ : Type} (env : Surroundings σ) :
    (∀ statement s, ReportsOn statement ((reportStatement statement).run env s).value.1) ∧
      ∀ statements s report, ((validate statements).run.run env s).value = .ok report →
        List.Forall₂ ReportsOn statements report.statements := by
  constructor
  · intro statement s
    exact reportsOn_of_ends (course_reportStatement (course_run env _ s))
  · intro statements s report hreport
    rw [value_validate] at hreport
    cases hserver : (probe.run.run env s).value with
    | error e =>
      rw [hserver] at hreport
      cases hreport
    | ok server =>
      rw [hserver] at hreport
      cases hreport
      have hc := course_run env (statements.mapM reportStatement) (probe.run.run env s).world
      obtain ⟨portions, hitems, -, hvalues, hall⟩ := course_mapM.1 hc
      simp only [reportOf]
      rw [← hvalues, ← hitems, List.map_map, List.forall₂_map_left_iff, List.forall₂_map_right_iff,
        List.forall₂_same]
      intro portion hportion
      exact reportsOn_of_ends (course_reportStatement (hall portion hportion))

/-- Surroundings that have tables of two engines, the name of a table telling which. -/
def Surroundings.archived : Surroundings Unit :=
  .steady fun
    | .ask (.storageEngine table) =>
      .ok (some (if table.table = "old" then "MyISAM" else "InnoDB"))
    | r => obligingAnswer r

theorem report_consistent_mixed :
    let statements := ["ALTER TABLE t ADD c INT", " ALTER TABLE t MODIFY c INT",
      "ALTER TABLE old ADD c INT", "DROP TABLE t"]
    ∃ report, ((validate statements).run.run .archived ()).value = .ok report ∧
      List.Forall₂ ReportsOn statements report.statements ∧
      (report.statements.map fun r => (r.onlinePossible, r.onlineReason, r.errors.length)) =
        [(true, onlineReason, 0), (false, copyReason "MODIFY", 0), (false, engineReason, 0),
          (false, "", 1)] := by
  intro statements
  obtain ⟨-, hreports⟩ := report_consistent .archived
  have hverdicts : (((validate statements).run.run .archived ()).value.toOption.map fun report =>
      report.statements.map fun r => (r.onlinePossible, r.onlineReason, r.errors.length)) =
        some [(true, onlineReason, 0), (false, copyReason "MODIFY", 0), (false, engineReason, 0),
          (false, "", 1)] := by
    decide +kernel
  cases hvalue : ((validate statements).run.run .archived ()).value with
  | error e =>
    rw [hvalue] at hverdicts
    cases hverdicts
  | ok report =>
    rw [hvalue] at hverdicts
    exact ⟨report, rfl, hreports statements () report hvalue, Option.some.inj hverdicts⟩

end SafeAlter
