import SafeAlter.Proofs.Program.Reads
import SafeAlter.Proofs.Program.Steady
import SafeAlter.Proofs.Validation.Course

/-! # Validating two batches as one

A validation only reads. The report of each statement is made from what the server answers about
this statement, so that a batch can be validated in two parts: the two reports, one behind the
other, are the report of the whole, whatever is wrong with any of the statements.
-/
namespace SafeAlter
open SafeAlter.Text SafeAlter.Sql Act Program

/-! ## A validation reads -/

theorem reads_probe : probe.run.Reads := by
  refine reads_bind (reads_ask rfl) fun version => ?_
  refine reads_bind (reads_ask rfl) fun comment => ?_
  refine reads_bind (reads_ask rfl) fun binaryLog => ?_
  refine reads_bind (reads_liftM (reads_note _ _)) fun _ => ?_
  exact reads_pure _

theorem reads_resolve (name : TableName) : (resolve name).run.Reads := by
  unfold resolve
  split
  · exact reads_pure _
  · refine reads_bind (reads_ask rfl) fun database => ?_
    split
    · exact reads_pure _
    · exact reads_throw _

namespace Validation

theorem reads_isMet (table : QualifiedTable) (p : Prerequisite) : (p.isMet table).run.Reads := by
  cases p with
  | binaryLog =>
    refine reads_bind (reads_ask rfl) fun log => ?_
    split
    · exact reads_pure _
    · exact reads_bind (reads_observe (reads_ask rfl)) fun files => reads_pure _
  | chunkKey =>
    refine reads_bind (reads_ask rfl) fun hasPrimaryKey => ?_
    split
    · exact reads_pure _
    · exact reads_ask rfl
  | foreignKeys => exact reads_bind (reads_ask rfl) fun _ => reads_pure _
  | triggers => exact reads_bind (reads_ask rfl) fun _ => reads_pure _

theorem reads_lookInto (table : QualifiedTable) (p : Prerequisite) :
    (Assessment.lookInto table p).Reads := by
  have hcheck : (p.check table).run.Reads :=
    reads_bind (reads_isMet table p) fun _ => reads_pure _
  refine hcheck.bind fun result => ?_
  split
  · exact (reads_note _ _).bind fun _ => .done _
  · exact .done _

theorem reads_assess (table : QualifiedTable) : (assess table).Reads :=
  (Reads.mapM (reads_lookInto table) Prerequisite.all).bind fun _ => .done _

theorem reads_tableSize (table : QualifiedTable) : (tableSize table).Reads := by
  refine (reads_ask rfl).bind fun footprint => ?_
  split
  · exact .done _
  · exact (reads_note _ _).bind fun _ => .done _

theorem reads_judge (statement : String) (table : QualifiedTable) (r : StatementReport) :
    (judge statement table r).Reads := by
  refine (reads_tableSize table).bind fun size => ?_
  dsimp only
  split
  · exact .done _
  · exact (reads_assess table).bind fun _ => .done _

theorem reads_reportStatement (statement : String) : (reportStatement statement).Reads := by
  unfold reportStatement
  split
  · exact .done _
  · refine (reads_resolve _).bind fun table => ?_
    split
    · exact .done _
    · refine (reads_ask rfl).bind fun engine => ?_
      split
      · exact .done _
      · exact .done _
      · refine (reads_ask rfl).bind fun rows => ?_
        split
        · exact .done _
        · exact (reads_judge _ _ _).bind fun _ => .done _

/-! ## Every statement has its report -/

theorem statement_of_reportStatement {statement : String} {h : History}
    {a : StatementReport × List String} (hc : (reportStatement statement).Course h a) :
    a.1.statement = trimmed statement :=
  (course_reportStatement hc).statement_eq

/-! ## The report of a batch -/

/-- The report on a server and on statements. -/
def reportOf (server : ServerInfo) (reports : List (StatementReport × List String)) : Report where
  flavor := server.flavor
  version := server.version
  binaryLog := server.binaryLog
  statements := reports.map Prod.fst
  warnings := if server.binaryLog then [] else [noBinaryLog]
  errors := (reports.map Prod.snd).flatten

theorem value_validate {σ : Type} (env : Surroundings σ) (statements : List String) (s : σ) :
    ((validate statements).run.run env s).value =
      (probe.run.run env s).value.map fun server => reportOf server
        ((statements.mapM reportStatement).run env (probe.run.run env s).world).value := by
  rw [validate, value_bind]
  cases hserver : (probe.run.run env s).value with
  | error e => rfl
  | ok server =>
    simp only [value_liftM_bind]
    rfl

end Validation

open Validation

/-- Where the probe succeeds, a validation has a report, with one entry for each statement in the
order of the statements. If the server answers steadily, two batches are validated as one: the
report of both is that of the first with the entries and the errors of the second behind its own,
and what it says of the server, warnings included, is what each of the two says. -/
theorem validate_append {σ : Type} (env : Surroundings σ) :
    (∀ zs s, Succeeds (probe.run.run env s).value →
      ∃ r, ((validate zs).run.run env s).value = .ok r ∧
        r.statements.map StatementReport.statement = zs.map trimmed) ∧
    (env.AnswersSteadily → ∀ xs ys s t u, Succeeds (probe.run.run env s).value →
      ∃ a b c, ((validate xs).run.run env s).value = .ok a ∧
        ((validate ys).run.run env t).value = .ok b ∧
        ((validate (xs ++ ys)).run.run env u).value = .ok c ∧
        c = { a with statements := a.statements ++ b.statements, errors := a.errors ++ b.errors } ∧
        b = { a with statements := b.statements, errors := b.errors }) := by
  constructor
  · rintro zs s ⟨server, hserver⟩
    have hvalue := value_validate env zs s
    rw [hserver] at hvalue
    refine ⟨_, hvalue, ?_⟩
    have hentries := map_of_course_mapM (g := fun a => a.1.statement)
      (fun z _ _ => statement_of_reportStatement)
      (course_run env (zs.mapM reportStatement) (probe.run.run env s).world)
    simp only [reportOf, List.map_map]
    exact hentries
  · rintro henv xs ys s t u ⟨server, hserver⟩
    have hprobe : ∀ v, (probe.run.run env v).value = .ok server := by
      intro v
      rw [reads_probe.value_eq henv v s, hserver]
    have hvalue : ∀ zs v, ((validate zs).run.run env v).value =
        .ok (reportOf server
          ((zs.mapM reportStatement).run env (probe.run.run env v).world).value) := by
      intro zs v
      rw [value_validate, hprobe]
      rfl
    refine ⟨_, _, _, hvalue xs s, hvalue ys t, hvalue (xs ++ ys) u, ?_, rfl⟩
    have hentries := value_mapM_append reads_reportStatement henv xs ys (probe.run.run env u).world
      (probe.run.run env s).world (probe.run.run env t).world
    rw [hentries]
    simp [reportOf]

/-- Surroundings that count what they are asked, where no row count can be read. -/
def Surroundings.uncounted : Surroundings Nat := fun r n =>
  (match r with
    | .ask (.rowCount _) => .error (.metadata (.reported "no statistics"))
    | r => obligingAnswer r, n + 1)

theorem validate_append_uncounted :
    Surroundings.uncounted.AnswersSteadily ∧
      Succeeds (probe.run.run Surroundings.uncounted 0).value ∧
      ∃ a b c, ((validate [" ALTER TABLE t ADD c INT"]).run.run .uncounted 0).value = .ok a ∧
        ((validate ["DROP TABLE t"]).run.run .uncounted 9).value = .ok b ∧
        ((validate [" ALTER TABLE t ADD c INT", "DROP TABLE t"]).run.run .uncounted 5).value =
          .ok c ∧
        c.statements.map StatementReport.statement = ["ALTER TABLE t ADD c INT", "DROP TABLE t"] ∧
        c.statements = a.statements ++ b.statements ∧ c.errors = a.errors ++ b.errors := by
  have hsteady : Surroundings.uncounted.AnswersSteadily := fun q s t hq => rfl
  have hprobe : ∀ n, Succeeds (probe.run.run Surroundings.uncounted n).value := fun n => ⟨_, rfl⟩
  obtain ⟨hentries, hboth⟩ := validate_append Surroundings.uncounted
  obtain ⟨a, b, c, ha, hb, hc, happend, -⟩ :=
    hboth hsteady [" ALTER TABLE t ADD c INT"] ["DROP TABLE t"] 0 9 5 (hprobe 0)
  obtain ⟨r, hr, hstatements⟩ :=
    hentries [" ALTER TABLE t ADD c INT", "DROP TABLE t"] 5 (hprobe 5)
  have hsame : r = c := Except.ok.inj (hr.symm.trans hc)
  subst hsame
  refine ⟨hsteady, hprobe 0, a, b, r, ha, hb, hc, ?_, by rw [happend], by rw [happend]⟩
  rw [hstatements]
  decide +kernel

end SafeAlter
