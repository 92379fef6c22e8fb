import Mathlib.Data.List.Basic
import SafeAlter.Proofs.Validation.Composition

/-! # A validation only reads

A validation probes the server and then asks about one statement after the other, and nothing that
it asks changes anything. It fails exactly if a question of the probe does, before anything is asked
about a statement. What goes wrong later is said in the entries of the report; the errors of the
batch only repeat for which statements the rows could not be counted.
-/
namespace SafeAlter
open SafeAlter.Text SafeAlter.Sql Program Validation History

/-- The questions of the probe. -/
def probeQueries : List Query :=
  [.version, .systemVariable "version_comment", .systemVariable "log_bin"]

/-- What was asked while the server was probed. -/
def probed (h : History) : List Asked :=
  (asked h).take probeQueries.length

/-- The answer to the first question for the rows of a table, if there was one. -/
def rowCount? (questions : List Asked) : Option (Except Failure UInt64) :=
  questions.findSome? fun
    | ⟨.rowCount _, answer⟩ => some answer
    | _ => none

/-- What was done for a statement, and its report. -/
abbrev StatementPortion := Portion String (StatementReport × List String)

namespace Validation

/-- What a statement adds to the errors of the batch. -/
def batchError? (p : StatementPortion) : Option String :=
  match rowCount? (asked p.history) with
  | some (.error e) =>
    some s!"Failed to validate statement '{trimmed p.item}': {e.message}"
  | _ => none

/-- The report of a batch is put together from what was done for one statement after the other. -/
structure IsMadeOf (statements : List String) (h : History) (report : Report)
    (portions : List StatementPortion) : Prop where
  items : portions.map Portion.item = statements
  asked : asked h = probed h ++ portions.flatMap fun p => asked p.history
  courses : ∀ p ∈ portions, (reportStatement p.item).Course p.history p.value
  entries : report.statements = portions.map fun p => p.value.1
  errors : report.errors = portions.filterMap batchError?

/-- What holds of every validation. -/
structure OnlyReads (statements : List String) (h : History) (value : Except Failure Report) :
    Prop where
  reads : ∀ r x, .answered r x ∈ h → ∃ q, r = .ask q ∧ q.isRead = true
  probes : (probed h).map Asked.query <+: probeQueries
  probesAll : Succeeds value → (probed h).map Asked.query = probeQueries
  fails_iff : ∀ e, value = .error e ↔ ∃ a ∈ probed h, a.answer = .error e
  stops : ¬Succeeds value → asked h = probed h
  made : ∀ report, value = .ok report → ∃ portions, IsMadeOf statements h report portions
  hasErrors : ∀ report, value = .ok report →
    (report.hasErrors = true ↔ ∃ r ∈ report.statements, r.errors ≠ [])

/-! ## The course of a validation -/

/-- The exchanges of a validation, and its value. -/
inductive Validated (statements : List String) : History → Except Failure Report → Prop where
  | unreachable {g : History} {e : Failure} (hg : Probed g (.error e)) :
      Validated statements g (.error e)
  | reported {g : History} {server : ServerInfo} {portions : List StatementPortion}
      (hg : Probed g (.ok server)) (hitems : portions.map Portion.item = statements)
      (hall : ∀ p ∈ portions, (reportStatement p.item).Course p.history p.value) :
      Validated statements (g ++ exchanges (portions.flatMap Portion.history))
        (.ok (reportOf server (portions.map Portion.value)))

theorem course_validate {statements : List String} {h : History} {value : Except Failure Report}
    (hc : (validate statements).run.Course h value) : Validated statements h.exchanges value := by
  rcases Act.course_bind.1 hc with ⟨server, g, k, hg, hk, rfl⟩ | ⟨e, hg, rfl⟩
  · have hg := course_probe hg
    rcases Act.course_bind.1 hk with ⟨reports, k₁, k₂, hk₁, hk₂, rfl⟩ | ⟨e, hk₁, -⟩
    · obtain ⟨_, hreports, hvalue⟩ := Act.course_liftM.1 hk₁
      cases hvalue
      obtain ⟨portions, hitems, rfl, rfl, hall⟩ := course_mapM.1 hreports
      rcases Act.course_bind.1 hk₂ with ⟨_, k₃, k₄, hk₃, hk₄, rfl⟩ | ⟨e, hk₃, -⟩
      · obtain ⟨_, hnote, -⟩ := Act.course_liftM.1 hk₃
        obtain ⟨rfl, rfl⟩ := Act.course_pure.1 hk₄
        rw [Act.course_note.1 hnote]
        simpa [reportOf] using Validated.reported hg hitems hall
      · obtain ⟨_, -, he⟩ := Act.course_liftM.1 hk₃
        cases he
    · obtain ⟨_, -, he⟩ := Act.course_liftM.1 hk₁
      cases he
  · exact .unreachable (course_probe hg)

/-! ## The probe -/

section
variable {g k : History} {outcome : Except Failure ServerInfo} {server : ServerInfo}

theorem queries_of_probed (h : Probed g outcome) : (asked g).map Asked.query <+: probeQueries := by
  cases h with
  | noVersion e => exact ⟨_, rfl⟩
  | noComment version e => exact ⟨_, rfl⟩
  | noBinaryLog version comment e => exact ⟨[], rfl⟩
  | told version comment binaryLog => exact ⟨[], rfl⟩

theorem answers_of_probed (h : Probed g outcome) (e : Failure) :
    outcome = .error e ↔ ∃ a ∈ asked g, a.answer = .error e := by
  cases h <;> simp [asked, Event.asked?]

theorem probed_of_error {e : Failure} (h : Probed g (.error e)) : probed g = asked g := by
  cases h <;> rfl

theorem probed_of_ok (h : Probed g (.ok server)) (k : History) : probed (g ++ k) = asked g := by
  cases h
  rfl

end

/-! ## The errors of a batch -/

section
variable {statement : String} {h : History} {out : StatementReport × List String}

theorem Ends.batch_errors (he : Ends statement h out) :
    out.2 = (batchError? ⟨statement, h, out⟩).toList := by
  cases he with
  | unnamed => rfl
  | unresolved hn hg => cases hg <;> rfl
  | noEngine e hn hg => cases hg <;> rfl
  | missing hn hg => cases hg <;> rfl
  | uncounted engine e hn hg => cases hg <;> rfl
  | judged engine rows hn hg hr => cases hg <;> rfl

theorem Ends.errors_of_batch (he : Ends statement h out) (hne : out.2 ≠ []) : out.1.errors ≠ [] := by
  cases he with
  | unnamed => exact absurd rfl hne
  | unresolved => exact absurd rfl hne
  | noEngine => exact absurd rfl hne
  | missing => exact absurd rfl hne
  | uncounted => simp
  | judged => exact absurd rfl hne

end

/-! ## The report of a batch -/

section
variable {statements : List String} {g h : History} {server : ServerInfo}
  {portions : List StatementPortion}

/-- Only a report with an error adds to the errors of the batch, so that these alone tell of no
trouble. -/
theorem reportOf_hasErrors_iff {reports : List (StatementReport × List String)}
    (hne : ∀ out ∈ reports, out.2 ≠ [] → out.1.errors ≠ []) :
    (reportOf server reports).hasErrors = true ↔
      ∃ r ∈ (reportOf server reports).statements, r.errors ≠ [] := by
  have hbatch : (reports.map Prod.snd).flatten ≠ [] → ∃ out ∈ reports, out.1.errors ≠ [] := by
    intro hflat
    obtain ⟨error, herror⟩ := List.exists_mem_of_ne_nil _ hflat
    obtain ⟨errors, herrors, hmem⟩ := List.mem_flatten.1 herror
    obtain ⟨out, hout, rfl⟩ := List.mem_map.1 herrors
    exact ⟨out, hout, hne out hout (List.ne_nil_of_mem hmem)⟩
  have hentries : (∃ r ∈ (reportOf server reports).statements, r.errors ≠ []) ↔
      ∃ out ∈ reports, out.1.errors ≠ [] := by
    simp [reportOf]
  rw [hentries, Report.hasErrors, Bool.or_eq_true, Bool.not_eq_true', List.isEmpty_eq_false_iff,
    List.any_eq_true]
  constructor
  · rintro (hflat | ⟨r, hr, herrors⟩)
    · exact hbatch hflat
    · exact hentries.1 ⟨r, hr, by simpa using herrors⟩
  · intro hout
    obtain ⟨r, hr, herrors⟩ := hentries.2 hout
    exact .inr ⟨r, hr, by simpa using herrors⟩

theorem isMadeOf (hh : h.exchanges = g ++ exchanges (portions.flatMap Portion.history))
    (hprobed : probed h = asked g) (hitems : portions.map Portion.item = statements)
    (hall : ∀ p ∈ portions, (reportStatement p.item).Course p.history p.value) :
    IsMadeOf statements h (reportOf server (portions.map Portion.value)) portions where
  items := hitems
  asked := by
    have hparts : asked (portions.flatMap Portion.history) =
        portions.flatMap fun p => asked p.history := List.filterMap_flatMap ..
    rw [hprobed, ← hparts, ← asked_exchanges h, hh, asked_append, asked_exchanges]
  courses := hall
  entries := List.map_map
  errors := by
    have herrors : ∀ p ∈ portions, p.value.2 = (batchError? p).toList := by
      intro p hp
      have hbatch := (course_reportStatement (hall p hp)).batch_errors
      rwa [batchError?, asked_exchanges] at hbatch
    have hflat : (reportOf server (portions.map Portion.value)).errors =
        portions.flatMap fun p => p.value.2 := by
      simp [reportOf, List.flatMap_def, Function.comp_def]
    rw [hflat, List.flatMap_congr herrors, List.filterMap_eq_flatMap_toList]

end

theorem Validated.onlyReads {statements : List String} {h : History} {value : Except Failure Report}
    (hv : Validated statements h.exchanges value)
    (hreads : ∀ r x, .answered r x ∈ h → ∃ q, r = .ask q ∧ q.isRead = true) :
    OnlyReads statements h value := by
  have hasked : asked h.exchanges = asked h := asked_exchanges h
  have hprobed : probed h.exchanges = probed h := by rw [probed, hasked, probed]
  generalize hexchanges : h.exchanges = g at hv hasked hprobed
  cases hv with
  | @unreachable _ e hg =>
    rw [probed_of_error hg] at hprobed
    refine ⟨hreads, ?_, ?_, ?_, ?_, nofun, nofun⟩
    · rw [← hprobed]
      exact queries_of_probed hg
    · exact fun hok => absurd hok (not_succeeds_error e)
    · intro e'
      rw [← hprobed, ← answers_of_probed hg e', Except.error.injEq, Except.error.injEq]
    · intro _
      rw [← hprobed, hasked]
  | @reported g server portions hg hitems hall =>
    rw [probed_of_ok hg] at hprobed
    refine ⟨hreads, ?_, ?_, ?_, ?_, ?_, ?_⟩
    · rw [← hprobed]
      exact queries_of_probed hg
    · intro _
      rw [← hprobed]
      cases hg
      rfl
    · intro e
      rw [← hprobed, ← answers_of_probed hg e]
      simp
    · exact fun hfails => absurd (succeeds_ok _) hfails
    · rintro report ⟨⟩
      exact ⟨portions, isMadeOf hexchanges hprobed.symm hitems hall⟩
    · rintro report ⟨⟩
      refine reportOf_hasErrors_iff fun out hout => ?_
      obtain ⟨p, hp, rfl⟩ := List.mem_map.1 hout
      exact (course_reportStatement (hall p hp)).errors_of_batch

theorem reads_validate (statements : List String) : (validate statements).run.Reads := by
  refine Act.reads_bind reads_probe fun server => ?_
  refine Act.reads_bind (Act.reads_liftM (Reads.mapM reads_reportStatement statements)) fun _ => ?_
  exact Act.reads_bind (Act.reads_liftM (Act.reads_note _ _)) fun _ => Act.reads_pure _

end Validation

open Validation

/-- A validation only reads, in whatever state the server is and whatever it answers. If it fails,
then on a question of the probe and with the answer to it, and whatever the statements are, the run
is the same. -/
theorem validate_reads {σ : Type} (env : Surroundings σ) (statements : List String) (s : σ) :
    let run := (validate statements).run.run env s
    OnlyReads statements run.history run.value ∧
      (¬Succeeds run.value → ∀ others, (validate others).run.run env s = run) := by
  intro run
  have hc : (validate statements).run.Course run.history run.value := course_run env _ s
  refine ⟨(course_validate hc).onlyReads fun r x hx => (reads_validate statements).of_mem hc hx,
    fun hfails others => ?_⟩
  cases hserver : (probe.run.run env s).value with
  | ok server =>
    refine absurd ?_ hfails
    change Succeeds ((validate statements).run.run env s).value
    rw [value_validate, hserver]
    exact succeeds_ok _
  | error e =>
    have hrun : ∀ zs, (validate zs).run.run env s =
        ⟨.error e, (probe.run.run env s).history, (probe.run.run env s).world⟩ :=
      fun zs => Act.run_bind_error hserver _
    exact (hrun others).trans (hrun statements).symm

/-- Surroundings whose server does not tell whether it keeps a binary log. -/
def Surroundings.reticent : Surroundings Unit :=
  .steady fun
    | .ask (.systemVariable "log_bin") => .error (.metadata (.reported "no privilege"))
    | r => obligingAnswer r

theorem validate_reads_troubled :
    let statements := ["DROP TABLE t", "ALTER TABLE t ADD c INT"]
    (∃ report, ((validate statements).run.run .uncounted 0).value = .ok report ∧
      report.errors =
        ["Failed to validate statement 'ALTER TABLE t ADD c INT': " ++
          (Failure.metadata (.reported "no statistics")).message] ∧
      ∃ r ∈ report.statements, r.errors ≠ []) ∧
      ((validate statements).run.run .reticent ()).value =
        .error (.metadata (.reported "no privilege")) ∧
      (validate []).run.run .reticent () = (validate statements).run.run .reticent () := by
  intro statements
  constructor
  · obtain ⟨hreads, -⟩ := validate_reads .uncounted statements 0
    have herrors : (((validate statements).run.run .uncounted 0).value.toOption.map fun report =>
        (report.hasErrors, report.errors)) =
          some (true, ["Failed to validate statement 'ALTER TABLE t ADD c INT': " ++
            (Failure.metadata (.reported "no statistics")).message]) := by
      decide +kernel
    cases hvalue : ((validate statements).run.run .uncounted 0).value with
    | error e =>
      rw [hvalue] at herrors
      cases herrors
    | ok report =>
      rw [hvalue] at herrors
      obtain ⟨hhas, herrors⟩ := Prod.mk.inj (Option.some.inj herrors)
      exact ⟨report, rfl, herrors, (hreads.hasErrors report hvalue).1 hhas⟩
  · obtain ⟨-, hfails⟩ := validate_reads .reticent statements ()
    have hvalue : ((validate statements).run.run .reticent ()).value =
        .error (.metadata (.reported "no privilege")) := rfl
    refine ⟨hvalue, hfails ?_ []⟩
    rw [hvalue]
    exact not_succeeds_error _

end SafeAlter
