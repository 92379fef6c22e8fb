import Mathlib.Data.List.Basic
import SafeAlter.Proofs.Program.Course
import SafeAlter.Proofs.Program.Steady
import SafeAlter.Validation.Prerequisite

/-! # Prerequisites are checked apart from each other

Each prerequisite is checked in its turn, whatever came of those in front of it. Two of the checks
can rule a change by copy out, and their findings are the reason; a check that fails leaves a warning
in its place and is otherwise like one that finds nothing. A failed question is not always a failed
check: where the binary log is not switched on, a question for its files that fails counts as one
that was answered with no name.
-/
namespace SafeAlter
open SafeAlter.Text SafeAlter.Sql Program History Prerequisite

namespace Prerequisite

/-- Whether the files of the binary log have a name. A failed question tells none. -/
def namesFiles : Except Failure (Option String) → Bool
  | .ok (some name) => !(trimmed name).isEmpty
  | _ => false

/-- What is asked to verify a prerequisite, and whether it is met. -/
inductive Verified (table : QualifiedTable) :
    Prerequisite → History → Except Failure Bool → Prop where
  | logUntold (e : Failure) :
      Verified table .binaryLog [.answered (.ask (.listedVariable "log_bin")) (.error e)] (.error e)
  | logSwitchedOn {log : Option String} (hlog : log.any isEnabled = true) :
      Verified table .binaryLog [.answered (.ask (.listedVariable "log_bin")) (.ok log)] (.ok true)
  | logFiles {log : Option String} (hlog : log.any isEnabled = false)
      (files : Except Failure (Option String)) :
      Verified table .binaryLog
        [.answered (.ask (.listedVariable "log_bin")) (.ok log),
          .answered (.ask (.listedVariable "log_bin_basename")) files] (.ok (namesFiles files))
  | primaryUntold (e : Failure) :
      Verified table .chunkKey [.answered (.ask (.hasPrimaryKey table)) (.error e)] (.error e)
  | primary :
      Verified table .chunkKey [.answered (.ask (.hasPrimaryKey table)) (.ok true)] (.ok true)
  | unique (x : Except Failure Bool) :
      Verified table .chunkKey
        [.answered (.ask (.hasPrimaryKey table)) (.ok false),
          .answered (.ask (.hasUniqueKey table)) x] x
  | foreignKeys (x : Except Failure Bool) :
      Verified table .foreignKeys [.answered (.ask (.hasForeignKeys table)) x] (x.map (!·))
  | triggers (x : Except Failure Bool) :
      Verified table .triggers [.answered (.ask (.hasTriggers table)) x] (x.map (!·))

variable {table : QualifiedTable} {p : Prerequisite} {h : History}

theorem course_logsChanges {r : Except Failure Bool} (hc : logsChanges.run.Course h r) :
    Verified table .binaryLog h r := by
  rcases Act.course_bind.1 hc with ⟨log, g, k, hg, hk, rfl⟩ | ⟨e, hg, rfl⟩
  · rw [Act.course_ask] at hg
    subst hg
    split at hk
    · next hlog =>
      obtain ⟨rfl, rfl⟩ := Act.course_pure.1 hk
      exact .logSwitchedOn hlog
    · next hlog =>
      rcases Act.course_bind.1 hk with ⟨files, g, l, hg, hl, rfl⟩ | ⟨e, hg, rfl⟩
      · obtain ⟨x, hx, he⟩ := Act.course_observe.1 hg
        cases he
        rw [Act.course_ask] at hx
        subst hx
        obtain ⟨rfl, rfl⟩ := Act.course_pure.1 hl
        exact .logFiles (Bool.eq_false_iff.2 hlog) files
      · obtain ⟨x, -, he⟩ := Act.course_observe.1 hg
        cases he
  · rw [Act.course_ask] at hg
    subst hg
    exact .logUntold e

theorem course_chunkKey {r : Except Failure Bool} (hc : (isMet table .chunkKey).run.Course h r) :
    Verified table .chunkKey h r := by
  rcases Act.course_bind.1 hc with ⟨found, g, k, hg, hk, rfl⟩ | ⟨e, hg, rfl⟩
  · rw [Act.course_ask] at hg
    subst hg
    split at hk
    · next hfound =>
      obtain ⟨rfl, rfl⟩ := Act.course_pure.1 hk
      rw [hfound]
      exact .primary
    · next hfound =>
      rw [Act.course_ask] at hk
      subst hk
      rw [Bool.eq_false_iff.2 hfound]
      exact .unique r
  · rw [Act.course_ask] at hg
    subst hg
    exact .primaryUntold e

theorem course_isMet {r : Except Failure Bool} (hc : (isMet table p).run.Course h r) :
    Verified table p h r := by
  cases p with
  | binaryLog => exact course_logsChanges hc
  | chunkKey => exact course_chunkKey hc
  | foreignKeys =>
    obtain ⟨x, hx, rfl⟩ := Act.course_map.1 hc
    rw [Act.course_ask] at hx
    subst hx
    exact .foreignKeys x
  | triggers =>
    obtain ⟨x, hx, rfl⟩ := Act.course_map.1 hc
    rw [Act.course_ask] at hx
    subst hx
    exact .triggers x

/-- What comes of a check, told by whether the prerequisite is met. -/
def outcome (p : Prerequisite) (met : Except Failure Bool) : Assessment.Result :=
  met.map fun met => if met then none else some p.finding

theorem course_check {r : Assessment.Result} (hc : (p.check table).run.Course h r) :
    ∃ met, Verified table p h met ∧ r = p.outcome met := by
  obtain ⟨met, hmet, rfl⟩ := Act.course_map.1 hc
  exact ⟨met, course_isMet hmet, rfl⟩

/-- What was asked where the server has no binary log. -/
def LogIsMissing (h : History) : Prop :=
  ∃ log files, log.any isEnabled = false ∧ namesFiles files = false ∧
    h = [.answered (.ask (.listedVariable "log_bin")) (.ok log),
      .answered (.ask (.listedVariable "log_bin_basename")) files]

/-- What was asked where a table has no key to go by. -/
def KeyIsMissing (table : QualifiedTable) (h : History) : Prop :=
  h = [.answered (.ask (.hasPrimaryKey table)) (.ok false),
    .answered (.ask (.hasUniqueKey table)) (.ok false)]

theorem Verified.logIsMissing_iff {met : Except Failure Bool} (hv : Verified table .binaryLog h met) :
    met = .ok false ↔ LogIsMissing h := by
  cases hv with
  | logUntold e => simp [LogIsMissing]
  | logSwitchedOn hlog => simp [LogIsMissing]
  | logFiles hlog files =>
    rw [Except.ok.injEq]
    constructor
    · exact fun hfiles => ⟨_, files, hlog, hfiles, rfl⟩
    · rintro ⟨log, files, -, hfiles, he⟩
      cases he
      exact hfiles

theorem Verified.keyIsMissing_iff {met : Except Failure Bool} (hv : Verified table .chunkKey h met) :
    met = .ok false ↔ KeyIsMissing table h := by
  cases hv with
  | primaryUntold e => simp [KeyIsMissing]
  | primary => simp [KeyIsMissing]
  | unique x => simp [KeyIsMissing]

/-! ## Turns -/

/-- The prerequisites that are checked before one. -/
def before (p : Prerequisite) : List Prerequisite := all.takeWhile (· != p)

/-- The prerequisites that are checked after one. -/
def after (p : Prerequisite) : List Prerequisite := (all.dropWhile (· != p)).tail

theorem all_eq (p : Prerequisite) : all = p.before ++ p :: p.after := by
  cases p <;> rfl

theorem ne_of_mem_before {q : Prerequisite} (h : q ∈ p.before) : q ≠ p := by
  rintro rfl
  cases q <;> simp [before, all] at h

theorem ne_of_mem_after {q : Prerequisite} (h : q ∈ p.after) : q ≠ p := by
  rintro rfl
  cases q <;> simp [after, all] at h

variable {σ : Type}

/-- The state of the surroundings once some prerequisites have been checked. -/
def worldAfter (env : Surroundings σ) (table : QualifiedTable) (ps : List Prerequisite) (s : σ) : σ :=
  ps.foldl (fun s p => ((p.check table).run.run env s).world) s

/-- The check of a prerequisite in its turn, in the state that those before it have left. -/
def inTurn (env : Surroundings σ) (table : QualifiedTable) (s : σ) (p : Prerequisite) :
    Run σ Assessment.Result :=
  (p.check table).run.run env (worldAfter env table p.before s)

theorem verified_inTurn (env : Surroundings σ) (table : QualifiedTable) (s : σ) (p : Prerequisite) :
    ∃ met, Verified table p (inTurn env table s p).history met ∧
      (inTurn env table s p).value = p.outcome met :=
  course_check (course_run env _ _)

end Prerequisite

namespace Assessment
variable {σ : Type} {env : Surroundings σ} {table : QualifiedTable} {p : Prerequisite} {s : σ}

theorem exchanges_check :
    exchanges ((p.check table).run.run env s).history = ((p.check table).run.run env s).history := by
  obtain ⟨met, hmet, -⟩ := course_check (course_run env (p.check table).run s)
  generalize ((p.check table).run.run env s).history = h at hmet ⊢
  cases hmet <;> rfl

theorem course_lookInto {h : History} {a : Prerequisite × Result}
    (hc : (lookInto table p).Course h a) : ∃ met, a = (p, p.outcome met) := by
  obtain ⟨result, g, k, hg, hk, rfl⟩ := Program.course_bind.1 hc
  obtain ⟨met, -, rfl⟩ := course_check hg
  refine ⟨met, ?_⟩
  cases hmet : p.outcome met with
  | ok found =>
    rw [hmet] at hk
    exact (course_done.1 hk).2
  | error e =>
    rw [hmet] at hk
    obtain ⟨_, _, _, -, hdone, -⟩ := Program.course_bind.1 hk
    exact (course_done.1 hdone).2

/-- Looking into a prerequisite asks what its check asks, and keeps what comes of it. -/
theorem run_lookInto (env : Surroundings σ) (table : QualifiedTable) (p : Prerequisite) (s : σ) :
    ((lookInto table p).run env s).value = (p, ((p.check table).run.run env s).value) ∧
      exchanges ((lookInto table p).run env s).history =
          ((p.check table).run.run env s).history ∧
        ((lookInto table p).run env s).world = ((p.check table).run.run env s).world := by
  rw [lookInto, bind_eq, run_bind]
  simp only [exchanges_append, exchanges_check]
  cases ((p.check table).run.run env s).value with
  | ok found => exact ⟨rfl, List.append_nil _, rfl⟩
  | error e => exact ⟨rfl, List.append_nil _, rfl⟩

/-- An assessment is made of all checks, each run in its turn. -/
theorem run_assess (env : Surroundings σ) (table : QualifiedTable) (s : σ) :
    ((assess table).run env s).value =
        ofResults (Prerequisite.all.map fun p => (p, (inTurn env table s p).value)) ∧
      exchanges ((assess table).run env s).history =
        Prerequisite.all.flatMap fun p => (inTurn env table s p).history := by
  have hvalue := fun p s => (run_lookInto env table p s).1
  have hexchanges := fun p s => (run_lookInto env table p s).2.1
  have hworld := fun p s => (run_lookInto env table p s).2.2
  simp only [assess, Prerequisite.all, List.mapM_cons, List.mapM_nil, bind_eq, pure_eq, run_bind,
    run, hvalue, hworld, exchanges_append, hexchanges]
  constructor
  · rfl
  · simp only [List.flatMap_cons, List.flatMap_nil, exchanges_nil, List.append_nil]
    rfl

/-! ## Verdicts -/

/-- Whether a check was completed with a fatal finding. -/
def isFatal : Result → Bool
  | .ok (some f) => f.isFatal
  | _ => false

/-- What an assessment makes of the results of the checks. -/
structure Weighs (a : Assessment) (result : Prerequisite → Result) : Prop where
  possible : a.possible = false ↔
    isFatal (result .binaryLog) = true ∨ isFatal (result .chunkKey) = true
  reason : a.possible = false → a.reason =
    "; ".intercalate ((Prerequisite.all.filter fun p => isFatal (result p)).map (·.finding.message))
  warnings : a.warnings = Prerequisite.all.filterMap fun p => warning? p (result p)

/-- Two assessments differ by the warning of one check that failed. -/
structure DiffersByWarning (p : Prerequisite) (e : Failure) (result : Prerequisite → Result)
    (failed unfailed : Assessment) : Prop where
  possible : failed.possible = unfailed.possible
  reason : failed.reason = unfailed.reason
  warnings : ∃ before after, before = p.before.filterMap (fun q => warning? q (result q)) ∧
    after = p.after.filterMap (fun q => warning? q (result q)) ∧
      failed.warnings = before ++ s!"Could not verify {p.subject}: {e.message}" :: after ∧
        unfailed.warnings = before ++ after

theorem fatalMessage?_outcome (p : Prerequisite) (met : Except Failure Bool) :
    fatalMessage? (p.outcome met) =
      if isFatal (p.outcome met) then some p.finding.message else none := by
  match met with
  | .error e => rfl
  | .ok true => rfl
  | .ok false => rfl

theorem isFatal_outcome_iff {p : Prerequisite} {met : Except Failure Bool} :
    isFatal (p.outcome met) = true ↔ met = .ok false ∧ (p = .binaryLog ∨ p = .chunkKey) := by
  match met with
  | .error e => simp [outcome, isFatal, Except.map]
  | .ok true => simp [outcome, isFatal, Except.map]
  | .ok false => cases p <;> simp [outcome, isFatal, Except.map, finding, Finding.isFatal]

variable {result result' : Prerequisite → Result}

theorem fatalMessages_eq (hr : ∀ p, ∃ met, result p = p.outcome met) (ps : List Prerequisite) :
    ps.filterMap (fun p => fatalMessage? (result p)) =
      (ps.filter fun p => isFatal (result p)).map (·.finding.message) := by
  induction ps with
  | nil => rfl
  | cons p ps ih =>
    obtain ⟨met, hmet⟩ := hr p
    have hmessage := fatalMessage?_outcome p met
    rw [← hmet] at hmessage
    rw [List.filterMap_cons, List.filter_cons, hmessage, ih]
    cases isFatal (result p) <;> rfl

theorem weighs_ofResults (hr : ∀ p, ∃ met, result p = p.outcome met) :
    (ofResults (Prerequisite.all.map fun p => (p, result p))).Weighs result := by
  have hmessages := fatalMessages_eq hr Prerequisite.all
  have hfatal : ∀ p, isFatal (result p) = true → p = .binaryLog ∨ p = .chunkKey := by
    intro p hp
    obtain ⟨met, hmet⟩ := hr p
    rw [hmet] at hp
    exact (isFatal_outcome_iff.1 hp).2
  simp only [ofResults, List.filterMap_map, Function.comp_def]
  rw [hmessages]
  refine ⟨?_, ?_, rfl⟩
  · simp only [List.isEmpty_map, List.isEmpty_eq_false_iff_exists_mem, List.mem_filter]
    constructor
    · rintro ⟨p, -, hp⟩
      rcases hfatal p hp with rfl | rfl
      · exact .inl hp
      · exact .inr hp
    · rintro (hp | hp)
      · exact ⟨.binaryLog, by decide, hp⟩
      · exact ⟨.chunkKey, by decide, hp⟩
  · intro hpossible
    rw [if_neg (Bool.eq_false_iff.1 hpossible)]

/-- What is read off the results of all checks, cut at one of them. -/
theorem filterMap_all (f : Prerequisite → Result → Option String) (p : Prerequisite)
    (result : Prerequisite → Result) :
    Prerequisite.all.filterMap (fun q => f q (result q)) =
      p.before.filterMap (fun q => f q (result q)) ++ (f p (result p)).toList ++
        p.after.filterMap (fun q => f q (result q)) := by
  rw [p.all_eq, List.filterMap_append, List.filterMap_cons]
  cases f p (result p) <;> simp

theorem filterMap_before (hrest : ∀ q, q ≠ p → result' q = result q)
    (f : Prerequisite → Result → Option String) :
    p.before.filterMap (fun q => f q (result' q)) = p.before.filterMap fun q => f q (result q) := by
  refine List.filterMap_congr fun q hq => ?_
  rw [hrest q (ne_of_mem_before hq)]

theorem filterMap_after (hrest : ∀ q, q ≠ p → result' q = result q)
    (f : Prerequisite → Result → Option String) :
    p.after.filterMap (fun q => f q (result' q)) = p.after.filterMap fun q => f q (result q) := by
  refine List.filterMap_congr fun q hq => ?_
  rw [hrest q (ne_of_mem_after hq)]

theorem differs_ofResults {e : Failure} (he : result p = .error e) (hn : result' p = .ok none)
    (hrest : ∀ q, q ≠ p → result' q = result q) :
    DiffersByWarning p e result (ofResults (Prerequisite.all.map fun q => (q, result q)))
      (ofResults (Prerequisite.all.map fun q => (q, result' q))) := by
  have hcut (f : Prerequisite → Result → Option String) :
      Prerequisite.all.filterMap (fun q => f q (result' q)) =
        p.before.filterMap (fun q => f q (result q)) ++ (f p (.ok none)).toList ++
          p.after.filterMap (fun q => f q (result q)) := by
    rw [filterMap_all f p, filterMap_before hrest, filterMap_after hrest, hn]
  have hmessages : Prerequisite.all.filterMap (fun q => fatalMessage? (result q)) =
      Prerequisite.all.filterMap fun q => fatalMessage? (result' q) := by
    rw [hcut fun _ r => fatalMessage? r, filterMap_all (fun _ r => fatalMessage? r) p, he]
    rfl
  simp only [ofResults, List.filterMap_map, Function.comp_def, hmessages]
  refine ⟨rfl, rfl, _, _, rfl, rfl, ?_, ?_⟩
  · rw [filterMap_all warning? p, he, List.append_assoc]
    rfl
  · rw [hcut warning?]
    simp [warning?]

end Assessment

/-- An assessment runs the check of every prerequisite in its turn, whatever comes of the others. A
change by copy is ruled out exactly by a fatal finding on the binary log or on the keys, that is, by
a log that is not switched on and whose files are not named, be it for a question that failed, or by
two answers that there is no key; and the messages of these findings are the reason. Compared with a
check that finds nothing, one that fails adds its warning, in its place, and changes nothing else. -/
theorem prerequisites_isolated {σ σ' : Type} (env : Surroundings σ) (env' : Surroundings σ')
    (table : QualifiedTable) (s : σ) (s' : σ') :
    let check := inTurn env table s
    let check' := inTurn env' table s'
    let run := (assess table).run env s
    let run' := (assess table).run env' s'
    exchanges run.history = Prerequisite.all.flatMap (fun p => (check p).history) ∧
      (∀ p, ∃ met, Verified table p (check p).history met ∧ (check p).value = p.outcome met) ∧
        run.value.Weighs (fun p => (check p).value) ∧
          (run.value.possible = false ↔ LogIsMissing (check .binaryLog).history ∨
            KeyIsMissing table (check .chunkKey).history) ∧
            ∀ p e, (check p).value = .error e → (check' p).value = .ok none →
              (∀ q, q ≠ p → (check' q).value = (check q).value) →
                Assessment.DiffersByWarning p e (fun q => (check q).value) run.value run'.value := by
  intro check check' run run'
  obtain ⟨hvalue, hexchanges⟩ := Assessment.run_assess env table s
  obtain ⟨hvalue', -⟩ := Assessment.run_assess env' table s'
  have hverified : ∀ p, ∃ met, Verified table p (check p).history met ∧
      (check p).value = p.outcome met := verified_inTurn env table s
  have hweighs : run.value.Weighs fun p => (check p).value := by
    rw [hvalue]
    exact Assessment.weighs_ofResults fun p => (hverified p).imp fun _ h => h.2
  have hlog : Assessment.isFatal (check .binaryLog).value = true ↔
      LogIsMissing (check .binaryLog).history := by
    obtain ⟨met, hmet, hr⟩ := hverified .binaryLog
    rw [hr, Assessment.isFatal_outcome_iff, hmet.logIsMissing_iff]
    exact and_iff_left (.inl rfl)
  have hkey : Assessment.isFatal (check .chunkKey).value = true ↔
      KeyIsMissing table (check .chunkKey).history := by
    obtain ⟨met, hmet, hr⟩ := hverified .chunkKey
    rw [hr, Assessment.isFatal_outcome_iff, hmet.keyIsMissing_iff]
    exact and_iff_left (.inr rfl)
  refine ⟨hexchanges, hverified, hweighs, ?_, ?_⟩
  · rw [hweighs.possible, hlog, hkey]
  · intro p e he hn hrest
    rw [hvalue, hvalue']
    exact Assessment.differs_ofResults he hn hrest

/-- Surroundings that list the binary log as switched off, with given answers for its files and for
the primary key of a table. -/
def Surroundings.replica (files : Except Failure (Option String))
    (primary : Except Failure Bool) : Surroundings Unit :=
  .steady fun
    | .ask (.listedVariable name) => if name = "log_bin" then .ok (some "OFF") else files
    | .ask (.hasPrimaryKey _) => primary
    | r => obligingAnswer r

/-- A check that fails adds its warning to what is said where it finds nothing. -/
theorem prerequisites_isolated_unverified :
    let table : QualifiedTable := ⟨"shop", "orders"⟩
    let e : Failure := .metadata (.reported "denied")
    let check := inTurn (.replica (.ok (some "binlog")) (.error e)) table ()
    let check' := inTurn (.replica (.ok (some "binlog")) (.ok true)) table ()
    let run := (assess table).run (.replica (.ok (some "binlog")) (.error e)) ()
    let run' := (assess table).run (.replica (.ok (some "binlog")) (.ok true)) ()
    ((check .chunkKey).value = .error e ∧ (check' .chunkKey).value = .ok none ∧
        ∀ q, q ≠ .chunkKey → (check' q).value = (check q).value) ∧
      Assessment.DiffersByWarning .chunkKey e (fun q => (check q).value) run.value run'.value ∧
      run.value.warnings = ["Could not verify PRIMARY KEY/UNIQUE key: Metadata query failed: denied"] ∧
      run'.value.warnings = [] := by
  intro table e check check' run run'
  have hrest : ∀ q, q ≠ .chunkKey → (check' q).value = (check q).value := by
    intro q hq
    cases q with
    | chunkKey => exact absurd rfl hq
    | binaryLog => rfl
    | foreignKeys => rfl
    | triggers => rfl
  obtain ⟨-, -, -, -, hdiffers⟩ := prerequisites_isolated
    (.replica (.ok (some "binlog")) (.error e)) (.replica (.ok (some "binlog")) (.ok true)) table () ()
  exact ⟨⟨rfl, rfl, hrest⟩, hdiffers .chunkKey e rfl rfl hrest, by decide +kernel, by decide +kernel⟩

/-- A failed question rules a change by copy out where its answer would not have: the one for the
files of a binary log that is listed as switched off. -/
theorem ruledOut_by_failedQuestion :
    let verdict (files : Except Failure (Option String)) :=
      ((assess ⟨"shop", "orders"⟩).run (.replica files (.ok true)) ()).value
    verdict (.error (.metadata (.reported "denied"))) =
        ⟨false, (finding .binaryLog).message, []⟩ ∧
      verdict (.ok (some "binlog")) = ⟨true, Assessment.possibleReason, []⟩ := by
  decide +kernel

end SafeAlter
