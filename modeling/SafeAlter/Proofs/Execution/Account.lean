import SafeAlter.Proofs.Execution.OtherStatements

/-! # What a change that was made says of itself

A change that ends well tells how it was made, where its backup is, and what went wrong before it
was made. What it tells agrees with what was asked for and with what the server answered, whatever
that was. One of the strategies always applies and has the last word, so there is no change for
which the strategies run out.
-/
namespace SafeAlter
open SafeAlter.Sql History

namespace Execution

/-- What the account of a change is to say, where `h` is what was asked and answered for it. -/
structure IsAccountOf (e : Execution) (o : ChangeOptions) (h : History) : Prop where
  changed : e.changeExecuted = true
  byTool_iff : ∃ s, e.strategy = some s ∧ (s = .externalTool ↔ o.byTool = true)
  performed_iff : e.backupPerformed = true ↔ o.backup ≠ .none
  path_iff : e.backupPath.isSome = true ↔ o.backup ≠ .none
  online : e.strategy = some .onlineDdl → e.warnings = [] ∧ e.errors = []
  tool : e.strategy = some .externalTool → e.errors = [] ∧ e.warnings.length ≤ 1
  /-- The one error is what the server said when it refused the change in place. -/
  locking : e.strategy = some .lockingAlter → ∃ warning refusal,
    e.warnings = [warning, Strategy.lockWarning] ∧ e.errors = [refusal.message] ∧
      (sent h).head? = some ⟨withOnlineHints o.statement, .error refusal⟩

variable {o : ChangeOptions} {name : TableName} {path : Option String} {g : History}

theorem isSome_of_performed {r : BackupRequest} (hm : r.method ≠ .none) (h : r.Ends g (.ok path)) :
    path.isSome = true := by
  generalize hout : (Except.ok path : Except Failure (Option String)) = out at h
  cases h with
  | notWanted hn => exact absurd hn hm
  | noEstimate => cases hout
  | noDirectory => cases hout
  | noFreeSpace => cases hout
  | noRoom => cases hout
  | @called _ _ _ _ _ _ _ _ out =>
    cases out with
    | error => cases hout
    | ok =>
      cases hout
      rfl

/-- A backup has a place exactly if one was asked for. -/
theorem BackedUp.isSome_iff (h : BackedUp o name g (.ok path)) :
    path.isSome = true ↔ o.backup ≠ .none := by
  cases h with
  | notWanted hb => simp [hb]
  | performed hb _ hk => simp [hb, isSome_of_performed (r := backupOf o _) hb hk]

/-- The account of a chain of strategies that ended well, before which nothing was sent. -/
theorem Chain.isAccountOf {e : Execution} {before : History}
    (hb : BackedUp o name before (.ok path))
    (hc : Chain o name path strategies [] [] g (.ok e)) : e.IsAccountOf o (before ++ g) := by
  have hpath := hb.isSome_iff
  have hsent := hb.still.sent
  generalize hr : (Except.ok e : Except Failure Execution) = r at hc
  cases ht : o.byTool with
  | false =>
    rcases hc.native ht with ⟨-, rfl⟩ | ⟨refusal, _ | _, rfl, rfl⟩
    · cases hr
      exact ⟨rfl, ⟨_, rfl, by simp [ht]⟩, hpath, hpath, fun _ => ⟨rfl, rfl⟩, nofun, nofun⟩
    · cases hr
    · cases hr
      refine ⟨rfl, ⟨_, rfl, by simp [ht]⟩, hpath, hpath, nofun, nofun, fun _ => ?_⟩
      exact ⟨_, refusal, rfl, rfl, by simp [hsent]⟩
  | true =>
    obtain ⟨⟨outcome, warnings, errors⟩, ha, rfl⟩ := hc.tool ht
    cases outcome with
    | error => cases hr
    | ok =>
      cases hr
      cases ha with
      | called _ _ x =>
        have hwarnings : (Strategy.triggerWarnings x).length ≤ 1 := by
          cases x <;> simp [Strategy.triggerWarnings]
        exact ⟨rfl, ⟨_, rfl, by simp [ht]⟩, hpath, hpath, nofun, fun _ => ⟨rfl, hwarnings⟩, nofun⟩

theorem Ends.isAccountOf {e : Execution} (h : Ends o g (.ok e)) : e.IsAccountOf o g := by
  cases h with
  | tried _ hb hr => exact hr.isAccountOf hb

theorem IsAccountOf.of_exchanges {e : Execution} {h : History}
    (ha : e.IsAccountOf o (exchanges h)) : e.IsAccountOf o h :=
  { ha with locking := fun hs => by simpa only [sent_exchanges] using ha.locking hs }

/-! ## The end of the strategies -/

/-- Strategies after one that applies and has the last word are never tried. -/
theorem tryEach_append {ss : List Strategy} (hs : ∃ s ∈ ss, s.applies o = true ∧ s.isLast = true)
    (more : List Strategy) (warnings errors : List String) :
    tryEach o name path (ss ++ more) warnings errors = tryEach o name path ss warnings errors := by
  induction ss generalizing warnings errors with
  | nil =>
    obtain ⟨_, hm, -⟩ := hs
    cases hm
  | cons s rest ih =>
    have hrest : ¬(s.applies o = true ∧ s.isLast = true) →
        ∃ s ∈ rest, s.applies o = true ∧ s.isLast = true := by
      intro hno
      obtain ⟨t, hm, ht⟩ := hs
      rcases List.mem_cons.1 hm with rfl | hm
      · exact absurd ht hno
      · exact ⟨t, hm, ht⟩
    rw [List.cons_append, tryEach, tryEach]
    cases ha : s.applies o with
    | false => simp only [Bool.false_eq_true, if_false, ih (hrest (by simp [ha]))]
    | true =>
      cases hl : s.isLast with
      | true => rfl
      | false => simp only [ih (hrest (by simp [hl]))]

theorem exists_last (o : ChangeOptions) :
    ∃ s ∈ strategies, s.applies o = true ∧ s.isLast = true := by
  cases ht : o.byTool with
  | false => exact ⟨.lockingAlter, by simp [strategies], by simp [Strategy.applies, ht], rfl⟩
  | true => exact ⟨.externalTool, by simp [strategies], by simp [Strategy.applies, ht], rfl⟩

/-- Whether the server answered a question with a given failure. -/
def Reported (g : History) (e : Failure) : Prop :=
  ∃ q, .answered (.ask q) (.error e) ∈ g

theorem Reported.append_right {g h : History} {e : Failure} (hr : Reported h e) :
    Reported (g ++ h) e := by
  obtain ⟨q, hq⟩ := hr
  exact ⟨q, List.mem_append_right g hq⟩

variable {fault : ChangeFault}

theorem reported_of_resolved (h : Resolved name g (.error (.change fault))) :
    Reported g (.change fault) := by
  cases h with
  | failed => exact ⟨.currentDatabase, List.mem_cons_self ..⟩

theorem reported_of_estimated {table : QualifiedTable} {method : BackupMethod}
    (h : Capacity.Estimated table method g (.error (.change fault))) :
    Reported g (.change fault) := by
  cases h with
  | dumpFailed => exact ⟨.footprint table, List.mem_cons_self ..⟩
  | copyFailed => exact ⟨.databaseBytes table.database, List.mem_cons_self ..⟩

theorem not_change_of_calls {calls : List ToolCall} {runs : List ToolRun} :
    ¬ToolCall.Sequence calls runs (.error (.change fault)) := by
  intro h
  generalize hr : (Except.error (.change fault) : Except Failure Unit) = r at h
  induction h with
  | finished => cases hr
  | stopped he =>
    cases hr
    cases he
  | next _ _ ih => exact ih hr

theorem reported_of_performed {r : BackupRequest} (h : r.Ends g (.error (.change fault))) :
    Reported g (.change fault) := by
  generalize hout : (Except.error (.change fault) : Except Failure (Option String)) = out at h
  cases h with
  | notWanted => cases hout
  | noEstimate he =>
    cases hout
    exact reported_of_estimated he
  | noDirectory => cases hout
  | noFreeSpace => cases hout
  | noRoom _ hp =>
    cases hout
    unfold Capacity.Plan.checked at hp
    split at hp <;> cases hp
  | @called _ _ _ _ _ _ _ _ out _ _ _ hs =>
    cases out with
    | ok => cases hout
    | error =>
      cases hout
      exact absurd hs not_change_of_calls

theorem BackedUp.reported (h : BackedUp o name g (.error (.change fault))) :
    Reported g (.change fault) := by
  cases h with
  | unresolved _ hg => exact reported_of_resolved hg
  | performed _ _ hk => exact (reported_of_performed hk).append_right

theorem Chain.reported (h : Chain o name path strategies [] [] g (.error (.change fault))) :
    Reported g (.change fault) := by
  generalize hr : (Except.error (.change fault) : Except Failure Execution) = r at h
  cases ht : o.byTool with
  | false =>
    rcases h.native ht with ⟨-, rfl⟩ | ⟨refusal, _ | _, rfl, rfl⟩
    · cases hr
    · cases hr
      exact ⟨.execute o.statement, by simp [Event.executed]⟩
    · cases hr
  | true =>
    obtain ⟨⟨outcome, warnings, errors⟩, ha, rfl⟩ := h.tool ht
    cases outcome with
    | ok => cases hr
    | error =>
      cases hr
      cases ha with
      | unresolved hg => exact reported_of_resolved hg
      | called _ _ _ hs => exact absurd hs not_change_of_calls

/-- A failure to change is never made up: it is one that the server answered with. -/
theorem Ends.reported (h : Ends o g (.error (.change fault))) : Reported g (.change fault) := by
  cases h with
  | notBackedUp _ hb => exact hb.reported
  | tried _ _ hr => exact hr.reported.append_right

end Execution

open Execution

/-- A change that ends well gives a true account of itself, whatever the surroundings answer. The
strategies never run out: what comes after them is never reached, and a failure to change is
always one that the server has answered with. -/
theorem execute_account {σ : Type} (o : ChangeOptions) (env : Surroundings σ) (s : σ) :
    let run := (execute o).run.run env s
    (∀ e, run.value = .ok e → e.IsAccountOf o run.history) ∧
      (∀ name path more warnings errors,
        tryEach o name path (strategies ++ more) warnings errors =
          tryEach o name path strategies warnings errors) ∧
      ∀ fault, run.value = .error (.change fault) → Reported run.history (.change fault) := by
  intro run
  have hends : Ends o (exchanges run.history) run.value :=
    course_execute (Program.course_run env (execute o).run s)
  refine ⟨fun e he => ?_, fun name path more warnings errors => ?_, fun fault he => ?_⟩
  · rw [he] at hends
    exact hends.isAccountOf.of_exchanges
  · exact tryEach_append (exists_last o) more warnings errors
  · rw [he] at hends
    obtain ⟨q, hq⟩ := hends.reported
    exact ⟨q, mem_exchanges.1 hq⟩

/-- A server that refuses the first statement it is sent. -/
def Surroundings.refusingOnce : Surroundings Bool := fun r refused =>
  match r with
  | .ask (.execute _) =>
    if refused then (.ok (), true)
    else (.error (.change (.rejected "LOCK=NONE is not supported")), true)
  | r => (obligingAnswer r, refused)

theorem execute_account_refused :
    let o := orderChange "ALTER TABLE shop.orders MODIFY total BIGINT" none
    let run := (execute o).run.run .refusingOnce false
    let e : Execution := ⟨false, none, true, some .lockingAlter,
      [Strategy.unsupportedWarning, Strategy.lockWarning],
      ["Schema change failed: LOCK=NONE is not supported"]⟩
    run.value = .ok e ∧ e.IsAccountOf o run.history := by
  intro o run e
  have hsome : run.value.toOption = some e := by decide +kernel
  have hvalue : run.value = .ok e := by
    cases hv : run.value with
    | error => simp [hv, Except.toOption] at hsome
    | ok => simpa [hv, Except.toOption] using hsome
  exact ⟨hvalue, (execute_account o .refusingOnce false).1 e hvalue⟩

end SafeAlter
