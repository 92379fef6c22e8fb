import SafeAlter.Proofs.Execution.Alteration

/-! # No change without its backup

Where a backup is asked for, nothing alters a table before every run of the backup has been made
and has succeeded. If any step of the backup goes wrong, the change ends in a failure and nothing
alters a table at all. Steps are told by their events, so that a failing step counts wherever in
the history it stands.
-/
namespace SafeAlter
open SafeAlter.Sql History

namespace Event

/-- Whether an event is a step of a backup that went wrong: the table could not be found, its size
could not be asked, the directory could not be made, its free space could not be asked, or a tool
that is not the copying one was not started, was killed or ended with another code than zero. -/
def spoilsBackup : Event → Bool
  | .answered (.ask .currentDatabase) (.ok current) => current.isNone
  | .answered (.ask .currentDatabase) (.error _) => true
  | .answered (.ask (.footprint _)) (.error _) => true
  | .answered (.ask (.databaseBytes _)) (.error _) => true
  | .answered (.makeDirectory _) (.error _) => true
  | .answered (.freeSpace _) (.error _) => true
  | .answered (.run c) x => !c.isCopying && !ToolRun.succeeded ⟨c, x⟩
  | _ => false

end Event

/-- Something went wrong with a backup: the statement names no table, a single step failed, or
there was too little room for the estimate and its buffer. -/
inductive BackupTrouble (o : ChangeOptions) (h : History) : Prop where
  | unnamed {fault : StatementFault} (ht : o.tableName = none)
      (hn : extractTableName o.statement = .error fault)
  | step {e : Event} (he : e ∈ h) (hs : e.spoilsBackup = true)
  | noRoom {e f : Event} {estimate : Float} {available : UInt64} (he : e ∈ h) (hf : f ∈ h)
      (hx : e.estimate? = some estimate) (ha : f.available? = some available)
      (hlt : available < Capacity.requiredBytes estimate o.config.bufferPercent)

/-- The runs of a whole backup of the table that the change is for, all of which succeeded: one
run that dumps the table, or one that copies it and one that prepares the copy. -/
inductive WholeBackup (o : ChangeOptions) : List ToolRun → Prop where
  | dump {name : TableName} {current time : String} {x : ToolRun} (hm : o.backup = .logicalDump)
      (hn : Execution.Names o name)
      (hx : x.command = ((Execution.backupOf o (name.within current)).dumpCall
        (BackupPath.dump o.config.backupDir time (name.within current))).command)
      (hs : x.succeeded = true) : WholeBackup o [x]
  | copy {name : TableName} {current time : String} {x y : ToolRun}
      (hm : o.backup = .physicalCopy) (hn : Execution.Names o name)
      (hx : x.command = ((Execution.backupOf o (name.within current)).copyCall
        (BackupPath.copy o.config.backupDir time (name.within current))).command)
      (hy : y.command = ((Execution.backupOf o (name.within current)).prepareCall
        (BackupPath.copy o.config.backupDir time (name.within current))).command)
      (hxs : x.succeeded = true) (hys : y.succeeded = true) : WholeBackup o [x, y]

theorem Resolved.eq_within {name : TableName} {g : History} {table : QualifiedTable}
    (h : Resolved name g (.ok table)) : ∃ current, table = name.within current := by
  cases h with
  | @qualified database hd => exact ⟨"", by simp [TableName.within, hd]⟩
  | @completed database hd => exact ⟨database, by simp [TableName.within, hd]⟩

theorem Resolved.measures_nothing {name : TableName} {g : History}
    {r : Except Failure QualifiedTable} (h : Resolved name g r) :
    ∀ e ∈ g, e.estimate? = none ∧ e.available? = none := by
  cases h <;> simp [Event.estimate?, Event.available?]

theorem Resolved.not_spoilsBackup {name : TableName} {g : History} {table : QualifiedTable}
    (h : Resolved name g (.ok table)) : ∀ e ∈ g, e.spoilsBackup = false := by
  cases h <;> simp [Event.spoilsBackup]

theorem Capacity.Estimated.not_spoilsBackup {table : QualifiedTable} {method : BackupMethod}
    {g : History} {estimate : Float} (h : Capacity.Estimated table method g (.ok (some estimate))) :
    ∀ e ∈ g, e.spoilsBackup = false := by
  cases h <;> simp [Event.spoilsBackup]

namespace BackupRequest
variable {r : BackupRequest} {g : History} {path : Option String}

theorem Ends.of_ok (hm : r.method ≠ .none) (h : r.Ends g (.ok path)) :
    ∃ g₁ estimate available time file, ∃ calls : List ToolCall, ∃ runs : List ToolRun,
      g = g₁ ++ [.answered (.makeDirectory r.config.backupDir) (.ok ()),
        .answered (.freeSpace r.config.backupDir) (.ok available),
        .answered .clock time] ++ runs.map ToolRun.event ∧
      Capacity.Estimated r.table r.method g₁ (.ok (some estimate)) ∧
      ¬available < Capacity.requiredBytes estimate r.config.bufferPercent ∧
      r.plan time = some (file, calls) ∧
      runs.map ToolRun.command = calls.map ToolCall.command ∧
      ∀ x ∈ runs, x.succeeded = true := by
  generalize hout : (Except.ok path : Except Failure (Option String)) = out at h
  cases h with
  | notWanted hn => exact absurd hn hm
  | noEstimate => cases hout
  | noDirectory => cases hout
  | noFreeSpace => cases hout
  | noRoom => cases hout
  | @called g₁ estimate available p time file calls runs out he hp hplan hs =>
    have hok : Succeeds out := by
      cases out with
      | ok => simp
      | error => cases hout
    obtain ⟨hc, hsucc⟩ := hs.succeeds_iff.1 hok
    exact ⟨g₁, estimate, available, time, file, calls, runs, rfl, he,
      Capacity.not_lt_of_checked hp, hplan, hc, hsucc⟩

/-- Nothing goes wrong with a backup that was made: no step of it, and there was room for the one
estimate. -/
theorem Ends.untroubled (hm : r.method ≠ .none) (h : r.Ends g (.ok path)) :
    ∃ estimate available, ¬available < Capacity.requiredBytes estimate r.config.bufferPercent ∧
      ∀ e ∈ g, e.spoilsBackup = false ∧ (∀ x, e.estimate? = some x → x = estimate) ∧
        ∀ a, e.available? = some a → a = available := by
  obtain ⟨g₁, estimate, available, time, file, calls, runs, rfl, he, hroom, -, -, hs⟩ := h.of_ok hm
  refine ⟨estimate, available, hroom, fun e hm => ?_⟩
  rw [List.append_assoc] at hm
  refine ⟨?_, he.measures_only (Event.measures_nothing_of_called time runs) hm⟩
  simp only [List.mem_append, List.mem_cons, List.not_mem_nil, or_false] at hm
  rcases hm with hm | (rfl | rfl | rfl) | hm
  · exact he.not_spoilsBackup e hm
  · rfl
  · rfl
  · rfl
  · obtain ⟨x, hx, rfl⟩ := List.mem_map.1 hm
    simp [ToolRun.event, Event.spoilsBackup, hs x hx]

end BackupRequest

namespace Execution
variable {o : ChangeOptions} {name : TableName} {g k : History} {path : Option String}
  {r : Except Failure Execution}

theorem wholeBackup_of_plan {current time file : String} {calls : List ToolCall}
    {runs : List ToolRun} (hn : Names o name)
    (hp : (backupOf o (name.within current)).plan time = some (file, calls))
    (hc : runs.map ToolRun.command = calls.map ToolCall.command)
    (hs : ∀ x ∈ runs, x.succeeded = true) : WholeBackup o runs := by
  rcases BackupRequest.plan_cases hp with ⟨hm, rfl, rfl⟩ | ⟨hm, rfl, rfl⟩
  · obtain ⟨x, rfl, hx⟩ := List.map_eq_singleton_iff.1 hc
    exact .dump hm hn hx (hs x (by simp))
  · obtain ⟨x, xs, rfl, hx, hxs⟩ := List.map_eq_cons_iff.1 hc
    obtain ⟨y, rfl, hy⟩ := List.map_eq_singleton_iff.1 hxs
    exact .copy hm hn hx hy (hs x (by simp)) (hs y (by simp))

/-- A backup that was made leaves the runs of a whole backup, and nothing went wrong with it. -/
theorem BackedUp.whole (hb : o.backup ≠ .none) (hn : Names o name)
    (h : BackedUp o name g (.ok path)) :
    WholeBackup o (toolRuns g) ∧
      ∃ estimate available, ¬available < Capacity.requiredBytes estimate o.config.bufferPercent ∧
        ∀ e ∈ g, e.spoilsBackup = false ∧ (∀ x, e.estimate? = some x → x = estimate) ∧
          ∀ a, e.available? = some a → a = available := by
  cases h with
  | notWanted hw => exact absurd hw hb
  | performed _ hg hk =>
    constructor
    · obtain ⟨g₁, _, _, _, _, _, runs, rfl, he, -, hp, hc, hs⟩ := hk.of_ok hb
      obtain ⟨current, rfl⟩ := hg.eq_within
      rw [toolRuns_append, hg.toolRuns_eq_nil, toolRuns_append, toolRuns_append,
        he.toolRuns_eq_nil, toolRuns_runs]
      exact wholeBackup_of_plan hn hp hc hs
    · obtain ⟨estimate, available, hroom, hu⟩ := hk.untroubled hb
      refine ⟨estimate, available, hroom, fun e he => ?_⟩
      rcases List.mem_append.1 he with he | he
      · obtain ⟨hx, ha⟩ := hg.measures_nothing e he
        exact ⟨hg.not_spoilsBackup e he, by simp [hx], by simp [ha]⟩
      · exact hu e he

/-- What is done once there is a backup takes no more measures and runs no tool but the copying
one. Only a table that cannot be found can still spoil it, and then nothing is altered. -/
theorem Chain.afterBackup (hc : Chain o name path strategies [] [] k r) :
    (∀ e ∈ k, e.estimate? = none ∧ e.available? = none) ∧
      (∀ x ∈ toolRuns k, x.command.isCopying = true) ∧
      ((∃ e ∈ k, e.spoilsBackup = true) → ¬Succeeds r ∧ Still k) := by
  cases ht : o.byTool with
  | false =>
    rcases hc.native ht with ⟨rfl, -⟩ | ⟨e, x, rfl, -⟩ <;>
      simp [Event.executed, Event.estimate?, Event.available?, Event.spoilsBackup]
  | true =>
    obtain ⟨a, ha, rfl⟩ := hc.tool ht
    cases ha with
    | unresolved hg =>
      exact ⟨hg.measures_nothing, by simp [hg.toolRuns_eq_nil], fun _ => ⟨by simp, hg.still⟩⟩
    | nothingToAlter hg =>
      exact ⟨hg.measures_nothing, by simp [hg.toolRuns_eq_nil], fun _ => ⟨by simp, hg.still⟩⟩
    | called hg _ x hs =>
      have hrun := Strategy.runs_copying hs
      refine ⟨fun e he => ?_, by simpa [hg.toolRuns_eq_nil] using hrun, ?_⟩
      · rcases List.mem_append.1 he with he | he
        · exact hg.measures_nothing e he
        · rcases List.mem_cons.1 he with rfl | he
          · exact ⟨rfl, rfl⟩
          · obtain ⟨y, -, rfl⟩ := List.mem_map.1 he
            exact ⟨rfl, rfl⟩
      · rintro ⟨e, he, hspoils⟩
        rcases List.mem_append.1 he with he | he
        · rw [hg.not_spoilsBackup e he] at hspoils
          contradiction
        · rcases List.mem_cons.1 he with rfl | he
          · cases hspoils
          · obtain ⟨y, hy, rfl⟩ := List.mem_map.1 he
            simp [ToolRun.event, Event.spoilsBackup, hrun y hy] at hspoils

theorem Ends.backup_before (hb : o.backup ≠ .none) (h : Ends o g r) {before after : History}
    {e : Event} (hg : g = before ++ e :: after) (he : e.alters = true) :
    WholeBackup o ((toolRuns before).filter fun x => !x.command.isCopying) := by
  have hm : e ∈ g := by simp [hg]
  cases h with
  | unnamed => cases hm
  | notBackedUp _ hk =>
    rw [hk.still e hm] at he
    contradiction
  | @tried _ _ g k _ hn hk hr =>
    obtain ⟨hwhole, -⟩ := hk.whole hb hn
    obtain ⟨-, hcopying, -⟩ := hr.afterBackup
    -- what comes before the event is the backup and a beginning of what is done after it
    obtain ⟨l, rfl, rfl⟩ : ∃ l, before = g ++ l ∧ k = l ++ e :: after := by
      rcases List.append_eq_append_iff.1 hg with hl | ⟨_ | ⟨e', l⟩, rfl, hl⟩
      · exact hl
      · exact ⟨[], by simp, by simpa using hl.symm⟩
      · obtain ⟨rfl, -⟩ := List.cons_eq_cons.1 hl
        rw [hk.still e (by simp)] at he
        contradiction
    have hg' : (toolRuns g).filter (fun x => !x.command.isCopying) = toolRuns g :=
      List.filter_eq_self.2 fun x hx => by simp [hk.still.not_copying x hx]
    have hl : (toolRuns l).filter (fun x => !x.command.isCopying) = [] :=
      List.filter_eq_nil_iff.2 fun x hx => by simp [hcopying x (by simp [hx])]
    rw [toolRuns_append, List.filter_append, hg', hl, List.append_nil]
    exact hwhole

theorem Ends.still_of_trouble (hb : o.backup ≠ .none) (h : Ends o g r)
    (ht : BackupTrouble o g) : ¬Succeeds r ∧ Still g := by
  cases h with
  | unnamed => exact ⟨by simp, by simp [Still]⟩
  | notBackedUp _ hk => exact ⟨by simp, hk.still⟩
  | tried hn hk hr =>
    obtain ⟨-, estimate, available, hroom, hg⟩ := hk.whole hb hn
    obtain ⟨hmeasures, -, hspoils⟩ := hr.afterBackup
    cases ht with
    | unnamed ht hfault => simp [Names, ht, hfault] at hn
    | step he hs =>
      rcases List.mem_append.1 he with he | he
      · rw [(hg _ he).1] at hs
        contradiction
      · obtain ⟨hr, hstill⟩ := hspoils ⟨_, he, hs⟩
        exact ⟨hr, still_append.2 ⟨hk.still, hstill⟩⟩
    | noRoom he hf hx ha hlt =>
      -- both measures were taken for the backup, and it was made
      rcases List.mem_append.1 he with he | he
      · rcases List.mem_append.1 hf with hf | hf
        · rw [(hg _ he).2.1 _ hx, (hg _ hf).2.2 _ ha] at hlt
          exact absurd hlt hroom
        · rw [(hmeasures _ hf).2] at ha
          contradiction
      · rw [(hmeasures _ he).1] at hx
        contradiction

end Execution

theorem BackupTrouble.exchanges {o : ChangeOptions} {h : History} (ht : BackupTrouble o h) :
    BackupTrouble o (exchanges h) := by
  have hmem : ∀ {e : Event}, e ∈ h → e.record? = none → e ∈ History.exchanges h := by
    intro e he hr
    exact List.mem_filter.2 ⟨he, by simp [hr]⟩
  cases ht with
  | unnamed ht hn => exact .unnamed ht hn
  | @step e he hs =>
    refine .step (hmem he ?_) hs
    cases e with
    | noted => cases hs
    | answered => rfl
  | @noRoom e f _ _ he hf hx ha hlt =>
    refine .noRoom (hmem he ?_) (hmem hf ?_) hx ha hlt
    · cases e with
      | noted => cases hx
      | answered => rfl
    · cases f with
      | noted => cases ha
      | answered => rfl

open Execution

/-- Where a backup is wanted, every event that alters the table comes after the runs of a whole
backup, all of which succeeded; and after any trouble with the backup the change fails and nothing
alters the table. -/
theorem backup_comes_first {σ : Type} (o : ChangeOptions) (hb : o.backup ≠ .none)
    (env : Surroundings σ) (s : σ) :
    let run := (execute o).run.run env s
    (∀ before e after, run.history = before ++ e :: after → e.alters = true →
      WholeBackup o ((toolRuns before).filter fun x => !x.command.isCopying)) ∧
    (BackupTrouble o run.history → ¬Succeeds run.value ∧ Still run.history) := by
  intro run
  have hends := course_execute (Program.course_run env (execute o).run s)
  constructor
  · intro before e after hh he
    have hx : exchanges run.history = exchanges before ++ e :: exchanges after := by
      rw [hh, exchanges_append]
      cases e with
      | noted => cases he
      | answered => rfl
    simpa only [toolRuns_exchanges] using hends.backup_before hb hx he
  · intro ht
    obtain ⟨hr, hs⟩ := hends.still_of_trouble hb ht.exchanges
    exact ⟨hr, still_exchanges.1 hs⟩

def inDisorder : Surroundings Unit := fun r s =>
  (match r with
    | .ask _ => .error (.io "lost connection")
    | .run _ | .makeDirectory _ | .freeSpace _ | .readText _ | .writeText .. => .error "refused"
    | .clock => "202401010000"
    | .fileExists _ => false
    | .connect _ => .error (.io "lost connection")
    | .print _ | .complain _ => (), s)

def dumpedChange : ChangeOptions :=
  ⟨"ALTER TABLE users ADD c INT", some ⟨some "app", "users"⟩, none, .logicalDump, false,
    Config.default, false⟩

theorem backup_comes_first_inDisorder :
    dumpedChange.backup ≠ .none ∧
      let run := (execute dumpedChange).run.run inDisorder ()
      run.history ≠ [] ∧ ¬Succeeds run.value ∧ Still run.history := by
  have hb : dumpedChange.backup ≠ .none := by decide
  refine ⟨hb, List.cons_ne_nil _ _, ?_⟩
  obtain ⟨-, htrouble⟩ := backup_comes_first dumpedChange hb inDisorder ()
  exact htrouble (.step (List.mem_cons_self ..) rfl)

end SafeAlter
