import SafeAlter.Proofs.Backup.Course
import SafeAlter.Execution.Execute

/-! # The courses of a change

What each strategy, the chain of strategies and the change as a whole can ask of the surroundings,
and how they end. The relations are read off one function each, so that nothing below a strategy
or a backup has to be looked into again.
-/
namespace SafeAlter
open SafeAlter.Sql Program

def Event.executed (statement : String) (x : Except Failure Unit) : Event :=
  .answered (.ask (.execute statement)) x

namespace Strategy

/-- Whether triggers are to be kept; an answer that could not be had counts as no. -/
def keepsTriggers : Except Failure Bool → Bool
  | .ok triggers => triggers
  | .error _ => false

def triggerWarnings : Except Failure Bool → List String
  | .ok _ => []
  | .error e => ["Could not verify triggers: " ++ e.message]

/-- The exchanges of one attempt with a strategy, and what comes of it. -/
inductive Ends (o : ChangeOptions) (name : TableName) : Strategy → History → Attempt → Prop where
  | online : Ends o name .onlineDdl [.executed (withOnlineHints o.statement) (.ok ())]
      ⟨.ok (), [], []⟩
  | refused (e : Failure) :
      Ends o name .onlineDdl [.executed (withOnlineHints o.statement) (.error e)]
        ⟨.error e, [refusalWarning e.message], [e.message]⟩
  | locking (x : Except Failure Unit) :
      Ends o name .lockingAlter [.executed o.statement x] ⟨x, [lockWarning], []⟩
  | unresolved {g : History} {e : Failure} (hg : Resolved name g (.error e)) :
      Ends o name .externalTool g ⟨.error e, [], []⟩
  | nothingToAlter {g : History} {table : QualifiedTable} (hg : Resolved name g (.ok table))
      (hn : (alterClause o.statement).isEmpty = true) :
      Ends o name .externalTool g ⟨.error (.statement .nothingToAlter), [], []⟩
  | called {g : History} {table : QualifiedTable} (hg : Resolved name g (.ok table))
      (hn : (alterClause o.statement).isEmpty = false) (x : Except Failure Bool)
      {runs : List ToolRun} {out : Except Failure Unit}
      (hs : ToolCall.Sequence
        [(toolCalls o table (alterClause o.statement) (keepsTriggers x)).1,
          (toolCalls o table (alterClause o.statement) (keepsTriggers x)).2] runs out) :
      Ends o name .externalTool
        (g ++ .answered (.ask (.hasTriggers table)) x :: runs.map ToolRun.event)
        ⟨out, triggerWarnings x, []⟩

variable {o : ChangeOptions} {name : TableName} {h : History} {a : Attempt}

theorem course_attemptOnline (hc : (attemptOnline o).Course h a) :
    Ends o name .onlineDdl h.exchanges a := by
  obtain ⟨g, hg, hx⟩ := Act.course_noteIf hc
  obtain ⟨x, _, k, hask, hk, rfl⟩ := Program.course_bind.1 hg
  rw [Act.course_ask] at hask
  subst hask
  rw [hx]
  cases x with
  | ok =>
    obtain ⟨rfl, rfl⟩ := course_done.1 hk
    exact .online
  | error e =>
    obtain ⟨rfl, rfl⟩ := course_done.1 hk
    exact .refused e

theorem course_attemptLocking (hc : (attemptLocking o).Course h a) :
    Ends o name .lockingAlter h.exchanges a := by
  obtain ⟨g, hg, hx⟩ := Act.course_noteIf hc
  obtain ⟨x, _, k, hask, hk, rfl⟩ := Program.course_bind.1 hg
  rw [Act.course_ask] at hask
  subst hask
  obtain ⟨rfl, rfl⟩ := course_done.1 hk
  rw [hx]
  exact .locking x

theorem course_findTriggers {table : QualifiedTable} {found : Bool × List String}
    (hc : (findTriggers table).Course h found) :
    ∃ x, h.exchanges = [.answered (.ask (.hasTriggers table)) x] ∧
      found = (keepsTriggers x, triggerWarnings x) := by
  obtain ⟨x, _, k, hask, hk, rfl⟩ := Program.course_bind.1 hc
  rw [Act.course_ask] at hask
  subst hask
  refine ⟨x, ?_⟩
  cases x with
  | ok triggers =>
    obtain ⟨rfl, rfl⟩ := course_done.1 hk
    exact ⟨rfl, rfl⟩
  | error e =>
    obtain ⟨_, k₁, k₂, hk₁, hk₂, rfl⟩ := Program.course_bind.1 hk
    obtain ⟨rfl, rfl⟩ := course_done.1 hk₂
    rw [Act.course_note.1 hk₁]
    exact ⟨rfl, rfl⟩

theorem course_twoCalls {c d : ToolCall} {r : Except Failure Unit}
    (hc : (do discard c.run; discard d.run : Act Unit).run.Course h r) :
    ∃ runs, h.exchanges = runs.map ToolRun.event ∧ ToolCall.Sequence [c, d] runs r := by
  refine ToolCall.course_then (fun hd => ?_) hc
  obtain ⟨x, hx, rfl⟩ := Act.course_discard.1 hd
  obtain ⟨y, hy, he⟩ := ToolCall.course_run hx
  refine ⟨[⟨d.command, y⟩], hy, ?_⟩
  cases x with
  | error e => exact .stopped he
  | ok exit => exact .next he .finished

theorem course_attemptTool (hc : (attemptTool o name).Course h a) :
    Ends o name .externalTool h.exchanges a := by
  obtain ⟨table, g, k, hg, hk, rfl⟩ := Program.course_bind.1 hc
  have hr := course_resolve hg
  cases table with
  | error e =>
    obtain ⟨rfl, rfl⟩ := course_done.1 hk
    simpa using Ends.unresolved hr
  | ok table =>
    cases hn : (alterClause o.statement).isEmpty with
    | true =>
      simp only [hn] at hk
      obtain ⟨rfl, rfl⟩ := course_done.1 hk
      simpa using Ends.nothingToAlter hr hn
    | false =>
      simp only [hn] at hk
      obtain ⟨found, k₁, l, hk₁, hl, rfl⟩ := Program.course_bind.1 hk
      obtain ⟨x, hx, rfl⟩ := course_findTriggers hk₁
      obtain ⟨out, hout, rfl⟩ := course_map.1 hl
      obtain ⟨runs, hruns, hs⟩ := course_twoCalls hout
      simpa [hx, hruns] using Ends.called hr hn x hs

/-- Whatever is answered, an attempt takes one of the courses laid down for its strategy. -/
theorem course_attempt {s : Strategy} (hc : (s.attempt o name).Course h a) :
    Ends o name s h.exchanges a := by
  cases s with
  | onlineDdl => exact course_attemptOnline hc
  | externalTool => exact course_attemptTool hc
  | lockingAlter => exact course_attemptLocking hc

end Strategy

namespace Execution
variable {o : ChangeOptions} {name : TableName} {path : Option String} {h : History}

/-- The exchanges of strategies that are tried in a row, and how the change ends. -/
inductive Chain (o : ChangeOptions) (name : TableName) (path : Option String) :
    List Strategy → List String → List String → History → Except Failure Execution → Prop where
  | exhausted {ws es : List String} : Chain o name path [] ws es [] (.error (.change .noStrategy))
  | skipped {s : Strategy} {rest : List Strategy} {ws es : List String} {g : History}
      {r : Except Failure Execution} (hs : s.applies o = false)
      (hr : Chain o name path rest ws es g r) : Chain o name path (s :: rest) ws es g r
  | applied {s : Strategy} {rest : List Strategy} {ws es : List String} {g : History}
      {a : Attempt} (hs : s.applies o = true) (ha : s.Ends o name g a) (ho : a.outcome = .ok ()) :
      Chain o name path (s :: rest) ws es g
        (.ok ⟨path.isSome, path, true, some s, ws ++ a.warnings, es ++ a.errors⟩)
  | ended {s : Strategy} {rest : List Strategy} {ws es : List String} {g : History}
      {a : Attempt} {e : Failure} (hs : s.applies o = true) (ha : s.Ends o name g a)
      (ho : a.outcome = .error e) (hl : s.isLast = true) :
      Chain o name path (s :: rest) ws es g (.error e)
  | passed {s : Strategy} {rest : List Strategy} {ws es : List String} {g k : History}
      {a : Attempt} {e : Failure} {r : Except Failure Execution} (hs : s.applies o = true)
      (ha : s.Ends o name g a) (ho : a.outcome = .error e) (hl : s.isLast = false)
      (hr : Chain o name path rest (ws ++ a.warnings) (es ++ a.errors) k r) :
      Chain o name path (s :: rest) ws es (g ++ k) r

theorem course_tryEach {ss : List Strategy} {ws es : List String} {r : Except Failure Execution}
    (hc : (tryEach o name path ss ws es).run.Course h r) :
    Chain o name path ss ws es h.exchanges r := by
  induction ss generalizing ws es h with
  | nil =>
    obtain ⟨rfl, rfl⟩ := Act.course_throw.1 hc
    exact .exhausted
  | cons s rest ih =>
    unfold tryEach at hc
    cases hs : s.applies o with
    | false =>
      simp only [hs] at hc
      exact .skipped hs (ih hc)
    | true =>
      simp only [hs] at hc
      rcases (Act.course_bind.1 hc).symm with ⟨e, hg, rfl⟩ | ⟨a, g, k, hg, hk, rfl⟩
      · obtain ⟨_, -, he⟩ := Act.course_liftM.1 hg
        cases he
      obtain ⟨_, ha, he⟩ := Act.course_liftM.1 hg
      cases he
      have ha := Strategy.course_attempt ha
      cases ho : a.outcome with
      | ok =>
        simp only [ho] at hk
        rcases (Act.course_bind.1 hk).symm with ⟨e, hn, rfl⟩ | ⟨_, k₁, k₂, hn, hp, rfl⟩
        · obtain ⟨_, -, he⟩ := Act.course_liftM.1 hn
          cases he
        obtain ⟨_, hn, -⟩ := Act.course_liftM.1 hn
        obtain ⟨rfl, rfl⟩ := Act.course_pure.1 hp
        rw [Act.course_note.1 hn]
        simpa using Chain.applied hs ha ho
      | error e =>
        simp only [ho] at hk
        cases hl : s.isLast with
        | true =>
          simp only [hl] at hk
          obtain ⟨rfl, rfl⟩ := Act.course_throw.1 hk
          simpa using Chain.ended hs ha ho hl
        | false =>
          simp only [hl] at hk
          rcases (Act.course_bind.1 hk).symm with ⟨e, hn, rfl⟩ | ⟨_, k₁, k₂, hn, hp, rfl⟩
          · obtain ⟨_, -, he⟩ := Act.course_liftM.1 hn
            cases he
          obtain ⟨_, hn, -⟩ := Act.course_liftM.1 hn
          rw [Act.course_note.1 hn]
          simpa using Chain.passed hs ha ho hl (ih hp)

theorem Chain.locking {ws es : List String} {g : History} {r : Except Failure Execution}
    (ht : o.byTool = false) (hc : Chain o name path [.externalTool, .lockingAlter] ws es g r) :
    ∃ x, g = [.executed o.statement x] ∧
      r = x.map fun _ => ⟨path.isSome, path, true, some .lockingAlter,
        ws ++ [Strategy.lockWarning], es⟩ := by
  cases hc with
  | skipped _ hc =>
    cases hc with
    | skipped hs => simp [Strategy.applies, ht] at hs
    | applied _ ha ho =>
      cases ha
      cases ho
      exact ⟨_, rfl, by simp [Except.map]⟩
    | ended _ ha ho =>
      cases ha
      cases ho
      exact ⟨_, rfl, rfl⟩
    | passed _ _ _ hl => cases hl
  | applied hs => simp [Strategy.applies, ht] at hs
  | ended hs => simp [Strategy.applies, ht] at hs
  | passed hs => simp [Strategy.applies, ht] at hs

/-- Without the tool the server is asked for the change in place, and once more, with the
statement as it is written, only after it refused. -/
theorem Chain.native {g : History} {r : Except Failure Execution} (ht : o.byTool = false)
    (hc : Chain o name path strategies [] [] g r) :
    (g = [.executed (withOnlineHints o.statement) (.ok ())] ∧
        r = .ok ⟨path.isSome, path, true, some .onlineDdl, [], []⟩) ∨
      ∃ e x, g = [.executed (withOnlineHints o.statement) (.error e), .executed o.statement x] ∧
        r = x.map fun _ => ⟨path.isSome, path, true, some .lockingAlter,
          [Strategy.refusalWarning e.message, Strategy.lockWarning], [e.message]⟩ := by
  unfold strategies at hc
  cases hc with
  | skipped hs => simp [Strategy.applies, ht] at hs
  | applied _ ha ho =>
    cases ha with
    | online => exact .inl ⟨rfl, rfl⟩
    | refused e => cases ho
  | ended _ _ _ hl => cases hl
  | passed _ ha ho _ hr =>
    cases ha with
    | online => cases ho
    | refused e =>
      obtain ⟨x, rfl, rfl⟩ := hr.locking ht
      exact .inr ⟨e, x, rfl, rfl⟩

/-- With the tool there is one attempt, and what comes of it is what comes of the change. -/
theorem Chain.tool {g : History} {r : Except Failure Execution} (ht : o.byTool = true)
    (hc : Chain o name path strategies [] [] g r) :
    ∃ a, Strategy.Ends o name .externalTool g a ∧
      r = a.outcome.map fun _ =>
        ⟨path.isSome, path, true, some .externalTool, a.warnings, a.errors⟩ := by
  unfold strategies at hc
  cases hc with
  | skipped _ hc =>
    cases hc with
    | skipped hs => simp [Strategy.applies, ht] at hs
    | applied _ ha ho => exact ⟨_, ha, by simp [ho, Except.map]⟩
    | ended _ ha ho => exact ⟨_, ha, by simp [ho, Except.map]⟩
    | passed _ _ _ hl => cases hl
  | applied hs => simp [Strategy.applies, ht] at hs
  | ended hs => simp [Strategy.applies, ht] at hs
  | passed hs => simp [Strategy.applies, ht] at hs

/-- The name of the table a change is for: the one that is given, or else the one in the
statement. -/
def Names (o : ChangeOptions) (name : TableName) : Prop :=
  o.tableName = some name ∨ o.tableName = none ∧ extractTableName o.statement = .ok name

def backupOf (o : ChangeOptions) (table : QualifiedTable) : BackupRequest :=
  ⟨o.backup, table, o.config, Credentials.resolve o.config o.dsn, o.debug⟩

/-- The exchanges by which the backup that was asked for is made. -/
inductive BackedUp (o : ChangeOptions) (name : TableName) :
    History → Except Failure (Option String) → Prop where
  | notWanted (hb : o.backup = .none) : BackedUp o name [] (.ok none)
  | unresolved {g : History} {e : Failure} (hb : o.backup ≠ .none)
      (hg : Resolved name g (.error e)) : BackedUp o name g (.error e)
  | performed {g k : History} {table : QualifiedTable} {r : Except Failure (Option String)}
      (hb : o.backup ≠ .none) (hg : Resolved name g (.ok table))
      (hk : (backupOf o table).Ends k r) : BackedUp o name (g ++ k) r

theorem course_backUp {r : Except Failure (Option String)}
    (hc : (backUp o name).run.Course h r) : BackedUp o name h.exchanges r := by
  by_cases hb : o.backup = .none
  · simp only [backUp, hb] at hc
    obtain ⟨rfl, rfl⟩ := Act.course_pure.1 hc
    exact .notWanted hb
  · have hm : backUp o name = resolve name >>= fun table => (backupOf o table).perform := by
      unfold backUp
      split
      · contradiction
      · rfl
    rw [hm] at hc
    rcases (Act.course_bind.1 hc).symm with ⟨e, hg, rfl⟩ | ⟨table, g, k, hg, hk, rfl⟩
    · exact .unresolved hb (course_resolve hg)
    · simpa using BackedUp.performed hb (course_resolve hg) (BackupRequest.course_perform hk)

/-- The exchanges of a change, and how it ends. -/
inductive Ends (o : ChangeOptions) : History → Except Failure Execution → Prop where
  | unnamed {fault : StatementFault} (ht : o.tableName = none)
      (hn : extractTableName o.statement = .error fault) : Ends o [] (.error (.statement fault))
  | notBackedUp {name : TableName} {g : History} {e : Failure} (hn : Names o name)
      (hb : BackedUp o name g (.error e)) : Ends o g (.error e)
  | tried {name : TableName} {path : Option String} {g k : History}
      {r : Except Failure Execution} (hn : Names o name) (hb : BackedUp o name g (.ok path))
      (hr : Chain o name path strategies [] [] k r) : Ends o (g ++ k) r

theorem course_named {r : Except Failure Execution} (hn : Names o name)
    (hc : (do
      let path ← backUp o name
      tryEach o name path strategies [] [] : Act Execution).run.Course h r) :
    Ends o h.exchanges r := by
  rcases (Act.course_bind.1 hc).symm with ⟨e, hg, rfl⟩ | ⟨path, g, k, hg, hk, rfl⟩
  · exact .notBackedUp hn (course_backUp hg)
  · simpa using Ends.tried hn (course_backUp hg) (course_tryEach hk)

/-- Whatever is answered, a change takes one of the courses that are laid down for it. -/
theorem course_execute {r : Except Failure Execution} (hc : (execute o).run.Course h r) :
    Ends o h.exchanges r := by
  unfold execute at hc
  cases ht : o.tableName with
  | some name =>
    simp only [ht] at hc
    exact course_named (.inl ht) hc
  | none =>
    simp only [ht] at hc
    cases hn : extractTableName o.statement with
    | error fault =>
      simp only [hn] at hc
      obtain ⟨rfl, rfl⟩ := course_done.1 hc
      exact .unnamed ht hn
    | ok name =>
      simp only [hn] at hc
      exact course_named (.inr ⟨ht, hn⟩) hc

end Execution

end SafeAlter
