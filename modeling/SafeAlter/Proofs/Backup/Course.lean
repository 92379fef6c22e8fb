import SafeAlter.Proofs.Program.Steady
import SafeAlter.Proofs.Tool.Calls
import SafeAlter.Backup.Perform
import SafeAlter.Server.Table

/-! # The courses of a backup

What finding a table, estimating a backup and making it can ask of the surroundings, and how each
of them ends. A backup asks for the size, the directory, the free space and the time, in this
order, and calls its tools last; the first answer that is no good ends it.
-/
namespace SafeAlter
open SafeAlter.Sql Program

/-- The exchanges by which a name is completed, and the table that comes of it. -/
inductive Resolved (name : TableName) : History → Except Failure QualifiedTable → Prop where
  | qualified {database : String} (hd : name.database = some database) :
      Resolved name [] (.ok ⟨database, name.table⟩)
  | completed {database : String} (hd : name.database = none) :
      Resolved name [.answered (.ask .currentDatabase) (.ok (some database))]
        (.ok ⟨database, name.table⟩)
  | noDatabase (hd : name.database = none) :
      Resolved name [.answered (.ask .currentDatabase) (.ok none)]
        (.error (.metadata (.noDatabase name.table)))
  | failed {e : Failure} (hd : name.database = none) :
      Resolved name [.answered (.ask .currentDatabase) (.error e)] (.error e)

theorem course_resolve {name : TableName} {h : History} {r : Except Failure QualifiedTable}
    (hc : (resolve name).run.Course h r) : Resolved name h.exchanges r := by
  unfold resolve at hc
  cases hd : name.database with
  | some database =>
    simp only [hd] at hc
    obtain ⟨rfl, rfl⟩ := Act.course_pure.1 hc
    exact .qualified hd
  | none =>
    simp only [hd] at hc
    rcases Act.course_bind.1 hc with ⟨current, g, k, hg, hk, rfl⟩ | ⟨e, hg, rfl⟩
    · rw [Act.course_ask] at hg
      subst hg
      cases current with
      | some database =>
        obtain ⟨rfl, rfl⟩ := Act.course_pure.1 hk
        exact .completed hd
      | none =>
        obtain ⟨rfl, rfl⟩ := Act.course_throw.1 hk
        exact .noDatabase hd
    · rw [Act.course_ask] at hg
      subst hg
      exact .failed hd

namespace Event

def estimate? : Event → Option Float
  | .answered (.ask (.footprint _)) (.ok f) => some (Capacity.dumpEstimate f)
  | .answered (.ask (.databaseBytes _)) (.ok bytes) => some (Capacity.copyEstimate bytes)
  | _ => none

def available? : Event → Option UInt64
  | .answered (.freeSpace _) (.ok bytes) => some bytes
  | _ => none

/-- The clock and the tools measure nothing. -/
theorem measures_nothing_of_called (time : String) (runs : List ToolRun) :
    ∀ e ∈ Event.answered .clock time :: runs.map ToolRun.event,
      e.estimate? = none ∧ e.available? = none := by
  simp [ToolRun.event, estimate?, available?]

end Event

namespace Capacity

/-- The exchanges by which a backup is estimated, and the estimate. -/
inductive Estimated (table : QualifiedTable) :
    BackupMethod → History → Except Failure (Option Float) → Prop where
  | notWanted : Estimated table .none [] (.ok none)
  | dump (f : Footprint) :
      Estimated table .logicalDump [.answered (.ask (.footprint table)) (.ok f)]
        (.ok (some (dumpEstimate f)))
  | dumpFailed (e : Failure) :
      Estimated table .logicalDump [.answered (.ask (.footprint table)) (.error e)] (.error e)
  | copy (bytes : UInt64) :
      Estimated table .physicalCopy [.answered (.ask (.databaseBytes table.database)) (.ok bytes)]
        (.ok (some (copyEstimate bytes)))
  | copyFailed (e : Failure) :
      Estimated table .physicalCopy [.answered (.ask (.databaseBytes table.database)) (.error e)]
        (.error e)

section
variable {table : QualifiedTable} {method : BackupMethod} {g h : History} {estimate : Float}
  {r : Except Failure (Option Float)}

theorem Estimated.of_none (h : Estimated table method g (.ok none)) : method = .none ∧ g = [] := by
  cases h
  exact ⟨rfl, rfl⟩

theorem Estimated.method_ne_none (h : Estimated table method g (.ok (some estimate))) :
    method ≠ .none := by
  rintro rfl
  cases h

theorem Estimated.toolRuns_eq_nil (h : Estimated table method g r) : g.toolRuns = [] := by
  cases h <;> rfl

theorem Estimated.toolRuns_append (h : Estimated table method g r) (k : History) :
    History.toolRuns (g ++ k) = k.toolRuns := by
  rw [History.toolRuns_append, h.toolRuns_eq_nil, List.nil_append]

theorem Estimated.measures (h : Estimated table method g r) :
    ∀ e ∈ g, e.available? = none ∧ ∀ x, e.estimate? = some x → r = .ok (some x) := by
  cases h <;> simp [Event.available?, Event.estimate?]

/-- The estimate and the free space are the only ones in a history that goes on with no others. -/
theorem Estimated.measures_only {free : UInt64} {directory : String}
    (hg : Estimated table method g (.ok (some estimate)))
    (hh : ∀ e ∈ h, e.estimate? = none ∧ e.available? = none) {e : Event}
    (he : e ∈ g ++ .answered (.makeDirectory directory) (.ok ()) ::
      .answered (.freeSpace directory) (.ok free) :: h) :
    (∀ x, e.estimate? = some x → x = estimate) ∧ ∀ a, e.available? = some a → a = free := by
  simp only [List.mem_append, List.mem_cons] at he
  rcases he with he | rfl | rfl | he
  · obtain ⟨ha, hx⟩ := hg.measures e he
    refine ⟨fun x hxe => ?_, by simp [ha]⟩
    exact (Option.some.inj (Except.ok.inj (hx x hxe))).symm
  · simp [Event.estimate?, Event.available?]
  · simp [Event.estimate?, Event.available?]
  · simp [hh e he]

/-- An estimate comes of one answer. -/
theorem Estimated.eq_singleton (h : Estimated table method g (.ok (some estimate))) :
    ∃ q x, g = [.answered (.ask q) x] ∧ (Event.answered (.ask q) x).estimate? = some estimate := by
  cases h with
  | dump f => exact ⟨_, _, rfl, rfl⟩
  | copy bytes => exact ⟨_, _, rfl, rfl⟩

theorem Estimated.succeeds_of_obliged (h : Estimated table method g r) (ho : Obliged g) :
    Succeeds r := by
  cases h with
  | notWanted => exact succeeds_ok _
  | dump => exact succeeds_ok _
  | dumpFailed => cases ho _ _ (List.mem_singleton_self _)
  | copy => exact succeeds_ok _
  | copyFailed => cases ho _ _ (List.mem_singleton_self _)

end

theorem course_estimate {method : BackupMethod} {table : QualifiedTable} {h : History}
    {r : Except Failure (Option Float)} (hc : (estimate method table).run.Course h r) :
    Estimated table method h.exchanges r := by
  cases method with
  | none =>
    obtain ⟨rfl, rfl⟩ := Act.course_pure.1 hc
    exact .notWanted
  | logicalDump =>
    rcases Act.course_bind.1 hc with ⟨f, g, k, hg, hk, rfl⟩ | ⟨e, hg, rfl⟩
    · obtain ⟨rfl, rfl⟩ := Act.course_pure.1 hk
      rw [Act.course_ask] at hg
      subst hg
      exact .dump f
    · rw [Act.course_ask] at hg
      subst hg
      exact .dumpFailed e
  | physicalCopy =>
    rcases Act.course_bind.1 hc with ⟨b, g, k, hg, hk, rfl⟩ | ⟨e, hg, rfl⟩
    · obtain ⟨rfl, rfl⟩ := Act.course_pure.1 hk
      rw [Act.course_ask] at hg
      subst hg
      exact .copy b
    · rw [Act.course_ask] at hg
      subst hg
      exact .copyFailed e

/-- However much a backup takes, it has room where all the space that there can be is free. -/
theorem requiredBytes_le_greatest (estimate bufferPercent : Float) :
    requiredBytes estimate bufferPercent ≤ 0xFFFFFFFFFFFFFFFF :=
  UInt64.le_iff_toNat_le.2 (Nat.le_of_lt_succ (UInt64.toNat_lt _))

theorem not_lt_of_checked {estimate bufferPercent : Float} {available : UInt64} {p : Plan}
    (h : (plan estimate bufferPercent available).checked = .ok p) :
    ¬available < requiredBytes estimate bufferPercent := by
  unfold Plan.checked at h
  split at h
  · cases h
  · assumption

theorem lt_of_checked_error {estimate bufferPercent : Float} {available : UInt64} {e : Failure}
    (h : (plan estimate bufferPercent available).checked = .error e) :
    available < requiredBytes estimate bufferPercent ∧
      e = .capacity (megabytes (requiredBytes estimate bufferPercent)) (megabytes available)
        bufferPercent := by
  unfold Plan.checked at h
  split at h
  · next hlt =>
    cases h
    exact ⟨hlt, rfl⟩
  · cases h

theorem course_check {estimate bufferPercent : Float} {available : UInt64} {h : History}
    {r : Except Failure Plan} (hc : (check estimate bufferPercent available).run.Course h r) :
    h.exchanges = [] ∧ r = (plan estimate bufferPercent available).checked := by
  obtain ⟨_, hn, rfl⟩ := course_map.1 hc
  rw [Act.course_note.1 hn]
  exact ⟨rfl, rfl⟩

end Capacity

namespace BackupRequest

/-- The exchanges of a backup, and how it ends. -/
inductive Ends (r : BackupRequest) : History → Except Failure (Option String) → Prop where
  | notWanted (hm : r.method = .none) : Ends r [] (.ok none)
  | noEstimate {g : History} {e : Failure}
      (he : Capacity.Estimated r.table r.method g (.error e)) : Ends r g (.error e)
  | noDirectory {g : History} {estimate : Float} (reason : String)
      (he : Capacity.Estimated r.table r.method g (.ok (some estimate))) :
      Ends r (g ++ [.answered (.makeDirectory r.config.backupDir) (.error reason)])
        (.error (.io reason))
  | noFreeSpace {g : History} {estimate : Float} (reason : String)
      (he : Capacity.Estimated r.table r.method g (.ok (some estimate))) :
      Ends r (g ++ [.answered (.makeDirectory r.config.backupDir) (.ok ()),
          .answered (.freeSpace r.config.backupDir) (.error reason)])
        (.error (.io reason))
  | noRoom {g : History} {estimate : Float} {available : UInt64} {e : Failure}
      (he : Capacity.Estimated r.table r.method g (.ok (some estimate)))
      (hp : (Capacity.plan estimate r.config.bufferPercent available).checked = .error e) :
      Ends r (g ++ [.answered (.makeDirectory r.config.backupDir) (.ok ()),
          .answered (.freeSpace r.config.backupDir) (.ok available)])
        (.error e)
  | called {g : History} {estimate : Float} {available : UInt64} {p : Capacity.Plan}
      {time path : String} {calls : List ToolCall} {runs : List ToolRun}
      {out : Except Failure Unit}
      (he : Capacity.Estimated r.table r.method g (.ok (some estimate)))
      (hp : (Capacity.plan estimate r.config.bufferPercent available).checked = .ok p)
      (hplan : r.plan time = some (path, calls)) (hs : ToolCall.Sequence calls runs out) :
      Ends r (g ++ [.answered (.makeDirectory r.config.backupDir) (.ok ()),
          .answered (.freeSpace r.config.backupDir) (.ok available),
          .answered .clock time] ++ runs.map ToolRun.event)
        (out.map fun _ => some path)

theorem plan_isSome {r : BackupRequest} (hm : r.method ≠ .none) (time : String) :
    ∃ path calls, r.plan time = some (path, calls) := by
  unfold plan
  cases hr : r.method with
  | none => exact absurd hr hm
  | logicalDump => exact ⟨_, _, rfl⟩
  | physicalCopy => exact ⟨_, _, rfl⟩

/-- What is planned is a dump, or a copy and its preparation, and all of it goes to one path. -/
theorem plan_cases {r : BackupRequest} {time path : String} {calls : List ToolCall}
    (h : r.plan time = some (path, calls)) :
    (r.method = .logicalDump ∧ path = BackupPath.dump r.config.backupDir time r.table ∧
        calls = [r.dumpCall path]) ∨
      r.method = .physicalCopy ∧ path = BackupPath.copy r.config.backupDir time r.table ∧
        calls = [r.copyCall path, r.prepareCall path] := by
  unfold plan at h
  split at h
  · cases h
  · next hm =>
    cases h
    exact .inl ⟨hm, rfl, rfl⟩
  · next hm =>
    cases h
    exact .inr ⟨hm, rfl, rfl⟩

theorem course_calls {calls : List ToolCall} {text path : String} {h : History}
    {out : Except Failure (Option String)}
    (hc : (do
      calls.forM fun c => discard c.run
      liftM (Act.note .info text)
      return some path : Act (Option String)).run.Course h out) :
    ∃ runs r, h.exchanges = runs.map ToolRun.event ∧ ToolCall.Sequence calls runs r ∧
      out = r.map fun _ => some path := by
  rcases Act.course_bind.1 hc with ⟨_, g, k, hg, hk, rfl⟩ | ⟨e, hg, rfl⟩
  · obtain ⟨runs, hruns, hs⟩ := ToolCall.course_forM hg
    rcases Act.course_bind.1 hk with ⟨_, k₁, k₂, hk₁, hk₂, rfl⟩ | ⟨e, hk₁, rfl⟩
    · obtain ⟨_, hn, -⟩ := Act.course_liftM.1 hk₁
      obtain ⟨rfl, rfl⟩ := Act.course_pure.1 hk₂
      rw [Act.course_note.1 hn]
      exact ⟨runs, _, by simp [hruns], hs, rfl⟩
    · obtain ⟨_, -, he⟩ := Act.course_liftM.1 hk₁
      cases he
  · obtain ⟨runs, hruns, hs⟩ := ToolCall.course_forM hg
    exact ⟨runs, _, hruns, hs, rfl⟩

theorem course_measured {r : BackupRequest} {estimate : Float} {available : UInt64}
    {g h : History} {out : Except Failure (Option String)}
    (he : Capacity.Estimated r.table r.method g (.ok (some estimate)))
    (hc : (do
      discard <| Capacity.check estimate r.config.bufferPercent available
      match r.plan (← Act.clock) with
      | none => return none
      | some (path, calls) =>
        calls.forM fun c => discard c.run
        liftM (Act.note .info s!"Backup of {r.table.text} written to {path}")
        return some path : Act (Option String)).run.Course h out) :
    Ends r (g ++ [.answered (.makeDirectory r.config.backupDir) (.ok ()),
      .answered (.freeSpace r.config.backupDir) (.ok available)] ++ h.exchanges) out := by
  rcases (Act.course_bind.1 hc).symm with ⟨e, hg₁, rfl⟩ | ⟨_, g₁, k, hg₁, hk, rfl⟩
  · obtain ⟨_, hp, hx⟩ := Act.course_discard.1 hg₁
    obtain ⟨hn, rfl⟩ := Capacity.course_check hp
    cases hchecked : (Capacity.plan estimate r.config.bufferPercent available).checked with
    | ok p =>
      rw [hchecked] at hx
      cases hx
    | error e =>
      rw [hchecked] at hx
      cases hx
      simpa [hn] using Ends.noRoom he hchecked
  obtain ⟨_, hp, hx⟩ := Act.course_discard.1 hg₁
  obtain ⟨hn, rfl⟩ := Capacity.course_check hp
  cases hchecked : (Capacity.plan estimate r.config.bufferPercent available).checked with
  | error e =>
    rw [hchecked] at hx
    cases hx
  | ok p =>
    rcases (Act.course_bind.1 hk).symm with ⟨e, hk₁, rfl⟩ | ⟨time, _, l, hk₁, hl, rfl⟩
    · obtain ⟨_, -, ht⟩ := Act.course_clock.1 hk₁
      cases ht
    obtain ⟨_, rfl, ht⟩ := Act.course_clock.1 hk₁
    cases ht
    obtain ⟨path, calls, hplan⟩ := plan_isSome he.method_ne_none time
    simp only [hplan] at hl
    obtain ⟨runs, out, hruns, hs, rfl⟩ := course_calls hl
    simpa [hn, hruns] using Ends.called he hchecked hplan hs

/-- Whatever is answered, a backup takes one of the courses that are laid down for it. -/
theorem course_perform {r : BackupRequest} {h : History} {out : Except Failure (Option String)}
    (hc : r.perform.run.Course h out) : Ends r h.exchanges out := by
  rcases (Act.course_bind.1 hc).symm with ⟨e, hg, rfl⟩ | ⟨estimate, g, k, hg, hk, rfl⟩
  · exact .noEstimate (Capacity.course_estimate hg)
  have he := Capacity.course_estimate hg
  clear hc hg
  cases estimate with
  | none =>
    obtain ⟨rfl, rfl⟩ := Act.course_pure.1 hk
    obtain ⟨hm, hx⟩ := he.of_none
    simpa [hx] using Ends.notWanted hm
  | some estimate =>
    rcases (Act.course_bind.1 hk).symm with ⟨e, hk₁, rfl⟩ | ⟨_, _, l, hk₁, hl, rfl⟩
    · obtain ⟨reason | _, rfl, hd⟩ := Act.course_makeDirectory.1 hk₁
      · cases hd
        simpa using Ends.noDirectory reason he
      · cases hd
    obtain ⟨_ | _, rfl, hd⟩ := Act.course_makeDirectory.1 hk₁
    · cases hd
    rcases (Act.course_bind.1 hl).symm with ⟨e, hl₁, rfl⟩ | ⟨available, _, m, hl₁, hm, rfl⟩
    · obtain ⟨reason | _, rfl, hf⟩ := Act.course_freeSpace.1 hl₁
      · cases hf
        simpa using Ends.noFreeSpace reason he
      · cases hf
    obtain ⟨_ | _, rfl, hf⟩ := Act.course_freeSpace.1 hl₁
    · cases hf
    cases hf
    simpa using course_measured he hm

end BackupRequest

end SafeAlter
