import SafeAlter.Proofs.Program.Course
import SafeAlter.Tool.Call

/-! # The ends of calls of tools

A call asks for one run of its tool and ends with a value exactly if that run was started and ended
with code zero; every other end of the run has a failure of its own. Calls that are made one after
another stop at the first that fails, so the runs are those of a beginning of the calls, and all
but the last of them have succeeded.
-/
namespace SafeAlter
open SafeAlter.Text Program

/-- The outcome of a call, told by what came of the run of its tool. -/
inductive ToolCall.Ends (c : ToolCall) : Except String ToolExit → Except Failure ToolExit → Prop where
  | succeeded (output : String) :
      Ends c (.ok ⟨some 0, output⟩) (.ok ⟨some 0, maskOutput output c.secret⟩)
  | notStarted (reason : String) :
      Ends c (.error reason) (.error (.tool c.label (.notStarted c.program reason)))
  | exited {code : Int} (hc : code ≠ 0) (output : String) :
      Ends c (.ok ⟨some code, output⟩)
        (.error (.tool c.label (.exited code (trimmed (maskOutput output c.secret)))))
  | killed (output : String) :
      Ends c (.ok ⟨none, output⟩)
        (.error (.tool c.label (.killed (trimmed (maskOutput output c.secret)))))

/-- How a run fell short that did not end with code zero. -/
def ToolRun.fault (x : ToolRun) (secret : String) : ToolFault :=
  match x.outcome with
  | .error reason => .notStarted x.command.program reason
  | .ok ⟨some code, output⟩ => .exited code (trimmed (maskOutput output secret))
  | .ok ⟨none, output⟩ => .killed (trimmed (maskOutput output secret))

def ToolRun.event (r : ToolRun) : Event :=
  .answered (.run r.command) r.outcome

namespace History

@[simp] theorem toolRuns_nil : toolRuns [] = [] := rfl

@[simp] theorem toolRuns_runs (runs : List ToolRun) : toolRuns (runs.map ToolRun.event) = runs := by
  induction runs with
  | nil => rfl
  | cons x runs ih => exact congrArg (x :: ·) ih

theorem mem_toolRuns {x : ToolRun} {h : History} : x ∈ toolRuns h ↔ x.event ∈ h := by
  refine ⟨fun hx => ?_, fun he => List.mem_filterMap.2 ⟨_, he, rfl⟩⟩
  obtain ⟨e, he, hex⟩ := List.mem_filterMap.1 hx
  unfold Event.toolRun? at hex
  split at hex
  · cases hex
    exact he
  · cases hex

end History

namespace ToolCall
variable {c : ToolCall} {x : Except String ToolExit} {r : Except Failure ToolExit}

theorem ends_outcome (c : ToolCall) (exit : ToolExit) : c.Ends (.ok exit) (c.outcome exit) := by
  obtain ⟨code, output⟩ := exit
  cases code with
  | none => exact .killed output
  | some code =>
    by_cases hc : code = 0
    · subst hc
      exact .succeeded output
    · simpa [outcome, hc] using Ends.exited hc output

theorem Ends.succeeds_iff (h : c.Ends x r) :
    Succeeds r ↔ ToolRun.succeeded ⟨c.command, x⟩ = true := by
  cases h <;> simp_all [ToolRun.succeeded, ToolExit.succeeded]

theorem Ends.not_succeeded {e : Failure} (h : c.Ends x (.error e)) :
    ToolRun.succeeded ⟨c.command, x⟩ = false := by
  rw [← Bool.not_eq_true, ← h.succeeds_iff]
  exact not_succeeds_error e

/-- A failure of a call says what came of its run. -/
theorem Ends.eq_fault {e : Failure} (h : c.Ends x (.error e)) :
    e = .tool c.label (ToolRun.fault ⟨c.command, x⟩ c.secret) := by
  cases h <;> rfl

theorem exchanges_trace {text : String} {h : History} {u : Unit}
    (hc : (c.trace text).Course h u) : h.exchanges = [] := by
  unfold trace at hc
  split at hc
  · rw [Act.course_note.1 hc]
    rfl
  · rw [(course_done.1 hc).1]
    rfl

theorem exchanges_reported {exit : ToolExit} {text : String} {h : History}
    (hc : ((c.trace text).bind fun _ => done (c.outcome exit)).Course h r) :
    h.exchanges = [] ∧ r = c.outcome exit := by
  obtain ⟨_, ht, rfl⟩ := course_map.1 hc
  exact ⟨exchanges_trace ht, rfl⟩

/-- A call is one run of its tool, and its outcome is that of the run. -/
theorem course_run {h : History} (hc : c.run.run.Course h r) :
    ∃ x, h.exchanges = [ToolRun.event ⟨c.command, x⟩] ∧ c.Ends x r := by
  simp only [ToolCall.run, ExceptT.run_mk, bind_eq, Program.course_bind] at hc
  obtain ⟨_, g₁, _, h₁, ⟨_, g₂, _, h₂, ⟨x, g₃, g₄, h₃, h₄, rfl⟩, rfl⟩, rfl⟩ := hc
  rw [Act.course_request] at h₃
  subst h₃
  have hx : g₄.exchanges = [] ∧ c.Ends x r := by
    cases x with
    | error reason =>
      obtain ⟨rfl, rfl⟩ := course_done.1 h₄
      exact ⟨rfl, .notStarted reason⟩
    | ok exit =>
      dsimp only at h₄
      split at h₄
      · obtain ⟨_, k₁, k₂, hk₁, hk₂, rfl⟩ := Program.course_bind.1 h₄
        obtain ⟨hk, rfl⟩ := exchanges_reported hk₂
        exact ⟨by simp [exchanges_trace hk₁, hk], ends_outcome c exit⟩
      · obtain ⟨hk, rfl⟩ := exchanges_reported h₄
        exact ⟨hk, ends_outcome c exit⟩
  refine ⟨x, ?_, hx.2⟩
  simp [exchanges_trace h₁, exchanges_trace h₂, hx.1, ToolRun.event]

/-- The runs of calls that are made one after another, and the outcome of all of them. -/
inductive Sequence : List ToolCall → List ToolRun → Except Failure Unit → Prop where
  | finished : Sequence [] [] (.ok ())
  | stopped {c : ToolCall} {cs : List ToolCall} {x : Except String ToolExit} {e : Failure}
      (he : c.Ends x (.error e)) : Sequence (c :: cs) [⟨c.command, x⟩] (.error e)
  | next {c : ToolCall} {cs : List ToolCall} {x : Except String ToolExit} {exit : ToolExit}
      {runs : List ToolRun} {r : Except Failure Unit} (hx : c.Ends x (.ok exit))
      (rest : Sequence cs runs r) : Sequence (c :: cs) (⟨c.command, x⟩ :: runs) r

theorem course_then {cs : List ToolCall} {rest : Act Unit}
    (hrest : ∀ {h r}, rest.run.Course h r →
      ∃ runs, h.exchanges = runs.map ToolRun.event ∧ Sequence cs runs r)
    {h : History} {r : Except Failure Unit}
    (hc : (do discard c.run; rest : Act Unit).run.Course h r) :
    ∃ runs, h.exchanges = runs.map ToolRun.event ∧ Sequence (c :: cs) runs r := by
  rcases Act.course_bind.1 hc with ⟨_, g, k, hg, hk, rfl⟩ | ⟨e, hg, rfl⟩
  · obtain ⟨_ | exit, hg, he⟩ := Act.course_discard.1 hg
    · cases he
    · obtain ⟨x, hx, hr⟩ := course_run hg
      obtain ⟨runs, hruns, hs⟩ := hrest hk
      exact ⟨_, by simp [hx, hruns], .next hr hs⟩
  · obtain ⟨e' | _, hg, he⟩ := Act.course_discard.1 hg
    · cases he
      obtain ⟨x, hx, hr⟩ := course_run hg
      exact ⟨_, by simp [hx], .stopped hr⟩
    · cases he

theorem course_forM {cs : List ToolCall} {h : History} {r : Except Failure Unit}
    (hc : (cs.forM fun c => discard c.run : Act Unit).run.Course h r) :
    ∃ runs, h.exchanges = runs.map ToolRun.event ∧ Sequence cs runs r := by
  induction cs generalizing h r with
  | nil =>
    obtain ⟨rfl, rfl⟩ := Act.course_pure.1 hc
    exact ⟨[], rfl, .finished⟩
  | cons c cs ih => exact course_then ih hc

namespace Sequence
variable {cs : List ToolCall} {runs : List ToolRun} {r : Except Failure Unit}

theorem commands_prefix (h : Sequence cs runs r) :
    runs.map ToolRun.command <+: cs.map ToolCall.command := by
  induction h with
  | finished => exact List.prefix_refl []
  | stopped => exact List.cons_prefix_cons.2 ⟨rfl, List.nil_prefix⟩
  | next _ _ ih => exact List.cons_prefix_cons.2 ⟨rfl, ih⟩

theorem command_mem (h : Sequence cs runs r) {x : ToolRun} (hx : x ∈ runs) :
    ∃ c ∈ cs, x.command = c.command := by
  have hm := h.commands_prefix.subset (List.mem_map_of_mem hx)
  obtain ⟨c, hc, he⟩ := List.mem_map.1 hm
  exact ⟨c, hc, he.symm⟩

/-- The calls succeed exactly if every one of them was run and succeeded. -/
theorem succeeds_iff (h : Sequence cs runs r) :
    Succeeds r ↔ runs.map ToolRun.command = cs.map ToolCall.command ∧
      ∀ x ∈ runs, x.succeeded = true := by
  induction h with
  | finished => simp
  | stopped he =>
    have hs := he.succeeds_iff
    simp_all
  | next hx _ ih =>
    have hs := hx.succeeds_iff
    simp_all

theorem of_single {c : ToolCall} (h : Sequence [c] runs r) :
    ∃ x out, runs = [⟨c.command, x⟩] ∧ c.Ends x out ∧ r = out.map fun _ => () := by
  cases h with
  | stopped he => exact ⟨_, _, rfl, he, rfl⟩
  | next hx rest =>
    cases rest
    exact ⟨_, _, rfl, hx, rfl⟩

/-- Two calls: the second is made only if the first has succeeded. -/
theorem of_pair {c d : ToolCall} (h : Sequence [c, d] runs r) :
    (∃ x e, runs = [⟨c.command, x⟩] ∧ c.Ends x (.error e) ∧ r = .error e) ∨
      ∃ x exit y out, runs = [⟨c.command, x⟩, ⟨d.command, y⟩] ∧ c.Ends x (.ok exit) ∧
        d.Ends y out ∧ r = out.map fun _ => () := by
  cases h with
  | stopped he => exact .inl ⟨_, _, rfl, he, rfl⟩
  | next hx rest =>
    obtain ⟨y, out, rfl, hy, rfl⟩ := rest.of_single
    exact .inr ⟨_, _, y, out, rfl, hx, hy, rfl⟩

end Sequence

end ToolCall

end SafeAlter
