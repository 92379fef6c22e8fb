import Mathlib.Data.List.Forall2
import SafeAlter.Proofs.Program.Course

/-! # Programs that differ in their commands only

Two programs are alike if they leave the same records, ask for the same things and end with the
same values, but for the commands of tools: where one runs a command, the other may run a related
one, and both need to go on alike only after an end of the tool that is plain. Alike programs that
are answered alike, by tools whose ends are plain, end with the same value, and their histories
differ in those commands only. The surroundings of the two need not have anything in common beyond
the answers that they give.
-/
namespace SafeAlter
open Program History

variable (differ : Command → Command → Prop) (plain : ToolExit → Prop)

inductive Program.Alike {α : Type} : Program α → Program α → Prop where
  | done (a : α) : Alike (.done a) (.done a)
  | note (r : Record) {p p' : Program α} (rest : Alike p p') : Alike (.note r p) (.note r p')
  | request (r : Request) {k k' : r.Answer → Program α} (rest : ∀ x, Alike (k x) (k' x)) :
      Alike (.request r k) (.request r k')
  | call {c c' : Command} {k k' : Except String ToolExit → Program α} (hc : differ c c')
      (rest : ∀ x, (∀ exit, x = .ok exit → plain exit) → Alike (k x) (k' x)) :
      Alike (.request (.run c) k) (.request (.run c') k')

inductive Event.Alike : Event → Event → Prop where
  | same (e : Event) : Alike e e
  | called {c c' : Command} (hc : differ c c') (x : Except String ToolExit) :
      Alike (.answered (.run c) x) (.answered (.run c') x)

/-- In two histories the same request has the same answer where it stands in the same place, any
two runs of tools in the same place have the same end, and the ends of tools are plain. -/
structure AnsweredAlike (h h' : History) : Prop where
  requests : ∀ (r : Request) (x y : r.Answer),
    ((.answered r x, .answered r y) : Event × Event) ∈ (exchanges h).zip (exchanges h') → x = y
  tools : ∀ (c c' : Command) (x y : Except String ToolExit),
    ((.answered (.run c) x, .answered (.run c') y) : Event × Event) ∈
      (exchanges h).zip (exchanges h') → x = y
  ends : ∀ (c : Command) (exit : ToolExit),
    .answered (.run c) (.ok exit) ∈ exchanges h → plain exit

variable {differ plain}

theorem AnsweredAlike.tail {r r' : Request} {x : r.Answer} {x' : r'.Answer} {h h' : History}
    (ha : AnsweredAlike plain (.answered r x :: h) (.answered r' x' :: h')) :
    AnsweredAlike plain h h' where
  requests q y z hm := ha.requests q y z (List.mem_cons_of_mem _ hm)
  tools c c' y z hm := ha.tools c c' y z (List.mem_cons_of_mem _ hm)
  ends c exit hm := ha.ends c exit (List.mem_cons_of_mem _ hm)

namespace Program
variable {α β σ σ' : Type}

theorem Alike.refl (p : Program α) : Alike differ plain p p := by
  induction p with
  | done a => exact .done a
  | note r p ih => exact .note r ih
  | request r k ih => exact .request r ih

theorem Alike.bind {p p' : Program α} {f f' : α → Program β} (hp : Alike differ plain p p')
    (hf : ∀ a, Alike differ plain (f a) (f' a)) :
    Alike differ plain (p.bind f) (p'.bind f') := by
  induction hp with
  | done a => exact hf a
  | note r _ ih => exact .note r ih
  | request r _ ih => exact .request r ih
  | call hc _ ih => exact .call hc ih

/-- Two alike programs that are answered alike stay alike to the end. -/
theorem Alike.run_alike {env : Surroundings σ} {env' : Surroundings σ'} {p p' : Program α}
    (h : Alike differ plain p p') {s : σ} {s' : σ'}
    (ha : AnsweredAlike plain (p.run env s).history (p'.run env' s').history) :
    (p.run env s).value = (p'.run env' s').value ∧
      List.Forall₂ (Event.Alike differ) (p.run env s).history (p'.run env' s').history := by
  induction h generalizing s s' with
  | done a => exact ⟨rfl, .nil⟩
  | note r _ ih =>
    obtain ⟨hv, hh⟩ := ih ⟨ha.requests, ha.tools, ha.ends⟩
    exact ⟨hv, .cons (.same _) hh⟩
  | request r _ ih =>
    have hx : (env r s).1 = (env' r s').1 := ha.requests r _ _ (List.mem_cons_self ..)
    have ht := ha.tail
    rw [← hx] at ht
    obtain ⟨hv, hh⟩ := ih (env r s).1 ht
    simp only [run, ← hx]
    exact ⟨hv, .cons (.same _) hh⟩
  | @call c c' _ _ hc _ ih =>
    have hx : (env (.run c) s).1 = (env' (.run c') s').1 :=
      ha.tools c c' _ _ (List.mem_cons_self ..)
    have hplain : ∀ exit, (env (.run c) s).1 = .ok exit → plain exit := by
      intro exit he
      exact ha.ends c exit (by simp [run, he])
    have ht := ha.tail
    rw [← hx] at ht
    obtain ⟨hv, hh⟩ := ih (env (.run c) s).1 hplain ht
    simp only [run, ← hx]
    exact ⟨hv, .cons (.called hc _) hh⟩

end Program

namespace Act
variable {α β : Type}

theorem alike_bind {act act' : Act α} {f f' : α → Act β}
    (h : Alike differ plain act.run act'.run)
    (hf : ∀ a, Alike differ plain (f a).run (f' a).run) :
    Alike differ plain (act >>= f).run (act' >>= f').run := by
  rw [ExceptT.run_bind, ExceptT.run_bind]
  refine h.bind fun x => ?_
  cases x with
  | ok a => exact hf a
  | error e => exact .done _

theorem alike_discard {act act' : Act α} (h : Alike differ plain act.run act'.run) :
    Alike differ plain (discard act : Act Unit).run (discard act' : Act Unit).run := by
  change Alike differ plain (act.run.bind _) (act'.run.bind _)
  exact h.bind fun _ => .refl _

end Act

/-! ## What alike histories have in common -/

/-- Two runs of tools with the same end, whose commands are related. -/
structure ToolRun.Alike (differ : Command → Command → Prop) (x y : ToolRun) : Prop where
  command : differ x.command y.command
  outcome : x.outcome = y.outcome

namespace History
variable {h h' : History}

theorem filterMap_eq_of_alike {β : Type} {view : Event → Option β}
    (hv : ∀ (c : Command) (x : Except String ToolExit), view (.answered (.run c) x) = none)
    (ha : List.Forall₂ (Event.Alike differ) h h') : h.filterMap view = h'.filterMap view := by
  induction ha with
  | nil => rfl
  | cons he _ ih =>
    cases he with
    | same e => rw [List.filterMap_cons, List.filterMap_cons, ih]
    | called => rw [List.filterMap_cons_none (hv ..), List.filterMap_cons_none (hv ..), ih]

theorem records_eq_of_alike (ha : List.Forall₂ (Event.Alike differ) h h') :
    records h = records h' :=
  filterMap_eq_of_alike (fun _ _ => rfl) ha

theorem asked_eq_of_alike (ha : List.Forall₂ (Event.Alike differ) h h') :
    asked h = asked h' :=
  filterMap_eq_of_alike (fun _ _ => rfl) ha

theorem toolRuns_alike (hd : ∀ c, differ c c) (ha : List.Forall₂ (Event.Alike differ) h h') :
    List.Forall₂ (ToolRun.Alike differ) (toolRuns h) (toolRuns h') := by
  induction ha with
  | nil => exact .nil
  | @cons e e' g g' he _ ih =>
    cases he with
    | called hc x => exact .cons ⟨hc, rfl⟩ ih
    | same e =>
      cases ht : e.toolRun? with
      | none => rwa [toolRuns, toolRuns, List.filterMap_cons_none ht, List.filterMap_cons_none ht]
      | some x =>
        rw [toolRuns, toolRuns, List.filterMap_cons_some ht, List.filterMap_cons_some ht]
        exact .cons ⟨hd _, rfl⟩ ih

end History

end SafeAlter
