import SafeAlter.Proofs.Program.Course

/-! # Programs that only read

A program reads if all that it requests is an answer of the server to questions that change nothing
there. Where the server answers each of these by the question alone, the value of a program that
reads does not depend on the state in which it is run, and a list that is worked through by such a
program can be worked through in two parts, at different times.
-/
namespace SafeAlter

/-- A question that changes nothing. -/
def Query.isRead : Query → Bool
  | .execute _ => false
  | _ => true

inductive Program.Reads {α : Type} : Program α → Prop where
  | done (a : α) : Reads (.done a)
  | note (r : Record) {p : Program α} (rest : Reads p) : Reads (.note r p)
  | ask {q : Query} {k : Except Failure q.Answer → Program α} (hq : q.isRead = true)
      (rest : ∀ x, Reads (k x)) : Reads (.request (.ask q) k)

/-- The answer to a question that changes nothing depends on the question alone. -/
def Surroundings.AnswersSteadily {σ : Type} (env : Surroundings σ) : Prop :=
  ∀ q s t, q.isRead = true → (env (.ask q) s).1 = (env (.ask q) t).1

namespace Program
variable {α β σ : Type} {env : Surroundings σ}

theorem Reads.bind {p : Program α} {f : α → Program β} (hp : p.Reads) (hf : ∀ a, (f a).Reads) :
    (p.bind f).Reads := by
  induction hp with
  | done a => exact hf a
  | note r _ ih => exact .note r ih
  | ask hq _ ih => exact .ask hq ih

/-- All that was asked in a course of a program that reads changes nothing. -/
theorem Reads.of_mem {p : Program α} (hp : p.Reads) {h : History} {a : α} (hc : p.Course h a)
    {r : Request} {x : r.Answer} (hx : .answered r x ∈ h) : ∃ q, r = .ask q ∧ q.isRead = true := by
  induction hp generalizing h with
  | done b =>
    rw [(course_done.1 hc).1] at hx
    cases hx
  | note record _ ih =>
    obtain ⟨g, hg, rfl⟩ := course_note.1 hc
    rcases List.mem_cons.1 hx with he | hx
    · cases he
    · exact ih hg hx
  | ask hq _ ih =>
    obtain ⟨y, g, hg, rfl⟩ := course_request.1 hc
    rcases List.mem_cons.1 hx with he | hx
    · cases he
      exact ⟨_, rfl, hq⟩
    · exact ih y hg hx

theorem Reads.mapM {f : α → Program β} (hf : ∀ a, (f a).Reads) (xs : List α) :
    (xs.mapM f).Reads := by
  induction xs with
  | nil =>
    rw [List.mapM_nil]
    exact .done []
  | cons x xs ih =>
    rw [List.mapM_cons]
    exact (hf x).bind fun y => ih.bind fun ys => .done (y :: ys)

/-- A program that reads has the same value in every state. -/
theorem Reads.value_eq {p : Program α} (hp : p.Reads) (henv : env.AnswersSteadily) (s t : σ) :
    (p.run env s).value = (p.run env t).value := by
  induction hp generalizing s t with
  | done a => rfl
  | note r _ ih => exact ih s t
  | @ask q k hq _ ih =>
    have hanswer := henv q s t hq
    have hnext := ih (env (.ask q) t).1 (env (.ask q) s).2 (env (.ask q) t).2
    rw [← hanswer] at hnext
    simpa only [run, ← hanswer] using hnext

theorem value_mapM_append {f : α → Program β} (hf : ∀ a, (f a).Reads)
    (henv : env.AnswersSteadily) (xs ys : List α) (s t u : σ) :
    (((xs ++ ys).mapM f).run env s).value =
      ((xs.mapM f).run env t).value ++ ((ys.mapM f).run env u).value := by
  rw [List.mapM_append]
  simp only [bind_eq, pure_eq, run_bind, run]
  rw [(Reads.mapM hf xs).value_eq henv s t, (Reads.mapM hf ys).value_eq henv _ u]

end Program

namespace Act
open Program
variable {α β : Type}

/-- The value of a program behind one that may fail. -/
theorem value_bind {σ : Type} (env : Surroundings σ) (act : Act α) (f : α → Act β) (s : σ) :
    ((act >>= f).run.run env s).value =
      match (act.run.run env s).value with
      | .ok a => ((f a).run.run env (act.run.run env s).world).value
      | .error e => .error e := by
  rw [ExceptT.run_bind, bind_eq, run_bind]
  cases hvalue : (act.run.run env s).value with
  | ok a => simp only [hvalue]
  | error e =>
    simp only [hvalue]
    rfl

/-- Where a program fails, a program behind it makes no difference to the run. -/
theorem run_bind_error {σ : Type} {env : Surroundings σ} {act : Act α} {e : Failure} {s : σ}
    (he : (act.run.run env s).value = .error e) (f : α → Act β) :
    (act >>= f).run.run env s =
      ⟨.error e, (act.run.run env s).history, (act.run.run env s).world⟩ := by
  rw [ExceptT.run_bind, bind_eq, run_bind]
  simp only [he]
  simp [run]

theorem value_liftM_bind {σ : Type} (env : Surroundings σ) (p : Program α) (f : α → Act β)
    (s : σ) :
    ((liftM p >>= f : Act β).run.run env s).value =
      ((f (p.run env s).value).run.run env (p.run env s).world).value := by
  have hrun : (liftM p : Act α).run = p.bind fun a => .done (Except.ok a) := rfl
  rw [value_bind, hrun, run_bind]
  rfl

theorem reads_done (r : Except Failure α) : (Program.done r).Reads := .done r

theorem reads_pure (a : α) : (pure a : Act α).run.Reads := reads_done (.ok a)

theorem reads_throw (e : Failure) : (throw e : Act α).run.Reads := reads_done (.error e)

theorem reads_bind {act : Act α} {f : α → Act β} (ha : act.run.Reads)
    (hf : ∀ a, (f a).run.Reads) : (act >>= f).run.Reads := by
  rw [ExceptT.run_bind]
  refine ha.bind fun r => ?_
  cases r with
  | error e => exact reads_done (.error e)
  | ok a => exact hf a

theorem reads_note (level : Level) (text : String) : (note level text).Reads :=
  .note _ (.done ())

theorem reads_liftM {p : Program α} (hp : p.Reads) : (liftM p : Act α).run.Reads :=
  hp.bind fun a => reads_done (.ok a)

theorem reads_ask {q : Query} (hq : q.isRead = true) : (ask q).run.Reads :=
  .ask hq fun x => .done x

theorem reads_observe {act : Act α} (ha : act.run.Reads) : (observe act).run.Reads :=
  ha.bind fun a => reads_done (.ok a)

end Act

end SafeAlter
