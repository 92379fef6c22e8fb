import SafeAlter.Proofs.Program.Course

/-! # Programs that leave fewer records

One program is quieter than another if the two do the same but for records that the other one leaves
in addition, all of them for debugging. Run in the same surroundings from the same state, they ask
for the same and are answered the same, since a record changes nothing there; so they end alike, and
the records of the one are among those of the other, in the same order.
-/
namespace SafeAlter
open History

/-- The second program does what the first one does, and may leave records for debugging besides. -/
inductive Program.Quieter {α : Type} : Program α → Program α → Prop where
  | done (a : α) : Quieter (.done a) (.done a)
  | note (r : Record) {p p' : Program α} (rest : Quieter p p') : Quieter (.note r p) (.note r p')
  | added {r : Record} (hr : r.level = .debug) {p p' : Program α} (rest : Quieter p p') :
      Quieter p (.note r p')
  | request (r : Request) {k k' : r.Answer → Program α} (rest : ∀ x, Quieter (k x) (k' x)) :
      Quieter (.request r k) (.request r k')

/-- Two runs that differ in records for debugging only, which the second one has in addition. -/
structure Run.Quieter {σ α : Type} (run run' : Run σ α) : Prop where
  value : run.value = run'.value
  world : run.world = run'.world
  exchanges : exchanges run.history = exchanges run'.history
  records : List.Sublist (records run.history) (records run'.history)
  kept : (History.records run.history).filter (·.level != .debug) =
    (History.records run'.history).filter (·.level != .debug)

namespace Run.Quieter
variable {σ α : Type} {run run' : Run σ α}

theorem asked (h : run.Quieter run') : asked run.history = History.asked run'.history := by
  rw [← asked_exchanges, h.exchanges, asked_exchanges]

theorem toolRuns (h : run.Quieter run') : toolRuns run.history = History.toolRuns run'.history := by
  rw [← toolRuns_exchanges, h.exchanges, toolRuns_exchanges]

end Run.Quieter

namespace Program
variable {α β σ : Type}

theorem Quieter.refl (p : Program α) : Quieter p p := by
  induction p with
  | done a => exact .done a
  | note r p ih => exact .note r ih
  | request r k ih => exact .request r ih

theorem Quieter.bind {p p' : Program α} {f f' : α → Program β} (hp : Quieter p p')
    (hf : ∀ a, Quieter (f a) (f' a)) : Quieter (p.bind f) (p'.bind f') := by
  induction hp with
  | done a => exact hf a
  | note r _ ih => exact .note r ih
  | added hr _ ih => exact .added hr ih
  | request r _ ih => exact .request r ih

theorem Quieter.ite {c : Prop} [Decidable c] {p p' q q' : Program α} (h : Quieter p p')
    (h' : Quieter q q') : Quieter (if c then p else q) (if c then p' else q') := by
  split
  · exact h
  · exact h'

/-- What one program leaves out changes nothing in the run of the other. -/
theorem Quieter.run {p p' : Program α} (h : Quieter p p') (env : Surroundings σ) (s : σ) :
    (p.run env s).Quieter (p'.run env s) := by
  induction h generalizing s with
  | done a => exact ⟨rfl, rfl, rfl, .refl _, rfl⟩
  | note r _ ih =>
    obtain ⟨hvalue, hworld, hexchanges, hrecords, hkept⟩ := ih s
    refine ⟨hvalue, hworld, hexchanges, hrecords.cons_cons r, ?_⟩
    change (r :: records _).filter _ = (r :: records _).filter _
    rw [List.filter_cons, List.filter_cons, hkept]
  | added hr _ ih =>
    obtain ⟨hvalue, hworld, hexchanges, hrecords, hkept⟩ := ih s
    refine ⟨hvalue, hworld, hexchanges, hrecords.cons _, hkept.trans ?_⟩
    exact (List.filter_cons_of_neg (by rw [hr]; decide)).symm
  | request r _ ih =>
    obtain ⟨hvalue, hworld, hexchanges, hrecords, hkept⟩ := ih (env r s).1 (env r s).2
    refine ⟨hvalue, hworld, ?_, hrecords, hkept⟩
    simp only [Program.run, exchanges_answered, hexchanges]

end Program

namespace Act
open Program
variable {α β : Type}

theorem quieter_bind {act act' : Act α} {f f' : α → Act β} (h : Quieter act.run act'.run)
    (hf : ∀ a, Quieter (f a).run (f' a).run) : Quieter (act >>= f).run (act' >>= f').run := by
  rw [ExceptT.run_bind, ExceptT.run_bind]
  refine h.bind fun x => ?_
  cases x with
  | ok a => exact hf a
  | error e => exact .done _

theorem quieter_discard {act act' : Act α} (h : Quieter act.run act'.run) :
    Quieter (discard act : Act Unit).run (discard act' : Act Unit).run := by
  change Quieter (act.run.bind _) (act'.run.bind _)
  exact h.bind fun _ => .refl _

end Act

end SafeAlter
