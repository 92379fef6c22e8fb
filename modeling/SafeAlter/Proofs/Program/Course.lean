import SafeAlter.History

/-! # The courses of a program

A course of a program is a history that it can leave together with the value that it then ends
with, for some answers to its requests. Every run is a course, whatever the surroundings are and
whatever state they keep; what holds of all courses therefore holds of all runs. The records of a
history count for nothing in what was asked and answered, so the exchanges of a course are looked
at without them.
-/
namespace SafeAlter

def Succeeds {ε α : Type} (r : Except ε α) : Prop :=
  ∃ a, r = .ok a

@[simp] theorem succeeds_ok {ε α : Type} (a : α) : Succeeds (.ok a : Except ε α) :=
  ⟨a, rfl⟩

@[simp] theorem not_succeeds_error {ε α : Type} (e : ε) : ¬Succeeds (.error e : Except ε α) := by
  rintro ⟨a, ha⟩
  cases ha

@[simp] theorem succeeds_map {ε α β : Type} (f : α → β) (r : Except ε α) :
    Succeeds (r.map f) ↔ Succeeds r := by
  cases r <;> simp [Except.map]

inductive Program.Course {α : Type} : Program α → History → α → Prop where
  | done (a : α) : Course (.done a) [] a
  | note {r : Record} {p : Program α} {h : History} {a : α} (rest : Course p h a) :
      Course (.note r p) (.noted r :: h) a
  | request {r : Request} {k : r.Answer → Program α} (x : r.Answer) {h : History} {a : α}
      (rest : Course (k x) h a) : Course (.request r k) (.answered r x :: h) a

namespace Program
variable {α β σ : Type}

/-- Every run is a course, in any surroundings and from any state of theirs. -/
theorem course_run (env : Surroundings σ) (p : Program α) (s : σ) :
    p.Course (p.run env s).history (p.run env s).value := by
  induction p generalizing s with
  | done a => exact .done a
  | note r p ih => exact .note (ih s)
  | request r k ih => exact .request (env r s).1 (ih (env r s).1 (env r s).2)

@[simp] theorem course_done {a b : α} {h : History} :
    (done a).Course h b ↔ h = [] ∧ b = a := by
  constructor
  · rintro ⟨⟩
    exact ⟨rfl, rfl⟩
  · rintro ⟨rfl, rfl⟩
    exact .done b

theorem course_note {r : Record} {p : Program α} {a : α} {h : History} :
    (note r p).Course h a ↔ ∃ g, p.Course g a ∧ h = .noted r :: g := by
  constructor
  · rintro (_ | hp)
    exact ⟨_, hp, rfl⟩
  · rintro ⟨g, hp, rfl⟩
    exact .note hp

theorem course_request {r : Request} {k : r.Answer → Program α} {a : α} {h : History} :
    (request r k).Course h a ↔ ∃ x g, (k x).Course g a ∧ h = .answered r x :: g := by
  constructor
  · rintro (_ | _ | ⟨x, hp⟩)
    exact ⟨x, _, hp, rfl⟩
  · rintro ⟨x, g, hp, rfl⟩
    exact .request x hp

theorem course_bind {p : Program α} {f : α → Program β} {b : β} {h : History} :
    (p.bind f).Course h b ↔ ∃ a g k, p.Course g a ∧ (f a).Course k b ∧ h = g ++ k := by
  induction p generalizing h with
  | done a =>
    constructor
    · exact fun hf => ⟨a, [], h, .done a, hf, rfl⟩
    · rintro ⟨a, g, k, hg, hk, rfl⟩
      obtain ⟨rfl, rfl⟩ := course_done.1 hg
      exact hk
  | note r p ih =>
    simp only [bind, course_note, ih]
    constructor
    · rintro ⟨_, ⟨a, g, k, hg, hk, rfl⟩, rfl⟩
      exact ⟨a, _, k, ⟨g, hg, rfl⟩, hk, rfl⟩
    · rintro ⟨a, _, k, ⟨g, hg, rfl⟩, hk, rfl⟩
      exact ⟨_, ⟨a, g, k, hg, hk, rfl⟩, rfl⟩
  | request r q ih =>
    simp only [bind, course_request, ih]
    constructor
    · rintro ⟨x, _, ⟨a, g, k, hg, hk, rfl⟩, rfl⟩
      exact ⟨a, _, k, ⟨x, g, hg, rfl⟩, hk, rfl⟩
    · rintro ⟨a, _, k, ⟨x, g, hg, rfl⟩, hk, rfl⟩
      exact ⟨x, _, ⟨a, g, k, hg, hk, rfl⟩, rfl⟩

theorem course_map {p : Program α} {f : α → β} {b : β} {h : History} :
    (p.bind fun a => done (f a)).Course h b ↔ ∃ a, p.Course h a ∧ b = f a := by
  rw [course_bind]
  constructor
  · rintro ⟨a, g, k, hg, hk, rfl⟩
    obtain ⟨rfl, rfl⟩ := course_done.1 hk
    exact ⟨a, by simpa using hg, rfl⟩
  · rintro ⟨a, hg, rfl⟩
    exact ⟨a, h, [], hg, .done (f a), by simp⟩

/-- What a program that is run for each of some items did for one of them. -/
structure Portion (α β : Type) where
  item : α
  history : History
  value : β

/-- A course for a list falls into courses for its items, one behind the other. -/
theorem course_mapM {f : α → Program β} {xs : List α} {h : History} {bs : List β} :
    (xs.mapM f).Course h bs ↔ ∃ portions : List (Portion α β),
      portions.map Portion.item = xs ∧ portions.flatMap Portion.history = h ∧
        portions.map Portion.value = bs ∧
          ∀ p ∈ portions, (f p.item).Course p.history p.value := by
  induction xs generalizing h bs with
  | nil =>
    rw [List.mapM_nil, pure_eq, course_done]
    constructor
    · rintro ⟨rfl, rfl⟩
      exact ⟨[], rfl, rfl, rfl, nofun⟩
    · rintro ⟨portions, hitems, rfl, rfl, -⟩
      have hnil : portions = [] := List.map_eq_nil_iff.1 hitems
      subst hnil
      exact ⟨rfl, rfl⟩
  | cons x xs ih =>
    rw [List.mapM_cons, bind_eq, course_bind]
    constructor
    · rintro ⟨b, g, k, hb, hk, rfl⟩
      obtain ⟨cs, hcs, rfl⟩ := course_map.1 hk
      obtain ⟨portions, rfl, rfl, rfl, hall⟩ := ih.1 hcs
      exact ⟨⟨x, g, b⟩ :: portions, rfl, rfl, rfl, List.forall_mem_cons.2 ⟨hb, hall⟩⟩
    · rintro ⟨portions, hitems, rfl, rfl, hall⟩
      obtain ⟨p, rest, rfl, rfl, rfl⟩ := List.map_eq_cons_iff.1 hitems
      obtain ⟨hp, hrest⟩ := List.forall_mem_cons.1 hall
      have hcs := ih.2 ⟨rest, rfl, rfl, rfl, hrest⟩
      exact ⟨p.value, p.history, _, hp, course_map.2 ⟨_, hcs, rfl⟩, rfl⟩

/-- What every course for an item gives is what a course for a list gives, item by item. -/
theorem map_of_course_mapM {γ : Type} {f : α → Program β} {g : β → γ} {g' : α → γ}
    (hf : ∀ a h b, (f a).Course h b → g b = g' a) {xs : List α} {h : History} {bs : List β}
    (hc : (xs.mapM f).Course h bs) : bs.map g = xs.map g' := by
  obtain ⟨portions, rfl, -, rfl, hall⟩ := course_mapM.1 hc
  rw [List.map_map, List.map_map]
  exact List.map_congr_left fun p hp => hf p.item p.history p.value (hall p hp)

end Program

namespace History

/-- A history without its records: what was asked and answered, in order. -/
def exchanges (h : History) : History :=
  h.filter fun e => e.record?.isNone

@[simp] theorem exchanges_nil : exchanges [] = [] := rfl

@[simp] theorem exchanges_append (g h : History) :
    exchanges (g ++ h) = exchanges g ++ exchanges h :=
  List.filter_append ..

@[simp] theorem exchanges_noted (r : Record) (h : History) :
    exchanges (.noted r :: h) = exchanges h := rfl

@[simp] theorem exchanges_answered (r : Request) (x : r.Answer) (h : History) :
    exchanges (.answered r x :: h) = .answered r x :: exchanges h := rfl

theorem mem_exchanges {r : Request} {x : r.Answer} {h : History} :
    .answered r x ∈ exchanges h ↔ .answered r x ∈ h := by
  simp [exchanges, Event.record?]

theorem asked_exchanges (h : History) : asked (exchanges h) = asked h := by
  induction h with
  | nil => rfl
  | cons e h ih => cases e <;> simp_all [asked, List.filterMap_cons, Event.asked?]

theorem toolRuns_exchanges (h : History) : toolRuns (exchanges h) = toolRuns h := by
  induction h with
  | nil => rfl
  | cons e h ih => cases e <;> simp_all [toolRuns, List.filterMap_cons, Event.toolRun?]

end History

namespace Act
open Program
variable {α β : Type}

/-- A course of a program that may fail, with a program after it: either both run, or the first
fails and is all there is. -/
theorem course_bind {act : Act α} {f : α → Act β} {h : History} {r : Except Failure β} :
    (act >>= f).run.Course h r ↔
      (∃ a g k, act.run.Course g (.ok a) ∧ (f a).run.Course k r ∧ h = g ++ k) ∨
        ∃ e, act.run.Course h (.error e) ∧ r = .error e := by
  rw [ExceptT.run_bind, bind_eq, Program.course_bind]
  constructor
  · rintro ⟨a | a, g, k, hg, hk, rfl⟩
    · obtain ⟨rfl, rfl⟩ := course_done.1 hk
      exact .inr ⟨a, by simpa using hg, rfl⟩
    · exact .inl ⟨a, g, k, hg, hk, rfl⟩
  · rintro (⟨a, g, k, hg, hk, rfl⟩ | ⟨e, hg, rfl⟩)
    · exact ⟨.ok a, g, k, hg, hk, rfl⟩
    · exact ⟨.error e, h, [], hg, course_done.2 ⟨rfl, rfl⟩, by simp⟩

@[simp] theorem course_pure {a : α} {h : History} {r : Except Failure α} :
    (pure a : Act α).run.Course h r ↔ h = [] ∧ r = .ok a :=
  course_done

@[simp] theorem course_throw {e : Failure} {h : History} {r : Except Failure α} :
    (throw e : Act α).run.Course h r ↔ h = [] ∧ r = .error e :=
  course_done

@[simp] theorem course_liftM {p : Program α} {h : History} {r : Except Failure α} :
    (liftM p : Act α).run.Course h r ↔ ∃ a, p.Course h a ∧ r = .ok a :=
  course_map

/-- A program whose value is changed in the end. -/
theorem course_map {act : Act α} {f : α → β} {h : History} {r : Except Failure β} :
    (do return f (← act) : Act β).run.Course h r ↔ ∃ x, act.run.Course h x ∧ r = x.map f := by
  have hm : (do return f (← act) : Act β).run = act.run.bind fun x => .done (x.map f) := by
    rw [ExceptT.run_bind, bind_eq]
    congr 1
    funext x
    cases x <;> rfl
  rw [hm]
  exact Program.course_map

@[simp] theorem course_discard {act : Act α} {h : History} {r : Except Failure Unit} :
    (discard act : Act Unit).run.Course h r ↔ ∃ x, act.run.Course h x ∧ r = x.map fun _ => () := by
  have hd : (discard act : Act Unit).run = act.run.bind fun x => .done (x.map fun _ => ()) := by
    change act.run.bind _ = _
    congr 1
    funext x
    cases x <;> rfl
  rw [hd]
  exact Program.course_map

@[simp] theorem course_note {level : Level} {text : String} {h : History} {u : Unit} :
    (note level text).Course h u ↔ h = [.noted ⟨level, text⟩] := by
  simp [note, Program.course_note]

/-- A record that is left only on demand makes no difference to the exchanges. -/
theorem course_noteIf {b : Bool} {level : Level} {text : String} {p : Program α} {h : History}
    {a : α} (hc : (if b = true then (note level text).bind fun _ => p else p).Course h a) :
    ∃ g, p.Course g a ∧ h.exchanges = g.exchanges := by
  split at hc
  · obtain ⟨_, k, g, hk, hg, rfl⟩ := Program.course_bind.1 hc
    rw [course_note.1 hk]
    exact ⟨g, hg, rfl⟩
  · exact ⟨h, hc, rfl⟩

@[simp] theorem course_request {r : Request} {h : History} {x : r.Answer} :
    (request r).Course h x ↔ h = [.answered r x] := by
  simp only [request, Program.course_request, Program.course_done]
  constructor
  · rintro ⟨y, g, ⟨rfl, rfl⟩, rfl⟩
    rfl
  · rintro rfl
    exact ⟨x, [], ⟨rfl, rfl⟩, rfl⟩

@[simp] theorem course_ask {q : Query} {h : History} {r : Except Failure q.Answer} :
    (ask q).run.Course h r ↔ h = [.answered (.ask q) r] :=
  course_request

@[simp] theorem course_observe {act : Act α} {h : History}
    {r : Except Failure (Except Failure α)} :
    (observe act).run.Course h r ↔ ∃ x, act.run.Course h x ∧ r = .ok x :=
  Program.course_map

theorem course_ofAnswer {p : Program (Except String α)} {h : History}
    {r : Except Failure α} :
    (ofAnswer p).run.Course h r ↔ ∃ x, p.Course h x ∧ r = x.mapError Failure.io :=
  Program.course_map

theorem course_makeDirectory {path : String} {h : History} {r : Except Failure Unit} :
    (makeDirectory path).run.Course h r ↔
      ∃ x, h = [.answered (.makeDirectory path) x] ∧ r = x.mapError Failure.io :=
  course_ofAnswer.trans (exists_congr fun _ => and_congr_left fun _ => course_request)

theorem course_freeSpace {path : String} {h : History} {r : Except Failure UInt64} :
    (freeSpace path).run.Course h r ↔
      ∃ x, h = [.answered (.freeSpace path) x] ∧ r = x.mapError Failure.io :=
  course_ofAnswer.trans (exists_congr fun _ => and_congr_left fun _ => course_request)

theorem course_clock {h : History} {r : Except Failure String} :
    clock.run.Course h r ↔ ∃ time, h = [.answered .clock time] ∧ r = .ok time :=
  course_liftM.trans (exists_congr fun _ => and_congr_left fun _ => course_request)

end Act

end SafeAlter
