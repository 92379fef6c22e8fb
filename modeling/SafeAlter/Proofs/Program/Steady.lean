import SafeAlter.Proofs.Program.Course

/-! # Steady surroundings

Surroundings are steady if the answer to a request depends on the request alone. Whatever a program
does in them, it has of each request the one answer. In the obliging ones all goes well: a database
is in use, every tool ends with code zero and says nothing, and there is all the free space that
there can be.
-/
namespace SafeAlter

def Surroundings.steady (answer : (r : Request) → r.Answer) : Surroundings Unit :=
  fun r s => (answer r, s)

theorem Program.answer_of_mem_steady {α : Type} {answer : (r : Request) → r.Answer}
    {p : Program α} {r : Request} {x : r.Answer}
    (h : .answered r x ∈ (p.run (.steady answer) ()).history) : x = answer r := by
  induction p with
  | done => cases h
  | note record p ih =>
    rcases List.mem_cons.1 h with he | h
    · cases he
    · exact ih h
  | request q k ih =>
    rcases List.mem_cons.1 h with he | h
    · cases he
      rfl
    · exact ih _ h

def obligingAnswer : (r : Request) → r.Answer
  | .ask q => .ok (match q with
    | .version => "8.0.36"
    | .systemVariable _ | .listedVariable _ => none
    | .currentDatabase => some "shop"
    | .storageEngine _ => some "InnoDB"
    | .rowCount _ | .databaseBytes _ => 0
    | .footprint _ => ⟨0, 0⟩
    | .hasPrimaryKey _ | .hasUniqueKey _ => true
    | .hasForeignKeys _ | .hasTriggers _ => false
    | .execute _ => ())
  | .run _ => .ok ⟨some 0, ""⟩
  | .makeDirectory _ | .writeText .. => .ok ()
  | .freeSpace _ => .ok 0xFFFFFFFFFFFFFFFF
  | .clock => "240131120000"
  | .fileExists _ => false
  | .readText _ => .ok ""
  | .connect _ => .ok ()
  | .print _ | .complain _ => ()

def Surroundings.obliging : Surroundings Unit := .steady obligingAnswer

/-- Whether every answer in a history is the obliging one. -/
def Obliged (g : History) : Prop :=
  ∀ (r : Request) (x : r.Answer), .answered r x ∈ g → x = obligingAnswer r

theorem obliged_append {g h : History} : Obliged (g ++ h) ↔ Obliged g ∧ Obliged h := by
  constructor
  · intro ho
    exact ⟨fun r x hx => ho r x (List.mem_append_left _ hx),
      fun r x hx => ho r x (List.mem_append_right _ hx)⟩
  · rintro ⟨hg, hh⟩ r x hx
    exact (List.mem_append.1 hx).elim (hg r x) (hh r x)

theorem Program.obliged_run {α : Type} (p : Program α) :
    Obliged (History.exchanges (p.run .obliging ()).history) := by
  intro r x hx
  exact answer_of_mem_steady (History.mem_exchanges.1 hx)

end SafeAlter
