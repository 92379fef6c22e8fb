import SafeAlter.Proofs.Sql.Reread

/-! # Statements joined again

The statements of a script, joined with semicolons, are split again into the same statements if and
only if none but the last ends in a sign: such a sign takes the semicolon behind it for a part of a
word. A statement by itself is always the one statement of its text.
-/
namespace SafeAlter.Sql

def semicolon : Lexeme := ⟨.terminator, [';']⟩

def statementText (row : List Lexeme) : String := String.ofList (spelled row)

theorem map_statementText (parts : List Part) :
    (parts.map Part.statement).map statementText =
      parts.map fun p => String.ofList (spelled p.statement) := by
  rw [List.map_map]
  rfl

/-- Statements with a semicolon between any two. -/
def separated : List (List Lexeme) → List Part
  | [] => []
  | [r] => [⟨r, []⟩]
  | r :: q :: rows => ⟨r, [semicolon]⟩ :: separated (q :: rows)

def joinedRow (rows : List (List Lexeme)) : List Lexeme := (separated rows).flatMap Part.row

theorem joinedRow_single (r : List Lexeme) : joinedRow [r] = r := by
  simp [joinedRow, separated, Part.row]

theorem joinedRow_cons (r q : List Lexeme) (rows : List (List Lexeme)) :
    joinedRow (r :: q :: rows) = r ++ semicolon :: joinedRow (q :: rows) := by
  simp [joinedRow, separated, Part.row]

theorem spelled_joinedRow (rows : List (List Lexeme)) :
    spelled (joinedRow rows) = [';'].intercalate (rows.map spelled) := by
  fun_induction separated rows with
  | case1 => rfl
  | case2 r => rw [joinedRow_single, List.map_singleton, List.intercalate_singleton]
  | case3 r q rows ih =>
    have hspelled : spelled (semicolon :: joinedRow (q :: rows)) =
        ';' :: spelled (joinedRow (q :: rows)) := rfl
    rw [joinedRow_cons, spelled_append, hspelled, ih]
    simp only [List.map_cons, List.intercalate_cons_cons, List.append_assoc]
    rfl

theorem map_toList_statementText (rows : List (List Lexeme)) :
    (rows.map statementText).map String.toList = rows.map spelled := by
  rw [List.map_map]
  exact List.map_congr_left fun row _ => String.toList_ofList

theorem toList_intercalate_statementText (rows : List (List Lexeme)) :
    (";".intercalate (rows.map statementText)).toList = spelled (joinedRow rows) := by
  rw [String.toList_intercalate, map_toList_statementText, spelled_joinedRow]
  rfl

/-! ## The statements of a joined row -/

theorem mem_separated {rows : List (List Lexeme)} {p : Part} (hp : p ∈ separated rows) :
    p.statement ∈ rows ∧ (p.gap = [] ∨ p.gap = [semicolon]) := by
  fun_induction separated rows with
  | case1 => cases hp
  | case2 r =>
    rw [List.mem_singleton.1 hp]
    exact ⟨List.mem_singleton_self r, .inl rfl⟩
  | case3 r q rows ih =>
    rcases List.mem_cons.1 hp with rfl | hp
    · exact ⟨List.mem_cons_self, .inr rfl⟩
    · exact (ih hp).imp_left (List.mem_cons_of_mem r)

theorem map_statement_separated (rows : List (List Lexeme)) :
    (separated rows).map Part.statement = rows := by
  fun_induction separated rows with
  | case1 => rfl
  | case2 r => rfl
  | case3 r q rows ih => rw [List.map_cons, ih]

theorem separated_parted (rows : List (List Lexeme)) :
    ∀ p ∈ (separated rows).dropLast, HasTerminator p.gap := by
  fun_induction separated rows with
  | case1 => nofun
  | case2 r => nofun
  | case3 r q rows ih =>
    have hne : separated (q :: rows) ≠ [] := by
      intro hnil
      have hmap := map_statement_separated (q :: rows)
      rw [hnil] at hmap
      cases hmap
    rw [List.dropLast_cons_of_ne_nil hne]
    exact List.forall_mem_cons.2 ⟨⟨semicolon, List.mem_singleton_self _, rfl⟩, ih⟩

def separatedDivision {rows : List (List Lexeme)} (h : ∀ r ∈ rows, IsStatement r) :
    Division (joinedRow rows) where
  lead := []
  parts := separated rows
  joined := rfl
  lead_isGap := nofun
  isStatement := fun _ hp => h _ (mem_separated hp).1
  isGap := by
    intro p hp l hl
    rcases (mem_separated hp).2 with hgap | hgap
    · rw [hgap] at hl
      cases hl
    · rw [hgap] at hl
      rw [List.mem_singleton.1 hl]
      rfl
  parted := separated_parted rows

theorem statements_of_joinedRow {script : String} {rows : List (List Lexeme)}
    (h : lexemes script.toList = .ok (joinedRow rows)) (hrows : ∀ r ∈ rows, IsStatement r) :
    statements script = .ok (rows.map statementText) := by
  rw [(separatedDivision hrows).statements_eq h, ← map_statementText, separatedDivision,
    map_statement_separated]

/-! ## The lexemes of statements joined -/

/-- A statement that ends in a sign `@` or `@@`. -/
def endsInSign (s : String) : Bool :=
  match lexemes s.toList with
  | .ok ls => ls.getLast?.any Lexeme.isSign
  | .error _ => false

/-- A row of lexemes that is a statement by itself. -/
structure IsStatementRow (row : List Lexeme) : Prop where
  isStatement : IsStatement row
  lexed : Lexed none (spelled row) row

theorem lexemes_statementText {row : List Lexeme} (h : Lexed none (spelled row) row) :
    lexemes (statementText row).toList = .ok row := by
  obtain ⟨place, h⟩ := h
  rw [statementText, String.toList_ofList]
  exact lexemesFrom_place h

theorem endsInSign_statementText {row : List Lexeme} (h : Lexed none (spelled row) row) :
    endsInSign (statementText row) = row.getLast?.any Lexeme.isSign := by
  rw [endsInSign, lexemes_statementText h]

theorem IsStatement.last_not_open {row : List Lexeme} (h : IsStatement row) :
    ∀ l ∈ row.getLast?, l.isOpenComment = false := by
  intro l hl
  have hends := h.ends
  rw [hl] at hends
  have hbetween : l.isBetween = false := hends
  simp only [Lexeme.isBetween, Bool.or_eq_false_iff] at hbetween
  simp [Lexeme.isOpenComment, hbetween.1]

theorem lexed_joinedRow_iff {rows : List (List Lexeme)} (hrows : ∀ r ∈ rows, IsStatementRow r) :
    Lexed none (spelled (joinedRow rows)) (joinedRow rows) ↔
      ∀ r ∈ rows.dropLast, r.getLast?.any Lexeme.isSign = false := by
  fun_induction separated rows with
  | case1 => exact ⟨fun _ => nofun, fun _ => .nil⟩
  | case2 r =>
    rw [joinedRow_single]
    exact ⟨fun _ => nofun, fun _ => (hrows r (List.mem_singleton_self r)).lexed⟩
  | case3 r q rows ih =>
    obtain ⟨hr, hrows⟩ := List.forall_mem_cons.1 hrows
    have hspelled : spelled (r ++ semicolon :: joinedRow (q :: rows)) =
        spelled r ++ ';' :: spelled (joinedRow (q :: rows)) := spelled_append _ _
    rw [joinedRow_cons, hspelled, List.dropLast_cons_of_ne_nil (List.cons_ne_nil q rows),
      List.forall_mem_cons, ← ih hrows]
    constructor
    · intro h
      constructor
      · obtain ⟨front, l, rfl, -⟩ := hr.isStatement.last
        rw [List.getLast?_append, List.getLast?_singleton]
        refine Bool.eq_false_iff.2 fun hsign => ?_
        rw [List.append_assoc] at h
        obtain ⟨kind, hrest⟩ := h.of_append
        exact Lexed.not_sign_terminator hsign rfl hrest
      · obtain ⟨kind, hrest⟩ := h.of_append
        have hgap : IsGap [semicolon] := by
          intro l hl
          rw [List.mem_singleton.1 hl]
          rfl
        have hrow : Lexed kind _ ([semicolon] ++ joinedRow (q :: rows)) := hrest
        exact hrow.of_append_right hgap (List.cons_ne_nil _ _)
    · rintro ⟨hsign, hrest⟩
      refine hr.lexed.append_terminator (fun l hl => ⟨hr.isStatement.last_not_open l hl, ?_⟩) hrest
      rw [hl] at hsign
      exact hsign

/-! ## The statements of a script, read again -/

/-- Each statement of a divided text is a statement by itself. -/
theorem isStatementRow_of_parts {s : List Char} (parts : List Part)
    (hstatement : ∀ p ∈ parts, IsStatement p.statement) (hgap : ∀ p ∈ parts, IsGap p.gap)
    (hparted : ∀ p ∈ parts.dropLast, HasTerminator p.gap)
    (h : Lexed none s (parts.flatMap Part.row)) : ∀ p ∈ parts, IsStatementRow p.statement := by
  induction parts generalizing s with
  | nil => nofun
  | cons p parts ih =>
    obtain ⟨hfirst, hstatement⟩ := List.forall_mem_cons.1 hstatement
    obtain ⟨hg, hgap⟩ := List.forall_mem_cons.1 hgap
    rw [List.flatMap_cons, Part.row, List.append_assoc] at h
    cases parts with
    | nil =>
      rw [List.flatMap_nil, List.append_nil] at h
      have hbehind : ∀ m ∈ p.gap.head?, m.isBetween = true :=
        fun m hm => hg m (List.mem_of_head? hm)
      exact List.forall_mem_singleton.2 ⟨hfirst, h.of_append_left hbehind⟩
    | cons q parts =>
      obtain ⟨hterminator, hparted⟩ := List.forall_mem_cons.1 hparted
      have hne : p.gap ≠ [] := by
        obtain ⟨l, hl, -⟩ := hterminator
        exact List.ne_nil_of_mem hl
      have hbehind : ∀ m ∈ (p.gap ++ (q :: parts).flatMap Part.row).head?,
          m.isBetween = true := by
        intro m hm
        rw [List.head?_append_of_ne_nil _ hne] at hm
        exact hg m (List.mem_of_head? hm)
      obtain ⟨kind, hrest⟩ := h.of_append
      refine List.forall_mem_cons.2 ⟨⟨hfirst, h.of_append_left hbehind⟩, ?_⟩
      exact ih hstatement hgap hparted (hrest.of_append_right hg hne)

theorem Division.isStatementRow {s : List Char} {ls : List Lexeme} (d : Division ls)
    (h : Lexed none s ls) : ∀ p ∈ d.parts, IsStatementRow p.statement := by
  obtain ⟨t, ht⟩ : ∃ t, Lexed none t (d.parts.flatMap Part.row) := by
    rw [d.joined] at h
    by_cases hlead : d.lead = []
    · rw [hlead] at h
      exact ⟨s, h⟩
    · exact ⟨_, h.of_append_right d.lead_isGap hlead⟩
  exact isStatementRow_of_parts d.parts d.isStatement d.isGap d.parted ht

/-! ## How short a divided text can be -/

section
variable {g : List Lexeme}

theorem one_le_length_of_hasTerminator (hne : ∀ l ∈ g, l.spelling ≠ []) (h : HasTerminator g) :
    1 ≤ (spelled g).length := by
  obtain ⟨l, hl, -⟩ := h
  refine List.length_pos_iff.2 fun hnil => hne l hl ?_
  exact List.flatMap_eq_nil_iff.1 hnil l hl

theorem eq_nil_of_spelled (hne : ∀ l ∈ g, l.spelling ≠ []) (h : spelled g = []) : g = [] := by
  cases g with
  | nil => rfl
  | cons l g => exact absurd (List.append_eq_nil_iff.1 h).1 (hne l List.mem_cons_self)

theorem eq_semicolon_of_length (hne : ∀ l ∈ g, l.spelling ≠ [])
    (hmark : ∀ l ∈ g, l.isTerminator = true → l = semicolon) (h : HasTerminator g)
    (hlength : (spelled g).length ≤ 1) : g = [semicolon] := by
  cases g with
  | nil =>
    obtain ⟨l, hl, -⟩ := h
    cases hl
  | cons l g =>
    obtain ⟨hl, hne⟩ := List.forall_mem_cons.1 hne
    have hfirst := List.length_pos_iff.2 hl
    have hspelled : (spelled (l :: g)).length = l.spelling.length + (spelled g).length :=
      List.length_append
    have hrest : g = [] := by
      refine eq_nil_of_spelled hne (List.length_eq_zero_iff.1 ?_)
      omega
    subst hrest
    obtain ⟨m, hm, hterminator⟩ := h
    rw [List.mem_singleton.1 hm] at hterminator
    rw [hmark l List.mem_cons_self hterminator]

end

theorem length_spelled_row (p : Part) (parts : List Part) :
    (spelled (p.row ++ parts.flatMap Part.row)).length = (spelled p.statement).length +
      (spelled p.gap).length + (spelled (parts.flatMap Part.row)).length := by
  rw [Part.row, spelled_append, spelled_append, List.length_append, List.length_append]

theorem length_spelled_joinedRow (r q : List Lexeme) (rows : List (List Lexeme)) :
    (spelled (joinedRow (r :: q :: rows))).length =
      (spelled r).length + 1 + (spelled (joinedRow (q :: rows))).length := by
  have hmark : spelled (semicolon :: joinedRow (q :: rows)) =
      ';' :: spelled (joinedRow (q :: rows)) := rfl
  rw [joinedRow_cons, spelled_append, hmark, List.length_append, List.length_cons]
  omega

/-- Parts take up no less room than their statements with semicolons between them, and just as much
only if they are these. -/
theorem separated_shortest (parts : List Part) (hne : ∀ p ∈ parts, ∀ l ∈ p.gap, l.spelling ≠ [])
    (hmark : ∀ p ∈ parts, ∀ l ∈ p.gap, l.isTerminator = true → l = semicolon)
    (hparted : ∀ p ∈ parts.dropLast, HasTerminator p.gap) :
    (spelled (joinedRow (parts.map Part.statement))).length ≤
        (spelled (parts.flatMap Part.row)).length ∧
      ((spelled (parts.flatMap Part.row)).length ≤
          (spelled (joinedRow (parts.map Part.statement))).length →
        parts = separated (parts.map Part.statement)) := by
  induction parts with
  | nil => exact ⟨Nat.le_refl _, fun _ => rfl⟩
  | cons p parts ih =>
    obtain ⟨hpne, hne⟩ := List.forall_mem_cons.1 hne
    obtain ⟨hpmark, hmark⟩ := List.forall_mem_cons.1 hmark
    rw [List.flatMap_cons, length_spelled_row]
    cases parts with
    | nil =>
      rw [List.map_singleton, joinedRow_single]
      have hnone : (spelled ([].flatMap Part.row)).length = 0 := rfl
      refine ⟨by omega, fun hle => ?_⟩
      have hgap : p.gap = [] := by
        refine eq_nil_of_spelled hpne (List.length_eq_zero_iff.1 ?_)
        omega
      rw [separated, ← hgap]
    | cons q parts =>
      obtain ⟨hterminator, hparted⟩ := List.forall_mem_cons.1 hparted
      obtain ⟨hshort, hequal⟩ := ih hne hmark hparted
      have hgap := one_le_length_of_hasTerminator hpne hterminator
      rw [List.map_cons, List.map_cons, length_spelled_joinedRow, ← List.map_cons]
      refine ⟨by omega, fun hle => ?_⟩
      have hsemicolon : p.gap = [semicolon] :=
        eq_semicolon_of_length hpne hpmark hterminator (by omega)
      have hrest := hequal (by omega)
      rw [List.map_cons, separated, ← List.map_cons, ← hrest, ← hsemicolon]

/-- A text that is no longer than its statements with semicolons between them is just these. -/
theorem Division.eq_joinedRow {s : List Char} {ls : List Lexeme} (d : Division ls)
    (h : Lexed none s ls)
    (hlength : s.length ≤ (spelled (joinedRow (d.parts.map Part.statement))).length) :
    ls = joinedRow (d.parts.map Part.statement) := by
  have hgap : ∀ p ∈ d.parts, ∀ l ∈ p.gap, l ∈ ls := by
    intro p hp l hl
    rw [d.joined]
    refine List.mem_append_right _ (List.mem_flatMap.2 ⟨p, hp, ?_⟩)
    exact List.mem_append_right _ hl
  have hlead : ∀ l ∈ d.lead, l ∈ ls := by
    intro l hl
    rw [d.joined]
    exact List.mem_append_left _ hl
  have hne := h.spelling_ne_nil
  obtain ⟨hshort, hequal⟩ := separated_shortest d.parts
    (fun p hp l hl => hne l (hgap p hp l hl))
    (fun p hp l hl => h.terminator_eq l (hgap p hp l hl)) d.parted
  have hs : s.length = (spelled d.lead).length + (spelled (d.parts.flatMap Part.row)).length := by
    have hjoined := congrArg (fun row => (spelled row).length) d.joined
    rw [← h.spelled_eq]
    rw [spelled_append, List.length_append] at hjoined
    exact hjoined
  have hnone : d.lead = [] := by
    refine eq_nil_of_spelled (fun l hl => hne l (hlead l hl)) (List.length_eq_zero_iff.1 ?_)
    omega
  have hparts := hequal (by omega)
  have hjoined := d.joined
  rw [hnone, List.nil_append, hparts] at hjoined
  exact hjoined

/-! ## Statements split again -/

/-- Rows of statements are told apart by their texts. -/
theorem rows_eq_of_spelled {rows rows' : List (List Lexeme)} (h : ∀ r ∈ rows, IsStatementRow r)
    (h' : ∀ r ∈ rows', IsStatementRow r) (htext : rows.map spelled = rows'.map spelled) :
    rows = rows' := by
  induction rows generalizing rows' with
  | nil => exact (List.map_eq_nil_iff.1 htext.symm).symm
  | cons r rows ih =>
    cases rows' with
    | nil => cases htext
    | cons r' rows' =>
      obtain ⟨hr, h⟩ := List.forall_mem_cons.1 h
      obtain ⟨hr', h'⟩ := List.forall_mem_cons.1 h'
      obtain ⟨hfirst, hrest⟩ := List.cons_eq_cons.1 htext
      have hlexed := hr'.lexed
      rw [← hfirst] at hlexed
      rw [hr.lexed.eq hlexed, ih h h' hrest]

theorem lexed_of_statements {rows : List (List Lexeme)} (hrows : ∀ r ∈ rows, IsStatementRow r)
    (h : statements (";".intercalate (rows.map statementText)) = .ok (rows.map statementText)) :
    Lexed none (spelled (joinedRow rows)) (joinedRow rows) := by
  obtain ⟨ls, hls⟩ := lexemes_of_statements h
  obtain ⟨d⟩ := exists_division ls
  have hlexed : Lexed none (spelled (joinedRow rows)) ls := by
    rw [← toList_intercalate_statementText]
    exact ⟨_, hls⟩
  have htexts : (d.parts.map Part.statement).map spelled = rows.map spelled := by
    have hsame := Except.ok.inj ((d.statements_eq hls).symm.trans h)
    rw [← map_toList_statementText, ← map_toList_statementText, ← hsame, map_statementText]
  have hrow : ls = joinedRow (d.parts.map Part.statement) := by
    refine d.eq_joinedRow hlexed ?_
    rw [spelled_joinedRow, spelled_joinedRow, htexts]
  have hsame : d.parts.map Part.statement = rows := by
    refine rows_eq_of_spelled ?_ hrows htexts
    exact List.forall_mem_map.2 (d.isStatementRow hlexed)
  rwa [hrow, hsame] at hlexed

/-- A script is split into statements each of which is the one statement of its text, and which are
found again in their join if and only if none but the last ends in a sign. -/
theorem statements_rejoined_iff {script : String} {ss : List String}
    (h : statements script = .ok ss) :
    (∀ s ∈ ss, statements s = .ok [s]) ∧
      (statements (";".intercalate ss) = .ok ss ↔ ∀ s ∈ ss.dropLast, endsInSign s = false) := by
  obtain ⟨ls, hls⟩ := lexemes_of_statements h
  obtain ⟨d⟩ := exists_division ls
  have hss : ss = (d.parts.map Part.statement).map statementText := by
    rw [map_statementText]
    exact Except.ok.inj (h.symm.trans (d.statements_eq hls))
  have hrows : ∀ r ∈ d.parts.map Part.statement, IsStatementRow r :=
    List.forall_mem_map.2 (d.isStatementRow ⟨_, hls⟩)
  generalize d.parts.map Part.statement = rows at hss hrows
  subst hss
  have hstatements : ∀ r ∈ rows, IsStatement r := fun r hr => (hrows r hr).isStatement
  constructor
  · refine List.forall_mem_map.2 fun r hr => ?_
    have hlexemes : lexemes (statementText r).toList = .ok (joinedRow [r]) := by
      rw [joinedRow_single]
      exact lexemes_statementText (hrows r hr).lexed
    exact statements_of_joinedRow hlexemes (List.forall_mem_singleton.2 (hstatements r hr))
  · rw [← List.map_dropLast, List.forall_mem_map]
    have hsigns : (∀ r ∈ rows.dropLast, endsInSign (statementText r) = false) ↔
        ∀ r ∈ rows.dropLast, r.getLast?.any Lexeme.isSign = false := by
      refine forall₂_congr fun r hr => ?_
      rw [endsInSign_statementText (hrows r (List.dropLast_subset rows hr)).lexed]
    rw [hsigns, ← lexed_joinedRow_iff hrows]
    refine ⟨lexed_of_statements hrows, fun hlexed => ?_⟩
    obtain ⟨place, hlexed⟩ := hlexed
    rw [← toList_intercalate_statementText] at hlexed
    exact statements_of_joinedRow (lexemesFrom_place hlexed) hstatements

theorem statements_rejoined_names :
    statements "ALTER TABLE a DROP x;\n-- next\nALTER TABLE b DROP \x60y;\x60 ;" =
        .ok ["ALTER TABLE a DROP x", "ALTER TABLE b DROP \x60y;\x60"] ∧
      statements (";".intercalate ["ALTER TABLE a DROP x", "ALTER TABLE b DROP \x60y;\x60"]) =
        .ok ["ALTER TABLE a DROP x", "ALTER TABLE b DROP \x60y;\x60"] := by
  have hsplit : statements "ALTER TABLE a DROP x;\n-- next\nALTER TABLE b DROP \x60y;\x60 ;" =
      .ok ["ALTER TABLE a DROP x", "ALTER TABLE b DROP \x60y;\x60"] := by
    decide +kernel
  exact ⟨hsplit, (statements_rejoined_iff hsplit).2.2 (by decide +kernel)⟩

/-- A sign at the end of a statement takes the semicolon with which the next one is joined to it. -/
theorem statements_rejoined_sign :
    statements "@ ;a" = .ok ["@", "a"] ∧ statements (";".intercalate ["@", "a"]) = .ok ["@;a"] := by
  decide +kernel

end SafeAlter.Sql
