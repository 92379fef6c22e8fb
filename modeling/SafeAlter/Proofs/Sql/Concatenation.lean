import SafeAlter.Proofs.Sql.LineFeed
import SafeAlter.Proofs.Sql.Rejoined

/-! # Scripts one after another

Two divided rows of lexemes with a gap between them that holds a terminator are divided together,
into the statements of the first and those of the second. So a script can be put behind another one
with a line feed and a semicolon between them, and is split into the statements of both, unless the
first ends in a sign, whose statement then takes the line feed.
-/
namespace SafeAlter.Sql

/-- The statements of a row of lexemes. -/
def DividesInto (ls : List Lexeme) (rows : List (List Lexeme)) : Prop :=
  ∃ d : Division ls, d.parts.map Part.statement = rows

section
variable {ls ms gap : List Lexeme} {rows rows' : List (List Lexeme)}

theorem exists_dividesInto (ls : List Lexeme) : ∃ rows, DividesInto ls rows := by
  obtain ⟨d⟩ := exists_division ls
  exact ⟨_, d, rfl⟩

theorem DividesInto.statements_eq {script : String} (h : DividesInto ls rows)
    (hls : lexemes script.toList = .ok ls) : statements script = .ok (rows.map statementText) := by
  obtain ⟨d, rfl⟩ := h
  rw [d.statements_eq hls, map_statementText]

theorem IsGap.append {g : List Lexeme} (h : IsGap g) (h' : IsGap gap) : IsGap (g ++ gap) :=
  List.forall_mem_append.2 ⟨h, h'⟩

theorem HasTerminator.append_left {g : List Lexeme} (h : HasTerminator gap) :
    HasTerminator (g ++ gap) := by
  obtain ⟨l, hl, ht⟩ := h
  exact ⟨l, List.mem_append_right g hl, ht⟩

theorem HasTerminator.append_right {g : List Lexeme} (h : HasTerminator gap) :
    HasTerminator (gap ++ g) := by
  obtain ⟨l, hl, ht⟩ := h
  exact ⟨l, List.mem_append_left g hl, ht⟩

/-- A gap behind a divided row belongs to the last part, or to the lead if there is no part. -/
theorem Division.extend (d : Division ls) (hgap : IsGap gap) :
    ∃ f : Division (ls ++ gap), f.parts.map Part.statement = d.parts.map Part.statement ∧
      (HasTerminator gap → ∀ p ∈ f.parts, HasTerminator p.gap) := by
  obtain ⟨lead, parts, rfl, hlead, hstatement, hgaps, hparted⟩ := d
  rcases List.eq_nil_or_concat' parts with rfl | ⟨front, p, rfl⟩
  · exact ⟨⟨lead ++ gap, [], by simp, hlead.append hgap, nofun, nofun, nofun⟩, rfl, fun _ => nofun⟩
  obtain ⟨hfront, hp⟩ := List.forall_mem_append.1 hstatement
  obtain ⟨hfrontGaps, hpGap⟩ := List.forall_mem_append.1 hgaps
  rw [List.dropLast_concat] at hparted
  have hpGap : IsGap p.gap := hpGap p (List.mem_singleton_self p)
  refine ⟨⟨lead, front ++ [⟨p.statement, p.gap ++ gap⟩], by simp [Part.row], hlead, ?_, ?_, ?_⟩,
    by simp, fun hterminator => ?_⟩
  · exact List.forall_mem_append.2
      ⟨hfront, List.forall_mem_singleton.2 (hp p (List.mem_singleton_self p))⟩
  · exact List.forall_mem_append.2 ⟨hfrontGaps, List.forall_mem_singleton.2 (hpGap.append hgap)⟩
  · rwa [List.dropLast_concat]
  · exact List.forall_mem_append.2
      ⟨hparted, List.forall_mem_singleton.2 hterminator.append_left⟩

theorem DividesInto.append_gap (h : DividesInto ls rows) (hgap : IsGap gap) :
    DividesInto (ls ++ gap) rows := by
  obtain ⟨d, rfl⟩ := h
  obtain ⟨f, hf, -⟩ := d.extend hgap
  exact ⟨f, hf⟩

/-- The lead of the second row goes to the gap in front of it. -/
theorem DividesInto.append (h : DividesInto ls rows) (hgap : IsGap gap)
    (hterminator : HasTerminator gap) (h' : DividesInto ms rows') :
    DividesInto (ls ++ gap ++ ms) (rows ++ rows') := by
  obtain ⟨d, rfl⟩ := h
  obtain ⟨e, rfl⟩ := h'
  obtain ⟨f, hrows, hall⟩ := d.extend (hgap.append e.lead_isGap)
  have hall : ∀ p ∈ f.parts, HasTerminator p.gap := hall hterminator.append_right
  refine ⟨⟨f.lead, f.parts ++ e.parts, ?_, f.lead_isGap,
    List.forall_mem_append.2 ⟨f.isStatement, e.isStatement⟩,
    List.forall_mem_append.2 ⟨f.isGap, e.isGap⟩, ?_⟩, by rw [List.map_append, hrows]⟩
  · rw [List.flatMap_append, ← List.append_assoc, ← f.joined]
    conv_lhs => rw [e.joined]
    simp only [List.append_assoc]
  · by_cases hparts : e.parts = []
    · rw [hparts, List.append_nil]
      exact fun p hp => hall p (List.dropLast_subset f.parts hp)
    · rw [List.dropLast_append_of_ne_nil hparts]
      exact List.forall_mem_append.2 ⟨hall, e.parted⟩

/-- A statement may end later, where no terminator stands in between. -/
theorem IsStatement.continued {l : Lexeme} (h : IsStatement ls) (hl : l.isBetween = false)
    (hgap : ¬HasTerminator gap) : IsStatement (ls ++ gap ++ [l]) where
  starts := by
    rw [List.append_assoc, List.head?_append_of_ne_nil ls h.ne_nil]
    exact h.starts
  ends := by
    rw [List.getLast?_concat]
    exact hl
  ne_nil := by simp
  whole := by
    rintro ⟨m, hm, hterminator⟩
    rcases List.mem_append.1 hm with hm | hm
    · rcases List.mem_append.1 hm with hm | hm
      · exact h.whole ⟨m, hm, hterminator⟩
      · exact hgap ⟨m, hm, hterminator⟩
    · rw [List.mem_singleton.1 hm, not_isTerminator_of_solid hl] at hterminator
      cases hterminator

/-- What stands in a row tells where a lexeme behind it belongs that is no gap: it starts a
statement or makes the last one longer. -/
theorem exists_dividesInto_concat (ls : List Lexeme) :
    ∃ rows row, ∀ l : Lexeme, l.isBetween = false →
      DividesInto (ls ++ [l]) (rows ++ [row ++ [l]]) := by
  obtain ⟨lead, parts, rfl, hlead, hstatement, hgaps, hparted⟩ := exists_division ls
  have halone : (∀ p ∈ parts, HasTerminator p.gap) → ∀ l : Lexeme, l.isBetween = false →
      DividesInto (lead ++ parts.flatMap Part.row ++ [l])
        (parts.map Part.statement ++ [[] ++ [l]]) := by
    intro hall l hl
    refine ⟨⟨lead, parts ++ [⟨[l], []⟩], by simp [Part.row], hlead, ?_, ?_, ?_⟩, by simp⟩
    · exact List.forall_mem_append.2 ⟨hstatement, List.forall_mem_singleton.2 (.single hl)⟩
    · exact List.forall_mem_append.2 ⟨hgaps, List.forall_mem_singleton.2 (List.forall_mem_nil _)⟩
    · rwa [List.dropLast_concat]
  rcases List.eq_nil_or_concat' parts with rfl | ⟨front, p, rfl⟩
  · exact ⟨_, _, halone (List.forall_mem_nil _)⟩
  rw [List.dropLast_concat] at hparted
  by_cases hterminator : HasTerminator p.gap
  · have hall := List.forall_mem_append.2 ⟨hparted, List.forall_mem_singleton.2 hterminator⟩
    exact ⟨_, _, halone hall⟩
  obtain ⟨hfront, hp⟩ := List.forall_mem_append.1 hstatement
  have hp : IsStatement p.statement := hp p (List.mem_singleton_self p)
  refine ⟨front.map Part.statement, p.statement ++ p.gap, fun l hl => ?_⟩
  refine ⟨⟨lead, front ++ [⟨p.statement ++ p.gap ++ [l], []⟩], by simp [Part.row], hlead,
    ?_, ?_, ?_⟩, by simp⟩
  · exact List.forall_mem_append.2
      ⟨hfront, List.forall_mem_singleton.2 (hp.continued hl hterminator)⟩
  · exact List.forall_mem_append.2
      ⟨(List.forall_mem_append.1 hgaps).1, List.forall_mem_singleton.2 (List.forall_mem_nil _)⟩
  · rwa [List.dropLast_concat]

end

/-! ## The statements of two scripts -/

/-- What the line feed becomes is blank and belongs to the gap, unless there is a sign in front of
it. -/
theorem LineFed.dividesInto {more ls ls' : List Lexeme} {rows' : List (List Lexeme)}
    (h : LineFed more ls ls') (hmore : DividesInto more rows') :
    (ls.getLast?.any Lexeme.isSign = false ∧
        ∃ rows, DividesInto ls rows ∧ DividesInto ls' (rows ++ rows')) ∨
      (ls.getLast?.any Lexeme.isSign = true ∧ ∃ rows row sign,
        DividesInto ls (rows ++ [row ++ [⟨.other, sign⟩]]) ∧
        DividesInto ls' (rows ++ [row ++ [⟨.word false, sign ++ ['\n']⟩]] ++ rows')) := by
  have hgap : ∀ text : List Char, IsGap [⟨.blank, text⟩, semicolon] := fun text =>
    List.forall_mem_cons.2 ⟨rfl, List.forall_mem_singleton.2 rfl⟩
  have hsemicolon : ∀ g : List Lexeme, HasTerminator (g ++ [semicolon]) := fun g =>
    ⟨semicolon, List.mem_append_right g (List.mem_singleton_self _), rfl⟩
  cases h with
  | apart hls =>
    obtain ⟨rows, hrows⟩ := exists_dividesInto ls
    have hall := hrows.append (hgap ['\n']) (hsemicolon [_]) hmore
    rw [List.append_assoc] at hall
    exact .inl ⟨hls, rows, hrows, hall⟩
  | taken front text =>
    obtain ⟨rows, hrows⟩ := exists_dividesInto front
    have hall := hrows.append (hgap (text ++ ['\n'])) (hsemicolon [_]) hmore
    rw [List.append_assoc] at hall
    refine .inl ⟨?_, rows, hrows.append_gap (List.forall_mem_singleton.2 rfl), hall⟩
    rw [List.getLast?_concat]
    rfl
  | @joined front sign hs =>
    obtain ⟨rows, row, hconcat⟩ := exists_dividesInto_concat front
    have hword := hconcat ⟨.word false, sign ++ ['\n']⟩ rfl
    have hall := hword.append (List.forall_mem_singleton.2 rfl) (hsemicolon []) hmore
    rw [List.append_assoc, List.append_assoc] at hall
    refine .inr ⟨?_, rows, row, sign, hconcat ⟨.other, sign⟩ rfl, hall⟩
    rw [List.getLast?_concat]
    rcases hs with rfl | rfl <;> rfl

theorem statementText_concat (row : List Lexeme) (kind kind' : LexemeKind) (text more : List Char) :
    statementText (row ++ [⟨kind', text ++ more⟩]) =
      statementText (row ++ [⟨kind, text⟩]) ++ String.ofList more := by
  simp [statementText, spelled, String.append_assoc]

/-- A script with a line feed, a semicolon and another script behind it is split into the statements
of both, if and only if it does not end in a sign. Otherwise the line feed goes to the statement
that ends in the sign, and all other statements stay as they are. -/
theorem statements_lineFeed_iff {a b : String} {xs ys : List String} (ha : statements a = .ok xs)
    (hb : statements b = .ok ys) :
    (statements (a ++ "\n;" ++ b) = .ok (xs ++ ys) ↔ endsInSign a = false) ∧
      (endsInSign a = true → ∃ front last, xs = front ++ [last] ∧
        statements (a ++ "\n;" ++ b) = .ok (front ++ [last ++ "\n"] ++ ys)) := by
  obtain ⟨ls, hls⟩ := lexemes_of_statements ha
  obtain ⟨ms, hms⟩ := lexemes_of_statements hb
  obtain ⟨rows', hrows'⟩ := exists_dividesInto ms
  obtain rfl : ys = rows'.map statementText :=
    Except.ok.inj (hb.symm.trans (hrows'.statements_eq hms))
  have htext : (a ++ "\n;" ++ b).toList = a.toList ++ '\n' :: ';' :: b.toList := by
    rw [String.toList_append, String.toList_append, List.append_assoc]
    rfl
  obtain ⟨ls', ⟨place, hlexed⟩, hfed⟩ := Lexed.lineFed ⟨_, hls⟩ ⟨_, hms⟩
  have hls' : lexemes (a ++ "\n;" ++ b).toList = .ok ls' := by
    rw [htext]
    exact lexemesFrom_place hlexed
  have hends : endsInSign a = ls.getLast?.any Lexeme.isSign := by rw [endsInSign, hls]
  rcases hfed.dividesInto hrows' with
    ⟨hsign, rows, hrows, hall⟩ | ⟨hsign, rows, row, sign, hrows, hall⟩
  · have hxs := Except.ok.inj (ha.symm.trans (hrows.statements_eq hls))
    have hboth := hall.statements_eq hls'
    rw [List.map_append, ← hxs] at hboth
    rw [hends, hsign]
    exact ⟨iff_of_true hboth rfl, fun h => absurd h Bool.false_ne_true⟩
  · have hxs := Except.ok.inj (ha.symm.trans (hrows.statements_eq hls))
    have hboth := hall.statements_eq hls'
    rw [List.map_append, List.map_singleton] at hxs
    rw [List.map_append, List.map_append, List.map_singleton,
      statementText_concat row .other (.word false) sign ['\n']] at hboth
    rw [hends, hsign, hboth, hxs]
    refine ⟨iff_of_false (fun heq => ?_) Bool.noConfusion, fun _ => ⟨_, _, rfl, rfl⟩⟩
    have hrow := List.append_cancel_left (List.append_cancel_right (Except.ok.inj heq))
    have hlength := congrArg String.length (List.singleton_inj.1 hrow)
    rw [String.length_append, String.length_ofList, List.length_singleton] at hlength
    exact Nat.succ_ne_self _ hlength

/-- The line feed closes a comment at the end of the first script. -/
theorem statements_lineFeed_comment :
    let a := "ALTER TABLE a DROP x; ALTER TABLE b ADD c INT -- last; of two"
    let b := ";ALTER TABLE \x60@;\x60 DROP y;"
    statements a = .ok ["ALTER TABLE a DROP x", "ALTER TABLE b ADD c INT"] ∧
      statements b = .ok ["ALTER TABLE \x60@;\x60 DROP y"] ∧
      statements (a ++ "\n;" ++ b) =
        .ok (["ALTER TABLE a DROP x", "ALTER TABLE b ADD c INT"] ++
          ["ALTER TABLE \x60@;\x60 DROP y"]) := by
  intro a b
  have ha : statements a = .ok ["ALTER TABLE a DROP x", "ALTER TABLE b ADD c INT"] := by
    decide +kernel
  have hb : statements b = .ok ["ALTER TABLE \x60@;\x60 DROP y"] := by decide +kernel
  exact ⟨ha, hb, (statements_lineFeed_iff ha hb).1.2 (by decide +kernel)⟩

/-- A sign at the end of the first script takes the line feed. -/
theorem statements_lineFeed_sign :
    statements "@" = .ok ["@"] ∧ statements "a" = .ok ["a"] ∧
      statements ("@" ++ "\n;" ++ "a") = .ok ["@\n", "a"] := by
  decide +kernel

end SafeAlter.Sql
