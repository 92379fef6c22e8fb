import Mathlib.Data.List.Basic
import SafeAlter.Proofs.Sql.Lexing
import SafeAlter.Proofs.Sql.Places

/-! # Scripts divided into statements

The lexemes of a script are a lead, and then parts: each a statement and the gap behind it. Lead and
gaps hold blank lexemes and terminators only, a statement starts and ends with lexemes of another
kind and holds no terminator, and a gap holds one unless it is the last. Every script can be divided
so, and however it is divided, its statements are those that the script is split into: nothing is
lost and nothing is added.
-/
namespace SafeAlter.Sql

/-- A lexeme that can stand between two statements. -/
def Lexeme.isBetween (l : Lexeme) : Bool := l.isBlank || l.isTerminator

def IsGap (ls : List Lexeme) : Prop := ∀ l ∈ ls, l.isBetween = true

def HasTerminator (ls : List Lexeme) : Prop := ∃ l ∈ ls, l.isTerminator = true

structure IsStatement (ls : List Lexeme) : Prop where
  starts : ls.head?.any Lexeme.isBetween = false
  ends : ls.getLast?.any Lexeme.isBetween = false
  ne_nil : ls ≠ []
  whole : ¬HasTerminator ls

/-- A statement and the gap behind it. -/
structure Part where
  statement : List Lexeme
  gap : List Lexeme

def Part.row (p : Part) : List Lexeme := p.statement ++ p.gap

structure Division (ls : List Lexeme) where
  lead : List Lexeme
  parts : List Part
  joined : ls = lead ++ parts.flatMap Part.row
  lead_isGap : IsGap lead
  isStatement : ∀ p ∈ parts, IsStatement p.statement
  isGap : ∀ p ∈ parts, IsGap p.gap
  parted : ∀ p ∈ parts.dropLast, HasTerminator p.gap

/-! ## Every row of lexemes can be divided -/

theorem IsGap.cons {l : Lexeme} {ls : List Lexeme} (hl : l.isBetween = true) (h : IsGap ls) :
    IsGap (l :: ls) := by
  intro m hm
  rcases List.mem_cons.1 hm with rfl | hm
  · exact hl
  · exact h m hm

theorem not_isTerminator_of_solid {l : Lexeme} (h : l.isBetween = false) :
    l.isTerminator = false := by
  simp only [Lexeme.isBetween, Bool.or_eq_false_iff] at h
  exact h.2

theorem IsStatement.single {l : Lexeme} (h : l.isBetween = false) : IsStatement [l] where
  starts := h
  ends := h
  ne_nil := List.cons_ne_nil l []
  whole := by
    rintro ⟨m, hm, hterminator⟩
    rw [List.mem_singleton.1 hm, not_isTerminator_of_solid h] at hterminator
    cases hterminator

theorem IsStatement.last {ls : List Lexeme} (h : IsStatement ls) :
    ∃ front l, ls = front ++ [l] ∧ l.isBetween = false := by
  have hjoin := List.dropLast_concat_getLast h.ne_nil
  have hends := h.ends
  rw [← hjoin, List.getLast?_append, List.getLast?_singleton] at hends
  exact ⟨_, _, hjoin.symm, hends⟩

/-- A statement may begin earlier, where no terminator stands in between. -/
theorem IsStatement.extended {l : Lexeme} {g s : List Lexeme} (h : IsStatement s)
    (hl : l.isBetween = false) (hg : ¬HasTerminator g) : IsStatement (l :: (g ++ s)) where
  starts := hl
  ends := by
    obtain ⟨front, m, rfl, hm⟩ := h.last
    rw [← List.append_assoc, ← List.cons_append, List.getLast?_append, List.getLast?_singleton]
    exact hm
  ne_nil := List.cons_ne_nil l _
  whole := by
    rintro ⟨m, hm, hterminator⟩
    rcases List.mem_cons.1 hm with rfl | hm
    · rw [not_isTerminator_of_solid hl] at hterminator
      cases hterminator
    · rcases List.mem_append.1 hm with hm | hm
      · exact hg ⟨m, hm, hterminator⟩
      · exact h.whole ⟨m, hm, hterminator⟩

/-- A lexeme in front of a divided row belongs to the lead, starts a statement of its own, or makes
the first statement longer. -/
theorem Division.cons {ls : List Lexeme} (d : Division ls) (l : Lexeme) :
    Nonempty (Division (l :: ls)) := by
  obtain ⟨lead, parts, hjoined, hlead, hstatement, hgap, hparted⟩ := d
  by_cases hl : l.isBetween = true
  · exact ⟨⟨l :: lead, parts, by rw [hjoined, List.cons_append], hlead.cons hl, hstatement, hgap,
      hparted⟩⟩
  rw [Bool.not_eq_true] at hl
  have halone : parts = [] ∨ HasTerminator lead → Nonempty (Division (l :: ls)) := by
    intro hsplit
    refine ⟨⟨[], ⟨[l], lead⟩ :: parts, by rw [hjoined]; rfl, nofun, ?_, ?_, ?_⟩⟩
    · exact List.forall_mem_cons.2 ⟨.single hl, hstatement⟩
    · exact List.forall_mem_cons.2 ⟨hlead, hgap⟩
    · rcases hsplit with rfl | hterminator
      · nofun
      · cases parts with
        | nil => nofun
        | cons p ps => exact List.forall_mem_cons.2 ⟨hterminator, hparted⟩
  by_cases hterminator : HasTerminator lead
  · exact halone (.inr hterminator)
  cases parts with
  | nil => exact halone (.inl rfl)
  | cons p ps =>
    have hp := (hstatement p List.mem_cons_self).extended hl hterminator
    refine ⟨⟨[], ⟨l :: (lead ++ p.statement), p.gap⟩ :: ps, ?_, nofun, ?_, ?_, ?_⟩⟩
    · rw [hjoined]
      simp [Part.row]
    · exact List.forall_mem_cons.2 ⟨hp, (List.forall_mem_cons.1 hstatement).2⟩
    · exact List.forall_mem_cons.2 (List.forall_mem_cons.1 hgap)
    · cases ps with
      | nil => nofun
      | cons q qs => exact List.forall_mem_cons.2 (List.forall_mem_cons.1 hparted)

theorem exists_division (ls : List Lexeme) : Nonempty (Division ls) := by
  induction ls with
  | nil => exact ⟨⟨[], [], rfl, nofun, nofun, nofun, nofun⟩⟩
  | cons l ls ih =>
    obtain ⟨d⟩ := ih
    exact d.cons l

/-! ## The spans of a divided row -/

section
variable {offset : Nat} {begun : Option Span} {l : Lexeme} {ls : List Lexeme}
  {rest : List PlacedLexeme}

theorem statementSpans_blank (h : l.isBlank = true) :
    statementSpans begun (placedAt offset (l :: ls) ++ rest) =
      statementSpans begun (placedAt (offset + byteLength l.spelling) ls ++ rest) := by
  have hkind : l.kind = .blank := eq_of_beq h
  rw [placedAt, List.cons_append, statementSpans, hkind]

theorem statementSpans_terminator (h : l.isTerminator = true) :
    statementSpans begun (placedAt offset (l :: ls) ++ rest) =
      begun.toList ++
        statementSpans none (placedAt (offset + byteLength l.spelling) ls ++ rest) := by
  have hkind : l.kind = .terminator := eq_of_beq h
  rw [placedAt, List.cons_append, statementSpans, hkind]

theorem statementSpans_solid (h : l.isBetween = false) :
    statementSpans begun (placedAt offset (l :: ls) ++ rest) =
      statementSpans (some ⟨(begun.map Span.start).getD offset, offset + byteLength l.spelling⟩)
        (placedAt (offset + byteLength l.spelling) ls ++ rest) := by
  rw [placedAt, List.cons_append, statementSpans]
  split
  · next hkind =>
    have hkind : l.kind = .terminator := hkind
    simp [Lexeme.isBetween, Lexeme.isTerminator, hkind] at h
  · next hkind =>
    have hkind : l.kind = .blank := hkind
    simp [Lexeme.isBetween, Lexeme.isBlank, hkind] at h
  · rfl

/-- A gap ends a statement that has begun if it holds a terminator. -/
theorem statementSpans_gap {g : List Lexeme} (h : IsGap g) (offset : Nat) (begun : Option Span)
    (rest : List PlacedLexeme) :
    (HasTerminator g → statementSpans begun (placedAt offset g ++ rest) =
        begun.toList ++ statementSpans none rest) ∧
      (¬HasTerminator g → statementSpans begun (placedAt offset g ++ rest) =
        statementSpans begun rest) := by
  induction g generalizing offset begun with
  | nil => exact ⟨nofun, fun _ => rfl⟩
  | cons l g ih =>
    obtain ⟨hl, hg⟩ := List.forall_mem_cons.1 h
    have ih := ih hg (offset + byteLength l.spelling)
    by_cases hterminator : l.isTerminator = true
    · refine ⟨fun _ => ?_, fun hnone => absurd ⟨l, List.mem_cons_self, hterminator⟩ hnone⟩
      rw [statementSpans_terminator hterminator]
      by_cases hmore : HasTerminator g
      · rw [(ih none).1 hmore]
        rfl
      · rw [(ih none).2 hmore]
    · have hblank : l.isBlank = true := by
        simpa [Lexeme.isBetween, hterminator] using hl
      have htail : HasTerminator (l :: g) ↔ HasTerminator g := by
        simp [HasTerminator, hterminator]
      rw [htail, statementSpans_blank hblank]
      exact ih begun

theorem statementSpans_lead {g : List Lexeme} (h : IsGap g) (offset : Nat)
    (rest : List PlacedLexeme) :
    statementSpans none (placedAt offset g ++ rest) = statementSpans none rest := by
  by_cases hterminator : HasTerminator g
  · exact (statementSpans_gap h offset none rest).1 hterminator
  · exact (statementSpans_gap h offset none rest).2 hterminator

/-- Within a statement only the end of its span moves. -/
theorem statementSpans_within (h : ¬HasTerminator ls) (start stop offset : Nat)
    (rest : List PlacedLexeme) :
    ∃ stop', statementSpans (some ⟨start, stop⟩) (placedAt offset ls ++ rest) =
      statementSpans (some ⟨start, stop'⟩) rest := by
  induction ls generalizing stop offset with
  | nil => exact ⟨stop, rfl⟩
  | cons l ls ih =>
    have hls : ¬HasTerminator ls := by
      rintro ⟨m, hm, hterminator⟩
      exact h ⟨m, List.mem_cons_of_mem l hm, hterminator⟩
    by_cases hl : l.isBetween = true
    · have hblank : l.isBlank = true := by
        rw [Lexeme.isBetween, Bool.or_eq_true] at hl
        exact hl.resolve_right fun hterminator => h ⟨l, List.mem_cons_self, hterminator⟩
      rw [statementSpans_blank hblank]
      exact ih hls ..
    · rw [statementSpans_solid (Bool.not_eq_true _ ▸ hl)]
      exact ih hls ..

/-- The span of a statement reaches over all of its bytes. -/
theorem statementSpans_statement (h : IsStatement ls) (offset : Nat) (rest : List PlacedLexeme) :
    statementSpans none (placedAt offset ls ++ rest) =
      statementSpans (some ⟨offset, offset + byteLength (spelled ls)⟩) rest := by
  obtain ⟨front, m, rfl, hm⟩ := h.last
  cases front with
  | nil =>
    have hspelled : spelled [m] = m.spelling := List.append_nil _
    rw [List.nil_append, statementSpans_solid hm, hspelled]
    rfl
  | cons l mid =>
    have hl : l.isBetween = false := h.starts
    have hmid : ¬HasTerminator mid := by
      rintro ⟨k, hk, hterminator⟩
      exact h.whole ⟨k, by simp [hk], hterminator⟩
    have hend := placedAt_append (offset + byteLength l.spelling) mid [m]
    have hspelled : spelled (l :: (mid ++ [m])) = l.spelling ++ (spelled mid ++ m.spelling) := by
      simp [spelled]
    obtain ⟨stop, hstop⟩ := statementSpans_within hmid offset (offset + byteLength l.spelling)
      (offset + byteLength l.spelling)
      (placedAt (offset + byteLength l.spelling + byteLength (spelled mid)) [m] ++ rest)
    rw [List.cons_append, statementSpans_solid hl, hend, List.append_assoc]
    refine hstop.trans ?_
    rw [statementSpans_solid hm, hspelled, byteLength_append, byteLength_append]
    simp only [Nat.add_assoc]
    rfl

/-- The first part of a row has one span, which reaches over its statement. -/
theorem statementSpans_part {p : Part} {parts : List Part} (hp : IsStatement p.statement)
    (hg : IsGap p.gap) (hparted : parts ≠ [] → HasTerminator p.gap) (offset : Nat) :
    statementSpans none (placedAt offset (p.row ++ parts.flatMap Part.row)) =
      ⟨offset, offset + byteLength (spelled p.statement)⟩ ::
        statementSpans none
          (placedAt (offset + byteLength (spelled p.statement) + byteLength (spelled p.gap))
            (parts.flatMap Part.row)) := by
  rw [Part.row, List.append_assoc, placedAt_append, placedAt_append, statementSpans_statement hp]
  by_cases hterminator : HasTerminator p.gap
  · rw [(statementSpans_gap hg ..).1 hterminator]
    rfl
  · have hnone : parts = [] := by
      by_contra hne
      exact hterminator (hparted hne)
    rw [(statementSpans_gap hg ..).2 hterminator, hnone]
    rfl

end

/-- The spans of the parts of a text cut out their statements. -/
theorem cut_statementSpans (before : List Char) (parts : List Part)
    (hstatement : ∀ p ∈ parts, IsStatement p.statement) (hgap : ∀ p ∈ parts, IsGap p.gap)
    (hparted : ∀ p ∈ parts.dropLast, HasTerminator p.gap) :
    (statementSpans none (placedAt (byteLength before) (parts.flatMap Part.row))).map
        (·.cut (before ++ spelled (parts.flatMap Part.row))) =
      parts.map fun p => spelled p.statement := by
  induction parts generalizing before with
  | nil => rfl
  | cons p parts ih =>
    obtain ⟨hp, hstatement⟩ := List.forall_mem_cons.1 hstatement
    obtain ⟨hg, hgap⟩ := List.forall_mem_cons.1 hgap
    have hfirst : parts ≠ [] → HasTerminator p.gap := by
      intro hne
      rw [List.dropLast_cons_of_ne_nil hne] at hparted
      exact hparted p List.mem_cons_self
    have hothers : ∀ q ∈ parts.dropLast, HasTerminator q.gap := by
      cases parts with
      | nil => exact List.forall_mem_nil _
      | cons q qs => exact (List.forall_mem_cons.1 hparted).2
    have htext : before ++ spelled (p.row ++ parts.flatMap Part.row) =
        before ++ (spelled p.statement ++ (spelled p.gap ++ spelled (parts.flatMap Part.row))) := by
      rw [Part.row, spelled_append, spelled_append, List.append_assoc]
    have hrest := ih (before ++ spelled p.statement ++ spelled p.gap) hstatement hgap hothers
    simp only [byteLength_append, List.append_assoc] at hrest
    rw [List.flatMap_cons, statementSpans_part hp hg hfirst, List.map_cons, List.map_cons, htext,
      Span.cut_append, Nat.add_assoc, hrest]

/-- However a script is divided, its statements are those of the parts. -/
theorem Division.statements_eq {script : String} {ls : List Lexeme} (d : Division ls)
    (h : lexemes script.toList = .ok ls) :
    statements script = .ok (d.parts.map fun p => String.ofList (spelled p.statement)) := by
  obtain ⟨lead, parts, rfl, hlead, hstatement, hgap, hparted⟩ := d
  have htext : script.toList = spelled lead ++ spelled (parts.flatMap Part.row) := by
    rw [← spelled_lexemes h, spelled_append]
  have hcut := cut_statementSpans (spelled lead) parts hstatement hgap hparted
  have hspans : statementSpans none (placedAt 0 (lead ++ parts.flatMap Part.row)) =
      statementSpans none (placedAt (byteLength (spelled lead)) (parts.flatMap Part.row)) := by
    rw [placedAt_append, statementSpans_lead hlead, Nat.zero_add]
  have hof : statementsOf script.toList = .ok (parts.map fun p => spelled p.statement) := by
    rw [statementsOf, placedLexemes_eq h, ← hcut, ← htext, ← hspans]
    rfl
  rw [statements, hof]
  simp only [bind, Except.bind, pure, Except.pure, List.map_map]
  rfl

theorem lexemes_of_statements {script : String} {ss : List String}
    (h : statements script = .ok ss) : ∃ ls, lexemes script.toList = .ok ls := by
  cases hls : lexemes script.toList with
  | ok ls => exact ⟨ls, rfl⟩
  | error e =>
    rw [statements, statementsOf, placedLexemes, hls] at h
    cases h

theorem IsGap.filter_eq_nil {g : List Lexeme} (h : IsGap g) : g.filter (!·.isBetween) = [] := by
  refine List.filter_eq_nil_iff.2 fun l hl => ?_
  rw [h l hl]
  exact Bool.false_ne_true

/-- The statements of a script divide it: what stands around them is blank or a terminator, one of
these stands between any two, and every other lexeme of the script is in one of them, in its order
and with its spelling. -/
theorem statements_divide {script : String} {ls : List Lexeme}
    (h : lexemes script.toList = .ok ls) :
    ∃ d : Division ls,
      statements script = .ok (d.parts.map fun p => String.ofList (spelled p.statement)) ∧
      script.toList = spelled d.lead ++
        d.parts.flatMap (fun p => spelled p.statement ++ spelled p.gap) ∧
      (∀ p ∈ d.parts, spelled p.statement ≠ []) ∧
      ls.filter (!·.isBetween) = d.parts.flatMap fun p => p.statement.filter (!·.isBetween) := by
  obtain ⟨d⟩ := exists_division ls
  refine ⟨d, d.statements_eq h, ?_, ?_, ?_⟩
  · have htext := spelled_lexemes h
    have hparts : spelled (d.parts.flatMap Part.row) =
        d.parts.flatMap fun p => spelled p.statement ++ spelled p.gap := by
      simp [spelled, Part.row, List.flatMap_assoc]
    have hjoined := congrArg spelled d.joined
    rw [← htext, hjoined, spelled_append, hparts]
  · intro p hp hempty
    obtain ⟨front, l, hfront, -⟩ := (d.isStatement p hp).last
    have hmem : l ∈ ls := by
      rw [d.joined]
      refine List.mem_append_right _ (List.mem_flatMap.2 ⟨p, hp, ?_⟩)
      simp [Part.row, hfront]
    have hspelling : l.spelling = [] := by
      simp only [spelled, List.flatMap_eq_nil_iff] at hempty
      exact hempty l (by simp [hfront])
    exact Lexed.spelling_ne_nil ⟨_, h⟩ l hmem hspelling
  · have hjoined := congrArg (List.filter (!·.isBetween)) d.joined
    rw [hjoined, List.filter_append, d.lead_isGap.filter_eq_nil, List.nil_append,
      List.filter_flatMap]
    refine List.flatMap_congr fun p hp => ?_
    rw [Part.row, List.filter_append, (d.isGap p hp).filter_eq_nil, List.append_nil]

def commentedScript : String :=
  "-- from ticket 7;\n;ALTER TABLE \x60ä;\x60 ADD c TEXT COMMENT 'a;\nb' /* ; */ ;; \n" ++
    "ALTER TABLE t -- 日本\n DROP x -- last"

theorem statements_divide_commented :
    ∃ ls, lexemes commentedScript.toList = .ok ls ∧ ∃ d : Division ls,
      statements commentedScript =
        .ok (d.parts.map fun p => String.ofList (spelled p.statement)) ∧
      (d.parts.map fun p => String.ofList (spelled p.statement)) =
        ["ALTER TABLE \x60ä;\x60 ADD c TEXT COMMENT 'a;\nb'", "ALTER TABLE t -- 日本\n DROP x"] ∧
      ls.filter (!·.isBetween) = d.parts.flatMap fun p => p.statement.filter (!·.isBetween) := by
  have hstatements : statements commentedScript =
      .ok ["ALTER TABLE \x60ä;\x60 ADD c TEXT COMMENT 'a;\nb'",
        "ALTER TABLE t -- 日本\n DROP x"] := by
    decide +kernel
  obtain ⟨ls, hls⟩ := lexemes_of_statements hstatements
  obtain ⟨d, hd, -, -, hsolid⟩ := statements_divide hls
  have hparts := hd.symm.trans hstatements
  exact ⟨ls, hls, d, hd, Except.ok.inj hparts, hsolid⟩

end SafeAlter.Sql
