import SafeAlter.Proofs.Sql.Division
import SafeAlter.Proofs.Sql.Lookahead

/-! # Lexemes read again

A part of a text is read again by itself. Where it starts behind a lexeme that is neither a word nor
a period, and ends in front of one that can stand between statements, it has the lexemes again that
it has in the whole text. Two such texts with a semicolon between them have the lexemes of both,
unless the first ends in a line comment that goes on or in a sign, which takes the semicolon.
-/
namespace SafeAlter.Sql
open SafeAlter.Text

/-! ## The lexeme in front -/

/-- What comes next is read as at the start of a text. -/
def StartsAfresh (previous : Option LexemeKind) : Prop :=
  previous.any isWord = false ∧ previous ≠ some .period

theorem nextCut_afresh {previous : Option LexemeKind} (h : StartsAfresh previous) (c : Char)
    (s : List Char) : nextCut previous c s = nextCut none c s := by
  obtain ⟨hword, hperiod⟩ := h
  have hne : (previous == some LexemeKind.period) = false := beq_eq_false_iff_ne.2 hperiod
  have hnone : ((none : Option LexemeKind) == some LexemeKind.period) = false := rfl
  have hdigits : periodCut previous s = periodCut none s := by
    simp only [periodCut, hword, hne, hnone, Option.any_none]
  simp only [nextCut, hdigits, hne, hnone]

section
variable {previous : Option LexemeKind} {c : Char} {s t : List Char} {k : Cut} {l : Lexeme}
  {ls ms : List Lexeme}

theorem Lexed.of_afresh (hp : StartsAfresh previous) (h : Lexed previous s ls) :
    Lexed none s ls := by
  cases s with
  | nil =>
    rw [h.eq_nil]
    exact .nil
  | cons c s =>
    obtain ⟨k, rest, hk, rfl, hrest⟩ := h.of_cons
    rw [nextCut_afresh hp] at hk
    exact .cons hk hrest

theorem Lexed.afresh (hp : StartsAfresh previous) (h : Lexed none s ls) :
    Lexed previous s ls := by
  cases s with
  | nil =>
    rw [h.eq_nil]
    exact .nil
  | cons c s =>
    obtain ⟨k, rest, hk, rfl, hrest⟩ := h.of_cons
    rw [← nextCut_afresh hp] at hk
    exact .cons hk hrest

theorem Lexeme.isBetween_iff : l.isBetween = true ↔ l.kind = .blank ∨ l.kind = .terminator := by
  simp [isBetween, isBlank, isTerminator]

theorem startsAfresh_of_isBetween (h : l.isBetween = true) : StartsAfresh (some l.kind) := by
  rcases Lexeme.isBetween_iff.1 h with hk | hk <;> rw [hk] <;> exact ⟨rfl, nofun⟩

theorem Lexed.eq (h : Lexed previous s ls) (h' : Lexed previous s ms) : ls = ms := by
  obtain ⟨place, h⟩ := h
  obtain ⟨place', h'⟩ := h'
  exact Except.ok.inj ((lexemesFrom_place h).symm.trans h')

/-! ## The lexeme behind -/

theorem quotedCut_kind {quote : Char} (h : quotedCut quote s = .ok k) :
    k.kind = .word true ∨ k.kind = .other := by
  unfold quotedCut at h
  split at h
  · split at h
    · cases h
      exact .inl rfl
    · cases h
  · exact .inr (stringCut_kind h)

theorem standsOff_of_isBlank (hc : c.toNat < 0x80) (hb : Text.isBlank c = true) (s : List Char) :
    StandsOff (c :: s) := by
  have hfacts : Text.isBlank c = true →
      isNamePart c = false ∧ c ∉ ['\x27', '\x22', '\x60', '.', '+'] ∧ c ≠ '-' :=
    holds_of_toNat_lt hc (by decide +kernel)
  obtain ⟨hname, hmark, hne⟩ := hfacts hb
  exact .cons hname hmark s fun h => absurd h hne

theorem CommentCut.standsOff (h : CommentCut c s k) (hk : k.kind = .blank) :
    StandsOff (c :: s) := by
  cases h with
  | line hline =>
    rcases hline with rfl | ⟨rfl, t, rfl⟩
    · exact .cons rfl (by decide) s nofun
    · exact .cons rfl (by decide) _ fun _ => rfl
  | closed hc =>
    subst hc
    exact .cons rfl (by decide) s nofun
  | other => cases hk

/-- What can stand between statements stands off from what is in front of it. -/
theorem nextCut_between (h : nextCut previous c s = .ok k)
    (hk : k.kind = .blank ∨ k.kind = .terminator) :
    StandsOff (c :: s) ∧ (k.kind = .terminator → k.piece.1 = [';']) := by
  cases nextCut_cases h with
  | lineEnd hc =>
    subst hc
    exact ⟨.cons rfl (by decide) s nofun, nofun⟩
  | blank hsmall hc => exact ⟨standsOff_of_isBlank hsmall hc s, nofun⟩
  | quoted hq =>
    rcases quotedCut_kind hq with hq | hq <;> rw [hq] at hk <;> rcases hk with hk | hk <;> cases hk
  | numeric hnumeric =>
    rcases hk with hk | hk <;> rw [hk] at hnumeric <;> cases hnumeric
  | period => rcases hk with hk | hk <;> cases hk
  | terminator hc =>
    subst hc
    exact ⟨.cons rfl (by decide) s nofun, fun _ => rfl⟩
  | comment hcomment =>
    rcases hcomment.blank_or_other with ⟨hb, -⟩ | ho
    · refine ⟨hcomment.standsOff hb, fun ht => ?_⟩
      rw [hb] at ht
      cases ht
    · rw [ho] at hk
      rcases hk with hk | hk <;> cases hk

theorem Lexed.head_between (h : Lexed previous s (l :: ls)) (hl : l.isBetween = true) :
    StandsOff s ∧ (l.isTerminator = true → l = ⟨.terminator, [';']⟩) := by
  obtain ⟨c, t, k, rfl, hk, rfl, -, -⟩ := h.head_cut
  obtain ⟨hoff, hspelling⟩ := nextCut_between hk (Lexeme.isBetween_iff.1 hl)
  refine ⟨hoff, fun ht => ?_⟩
  have hkind : k.kind = .terminator := eq_of_beq ht
  rw [hkind, hspelling hkind]

theorem Lexed.terminator_eq (h : Lexed previous s ls) :
    ∀ l ∈ ls, l.isTerminator = true → l = ⟨.terminator, [';']⟩ := by
  induction ls generalizing previous s with
  | nil => nofun
  | cons l ls ih =>
    refine List.forall_mem_cons.2 ⟨fun hl => ?_, ih h.tail⟩
    have hbetween : l.isBetween = true := by
      rw [Lexeme.isBetween, hl, Bool.or_true]
    exact (h.head_between hbetween).2 hl

/-- A row of lexemes in front of what can stand between statements is read again by itself. -/
theorem Lexed.of_append_left (h : Lexed previous s (ls ++ ms))
    (hms : ∀ m ∈ ms.head?, m.isBetween = true) : Lexed previous (spelled ls) ls := by
  have hoff : StandsOff (spelled ms) := by
    obtain ⟨kind, hrest⟩ := h.of_append
    cases ms with
    | nil => exact .nil
    | cons m ms => exact (hrest.head_between (hms m rfl)).1
  induction ls generalizing previous s with
  | nil => exact .nil
  | cons l ls ih =>
    rw [List.cons_append] at h
    obtain ⟨c, u, k, rfl, hk, rfl, hrest, htail⟩ := h.head_cut
    obtain ⟨hjoin, hne⟩ := nextCut_join hk
    obtain ⟨d, text, htext⟩ := List.exists_cons_of_ne_nil hne
    rw [htext, hrest, spelled_append, List.cons_append] at hjoin
    obtain ⟨rfl, rfl⟩ := List.cons_eq_cons.1 hjoin
    have hcut : nextCut previous d (text ++ spelled ls) =
        .ok ⟨k.kind, (k.piece.1, spelled ls)⟩ := by
      refine nextCut_of_append hoff ?_
      rw [List.append_assoc, hk, Cut.followedBy, Piece.followedBy, ← spelled_append, ← hrest]
    have hspelled : spelled (⟨k.kind, k.piece.1⟩ :: ls) = d :: (text ++ spelled ls) := by
      rw [spelled_cons, htext]
      rfl
    rw [hspelled]
    exact .cons (k := ⟨k.kind, (k.piece.1, spelled ls)⟩) hcut (ih htail)

/-- What stands behind a gap is read again by itself. -/
theorem Lexed.of_append_right (h : Lexed previous s (ls ++ ms)) (hls : IsGap ls)
    (hne : ls ≠ []) : Lexed none (spelled ms) ms := by
  induction ls generalizing previous s with
  | nil => exact absurd rfl hne
  | cons l ls ih =>
    have htail := h.tail
    by_cases hnil : ls = []
    · subst hnil
      exact htail.of_afresh (startsAfresh_of_isBetween (hls l List.mem_cons_self))
    · exact ih htail (List.forall_mem_cons.1 hls).2 hnil

/-! ## A semicolon added -/

/-- Two texts with a semicolon between them have the lexemes of both, unless the first ends in a
line comment that goes on or in a sign. -/
theorem Lexed.append_terminator (h : Lexed previous s ls)
    (hlast : ∀ l ∈ ls.getLast?, l.isOpenComment = false ∧ l.isSign = false)
    (hms : Lexed none t ms) :
    Lexed previous (s ++ ';' :: t) (ls ++ ⟨.terminator, [';']⟩ :: ms) := by
  induction ls generalizing previous s with
  | nil =>
    have hs : s = [] := h.spelled_eq.symm
    subst hs
    have hcut : nextCut previous ';' t = .ok ⟨.terminator, ([';'], t)⟩ := rfl
    exact .cons hcut (hms.afresh ⟨rfl, nofun⟩)
  | cons l ls ih =>
    obtain ⟨c, u, k, rfl, hk, rfl, hrest, htail⟩ := h.head_cut
    have hend : k.piece.2 = [] → Lexeme.isOpenComment ⟨k.kind, k.piece.1⟩ = false ∧
        Lexeme.isSign ⟨k.kind, k.piece.1⟩ = false := by
      intro hnil
      rw [← hrest, hnil] at htail
      rw [htail.eq_nil] at hlast
      exact hlast _ rfl
    have hopen : Lexeme.isOpenComment ⟨k.kind, k.piece.1⟩ = false := by
      cases hopen : Lexeme.isOpenComment ⟨k.kind, k.piece.1⟩ with
      | false => rfl
      | true =>
        have hnil : k.piece.2 = [] := by
          rw [(nextCut_openComment hk hopen).1]
        rw [(hend hnil).1] at hopen
        cases hopen
    have hcut := nextCut_append .semicolon hk hopen (fun hnil => (hend hnil).2) t
    have hrow : Lexed (some k.kind) (spelled ls ++ ';' :: t)
        (ls ++ ⟨.terminator, [';']⟩ :: ms) := by
      refine ih htail ?_
      cases ls with
      | nil => nofun
      | cons m ls => rwa [List.getLast?_cons_cons] at hlast
    rw [← hrest] at hrow
    exact .cons (k := k.followedBy (';' :: t)) hcut hrow

/-- A sign takes a semicolon that follows it, so that no terminator does. -/
theorem Lexed.not_sign_terminator {m : Lexeme} (hl : l.isSign = true) (hm : m.isTerminator = true) :
    ¬Lexed previous s (l :: m :: ls) := by
  intro h
  have hbetween : m.isBetween = true := by
    rw [Lexeme.isBetween, hm, Bool.or_true]
  obtain ⟨rest, hrest⟩ : ∃ rest, spelled (m :: ls) = ';' :: rest := by
    rw [(h.tail.head_between hbetween).2 hm]
    exact ⟨_, rfl⟩
  obtain ⟨c, u, k, rfl, hk, rfl, hunread, -⟩ := h.head_cut
  have hjoin := (nextCut_join hk).1
  simp only [Lexeme.isSign, Bool.and_eq_true, Bool.or_eq_true, beq_iff_eq] at hl
  obtain ⟨hkind, hsign⟩ := hl
  rw [hunread, hrest] at hjoin
  rcases hsign with hsign | hsign
  · rw [hsign] at hjoin
    cases hjoin
    cases hk
    cases hkind
  · rw [hsign] at hjoin
    cases hjoin
    cases hk
    cases hkind

end

end SafeAlter.Sql
