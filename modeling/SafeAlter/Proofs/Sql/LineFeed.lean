import SafeAlter.Proofs.Sql.Reread

/-! # A line feed and a semicolon added

A text goes on with a line feed, a semicolon and another text. The lexemes of the text stay as they
are, the semicolon ends the statement, and the lexemes of the other text are those it has by itself,
but for what is read at the end of the first one. A line comment and a return take the line feed, so
that it makes no lexeme of its own, and blank they are all the same. A sign `@` or `@@` takes it
too, and becomes a word.
-/
namespace SafeAlter.Sql
open SafeAlter.Text

/-- How a cut changes where its text goes on with a line feed and a semicolon. -/
inductive Cut.LineFed (t : List Char) : Cut → Cut → Prop where
  | apart {k : Cut} (hk : k.piece.2 = [] → Lexeme.isSign ⟨k.kind, k.piece.1⟩ = false) :
      LineFed t k (k.followedBy ('\n' :: ';' :: t))
  | taken (text : List Char) :
      LineFed t ⟨.blank, (text, [])⟩ ⟨.blank, (text ++ ['\n'], ';' :: t)⟩
  | joined {sign : List Char} (hs : sign = ['@'] ∨ sign = ['@', '@']) :
      LineFed t ⟨.other, (sign, [])⟩ ⟨.word false, (sign ++ ['\n'], ';' :: t)⟩

section
variable {previous : Option LexemeKind} {c : Char} {s t : List Char} {k : Cut}

theorem standsOff_lineFeed (s : List Char) : StandsOff ('\n' :: s) :=
  .cons rfl (by decide) s nofun

theorem nextCut_return_lineFed (h : nextCut previous '\r' s = .ok k) :
    ∃ k', nextCut previous '\r' (s ++ '\n' :: ';' :: t) = .ok k' ∧ k.LineFed t k' := by
  rw [nextCut_return] at h
  cases s with
  | nil =>
    cases h
    exact ⟨_, rfl, .taken ['\r']⟩
  | cons d s =>
    rw [List.cons_append, nextCut_return]
    by_cases hd : d = '\n'
    · subst hd
      cases h
      exact ⟨_, rfl, .apart fun _ => rfl⟩
    · have hfront : ∀ u, ['\n'].isPrefixOf (d :: u) = false := fun u =>
        Bool.eq_false_iff.2 fun hp =>
          hd (List.cons_prefix_cons.1 (List.isPrefixOf_iff_prefix.1 hp)).1.symm
      rw [hfront] at h ⊢
      cases h
      exact ⟨_, rfl, .apart fun _ => rfl⟩

theorem nextCut_lineFed (h : nextCut previous c s = .ok k) :
    ∃ k', nextCut previous c (s ++ '\n' :: ';' :: t) = .ok k' ∧ k.LineFed t k' := by
  by_cases hreturn : c = '\r'
  · subst hreturn
    exact nextCut_return_lineFed h
  by_cases hopen : Lexeme.isOpenComment ⟨k.kind, k.piece.1⟩ = true
  · obtain ⟨rfl, hmore⟩ := nextCut_openComment h hopen
    exact ⟨_, hmore ('\n' :: ';' :: t), .taken (c :: s)⟩
  by_cases hsign : k.piece.2 = [] ∧ Lexeme.isSign ⟨k.kind, k.piece.1⟩ = true
  · obtain ⟨kind, sign, rest⟩ := k
    obtain ⟨rfl, hsign⟩ := hsign
    simp only [Lexeme.isSign, Bool.and_eq_true, Bool.or_eq_true, beq_iff_eq] at hsign
    obtain ⟨rfl, hsign⟩ := hsign
    have hjoin : sign = c :: s := by simpa using (nextCut_join h).1
    rcases hsign with rfl | rfl
    · cases hjoin
      exact ⟨_, rfl, .joined (.inl rfl)⟩
    · cases hjoin
      exact ⟨_, rfl, .joined (.inr rfl)⟩
  · have hword : k.piece.2 = [] → Lexeme.isSign ⟨k.kind, k.piece.1⟩ = false := by
      intro hrest
      exact Bool.eq_false_iff.2 fun hs => hsign ⟨hrest, hs⟩
    have hcut := nextCut_append_of_ne_return .lineFeed (standsOff_lineFeed (';' :: t)) hreturn h
      (Bool.eq_false_iff.2 hopen) hword
    exact ⟨_, hcut, .apart hword⟩

end

/-! ## Rows of lexemes -/

/-- How the lexemes of a text change where it goes on with a line feed, a semicolon and a text of
given lexemes. -/
inductive LineFed (more : List Lexeme) : List Lexeme → List Lexeme → Prop where
  | apart {ls : List Lexeme} (hls : ls.getLast?.any Lexeme.isSign = false) :
      LineFed more ls (ls ++ ⟨.blank, ['\n']⟩ :: ⟨.terminator, [';']⟩ :: more)
  | taken (ls : List Lexeme) (text : List Char) :
      LineFed more (ls ++ [⟨.blank, text⟩])
        (ls ++ ⟨.blank, text ++ ['\n']⟩ :: ⟨.terminator, [';']⟩ :: more)
  | joined (ls : List Lexeme) {sign : List Char} (hs : sign = ['@'] ∨ sign = ['@', '@']) :
      LineFed more (ls ++ [⟨.other, sign⟩])
        (ls ++ ⟨.word false, sign ++ ['\n']⟩ :: ⟨.terminator, [';']⟩ :: more)

theorem LineFed.cons {more ls ls' : List Lexeme} {l : Lexeme}
    (hl : ls = [] → l.isSign = false) (h : LineFed more ls ls') :
    LineFed more (l :: ls) (l :: ls') := by
  cases h with
  | apart hls =>
    refine .apart ?_
    cases ls with
    | nil => exact hl rfl
    | cons m ls => rwa [List.getLast?_cons_cons]
  | taken ls text => exact .taken (l :: ls) text
  | joined ls hs => exact .joined (l :: ls) hs

namespace Lexed
variable {previous : Option LexemeKind} {s t : List Char} {ls more : List Lexeme}

/-- The semicolon and the lexemes behind it, which are read as at the start of a text. -/
theorem terminated (h : Lexed none t more) (previous : Option LexemeKind) :
    Lexed previous (';' :: t) (⟨.terminator, [';']⟩ :: more) := by
  have hcut : nextCut previous ';' t = .ok ⟨.terminator, ([';'], t)⟩ := rfl
  exact cons hcut (h.afresh ⟨rfl, nofun⟩)

/-- One lexeme of the text after the other, only the last one can be changed. -/
theorem lineFed (h : Lexed previous s ls) (hmore : Lexed none t more) :
    ∃ ls', Lexed previous (s ++ '\n' :: ';' :: t) ls' ∧ LineFed more ls ls' := by
  induction ls generalizing previous s with
  | nil =>
    have hs : s = [] := h.spelled_eq.symm
    subst hs
    have hcut : nextCut previous '\n' (';' :: t) = .ok ⟨.blank, (['\n'], ';' :: t)⟩ := rfl
    exact ⟨_, cons hcut (hmore.terminated _), .apart rfl⟩
  | cons l ls ih =>
    obtain ⟨c, u, k, rfl, hk, rfl, hrest, hu⟩ := h.head_cut
    obtain ⟨k', hk', hfed⟩ := nextCut_lineFed hk
    have hlast : k.piece.2 = [] → ls = [] := fun hnil => (hnil ▸ hrest ▸ hu).eq_nil
    cases hfed with
    | apart hsign =>
      rw [← hrest] at hu
      obtain ⟨ls', hls', hfed⟩ := ih hu
      refine ⟨_, cons hk' hls', hfed.cons ?_⟩
      rintro rfl
      exact hsign hrest
    | taken text =>
      obtain rfl := hlast rfl
      exact ⟨_, cons hk' (hmore.terminated _), .taken [] text⟩
    | joined hs =>
      obtain rfl := hlast rfl
      exact ⟨_, cons hk' (hmore.terminated _), .joined [] hs⟩

end Lexed

end SafeAlter.Sql
