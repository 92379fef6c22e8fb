import SafeAlter.Proofs.Sql.Lookahead

/-! # Lexemes of a text that goes on

A text goes on with a comma and a blank after it. All lexemes of the text stay as they are, and the
comma starts a lexeme of its own, but for two kinds of text: after a line comment that no line feed
ends, all that is added belongs to the comment, and after a sign `@` or `@@` the comma belongs to a
word that starts with the sign.
-/
namespace SafeAlter.Sql
open SafeAlter.Text

section
variable {c : Char} {s : List Char}

/-- How a cut changes where its text goes on with a comma, a blank and what is after them. -/
inductive Cut.Continued (after : List Char) : Cut → Cut → Prop where
  | apart {k : Cut} (hk : Lexeme.isOpenComment ⟨k.kind, k.piece.1⟩ = false) :
      Continued after k (k.followedBy (',' :: ' ' :: after))
  | swallowed {text : List Char} (ht : Lexeme.isOpenComment ⟨.blank, text⟩ = true) :
      Continued after ⟨.blank, (text, [])⟩ ⟨.blank, (text ++ ',' :: ' ' :: after, [])⟩
  | joined {sign : List Char} (hs : sign = ['@'] ∨ sign = ['@', '@']) :
      Continued after ⟨.other, (sign, [])⟩ ⟨.word false, (sign ++ [','], ' ' :: after)⟩

theorem nextCut_continued {previous : Option LexemeKind} {after : List Char} {k : Cut}
    (h : nextCut previous c s = .ok k) (ha : '\n' ∉ after) :
    ∃ k', nextCut previous c (s ++ ',' :: ' ' :: after) = .ok k' ∧ k.Continued after k' := by
  by_cases hopen : Lexeme.isOpenComment ⟨k.kind, k.piece.1⟩ = true
  · obtain ⟨rfl, hmore⟩ := nextCut_openComment h hopen
    have hline : '\n' ∉ ',' :: ' ' :: after := by simp [ha]
    have hcut := hmore (',' :: ' ' :: after)
    rw [lineRest_of_not_mem hline] at hcut
    exact ⟨_, hcut, .swallowed hopen⟩
  have hclosed := Bool.eq_false_iff.2 hopen
  by_cases hsign : k.piece.2 = [] ∧ Lexeme.isSign ⟨k.kind, k.piece.1⟩ = true
  · obtain ⟨kind, sign, rest⟩ := k
    obtain ⟨rfl, hsign⟩ := hsign
    simp only [Lexeme.isSign, Bool.and_eq_true, Bool.or_eq_true, beq_iff_eq] at hsign
    obtain ⟨rfl, hsign⟩ := hsign
    have hjoin : sign = c :: s := by simpa using (nextCut_join h).1
    rcases hsign with rfl | rfl
    · cases hjoin
      exact ⟨_, rfl, .joined (.inl rfl)⟩
    · cases hjoin
      exact ⟨_, rfl, .joined (.inr rfl)⟩
  · have hword : k.piece.2 = [] → Lexeme.isSign ⟨k.kind, k.piece.1⟩ = false := by
      intro hrest
      exact Bool.eq_false_iff.2 fun hs => hsign ⟨hrest, hs⟩
    exact ⟨_, nextCut_append .comma h hclosed hword (' ' :: after), .apart hclosed⟩

end

/-! ## Rows of lexemes -/

/-- How the lexemes of a text change where it goes on with a comma, a blank and more, given the
lexemes from that blank on. -/
inductive Continued (after : List Char) (more : List Lexeme) :
    List Lexeme → List Lexeme → Prop where
  | apart {ls : List Lexeme} (hls : ls.getLast?.any Lexeme.isOpenComment = false) :
      Continued after more ls (ls ++ ⟨.other, [',']⟩ :: more)
  | swallowed (ls : List Lexeme) {l : Lexeme} (hl : l.isOpenComment = true) :
      Continued after more (ls ++ [l]) (ls ++ [⟨.blank, l.spelling ++ ',' :: ' ' :: after⟩])
  | joined (ls : List Lexeme) {sign : List Char} (hs : sign = ['@'] ∨ sign = ['@', '@']) :
      Continued after more (ls ++ [⟨.other, sign⟩]) (ls ++ ⟨.word false, sign ++ [',']⟩ :: more)

theorem Continued.cons {after : List Char} {more ls ls' : List Lexeme} {l : Lexeme}
    (hl : l.isOpenComment = false) (h : Continued after more ls ls') :
    Continued after more (l :: ls) (l :: ls') := by
  cases h with
  | apart hls =>
    refine .apart ?_
    cases ls with
    | nil => simpa using hl
    | cons m ls => rwa [List.getLast?_cons_cons]
  | swallowed ls hl => exact .swallowed (l :: ls) hl
  | joined ls hs => exact .joined (l :: ls) hs

namespace Lexed
variable {previous : Option LexemeKind} {c : Char} {s after : List Char} {k : Cut}
  {ls more : List Lexeme}

/-- The comma, the blank and the lexemes after it, by themselves. -/
theorem comma (hmore : ∀ kind, Lexed kind (' ' :: after) more) :
    Lexed previous (',' :: ' ' :: after) (⟨.other, [',']⟩ :: more) := by
  have hcut : nextCut previous ',' (' ' :: after) = .ok ⟨.other, ([','], ' ' :: after)⟩ := rfl
  exact cons hcut (hmore _)

theorem continued (h : Lexed previous s ls) (ha : '\n' ∉ after)
    (hmore : ∀ kind, Lexed kind (' ' :: after) more) :
    ∃ ls', Lexed previous (s ++ ',' :: ' ' :: after) ls' ∧ Continued after more ls ls' := by
  induction ls generalizing previous s with
  | nil =>
    have hs : s = [] := h.spelled_eq.symm
    subst hs
    exact ⟨_, comma hmore, .apart rfl⟩
  | cons l ls ih =>
    obtain ⟨c, t, k, rfl, hk, rfl, hrest, ht⟩ := h.head_cut
    obtain ⟨k', hk', hcont⟩ := nextCut_continued hk ha
    cases hcont with
    | apart ho =>
      rw [← hrest] at ht
      obtain ⟨ls', hls', hc⟩ := ih ht
      exact ⟨_, cons hk' hls', hc.cons ho⟩
    | swallowed ho =>
      have hls : ls = [] := (hrest ▸ ht).eq_nil
      subst hls
      exact ⟨_, cons hk' nil, .swallowed [] ho⟩
    | joined hs =>
      have hls : ls = [] := (hrest ▸ ht).eq_nil
      subst hls
      exact ⟨_, cons hk' (hmore _), .joined [] hs⟩

end Lexed

end SafeAlter.Sql
