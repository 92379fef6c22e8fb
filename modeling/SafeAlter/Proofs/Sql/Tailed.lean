import Mathlib.Data.Bool.AllAny
import SafeAlter.Proofs.Sql.Lookahead
import SafeAlter.Proofs.Text.Terminators

/-! # Lexemes of a text with a tail

A tail of semicolons and blank text is a row of lexemes by itself, and so is a row of lexemes with a
tail behind it. All lexemes stay as they are, but for one that may take in the front of the tail: a
name or a number, since wide blank characters may stand in names, a sign, which takes the character
behind it whatever it is, a line comment, and a hyphen, if another one is behind it and the tail
makes a comment of the two.
-/
namespace SafeAlter.Text
open SafeAlter.Sql

/-! ## The characters of a tail -/

def tailCharacters : List Char :=
  ';' :: blankRanges.flatMap fun r =>
    (List.range (r.2 + 1 - r.1)).map fun i => Char.ofNat (r.1 + i)

theorem mem_tailCharacters {c : Char} (h : c = ';' ∨ isBlank c = true) : c ∈ tailCharacters := by
  rcases h with rfl | h
  · exact List.mem_cons_self ..
  · obtain ⟨r, hr, hc⟩ := List.any_eq_true.1 h
    simp only [Bool.and_eq_true, decide_eq_true_eq] at hc
    have hmem : c.toNat - r.1 ∈ List.range (r.2 + 1 - r.1) := by
      rw [List.mem_range]
      omega
    refine List.mem_cons_of_mem _ (List.mem_flatMap.2 ⟨r, hr, List.mem_map.2 ⟨_, hmem, ?_⟩⟩)
    rw [Nat.add_sub_cancel' hc.1, Char.ofNat_toNat]

/-- Characters that are looked for behind a text, and that no tail holds. -/
def marks : List Char :=
  ['\x27', '\x22', '\x60', '.', '+', '-', '*', 'x', 'L', '_', '@', '=', '>', '?']

/-- What the characters of a tail are not. -/
structure IsTailCharacter (c : Char) : Prop where
  notHexDigit : isHexDigit c = false
  notNumeric : isNumericCharacter c = false
  notMark : c ∉ marks
  notInOperator : ∀ o ∈ operators, c ∉ o

theorem isTailCharacter {c : Char} (h : c = ';' ∨ isBlank c = true) : IsTailCharacter c := by
  have hall : ∀ d ∈ tailCharacters, isHexDigit d = false ∧ isNumericCharacter d = false ∧
      d ∉ marks ∧ d ∉ operators.flatten :=
    List.all_iff_forall_prop.1 (by decide +kernel)
  obtain ⟨hhex, hnumeric, hmark, hoperator⟩ := hall c (mem_tailCharacters h)
  exact ⟨hhex, hnumeric, hmark, fun o ho hc => hoperator (List.mem_flatten_of_mem ho hc)⟩

namespace IsTail
variable {c : Char} {s x : List Char}

theorem head (hx : IsTail x) : ∀ c ∈ x.head?, IsTailCharacter c :=
  fun c hc => isTailCharacter (hx c (List.mem_of_mem_head? hc))

/-- No mark stands in a tail. -/
theorem not_mem (hx : IsTail x)
    (hc : c ∈ marks) : c ∉ x :=
  fun hmem => (isTailCharacter (hx c hmem)).notMark hc

theorem endsNumber (hx : IsTail x) : EndsNumber x where
  notHexDigit := fun c hc => (hx.head c hc).notHexDigit
  notMark := by
    intro c hc hmem
    have hmarks : ['.', '+', 'x', 'L', '_'] ⊆
        marks := by decide
    exact (hx.head c hc).notMark (hmarks hmem)
  notPower := by
    rintro y rfl
    exact absurd (List.mem_cons_self ..) (hx.not_mem (by decide))

theorem head_ne (hx : IsTail x)
    (hc : c ∈ marks) :
    x.head? ≠ some c :=
  fun hhead => hx.not_mem hc (List.mem_of_mem_head? hhead)

theorem not_quote (hx : IsTail x) (hc : c ∈ ['\x27', '\x22', '\x60']) : x.head? ≠ some c :=
  hx.head_ne ((by decide : ['\x27', '\x22', '\x60'] ⊆ marks) hc)

theorem operator_append (hx : IsTail x) (c : Char) (s : List Char) :
    operator c (s ++ x) = (operator c s).followedBy x := by
  cases x with
  | nil => simp [Piece.followedBy]
  | cons m y => exact Sql.operator_append (hx.head m rfl).notInOperator c s y

end IsTail

end SafeAlter.Text

namespace SafeAlter.Sql
open SafeAlter.Text

section
variable {previous : Option LexemeKind} {c : Char} {s x : List Char}

/-! ## The next lexeme -/

/-- Which kinds a lexeme has without and with the front of a tail. -/
def LexemeKind.Takes (kind kind' : LexemeKind) : Prop :=
  kind ≠ .period ∧ (kind' = kind ∨ kind = .other ∧ (kind' = .word false ∨ kind' = .blank))

/-- How a cut changes where a tail is added to its text. -/
inductive Cut.Tailed (x : List Char) (k : Cut) : Cut → Prop where
  | apart : Tailed x k (k.followedBy x)
  | joined {kind : LexemeKind} {y z : List Char} (hx : x = y ++ z)
      (hend : k.piece.2 = [] ∨ k.kind = .other) (hkind : k.kind.Takes kind) :
      Tailed x k ⟨kind, (k.piece.1 ++ k.piece.2 ++ y, z)⟩

/-- A cut that reaches to the end of its text and takes in more. -/
theorem Cut.Tailed.atEnd {kind kind' : LexemeKind} (text y : List Char) {z : List Char}
    (hx : x = y ++ z) (hkind : kind.Takes kind') :
    Tailed x ⟨kind, (text, [])⟩ ⟨kind', (text ++ y, z)⟩ := by
  have hjoined : Tailed x ⟨kind, (text, [])⟩ ⟨kind', (text ++ [] ++ y, z)⟩ :=
    .joined hx (.inl rfl) hkind
  rwa [List.append_nil] at hjoined

theorem Cut.GoesOn.tailed {k k' : Cut} (h : k.GoesOn x k') : k.Tailed x k' := by
  cases h with
  | followed => exact .apart
  | lettered hend hk =>
    obtain ⟨kind, front, rest⟩ := k
    cases hend
    refine .atEnd front _ (stretch_join isNamePart x).symm ⟨fun hperiod => ?_, ?_⟩
    · cases hperiod
      cases hk
    · dsimp only
      split
      · exact .inl rfl
      · cases kind with
        | other => exact .inr ⟨rfl, .inl rfl⟩
        | word quoted =>
          cases quoted with
          | false => exact .inl rfl
          | true => cases hk
        | blank => cases hk
        | period => cases hk
        | terminator => cases hk

/-- A sign takes the character behind it, whatever it is, unless that is a space. -/
theorem sign_tailed (sign : List Char) (d : Char) (y : List Char) :
    Cut.Tailed (d :: y) ⟨.other, (sign, [])⟩
      (if d = ' ' then ⟨.other, (sign, d :: y)⟩ else wordCut (sign ++ [d]) y) := by
  split
  · exact .apart
  · have hword : wordCut (sign ++ [d]) y =
        ⟨.word false, (sign ++ d :: (stretch isNamePart y).1, (stretch isNamePart y).2)⟩ := by
      simp [wordCut]
    rw [hword]
    exact .atEnd sign _ (congrArg (d :: ·) (stretch_join isNamePart y).symm)
      ⟨by decide, .inr ⟨rfl, .inl rfl⟩⟩

theorem atCut_of_tail {d : Char} (hx : IsTail (d :: x)) :
    atCut (d :: x) = if d = ' ' then ⟨.other, (['@'], d :: x)⟩ else wordCut ['@', d] x := by
  have hd : ∀ m ∈ marks, d ≠ m := fun m hm h => hx.not_mem hm (h ▸ List.mem_cons_self ..)
  have hoperator : ¬(decide (d = '>') || decide (d = '?')) = true := by
    simp [hd '>' (by decide), hd '?' (by decide)]
  have hquote : (decide (d = ' ') || decide (d = '\x27') || decide (d = '\x22') ||
      decide (d = '\x60')) = decide (d = ' ') := by
    simp [hd '\x27' (by decide), hd '\x22' (by decide), hd '\x60' (by decide)]
  simp only [atCut]
  rw [if_neg hoperator, if_neg (hd '@' (by decide)), hquote]
  simp only [decide_eq_true_eq]

theorem atCut_tailed (hx : IsTail x) (s : List Char) : (atCut s).Tailed x (atCut (s ++ x)) := by
  by_cases hnil : s = []
  · subst hnil
    cases x with
    | nil => exact .apart
    | cons d y =>
      rw [List.nil_append, atCut_of_tail hx]
      exact sign_tailed ['@'] d y
  by_cases hsign : s = ['@']
  · subst hsign
    cases x with
    | nil => exact .apart
    | cons d y => exact sign_tailed ['@', '@'] d y
  · exact (atCut_goesOn hnil hsign x).tailed

theorem letterCut_tailed (hx : IsTail x) {k : Cut} (h : letterCut c s = .ok k) :
    ∃ k', letterCut c (s ++ x) = .ok k' ∧ k.Tailed x k' := by
  cases s with
  | nil =>
    cases h
    refine ⟨_, letterCut_eq_wordCut fun q hq hmem => hx.not_quote hmem hq, ?_⟩
    exact (wordCut_goesOn [c] [] x).tailed
  | cons q s =>
    simp only [List.cons_append, letterCut] at h ⊢
    cases hmark : stringMark c q with
    | some escapes =>
      rw [hmark] at h
      exact ⟨_, (stringCut_append_iff (hx.not_quote (stringMark_eq_some hmark))).2 h, .apart⟩
    | none =>
      rw [hmark] at h
      cases h
      exact ⟨_, rfl, (wordCut_goesOn [c] (q :: s) x).tailed⟩

/-- Only two hyphens start a line comment with a tail and none without it. -/
theorem hyphens_of_startsLine (hx : IsTail x) (hlong : StartsLine c (s ++ x))
    (hline : ¬StartsLine c s) : c = '-' ∧ s = ['-'] := by
  rcases hlong with hc | ⟨hc, t, ht⟩
  · exact absurd (.inl hc) hline
  refine ⟨hc, ?_⟩
  match s with
  | [] =>
    rw [List.nil_append] at ht
    exact absurd (by rw [← ht]; rfl) (hx.head_ne (c := '-') (by decide))
  | [d] =>
    obtain ⟨rfl, -⟩ := List.cons_eq_cons.1 ht
    rfl
  | d :: e :: u =>
    simp only [List.cons_append, List.nil_append, List.cons.injEq] at ht
    obtain ⟨rfl, rfl, -⟩ := ht
    exact absurd (.inr ⟨hc, u, rfl⟩) hline

theorem commentCut_tailed (hx : IsTail x) {k : Cut} (h : commentCut c s = .ok k) :
    ∃ k', commentCut c (s ++ x) = .ok k' ∧ k.Tailed x k' := by
  simp only [commentCut_iff] at h ⊢
  cases h with
  | line hline =>
    refine ⟨_, .line (hline.append x), ?_⟩
    by_cases hs : '\n' ∈ s
    · rw [(lineRest_append hs x).2]
      exact .apart
    · rw [lineRest_of_not_mem hs, lineRest_append_of_not_mem hs]
      exact .atEnd (c :: s) _ (lineRest_join x).symm ⟨by decide, .inl rfl⟩
  | @closed t p hc hs hp =>
    subst hs
    exact ⟨_, .closed hc rfl (commentRest_append_iff.2 hp), .apart⟩
  | other hline hslash =>
    by_cases hlong : StartsLine c (s ++ x)
    · -- the two hyphens stand at the end of the text
      refine ⟨_, .line hlong, ?_⟩
      obtain ⟨rfl, rfl⟩ := hyphens_of_startsLine hx hlong hline
      exact .joined (lineRest_join x).symm (.inr rfl) ⟨by decide, .inr ⟨rfl, .inr rfl⟩⟩
    · refine ⟨_, .other hlong ?_, ?_⟩
      · rintro ⟨hc, hstar⟩
        cases s with
        | nil => exact hx.head_ne (by decide) hstar
        | cons d s => exact hslash ⟨hc, hstar⟩
      · rw [hx.operator_append]
        exact .apart

theorem nextCut_tailed (hx : IsTail x) {k : Cut} (h : nextCut previous c s = .ok k) :
    ∃ k', nextCut previous c (s ++ x) = .ok k' ∧ k.Tailed x k' := by
  have hreader := nextCut_reader previous c
  generalize nextCut previous c = f at h hreader ⊢
  cases hreader with
  | lineEnd =>
    dsimp only at h ⊢
    by_cases hs : ['\n'].isPrefixOf s = true
    · have hsx := isPrefixOf_append_of hs x
      obtain ⟨t, rfl⟩ := List.isPrefixOf_iff_prefix.1 hs
      rw [if_pos hs] at h
      cases h
      exact ⟨_, if_pos hsx, .apart⟩
    · rw [if_neg hs] at h
      cases h
      by_cases hsx : ['\n'].isPrefixOf (s ++ x) = true
      · refine ⟨_, if_pos hsx, ?_⟩
        obtain ⟨z, hz⟩ := List.isPrefixOf_iff_prefix.1 hsx
        cases s with
        | nil =>
          rw [List.nil_append] at hz
          rw [List.nil_append, ← hz]
          exact .atEnd ['\r'] ['\n'] rfl ⟨by decide, .inl rfl⟩
        | cons d s =>
          obtain ⟨rfl, -⟩ := List.cons_eq_cons.1 hz
          exact absurd rfl hs
      · exact ⟨_, if_neg hsx, .apart⟩
  | blank =>
    cases h
    exact ⟨_, rfl, .apart⟩
  | quoted hc => exact ⟨_, (quotedCut_append_iff (hx.not_quote hc)).2 h, .apart⟩
  | number =>
    cases h
    exact ⟨_, rfl, (digitCut_goesOn hx.endsNumber _ (c :: s)).tailed⟩
  | period =>
    obtain ⟨f, hf, heq⟩ := periodCut_goesOn hx.endsNumber previous s
    rw [heq, h]
    exact ⟨_, rfl, (hf k h).tailed⟩
  | sign =>
    cases h
    exact ⟨_, rfl, atCut_tailed hx s⟩
  | letter => exact letterCut_tailed hx h
  | mark =>
    cases h
    have hnumeric : ∀ d ∈ x.head?, isNumericCharacter d = false := fun d hd =>
      (hx.head d hd).notNumeric
    refine ⟨_, rfl, ?_⟩
    rw [stretch_append hnumeric]
    exact .apart
  | terminator =>
    cases h
    exact ⟨_, rfl, .apart⟩
  | comment => exact commentCut_tailed hx h

theorem nextCut_of_tail (previous : Option LexemeKind) (hx : IsTail (c :: x)) :
    ∃ k, nextCut previous c x = .ok k := by
  obtain ⟨hc, htail⟩ := List.forall_mem_cons.1 hx
  have htail : IsTail x := htail
  have hmark : ∀ m ∈ marks, c ≠ m := by
    rintro m hm rfl
    exact (isTailCharacter hc).notMark hm
  have hreader := nextCut_reader previous c
  generalize nextCut previous c = f at hreader ⊢
  cases hreader with
  | lineEnd =>
    dsimp only
    split
    · exact ⟨_, rfl⟩
    · exact ⟨_, rfl⟩
  | blank => exact ⟨_, rfl⟩
  | quoted hquote =>
    exact absurd rfl (hmark c ((by decide : ['\x27', '\x22', '\x60'] ⊆ marks) hquote))
  | number => exact ⟨_, rfl⟩
  | period hperiod => exact absurd hperiod (hmark '.' (by decide))
  | sign => exact ⟨_, rfl⟩
  | letter =>
    refine ⟨_, letterCut_eq_wordCut fun q hq hmem => ?_⟩
    exact htail.not_quote hmem hq
  | mark => exact ⟨_, rfl⟩
  | terminator => exact ⟨_, rfl⟩
  | comment =>
    by_cases hline : StartsLine c x
    · exact ⟨_, commentCut_iff.2 (.line hline)⟩
    · exact ⟨_, commentCut_iff.2 (.other hline fun h => htail.head_ne (by decide) h.2)⟩

/-! ## Rows of lexemes -/

/-- How the lexemes of a text change where a tail is added to it. -/
inductive Tailed (x : List Char) : List Lexeme → List Lexeme → Prop where
  | apart (ls : List Lexeme) {ts : List Lexeme} {previous : Option LexemeKind}
      (hts : Lexed previous x ts) : Tailed x ls (ls ++ ts)
  | joined (ls : List Lexeme) {rest ts : List Lexeme} {l : Lexeme} {kind : LexemeKind}
      {y z : List Char} (hx : x = y ++ z) (hts : Lexed (some kind) z ts)
      (hend : rest = [] ∨ l.kind = .other) (hkind : l.kind.Takes kind) :
      Tailed x (ls ++ l :: rest) (ls ++ ⟨kind, l.spelling ++ spelled rest ++ y⟩ :: ts)

theorem Tailed.cons {ls ls' : List Lexeme} (h : Tailed x ls ls') (l : Lexeme) :
    Tailed x (l :: ls) (l :: ls') := by
  cases h with
  | apart _ hts => exact .apart (l :: ls) hts
  | joined ls hx hts hend hkind => exact .joined (l :: ls) hx hts hend hkind

theorem Tailed.spelled_eq {ls ls' : List Lexeme} (h : Tailed x ls ls') :
    spelled ls' = spelled ls ++ x := by
  cases h with
  | apart _ hts => rw [spelled_append, hts.spelled_eq]
  | joined _ hx hts =>
    simp only [spelled_append, spelled_cons, hts.spelled_eq, hx, List.append_assoc]

theorem exists_lexed_of_tail (hx : IsTail x) (previous : Option LexemeKind) :
    ∃ ts, Lexed previous x ts := by
  induction hlength : x.length using Nat.strongRecOn generalizing x previous with
  | ind n ih =>
    cases x with
    | nil => exact ⟨[], .nil⟩
    | cons c x =>
      obtain ⟨k, hk⟩ := nextCut_of_tail previous hx
      have hrest : k.piece.2 <:+ c :: x := ⟨_, (nextCut_join hk).1⟩
      obtain ⟨ts, hts⟩ :=
        ih k.piece.2.length (hlength ▸ length_nextCut hk) (hx.of_suffix hrest) (some k.kind) rfl
      exact ⟨_, .cons hk hts⟩

/-- A row of lexemes stays one where a tail is added to its text. -/
theorem Lexed.tailed {ls : List Lexeme} (h : Lexed previous s ls) (hx : IsTail x) :
    ∃ ls', Lexed previous (s ++ x) ls' ∧ Tailed x ls ls' := by
  induction ls generalizing previous s with
  | nil =>
    obtain ⟨ts, hts⟩ := exists_lexed_of_tail hx previous
    have hs : s = [] := h.spelled_eq.symm
    subst hs
    exact ⟨ts, hts, .apart [] hts⟩
  | cons l ls ih =>
    obtain ⟨c, t, k, rfl, hk, rfl, hrest, ht⟩ := h.head_cut
    obtain ⟨k', hk', htailed⟩ := nextCut_tailed hx hk
    cases htailed with
    | apart =>
      rw [← hrest] at ht
      obtain ⟨ls', hls', htailed⟩ := ih ht
      exact ⟨_, cons hk' hls', htailed.cons _⟩
    | @joined kind y z hx' hend hkind =>
      have hz : z <:+ x := ⟨y, hx'.symm⟩
      obtain ⟨ts, hts⟩ := exists_lexed_of_tail (hx.of_suffix hz) (some kind)
      refine ⟨_, cons hk' hts, ?_⟩
      rw [hrest]
      refine .joined [] hx' hts (hend.imp_left fun hnil => ?_) hkind
      exact (hnil ▸ hrest ▸ ht).eq_nil

end

end SafeAlter.Sql
