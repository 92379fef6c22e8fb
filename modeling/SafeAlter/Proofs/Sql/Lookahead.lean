import Mathlib.Data.List.Find
import SafeAlter.Proofs.Sql.StandingOff
import SafeAlter.Proofs.Text.Cutting

/-! # Lexemes that look ahead

Comments, operators and signs look at the text behind them before they end. They stay as they are
where a text that stands off is taken away from behind them. A break is a character that stands off
and belongs to no operator, such as a comma or a semicolon: where one is added they stay as they are
too, but for two kinds that run on to the end of the text, line comments that no line feed ends and
the signs `@` and `@@`.
-/
namespace SafeAlter.Sql
open SafeAlter.Text

structure IsBreak (m : Char) : Prop where
  notInName : isNamePart m = false
  notMark : m ∉ ['\x27', '\x22', '\x60', '.', '+']
  notInOperator : ∀ o ∈ operators, m ∉ o
  notBlank : m ≠ ' ' ∧ m ≠ '\n'

/-- A character that no operator holds and that does not make a comment of two hyphens. -/
structure EndsOperator (m : Char) : Prop where
  notInOperator : ∀ o ∈ operators, m ∉ o
  notSpace : m ≠ ' '

namespace EndsOperator

theorem lineFeed : EndsOperator '\n' := ⟨by decide, by decide⟩

variable {m : Char}

theorem ne_hyphen (hm : EndsOperator m) : m ≠ '-' := by
  rintro rfl
  exact hm.notInOperator "->".toList (by decide) (by decide)

theorem ne_star (hm : EndsOperator m) : m ≠ '*' := by
  rintro rfl
  exact hm.notInOperator "~*".toList (by decide) (by decide)

end EndsOperator

namespace IsBreak

theorem comma : IsBreak ',' := ⟨rfl, by decide, by decide, by decide⟩

theorem semicolon : IsBreak ';' := ⟨rfl, by decide, by decide, by decide⟩

variable {m : Char}

theorem endsOperator (hm : IsBreak m) : EndsOperator m := ⟨hm.notInOperator, hm.notBlank.1⟩

theorem standsOff (hm : IsBreak m) (y : List Char) : StandsOff (m :: y) :=
  .cons hm.notInName hm.notMark y fun h => absurd h hm.endsOperator.ne_hyphen

end IsBreak

section
variable {c m : Char} {s x : List Char}

/-! ## Lines and operators -/

theorem lineRest_append (h : '\n' ∈ s) (x : List Char) :
    '\n' ∈ (lineRest s).1 ∧ lineRest (s ++ x) = (lineRest s).followedBy x := by
  induction s with
  | nil => cases h
  | cons c s ih =>
    rw [List.cons_append, lineRest, lineRest]
    split
    · next hc => exact ⟨by simp [hc], rfl⟩
    · next hc =>
      obtain ⟨hmem, heq⟩ := ih ((List.mem_cons.1 h).resolve_left (Ne.symm hc))
      rw [heq]
      exact ⟨List.mem_cons_of_mem c hmem, rfl⟩

theorem lineRest_append_of_not_mem (h : '\n' ∉ s) (x : List Char) :
    lineRest (s ++ x) = (s ++ (lineRest x).1, (lineRest x).2) := by
  induction s with
  | nil => rfl
  | cons c s ih =>
    obtain ⟨hc, hs⟩ := List.ne_and_not_mem_of_not_mem_cons h
    rw [List.cons_append, lineRest, if_neg (Ne.symm hc), ih hs]
    rfl

theorem lineRest_of_not_mem (h : '\n' ∉ s) : lineRest s = (s, []) := by
  have hline := lineRest_append_of_not_mem h []
  rw [List.append_nil] at hline
  rw [hline]
  simp [lineRest]

theorem lineRest_of_append {p : Piece} (h : lineRest (s ++ x) = p.followedBy x) :
    lineRest s = p := by
  by_cases hs : '\n' ∈ s
  · rw [(lineRest_append hs x).2] at h
    exact Piece.followedBy_inj.1 h
  · rw [lineRest_append_of_not_mem hs] at h
    obtain ⟨hfront, hrest⟩ := Prod.mk.inj h
    have hjoin := lineRest_join x
    rw [hrest, ← List.append_assoc] at hjoin
    obtain ⟨hnone, hleft⟩ := List.append_eq_nil_iff.1 (List.append_left_eq_self.1 hjoin)
    rw [hnone, List.append_nil] at hfront
    rw [lineRest_of_not_mem hs, hfront, ← hleft]

theorem isPrefixOf_append {o : List Char} (ho : m ∉ o) (s y : List Char) :
    o.isPrefixOf (s ++ m :: y) = o.isPrefixOf s := by
  rw [Bool.eq_iff_iff, List.isPrefixOf_iff_prefix, List.isPrefixOf_iff_prefix,
    prefix_append_mark ho]

theorem isPrefixOf_append_of {o : List Char} (h : o.isPrefixOf s = true) (x : List Char) :
    o.isPrefixOf (s ++ x) = true := by
  rw [List.isPrefixOf_iff_prefix] at h ⊢
  exact h.trans (List.prefix_append s x)

theorem operator_append (hm : ∀ o ∈ operators, m ∉ o) (c : Char) (s y : List Char) :
    operator c (s ++ m :: y) = (operator c s).followedBy (m :: y) := by
  have hfind : operators.find? (·.isPrefixOf (c :: (s ++ m :: y))) =
      operators.find? (·.isPrefixOf (c :: s)) := by
    refine List.find?_congr fun o ho => ?_
    rw [← List.cons_append, isPrefixOf_append (hm o ho)]
  unfold operator
  rw [hfind]
  split
  · next o ho =>
    have hstart : o <+: c :: s := List.isPrefixOf_iff_prefix.1 (List.find?_some ho :)
    rw [← List.cons_append, List.drop_append_of_le_length hstart.length_le]
    rfl
  · rfl

theorem operator_of_append {p : Piece} (h : operator c (s ++ x) = p.followedBy x) :
    operator c s = p := by
  have hjoin : p.1 ++ p.2 = c :: s := by
    have hjoin := operator_join c (s ++ x)
    rw [h] at hjoin
    rw [Piece.followedBy, ← List.append_assoc] at hjoin
    exact List.append_cancel_right hjoin
  unfold operator at h ⊢
  split at h
  · next o ho =>
    obtain ⟨ho, before, after, hsplit, hbefore⟩ := List.find?_eq_some_iff_append.1 ho
    have hfront : o = p.1 := congrArg Prod.fst h
    have hfind : operators.find? (·.isPrefixOf (c :: s)) = some o := by
      refine List.find?_eq_some_iff_append.2 ⟨?_, before, after, hsplit, fun a ha => ?_⟩
      · exact List.isPrefixOf_iff_prefix.2 ⟨p.2, by rw [hfront, hjoin]⟩
      · have hlong := hbefore a ha
        rw [Bool.not_eq_true', Bool.eq_false_iff] at hlong ⊢
        exact fun hshort => hlong (isPrefixOf_append_of hshort x)
    rw [hfind]
    simp only [← hjoin, hfront, List.drop_left]
  · next hnone =>
    have hfind : operators.find? (·.isPrefixOf (c :: s)) = none := by
      refine List.find?_eq_none.2 fun o ho hshort => ?_
      exact List.find?_eq_none.1 hnone o ho (isPrefixOf_append_of hshort x)
    rw [hfind]
    exact Piece.followedBy_inj.1 h

/-- What starts with a sign and is more than a sign goes on as a word does. -/
theorem atCut_goesOn (h : s ≠ []) (h' : s ≠ ['@']) (x : List Char) :
    (atCut s).GoesOn x (atCut (s ++ x)) := by
  match s with
  | [] => exact absurd rfl h
  | [c] =>
    have hc : c ≠ '@' := fun he => h' (by rw [he])
    simp only [List.singleton_append, atCut, if_neg hc]
    split
    · exact .followed
    · split
      · exact .followed
      · exact wordCut_goesOn ['@', c] [] x
  | c :: d :: t =>
    simp only [List.cons_append, atCut]
    split
    · exact .followed
    · split
      · split
        · exact .followed
        · exact wordCut_goesOn ['@', '@', d] t x
      · split
        · exact .followed
        · exact wordCut_goesOn ['@', c] (d :: t) x

theorem atCut_append (hx : StandsOff x) (h : s ≠ []) (h' : s ≠ ['@']) :
    atCut (s ++ x) = (atCut s).followedBy x :=
  (atCut_goesOn h h' x).eq hx

theorem length_wordCut (start s : List Char) : (wordCut start s).piece.2.length ≤ s.length :=
  (List.dropWhile_suffix _).length_le

/-- A sign stands alone, or takes something of the text after it. -/
theorem atCut_cases (s : List Char) :
    atCut s = ⟨.other, (['@'], s)⟩ ∨ (atCut s).piece.2.length < s.length := by
  cases s with
  | nil => exact .inl rfl
  | cons c s =>
    simp only [atCut]
    grind [length_wordCut]

theorem atCut_sign_cases (s : List Char) :
    atCut ('@' :: s) = ⟨.other, (['@', '@'], s)⟩ ∨
      (atCut ('@' :: s)).piece.2.length < s.length := by
  cases s with
  | nil => exact .inl rfl
  | cons d t =>
    simp only [atCut]
    grind [length_wordCut]

theorem atCut_of_append (hx : StandsOff x) {k : Cut} (h : atCut (s ++ x) = k.followedBy x) :
    atCut s = k := by
  have hlength := k.le_length_followedBy x
  rw [← h] at hlength
  by_cases hnil : s = []
  · subst hnil
    rcases atCut_cases x with halone | htaken
    · exact Cut.followedBy_inj.1 (halone.symm.trans h)
    · rw [List.nil_append] at hlength
      omega
  by_cases hsign : s = ['@']
  · subst hsign
    rcases atCut_sign_cases x with halone | htaken
    · exact Cut.followedBy_inj.1 (halone.symm.trans h)
    · rw [List.singleton_append] at hlength
      omega
  · rw [atCut_append hx hnil hsign] at h
    exact Cut.followedBy_inj.1 h

/-- A line comment that no line feed ends. -/
def Lexeme.isOpenComment (l : Lexeme) : Bool :=
  l.isBlank && (l.spelling.head? == some '#' || l.spelling.head? == some '-') &&
    !l.spelling.contains '\n'

/-- A sign that no word starts with. -/
def Lexeme.isSign (l : Lexeme) : Bool :=
  l.kind == .other && (l.spelling == ['@'] || l.spelling == ['@', '@'])

/-! ## Comments -/

theorem StartsLine.append (h : StartsLine c s) (x : List Char) : StartsLine c (s ++ x) :=
  h.imp_right fun ⟨hc, hs⟩ => ⟨hc, hs.trans (List.prefix_append s x)⟩

theorem startsLine_append_iff (hm : EndsOperator m) (y : List Char) :
    StartsLine c (s ++ m :: y) ↔ StartsLine c s := by
  have hmark : m ∉ ['-', ' '] := by
    simp [hm.ne_hyphen, hm.notSpace]
  rw [← startsLine_iff, ← startsLine_iff, isPrefixOf_append hmark]

/-- The blank behind two hyphens belongs to the comment, so it is not among what was added. -/
theorem StartsLine.of_append {p : Piece} (h : lineRest (s ++ x) = p.followedBy x)
    (hline : StartsLine c (s ++ x)) : StartsLine c s := by
  refine hline.imp_right fun ⟨hc, hs⟩ => ⟨hc, ?_⟩
  obtain ⟨t, ht⟩ := hs
  have hlong : lineRest (s ++ x) = ((lineRest t).cons ' ').cons '-' := by
    rw [← ht]
    simp [lineRest]
  have hfront : p.1 = '-' :: ' ' :: (lineRest t).1 := congrArg Prod.fst (h.symm.trans hlong)
  rw [← lineRest_join s, lineRest_of_append h, hfront]
  exact ⟨(lineRest t).1 ++ p.2, rfl⟩

theorem StartsLine.first (h : StartsLine c s) : c = '#' ∨ c = '-' :=
  h.imp_right And.left

theorem StartsLine.isOpenComment (h : StartsLine c s) (hs : '\n' ∉ s) :
    Lexeme.isOpenComment ⟨.blank, c :: s⟩ = true := by
  rcases h.first with rfl | rfl <;> simp [Lexeme.isOpenComment, Lexeme.isBlank, hs]

theorem commentCut_append (hm : EndsOperator m) {k : Cut} (h : commentCut c s = .ok k)
    (hopen : Lexeme.isOpenComment ⟨k.kind, k.piece.1⟩ = false) (y : List Char) :
    commentCut c (s ++ m :: y) = .ok (k.followedBy (m :: y)) := by
  rw [commentCut_iff] at h ⊢
  cases h with
  | line hline =>
    have hs : '\n' ∈ s := by
      by_contra hs
      rw [lineRest_of_not_mem hs] at hopen
      rw [Piece.cons, hline.isOpenComment hs] at hopen
      cases hopen
    have hcut := CommentCut.line (hline.append (m :: y))
    rwa [(lineRest_append hs (m :: y)).2] at hcut
  | closed hc hs hp =>
    subst hs
    exact .closed hc rfl (commentRest_append_iff.2 hp)
  | other hline hslash =>
    rw [Cut.followedBy, ← operator_append hm.notInOperator]
    refine .other ((startsLine_append_iff hm y).not.2 hline) ?_
    rintro ⟨hc, hs⟩
    cases s with
    | nil => exact hm.ne_star (Option.some.inj hs)
    | cons d s => exact hslash ⟨hc, hs⟩

theorem commentCut_of_append {k : Cut} (h : commentCut c (s ++ x) = .ok (k.followedBy x)) :
    commentCut c s = .ok k := by
  obtain ⟨kind, front, rest⟩ := k
  rw [commentCut_iff] at h ⊢
  generalize hlong : (⟨kind, (front, rest)⟩ : Cut).followedBy x = long at h
  cases h with
  | line hline =>
    simp only [Cut.followedBy, Piece.followedBy, Piece.cons, Cut.mk.injEq, Prod.mk.injEq] at hlong
    obtain ⟨rfl, rfl, hrest⟩ := hlong
    have hcut : lineRest (s ++ x) = Piece.followedBy ((lineRest (s ++ x)).1, rest) x :=
      Prod.ext rfl hrest.symm
    have hshort := CommentCut.line (hline.of_append hcut)
    rwa [lineRest_of_append hcut] at hshort
  | @closed t p hc hs hp =>
    simp only [Cut.followedBy, Piece.followedBy, Piece.cons, Cut.mk.injEq, Prod.mk.injEq] at hlong
    obtain ⟨rfl, rfl, hrest⟩ := hlong
    cases s with
    | nil =>
      -- the comment would start in what was added, and would end before it
      have hlength := congrArg List.length (commentRest_join hp)
      have hx := congrArg List.length hs
      rw [← hrest, List.length_append, List.length_append] at hlength
      rw [List.nil_append, List.length_cons] at hx
      omega
    | cons d s =>
      obtain ⟨rfl, rfl⟩ := List.cons_eq_cons.1 hs
      have hcut : commentRest s = some (p.1, rest) := by
        refine commentRest_append_iff.1 (hp.trans (congrArg some ?_))
        exact Prod.ext rfl hrest.symm
      exact .closed hc rfl hcut
  | other hline hslash =>
    simp only [Cut.followedBy, Cut.mk.injEq] at hlong
    obtain ⟨rfl, hpiece⟩ := hlong
    have hcut := operator_of_append hpiece.symm
    rw [← hcut]
    refine .other (fun hshort => hline (hshort.append x)) ?_
    rintro ⟨hc, hs⟩
    obtain ⟨t, rfl⟩ := List.head?_eq_some_iff.1 hs
    exact hslash ⟨hc, rfl⟩

/-! ## The next lexeme -/

theorem nextCut_return (previous : Option LexemeKind) (s : List Char) :
    nextCut previous '\r' s =
      if ['\n'].isPrefixOf s then .ok ⟨.blank, (['\r', '\n'], s.drop 1)⟩
      else .ok ⟨.blank, (['\r'], s)⟩ := by
  have hblank : isBlank '\r' = true := rfl
  cases h : ['\n'].isPrefixOf s <;> simp [nextCut, h, hblank]

/-- What reads a lexeme that starts with a given character. -/
inductive Reader (previous : Option LexemeKind) (c : Char) :
    (List Char → Except Stop Cut) → Prop where
  | lineEnd (hc : c = '\r') : Reader previous c fun s =>
      if ['\n'].isPrefixOf s then .ok ⟨.blank, (['\r', '\n'], s.drop 1)⟩
      else .ok ⟨.blank, (['\r'], s)⟩
  | blank : Reader previous c fun s => .ok ⟨.blank, ([c], s)⟩
  | quoted (hc : c ∈ ['\x27', '\x22', '\x60']) : Reader previous c (quotedCut c)
  | number : Reader previous c fun s => .ok (digitCut (previous == some .period) (c :: s))
  | period (hc : c = '.') : Reader previous c (periodCut previous)
  | sign (hc : c = '@') : Reader previous c fun s => .ok (atCut s)
  | letter : Reader previous c (letterCut c)
  | mark : Reader previous c fun s => .ok ⟨.other, (stretch isNumericCharacter s).cons c⟩
  | terminator : Reader previous c fun s => .ok ⟨.terminator, ([c], s)⟩
  | comment : Reader previous c (commentCut c)

theorem nextCut_reader (previous : Option LexemeKind) (c : Char) :
    Reader previous c (nextCut previous c) := by
  by_cases hreturn : c = '\r'
  · subst hreturn
    rw [funext (nextCut_return previous)]
    exact .lineEnd rfl
  have hno : ∀ t : List Char, ¬(decide (c = '\r') && ['\n'].isPrefixOf t) = true := by
    intro t
    simp [hreturn]
  unfold nextCut
  simp only [if_neg (hno _)]
  by_cases hblank : (decide (c.toNat < 0x80) && isBlank c) = true
  · simp only [if_pos hblank]
    exact .blank
  simp only [if_neg hblank]
  by_cases hquote : (decide (c = '\x27') || decide (c = '\x22') || decide (c = '\x60')) = true
  · simp only [if_pos hquote]
    exact .quoted (by simpa [or_assoc] using hquote)
  simp only [if_neg hquote]
  by_cases hdigit : isDigit c = true
  · simp only [if_pos hdigit]
    exact .number
  simp only [if_neg hdigit]
  by_cases hperiod : c = '.'
  · simp only [if_pos hperiod]
    exact .period hperiod
  simp only [if_neg hperiod]
  by_cases hat : c = '@'
  · simp only [if_pos hat]
    exact .sign hat
  simp only [if_neg hat]
  by_cases hname : isNameStart c = true
  · simp only [if_pos hname]
    exact .letter
  simp only [if_neg hname]
  by_cases hmark : c = '?'
  · simp only [if_pos hmark]
    exact .mark
  simp only [if_neg hmark]
  by_cases hterminator : c = ';'
  · simp only [if_pos hterminator]
    exact .terminator
  simp only [if_neg hterminator]
  exact .comment

theorem nextCut_sign (previous : Option LexemeKind) (s : List Char) :
    nextCut previous '@' s = .ok (atCut s) := rfl

/-- Of what may start a lexeme only a return, a sign and what may start a comment or an operator
look at more than the lexeme takes. -/
theorem nextCut_append_iff (previous : Option LexemeKind) (hreturn : c ≠ '\r') (hat : c ≠ '@') :
    (∀ t, nextCut previous c t = commentCut c t) ∨
      ∀ s x k, StandsOff x → (nextCut previous c (s ++ x) = .ok (k.followedBy x) ↔
        nextCut previous c s = .ok k) := by
  have hcut : ∀ (k' : Cut) {x : List Char} {k : Cut},
      (Except.ok (k'.followedBy x) : Except Stop Cut) = .ok (k.followedBy x) ↔
        (Except.ok k' : Except Stop Cut) = .ok k := by
    intro k' x k
    rw [Except.ok.injEq, Except.ok.injEq, Cut.followedBy_inj]
  have hreader := nextCut_reader previous c
  generalize nextCut previous c = f at hreader ⊢
  cases hreader with
  | lineEnd hc => exact absurd hc hreturn
  | blank => exact .inr fun s x k hx => hcut ⟨.blank, ([c], s)⟩
  | quoted hc => exact .inr fun s x k hx => quotedCut_append_iff (hx.not_quote hc)
  | number =>
    refine .inr fun s x k hx => ?_
    dsimp only
    rw [← List.cons_append, digitCut_append hx]
    exact hcut _
  | period =>
    refine .inr fun s x k hx => ?_
    rw [periodCut_append hx]
    cases periodCut previous s with
    | error stop => exact ⟨nofun, nofun⟩
    | ok k' => exact hcut k'
  | sign hc => exact absurd hc hat
  | letter => exact .inr fun s x k hx => letterCut_append_iff hx
  | mark =>
    refine .inr fun s x k hx => ?_
    dsimp only
    rw [stretch_append (hx.notIn fun _ => isNamePart_of_isNumericCharacter)]
    exact hcut ⟨.other, (stretch isNumericCharacter s).cons c⟩
  | terminator => exact .inr fun s x k hx => hcut ⟨.terminator, ([c], s)⟩
  | comment => exact .inl fun _ => rfl

/-- A lexeme stays as it is where what stands off from it is taken away. -/
theorem nextCut_of_append {previous : Option LexemeKind} (hx : StandsOff x) {k : Cut}
    (h : nextCut previous c (s ++ x) = .ok (k.followedBy x)) : nextCut previous c s = .ok k := by
  by_cases hreturn : c = '\r'
  · subst hreturn
    obtain ⟨kind, front, rest⟩ := k
    rw [nextCut_return] at h ⊢
    split at h
    · next hn =>
      obtain ⟨t, ht⟩ := List.isPrefixOf_iff_prefix.1 hn
      simp only [Cut.followedBy, Piece.followedBy, Except.ok.injEq, Cut.mk.injEq,
        Prod.mk.injEq, ← ht] at h
      obtain ⟨rfl, rfl, rfl⟩ := h
      have hs : s = '\n' :: rest := List.append_cancel_right ht.symm
      rw [hs]
      rfl
    · next hn =>
      simp only [Cut.followedBy, Piece.followedBy, Except.ok.injEq, Cut.mk.injEq, Prod.mk.injEq,
        List.append_cancel_right_eq] at h
      obtain ⟨rfl, rfl, rfl⟩ := h
      rw [if_neg fun hs => hn (isPrefixOf_append_of hs x)]
  by_cases hat : c = '@'
  · subst hat
    rw [nextCut_sign, Except.ok.injEq] at h ⊢
    exact atCut_of_append hx h
  rcases nextCut_append_iff previous hreturn hat with hcomment | hiff
  · rw [hcomment] at h ⊢
    exact commentCut_of_append h
  · exact (hiff s x k hx).1 h

/-- A lexeme that starts with no return stays as it is where a character is added that stands off
and ends operators, unless it runs on to the end of the text. -/
theorem nextCut_append_of_ne_return {previous : Option LexemeKind} {y : List Char} {k : Cut}
    (hm : EndsOperator m) (hx : StandsOff (m :: y)) (hreturn : c ≠ '\r')
    (h : nextCut previous c s = .ok k)
    (hopen : Lexeme.isOpenComment ⟨k.kind, k.piece.1⟩ = false)
    (hsign : k.piece.2 = [] → Lexeme.isSign ⟨k.kind, k.piece.1⟩ = false) :
    nextCut previous c (s ++ m :: y) = .ok (k.followedBy (m :: y)) := by
  by_cases hat : c = '@'
  · subst hat
    rw [nextCut_sign, Except.ok.injEq] at h ⊢
    subst h
    refine atCut_append hx ?_ ?_
    · rintro rfl
      cases hsign rfl
    · rintro rfl
      cases hsign rfl
  rcases nextCut_append_iff previous hreturn hat with hcomment | hiff
  · rw [hcomment] at h ⊢
    exact commentCut_append hm h hopen y
  · exact (hiff s _ k hx).2 h

/-- A lexeme stays as it is where a break is added, unless it runs on to the end of the text. -/
theorem nextCut_append {previous : Option LexemeKind} (hm : IsBreak m) {k : Cut}
    (h : nextCut previous c s = .ok k)
    (hopen : Lexeme.isOpenComment ⟨k.kind, k.piece.1⟩ = false)
    (hsign : k.piece.2 = [] → Lexeme.isSign ⟨k.kind, k.piece.1⟩ = false) (y : List Char) :
    nextCut previous c (s ++ m :: y) = .ok (k.followedBy (m :: y)) := by
  by_cases hreturn : c = '\r'
  · subst hreturn
    have hfront : m ∉ ['\n'] := by simp [hm.notBlank.2]
    rw [nextCut_return] at h ⊢
    rw [isPrefixOf_append hfront]
    split at h
    · next hn =>
      cases h
      obtain ⟨t, rfl⟩ := List.isPrefixOf_iff_prefix.1 hn
      rw [if_pos hn]
      rfl
    · next hn =>
      cases h
      rw [if_neg hn]
      rfl
  · exact nextCut_append_of_ne_return hm.endsOperator (hm.standsOff y) hreturn h hopen hsign

/-- A line comment without a line feed reaches to the end of the text, and takes what is added in
the same line. -/
theorem nextCut_openComment {previous : Option LexemeKind} {k : Cut}
    (h : nextCut previous c s = .ok k)
    (hopen : Lexeme.isOpenComment ⟨k.kind, k.piece.1⟩ = true) :
    k = ⟨.blank, (c :: s, [])⟩ ∧ ∀ t,
      nextCut previous c (s ++ t) = .ok ⟨.blank, (c :: s ++ (lineRest t).1, (lineRest t).2)⟩ := by
  simp only [Lexeme.isOpenComment, Bool.and_eq_true, Bool.or_eq_true, beq_iff_eq,
    Bool.not_eq_true', Lexeme.isBlank] at hopen
  obtain ⟨⟨hkind, hhead⟩, hline⟩ := hopen
  have hc : c = '#' ∨ c = '-' := by
    obtain ⟨hjoin, hne⟩ := nextCut_join h
    obtain ⟨d, text, ht⟩ := List.exists_cons_of_ne_nil hne
    rw [ht, List.cons_append] at hjoin
    obtain ⟨rfl, -⟩ := List.cons_eq_cons.1 hjoin
    simpa [ht] using hhead
  have hcut : ∀ t, nextCut previous c t = commentCut c t := by
    rcases hc with rfl | rfl <;> exact fun t => rfl
  rw [hcut, commentCut_iff] at h
  cases h with
  | line hstart =>
    have hs : '\n' ∉ s := by
      intro hs
      have hmem := (lineRest_append hs []).1
      simp [Piece.cons, hmem] at hline
    refine ⟨by rw [lineRest_of_not_mem hs]; rfl, fun t => ?_⟩
    have hlong := CommentCut.line (hstart.append t)
    rw [lineRest_append_of_not_mem hs] at hlong
    rw [hcut]
    exact commentCut_iff.2 hlong
  | closed hslash =>
    subst hslash
    rcases hc with hc | hc <;> cases hc
  | other => cases hkind

end

end SafeAlter.Sql
