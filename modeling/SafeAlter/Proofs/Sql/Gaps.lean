import SafeAlter.Proofs.Sql.Phrases
import SafeAlter.Proofs.Sql.Reread
import SafeAlter.Proofs.Text.Trimming

/-! # Gaps between words

Between two words stand blank lexemes, which are blank text or comments. A gap that is not blank
text shows, behind the blank text at its front, one of the marks that a comment opens with; and what
stands right in front of a word, be it blank text or the end of a comment, is no word character.
-/
namespace SafeAlter.Sql
open SafeAlter.Text

/-- The word characters below the bound from which every character belongs to a name. -/
theorem wordRanges_small :
    wordRanges.filter (·.1 < 0x80) = [(0x30, 0x39), (0x41, 0x5A), (0x5F, 0x5F), (0x61, 0x7A)] := by
  decide +kernel

theorem isNamePart_of_isWordCharacter {c : Char} (h : isWordCharacter c = true) :
    isNamePart c = true := by
  by_cases hlarge : 0x80 ≤ c.toNat
  · simp [isNamePart, isNameStart, hlarge]
  · obtain ⟨r, hr, hc⟩ := List.any_eq_true.1 h
    have hlow : r.1 < 0x80 := by
      simp only [Bool.and_eq_true, decide_eq_true_eq] at hc
      omega
    have hsmall : inRanges (wordRanges.filter (·.1 < 0x80)) c = true :=
      List.any_eq_true.2 ⟨r, List.mem_filter.2 ⟨hr, decide_eq_true hlow⟩, hc⟩
    rw [wordRanges_small] at hsmall
    have hname : inRanges [(0x30, 0x39), (0x41, 0x5A), (0x5F, 0x5F), (0x61, 0x7A)] c = true →
        isNamePart c = true :=
      holds_of_toNat_lt (Nat.lt_of_not_le hlarge) (by decide +kernel)
    exact hname hsmall

theorem not_isWordCharacter {c : Char} (h : isNamePart c = false) : isWordCharacter c = false := by
  refine Bool.eq_false_iff.2 fun hword => ?_
  rw [isNamePart_of_isWordCharacter hword] at h
  cases h

/-! ## The two ends of a comment -/

theorem getLast?_lineRest {s : List Char} (h : (lineRest s).2 ≠ []) :
    (lineRest s).1.getLast? = some '\n' := by
  fun_induction lineRest s with
  | case1 => exact absurd rfl h
  | case2 s => rfl
  | case3 c s hc ih =>
    have hlast := ih h
    rw [Piece.cons, List.getLast?_cons, hlast]
    rfl

theorem ClosesComment.getLast? {text : List Char} (h : ClosesComment text) :
    text.getLast? = some '/' := by
  induction h with
  | close => rfl
  | plain hend h ih => rw [List.getLast?_cons, ih]; rfl

section
variable {previous : Option LexemeKind} {c : Char} {s u : List Char} {k : Cut} {l : Lexeme}
  {ls gap : List Lexeme}

/-- A blank lexeme is blank text or opens with the mark of a comment, and it does not end in a word
character unless it is the end of the text. -/
theorem nextCut_blank (h : nextCut previous c s = .ok k) (hk : k.kind = .blank) :
    ((∀ d ∈ k.piece.1, isBlank d = true) ∨ c ∈ commentOpeners) ∧
      (k.piece.2 ≠ [] → ∀ d ∈ k.piece.1.getLast?, isWordCharacter d = false) := by
  cases nextCut_cases h with
  | lineEnd hc hs =>
    refine ⟨.inl (List.forall_mem_cons.2 ⟨rfl, List.forall_mem_singleton.2 rfl⟩), fun _ d hd => ?_⟩
    cases hd
    exact not_isWordCharacter rfl
  | blank hsmall hc =>
    refine ⟨.inl (List.forall_mem_singleton.2 hc), fun _ d hd => ?_⟩
    cases hd
    exact not_isWordCharacter ((standsOff_of_isBlank hsmall hc s).notInName c rfl)
  | quoted hq => rcases quotedCut_kind hq with hq | hq <;> rw [hq] at hk <;> cases hk
  | numeric hnumeric =>
    rw [hk] at hnumeric
    cases hnumeric
  | period => cases hk
  | terminator => cases hk
  | comment hcomment =>
    cases hcomment with
    | line hline =>
      refine ⟨.inr ?_, fun hrest d hd => ?_⟩
      · rcases hline.first with rfl | rfl <;> decide
      · rw [Piece.cons, List.getLast?_cons, getLast?_lineRest hrest] at hd
        cases hd
        exact not_isWordCharacter rfl
    | closed hc hs hp =>
      refine ⟨.inr (by rw [hc]; decide), fun _ d hd => ?_⟩
      have hlast := (closesComment_of_commentRest hp).getLast?
      rw [Piece.cons, Piece.cons, List.getLast?_cons, List.getLast?_cons, hlast] at hd
      cases hd
      exact not_isWordCharacter rfl
    | other => cases hk

theorem Lexed.head_blank (h : Lexed previous s (l :: ls)) (hl : l.isBlank = true) :
    ((∀ d ∈ l.spelling, Text.isBlank d = true) ∨ ∃ c t, l.spelling = c :: t ∧ c ∈ commentOpeners) ∧
      (spelled ls ≠ [] → ∀ d ∈ l.spelling.getLast?, isWordCharacter d = false) := by
  obtain ⟨c, t, k, rfl, hk, rfl, hrest, -⟩ := h.head_cut
  obtain ⟨hopens, hends⟩ := nextCut_blank hk (eq_of_beq hl)
  rw [hrest] at hends
  refine ⟨hopens.imp_right fun hc => ?_, hends⟩
  obtain ⟨hj, hne⟩ := nextCut_join hk
  obtain ⟨d, w, hd⟩ := List.exists_cons_of_ne_nil hne
  rw [hd, List.cons_append, List.cons_eq_cons] at hj
  exact ⟨c, w, by rw [← hj.1]; exact hd, hc⟩

/-- A gap is blank text or shows the mark of a comment behind the blank text at its front. -/
theorem Lexed.gap_opens (h : Lexed previous u (gap ++ ls)) (hgap : ∀ g ∈ gap, g.isBlank = true) :
    (∀ d ∈ spelled gap, Text.isBlank d = true) ∨
      ∃ c t, trimStart (spelled gap) = c :: t ∧ c ∈ commentOpeners := by
  induction gap generalizing previous u with
  | nil => exact .inl nofun
  | cons g gap ih =>
    obtain ⟨hg, hgap⟩ := List.forall_mem_cons.1 hgap
    rw [spelled_cons]
    rcases (h.head_blank hg).1 with hblank | ⟨c, t, hc, hopener⟩
    · have hstart : trimStart (g.spelling ++ spelled gap) = trimStart (spelled gap) :=
        List.dropWhile_append_of_pos hblank
      rw [hstart]
      refine (ih h.tail hgap).imp_left fun hrest d hd => ?_
      exact (List.mem_append.1 hd).elim (hblank d) (hrest d)
    · right
      have hsolid : ∀ e ∈ commentOpeners, Text.isBlank e = false :=
        List.all_iff_forall_prop.1 (by decide +kernel)
      rw [hc]
      exact ⟨c, t ++ spelled gap, trimStart_of_not_isBlank (hsolid c hopener) _, hopener⟩

/-- What stands right in front of a lexeme behind a gap is no word character. -/
theorem Lexed.gap_ends (h : Lexed previous u (gap ++ ls)) (hgap : ∀ g ∈ gap, g.isBlank = true)
    (hls : spelled ls ≠ []) : ∀ d ∈ (spelled gap).getLast?, isWordCharacter d = false := by
  rcases List.eq_nil_or_concat gap with rfl | ⟨front, g, rfl⟩
  · exact nofun
  · rw [List.concat_eq_append, List.append_assoc] at h
    obtain ⟨kind, hg⟩ := h.of_append
    have hne := hg.spelling_ne_nil g (List.mem_cons_self ..)
    obtain ⟨e, he⟩ : ∃ e, g.spelling.getLast? = some e := ⟨_, List.getLast?_eq_some_getLast hne⟩
    have hlast : (spelled (front.concat g)).getLast? = some e := by
      rw [List.concat_eq_append, spelled_append, List.getLast?_append, spelled_cons]
      simp [spelled, he]
    rw [hlast]
    rintro d ⟨⟩
    exact (hg.head_blank (hgap g (by simp))).2 hls e he

/-- A lexeme that is a keyword has letters only, and nothing that belongs to a name follows it. -/
theorem Lexed.head_keyword (h : Lexed previous s (l :: ls)) {keyword : String}
    (hk : IsCapital keyword) (hl : l.isKeyword keyword = true) :
    (∃ c w, l.spelling = c :: w ∧ ∀ d ∈ c :: w, d.isAlpha = true) ∧
      ∀ d ∈ (spelled ls).head?, isNamePart d = false := by
  obtain ⟨c, t, k, rfl, hcut, rfl, hrest, -⟩ := h.head_cut
  obtain ⟨d, w, hkeyword, hfirst, hupper⟩ := hk.eq_cons
  have hlower : lowerCase k.piece.1 = lowerCase (d :: w) := by
    rw [← hkeyword]
    exact eq_of_beq (Bool.and_eq_true_iff.1 hl).2
  have halpha : ∀ e ∈ k.piece.1, e.isAlpha = true := by
    refine isAlpha_of_lowerCase hlower (List.all_eq_true.2 fun e he => ?_)
    obtain ⟨f, hf, rfl⟩ := List.mem_map.1 he
    exact isAlpha_toLower (hupper f hf)
  obtain ⟨e, v, hspelling, he, -⟩ := List.map_eq_cons_iff.1 hlower
  have hj := (nextCut_join hcut).1
  rw [hspelling, List.cons_append, List.cons_eq_cons] at hj
  obtain ⟨rfl, -⟩ := hj
  rw [hspelling] at halpha
  have hmark : e.toLower ∉ ['b', 'n', 'x'] := by
    have hcapital : ∀ f ∈ ['b', 'n', 'x'], f.toLower = f ∧ f.toUpper ∈ ['B', 'N', 'X'] :=
      List.all_iff_forall_prop.1 (by decide +kernel)
    intro hmem
    obtain ⟨hsmall, hbig⟩ := hcapital _ hmem
    rw [toUpper_of_toLower (hupper d (List.mem_cons_self ..)) (hsmall.trans he)] at hbig
    exact hfirst hbig
  cases (nextCut_of_isAlpha (halpha e (List.mem_cons_self ..)) hmark).symm.trans hcut
  refine ⟨⟨e, v, hspelling, halpha⟩, fun f hf => ?_⟩
  rw [← hrest] at hf
  have hnot := List.head?_dropWhile_not isNamePart t
  have hhead : (t.dropWhile isNamePart).head? = some f := hf
  rw [hhead] at hnot
  simpa using hnot

end

end SafeAlter.Sql
