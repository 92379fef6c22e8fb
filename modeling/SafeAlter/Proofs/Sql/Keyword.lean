import SafeAlter.Proofs.Sql.Lexing
import SafeAlter.Proofs.Text.Cutting
import SafeAlter.Sql.AlterClause

/-! # The lexemes of a statement's beginning

A text that begins with ALTER TABLE, in any letter case, has these two words and one blank as its
first lexemes, but for the letters, digits and the like that directly follow: these belong to the
second word.
-/
namespace SafeAlter.Sql
open SafeAlter.Text

section Letters
variable {c d : Char}

theorem isAlpha_of_toLower (h : c.toLower.isAlpha = true) : c.isAlpha = true := by
  unfold Char.toLower at h
  split at h
  · next hc => exact isAlpha_iff_toNat.2 (.inl hc)
  · exact h

theorem toNat_toLower (c : Char) :
    c.toLower.toNat = if 65 ≤ c.toNat ∧ c.toNat ≤ 90 then c.toNat + 32 else c.toNat := by
  have hval : c.val.toNat = c.toNat := rfl
  unfold Char.toLower
  split
  · next h =>
    have hc : 65 ≤ c.toNat ∧ c.toNat ≤ 90 := h
    rw [if_pos hc]
    change (c.val + 32).toNat = c.toNat + 32
    rw [UInt32.toNat_add, hval]
    simp only [UInt32.reduceToNat]
    omega
  · next h =>
    have hc : ¬(65 ≤ c.toNat ∧ c.toNat ≤ 90) := h
    rw [if_neg hc]

theorem toNat_toUpper (c : Char) :
    c.toUpper.toNat = if 97 ≤ c.toNat ∧ c.toNat ≤ 122 then c.toNat - 32 else c.toNat := by
  have hval : c.val.toNat = c.toNat := rfl
  unfold Char.toUpper
  split
  · next h =>
    have hc : 97 ≤ c.toNat ∧ c.toNat ≤ 122 := h
    have hstep : 'A'.val - 'a'.val = 0xFFFFFFE0 := by decide
    rw [if_pos hc]
    change (c.val + ('A'.val - 'a'.val)).toNat = c.toNat - 32
    rw [hstep, UInt32.toNat_add, hval]
    simp only [UInt32.reduceToNat]
    omega
  · next h =>
    have hc : ¬(97 ≤ c.toNat ∧ c.toNat ≤ 122) := h
    rw [if_neg hc]

theorem isAlpha_toLower (h : c.isUpper = true) : c.toLower.isAlpha = true := by
  have hupper : 65 ≤ c.toNat ∧ c.toNat ≤ 90 := of_decide_eq_true h
  have hlower := toNat_toLower c
  rw [if_pos hupper] at hlower
  exact isAlpha_iff_toNat.2 (.inr (by omega))

theorem eq_space_of_toLower (h : c.toLower = ' ') : c = ' ' := by
  have hspace : c.toLower.toNat = 32 := by rw [h]; rfl
  rw [toNat_toLower] at hspace
  refine Char.toNat_inj.1 (?_ : c.toNat = 32)
  split at hspace <;> omega

theorem toUpper_of_toLower (hd : d.isUpper = true) (h : c.toLower = d.toLower) : c.toUpper = d := by
  have hupper : 65 ≤ d.toNat ∧ d.toNat ≤ 90 := of_decide_eq_true hd
  have hlower := congrArg Char.toNat h
  rw [toNat_toLower, toNat_toLower, if_pos hupper] at hlower
  rw [← Char.toNat_inj, toNat_toUpper]
  split at hlower <;> split <;> omega

/-- The only blank characters of ASCII are the space and control characters. -/
theorem not_isBlank_of_toNat (hl : 33 ≤ c.toNat) (hu : c.toNat < 0x80) : isBlank c = false := by
  refine Bool.eq_false_iff.2 fun hb => ?_
  simp only [isBlank, inRanges, blankRanges, List.any_cons, List.any_nil, Bool.or_eq_true,
    Bool.and_eq_true, decide_eq_true_eq, Bool.false_eq_true, or_false] at hb
  omega

theorem not_isBlank_of_isAlpha (h : c.isAlpha = true) : isBlank c = false := by
  have hc := isAlpha_iff_toNat.1 h
  exact not_isBlank_of_toNat (by omega) (by omega)

theorem toNat_of_isDigit (h : isDigit c = true) : 48 ≤ c.toNat ∧ c.toNat ≤ 57 := by
  simp only [isDigit, Char.isDigit, Bool.and_eq_true, decide_eq_true_eq] at h
  exact h

theorem not_isBlank_of_isDigit (h : isDigit c = true) : isBlank c = false := by
  have hc := toNat_of_isDigit h
  exact not_isBlank_of_toNat (by omega) (by omega)

theorem not_isDigit_of_isAlpha (h : c.isAlpha = true) : isDigit c = false := by
  have hc := isAlpha_iff_toNat.1 h
  refine Bool.eq_false_iff.2 fun hd => ?_
  have hdigit := toNat_of_isDigit hd
  omega

theorem ne_of_isAlpha (h : c.isAlpha = true) (hd : d.isAlpha = false) : c ≠ d := by
  rintro rfl
  rw [h] at hd
  contradiction

theorem stringMark_eq_none {quote : Char} (h : c.toLower ∉ ['b', 'n', 'x']) :
    stringMark c quote = none := by
  have hne : ∀ d : Char, d.toLower ∈ ['b', 'n', 'x'] → c ≠ d := by
    rintro d hd rfl
    exact h hd
  simp [stringMark, hne 'b' (by decide), hne 'B' (by decide), hne 'n' (by decide),
    hne 'N' (by decide), hne 'x' (by decide), hne 'X' (by decide)]

end Letters

theorem nextCut_letter {previous : Option LexemeKind} {c : Char} {s : List Char}
    (h : c.isAlpha = true) : nextCut previous c s = letterCut c s := by
  have hn : isNameStart c = true := by simp [isNameStart, h]
  have hr : c ≠ '\r' := ne_of_isAlpha h rfl
  have hq : c ≠ '\x27' := ne_of_isAlpha h rfl
  have hqq : c ≠ '\x22' := ne_of_isAlpha h rfl
  have hb : c ≠ '\x60' := ne_of_isAlpha h rfl
  have hp : c ≠ '.' := ne_of_isAlpha h rfl
  have ha : c ≠ '@' := ne_of_isAlpha h rfl
  simp [nextCut, not_isBlank_of_isAlpha h, not_isDigit_of_isAlpha h, hn, hr, hq, hqq, hb, hp, ha]

theorem nextCut_of_isAlpha {previous : Option LexemeKind} {c : Char} {s : List Char}
    (h : c.isAlpha = true) (hm : c.toLower ∉ ['b', 'n', 'x']) :
    nextCut previous c s = .ok (wordCut [c] s) := by
  rw [nextCut_letter h]
  unfold letterCut
  split
  · rfl
  · rw [stringMark_eq_none hm]

/-- A text whose beginning is a keyword up to letter case starts with a word that begins with the
keyword and goes on as long as there are characters for it. -/
theorem Lexed.of_keyword {previous : Option LexemeKind} {c : Char} {w s : List Char}
    {ls : List Lexeme} (hw : ∀ d ∈ c :: w, d.isAlpha = true) (hm : c.toLower ∉ ['b', 'n', 'x'])
    (h : Lexed previous (c :: w ++ s) ls) :
    ∃ rest, ls = ⟨.word false, c :: w ++ s.takeWhile isNamePart⟩ :: rest ∧
      Lexed (some (.word false)) (s.dropWhile isNamePart) rest := by
  obtain ⟨k, rest, hk, rfl, hrest⟩ := h.of_cons
  have hp : ∀ d ∈ w, isNamePart d = true := fun d hd =>
    isNamePart_of_isAlpha (hw d (List.mem_cons_of_mem c hd))
  rw [nextCut_of_isAlpha (hw c (List.mem_cons_self ..)) hm] at hk
  cases hk
  refine ⟨rest, ?_, ?_⟩
  · simp [wordCut, stretch, List.takeWhile_append_of_pos hp]
  · simpa [wordCut, stretch, List.dropWhile_append_of_pos hp] using hrest

theorem Lexed.of_space {previous : Option LexemeKind} {s : List Char} {ls : List Lexeme}
    (h : Lexed previous (' ' :: s) ls) :
    ∃ rest, ls = ⟨.blank, [' ']⟩ :: rest ∧ Lexed (some .blank) s rest := by
  obtain ⟨k, rest, hk, rfl, hrest⟩ := h.of_cons
  have hs : nextCut previous ' ' s = .ok ⟨.blank, ([' '], s)⟩ := rfl
  rw [hs] at hk
  cases hk
  exact ⟨rest, rfl, hrest⟩

theorem eq_append_of_afterAlterTable {s u : List Char}
    (h : afterIgnoringCase? "ALTER TABLE".toList s = some u) :
    ∃ a t, s = a ++ ' ' :: t ++ u ∧ lowerCase a = "alter".toList ∧
      lowerCase t = "table".toList := by
  obtain ⟨verb, rfl, hverb⟩ := afterIgnoringCase?_eq_some_iff.1 h
  have hlower : lowerCase verb = "alter".toList ++ ' ' :: "table".toList := (eq_of_beq hverb).symm
  obtain ⟨a, b, rfl, ha, hb⟩ := List.map_eq_append_iff.1 hlower
  obtain ⟨c, t, rfl, hc, ht⟩ := List.map_eq_cons_iff.1 hb
  exact ⟨a, t, by rw [eq_space_of_toLower hc], ha, ht⟩

theorem alterTable_eq_cons {verb : List Char}
    (h : sameIgnoringCase "ALTER TABLE".toList verb = true) :
    ∃ c t, verb = c :: t ∧ isBlank c = false := by
  obtain ⟨c, t, hverb, hc, -⟩ := List.map_eq_cons_iff.1 (eq_of_beq h).symm
  exact ⟨c, t, hverb, not_isBlank_of_isAlpha (isAlpha_of_toLower (by rw [hc]; rfl))⟩

theorem isAlpha_of_lowerCase {w k : List Char} (h : lowerCase w = k)
    (hk : k.all Char.isAlpha = true) : ∀ d ∈ w, d.isAlpha = true := by
  intro d hd
  refine isAlpha_of_toLower (List.all_eq_true.1 hk _ ?_)
  rw [← h]
  exact List.mem_map_of_mem hd

/-- The first lexemes of a text that begins with ALTER TABLE. -/
theorem Lexed.of_alterTable {s u : List Char} {ls : List Lexeme}
    (hs : afterIgnoringCase? "ALTER TABLE".toList s = some u) (h : Lexed none s ls) :
    ∃ a t rest, lowerCase a = "alter".toList ∧ lowerCase t = "table".toList ∧
      ls = ⟨.word false, a⟩ :: ⟨.blank, [' ']⟩ :: ⟨.word false, t ++ u.takeWhile isNamePart⟩ ::
        rest ∧
      Lexed (some (.word false)) (u.dropWhile isNamePart) rest := by
  obtain ⟨a, t, rfl, ha, ht⟩ := eq_append_of_afterAlterTable hs
  have haa := isAlpha_of_lowerCase ha rfl
  have hta := isAlpha_of_lowerCase ht rfl
  obtain ⟨c, a, rfl, hc, -⟩ := List.map_eq_cons_iff.1 ha
  obtain ⟨d, t, rfl, hd, -⟩ := List.map_eq_cons_iff.1 ht
  rw [List.append_assoc] at h
  obtain ⟨_, rfl, hblank⟩ := h.of_keyword haa (by rw [hc]; decide)
  obtain ⟨_, rfl, htable⟩ := hblank.of_space
  obtain ⟨rest, rfl, hrest⟩ := htable.of_keyword hta (by rw [hd]; decide)
  have hspace : isNamePart ' ' = false := by decide
  exact ⟨c :: a, d :: t, rest, ha, ht, by simp [hspace], hrest⟩

end SafeAlter.Sql
