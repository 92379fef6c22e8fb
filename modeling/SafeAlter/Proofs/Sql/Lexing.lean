import SafeAlter.Sql.Script
import SafeAlter.Sql.TableName

/-! # Lexemes one after another

A row of lexemes of a text gives, lexeme by lexeme, rows of lexemes of what is left of the text.
What a lexeme can look like is told by its kind: words in backticks are closed, other words do not
open with a backtick or a mark, a comment opens with a plain character, and a period is nothing but
one.
-/
namespace SafeAlter.Sql
open SafeAlter.Text

/-- The lexemes of a text that is met right after a lexeme of a given kind, wherever that is. -/
def Lexed (previous : Option LexemeKind) (s : List Char) (ls : List Lexeme) : Prop :=
  ∃ place, lexemesFrom previous place s = .ok ls

theorem lexemes_of_isOk {s : List Char} (h : (lexemes s).isOk = true) :
    ∃ ls, lexemes s = .ok ls := by
  cases hls : lexemes s with
  | ok ls => exact ⟨ls, rfl⟩
  | error e =>
    rw [hls] at h
    cases h

theorem lexemesFrom_cons {previous : Option LexemeKind} {place : Location} {c : Char}
    {s : List Char} {k : Cut} {ls : List Lexeme} (hk : nextCut previous c s = .ok k)
    (h : lexemesFrom (some k.kind) (place.after k.piece.1) k.piece.2 = .ok ls) :
    lexemesFrom previous place (c :: s) = .ok (⟨k.kind, k.piece.1⟩ :: ls) := by
  rw [lexemesFrom]
  split
  · next stop he =>
    rw [hk] at he
    cases he
  · next k' he =>
    rw [hk] at he
    cases he
    rw [h]
    rfl

/-- Where a text is found matters to the errors in it only. -/
theorem lexemesFrom_place {previous : Option LexemeKind} {place place' : Location} {s : List Char}
    {ls : List Lexeme} (h : lexemesFrom previous place s = .ok ls) :
    lexemesFrom previous place' s = .ok ls := by
  fun_induction lexemesFrom previous place s generalizing place' ls with
  | case1 =>
    cases h
    rw [lexemesFrom]
  | case2 => cases h
  | case3 previous place c s k hk ih =>
    cases hr : lexemesFrom (some k.kind) (place.after k.piece.1) k.piece.2 with
    | error e =>
      rw [hr] at h
      cases h
    | ok rest =>
      rw [hr] at h
      cases h
      exact lexemesFrom_cons hk (ih hr)

namespace Lexed
variable {previous : Option LexemeKind} {c : Char} {s : List Char} {k : Cut} {l : Lexeme}
  {ls : List Lexeme}

theorem cons (hk : nextCut previous c s = .ok k) (h : Lexed (some k.kind) k.piece.2 ls) :
    Lexed previous (c :: s) (⟨k.kind, k.piece.1⟩ :: ls) := by
  obtain ⟨place, h⟩ := h
  exact ⟨place, lexemesFrom_cons hk (lexemesFrom_place h)⟩

theorem nil : Lexed previous [] [] := by
  refine ⟨.start, ?_⟩
  rw [lexemesFrom]

theorem spelled_eq (h : Lexed previous s ls) : spelled ls = s := by
  obtain ⟨place, h⟩ := h
  exact spelled_lexemesFrom h

theorem eq_nil (h : Lexed previous [] ls) : ls = [] := by
  obtain ⟨place, h⟩ := h
  rw [lexemesFrom] at h
  cases h
  rfl

/-- The first lexeme is the next cut, and the others are the lexemes of what the cut leaves. -/
theorem of_cons (h : Lexed previous (c :: s) ls) :
    ∃ k rest, nextCut previous c s = .ok k ∧ ls = ⟨k.kind, k.piece.1⟩ :: rest ∧
      Lexed (some k.kind) k.piece.2 rest := by
  obtain ⟨place, h⟩ := h
  rw [lexemesFrom] at h
  split at h
  · cases h
  · next k hk =>
    cases hr : lexemesFrom (some k.kind) (place.after k.piece.1) k.piece.2 with
    | error e =>
      rw [hr] at h
      cases h
    | ok rest =>
      rw [hr] at h
      cases h
      exact ⟨k, rest, hk, rfl, _, hr⟩

theorem head_cut (h : Lexed previous s (l :: ls)) :
    ∃ c t k, s = c :: t ∧ nextCut previous c t = .ok k ∧ l = ⟨k.kind, k.piece.1⟩ ∧
      k.piece.2 = spelled ls ∧ Lexed (some l.kind) (spelled ls) ls := by
  cases s with
  | nil => cases h.eq_nil
  | cons c t =>
    obtain ⟨k, rest, hk, he, hrest⟩ := h.of_cons
    cases he
    have hs := hrest.spelled_eq
    rw [← hs] at hrest
    exact ⟨c, t, k, rfl, hk, rfl, hs.symm, hrest⟩

theorem tail (h : Lexed previous s (l :: ls)) : Lexed (some l.kind) (spelled ls) ls := by
  obtain ⟨_, _, _, _, _, _, _, ht⟩ := h.head_cut
  exact ht

theorem of_append {gs : List Lexeme} (h : Lexed previous s (gs ++ ls)) :
    ∃ kind, Lexed kind (spelled ls) ls := by
  induction gs generalizing previous s with
  | nil =>
    rw [List.nil_append] at h
    exact ⟨previous, by rwa [h.spelled_eq]⟩
  | cons g gs ih => exact ih h.tail

theorem spelling_ne_nil (h : Lexed previous s ls) : ∀ l ∈ ls, l.spelling ≠ [] := by
  induction ls generalizing previous s with
  | nil => nofun
  | cons l ls ih =>
    obtain ⟨c, t, k, -, hk, rfl, -, htail⟩ := h.head_cut
    exact List.forall_mem_cons.2 ⟨(nextCut_join hk).2, ih htail⟩

end Lexed

/-! ## What a lexeme looks like -/

/-- What is known of a lexeme and of the text after it, by the kind of the lexeme. -/
inductive Lexeme.Shaped : Lexeme → List Char → Prop where
  | blank {text after : List Char} (h : ∀ c ∈ (trimStart text).head?, isPlain c = true) :
      Shaped ⟨.blank, text⟩ after
  | quoted {text after : List Char}
      (h : quotedRest '\x60' false (text ++ after) = some (text, after)) :
      Shaped ⟨.word true, '\x60' :: text⟩ after
  | bare {c : Char} {text after : List Char} (hc : c ∉ ['\x60', ',', ';', '(']) :
      Shaped ⟨.word false, c :: text⟩ after
  | period {after : List Char} : Shaped ⟨.period, ['.']⟩ after
  | terminator {text after : List Char} : Shaped ⟨.terminator, text⟩ after
  | other {text after : List Char} : Shaped ⟨.other, text⟩ after

/-- A word is written in backticks, or starts neither with one nor with a mark. -/
theorem Lexeme.Shaped.word_cases {l : Lexeme} {after : List Char} (h : l.Shaped after)
    (hw : Sql.isWord l.kind = true) :
    (∃ text, l = ⟨.word true, '\x60' :: text⟩ ∧
        quotedRest '\x60' false (text ++ after) = some (text, after)) ∨
      ∃ c text, l = ⟨.word false, c :: text⟩ ∧ c ∉ ['\x60', ',', ';', '('] := by
  cases h with
  | quoted hq => exact .inl ⟨_, rfl, hq⟩
  | bare hc => exact .inr ⟨_, _, rfl, hc⟩
  | blank => cases hw
  | period => cases hw
  | terminator => cases hw
  | other => cases hw

def LexemeKind.isNumeric : LexemeKind → Bool
  | .other | .word false => true
  | _ => false

theorem numberEnd_isNumeric (afterPeriod : Bool) (mantissa s : List Char) :
    (numberEnd afterPeriod mantissa s).kind.isNumeric = true := by
  unfold numberEnd
  grind [LexemeKind.isNumeric]

theorem digitCut_isNumeric (afterPeriod : Bool) (s : List Char) :
    (digitCut afterPeriod s).kind.isNumeric = true := by
  have hn := numberEnd_isNumeric
  unfold digitCut
  grind [LexemeKind.isNumeric]

theorem periodCut_kind {previous : Option LexemeKind} {s : List Char} {k : Cut}
    (h : periodCut previous s = .ok k) :
    (k.kind = .period ∧ k.piece.1 = ['.']) ∨ k.kind.isNumeric = true := by
  have hn := numberEnd_isNumeric
  unfold periodCut at h
  grind

theorem atCut_isNumeric (s : List Char) : (atCut s).kind.isNumeric = true := by
  unfold atCut
  repeat' split
  all_goals rfl

theorem stringCut_kind {start : List Char} {quote : Char} {escapes : Bool} {s : List Char}
    {k : Cut} (h : stringCut start quote escapes s = .ok k) : k.kind = .other := by
  unfold stringCut at h
  split at h
  · cases h
    rfl
  · cases h

theorem letterCut_isNumeric {c : Char} {s : List Char} {k : Cut} (h : letterCut c s = .ok k) :
    k.kind.isNumeric = true := by
  unfold letterCut at h
  split at h
  · cases h
    rfl
  · split at h
    · rw [stringCut_kind h]
      rfl
    · cases h
      rfl

/-- Where a comment starts that reaches to the end of the line. -/
def StartsLine (c : Char) (s : List Char) : Prop :=
  c = '#' ∨ c = '-' ∧ ['-', ' '] <+: s

/-- What is cut where a comment may start. -/
inductive CommentCut (c : Char) (s : List Char) : Cut → Prop where
  | line (hline : StartsLine c s) : CommentCut c s ⟨.blank, (lineRest s).cons c⟩
  | closed {t : List Char} {p : Piece} (hc : c = '/') (hs : s = '*' :: t)
      (hp : commentRest t = some p) : CommentCut c s ⟨.blank, (p.cons '*').cons c⟩
  | other (hline : ¬StartsLine c s) (hslash : ¬(c = '/' ∧ s.head? = some '*')) :
      CommentCut c s ⟨.other, operator c s⟩

theorem startsLine_iff {c : Char} {s : List Char} :
    (decide (c = '#') || decide (c = '-') && ['-', ' '].isPrefixOf s) = true ↔
      StartsLine c s := by
  rw [Bool.or_eq_true, Bool.and_eq_true, decide_eq_true_eq, decide_eq_true_eq,
    List.isPrefixOf_iff_prefix, StartsLine]

theorem commentCut_iff {c : Char} {s : List Char} {k : Cut} :
    commentCut c s = .ok k ↔ CommentCut c s k := by
  constructor
  · intro h
    unfold commentCut at h
    split at h
    · next hline =>
      cases h
      exact .line (startsLine_iff.1 hline)
    · next hline =>
      rw [startsLine_iff] at hline
      split at h
      · next t =>
        split at h
        · next p hp =>
          cases h
          exact .closed rfl rfl hp
        · cases h
      · next hslash =>
        cases h
        refine .other hline ?_
        rintro ⟨rfl, hs⟩
        obtain ⟨t, rfl⟩ := List.head?_eq_some_iff.1 hs
        exact hslash t rfl rfl
  · intro h
    unfold commentCut
    cases h with
    | line hline => rw [if_pos (startsLine_iff.2 hline)]
    | @closed t p hc hs hp =>
      subst hc hs
      have hline : ¬StartsLine '/' ('*' :: t) := by simp [StartsLine]
      rw [if_neg fun h => hline (startsLine_iff.1 h)]
      simp only [hp]
    | other hline hslash =>
      rw [if_neg fun h => hline (startsLine_iff.1 h)]
      split
      · next t => exact absurd ⟨rfl, rfl⟩ hslash
      · rfl

theorem CommentCut.blank_or_other {c : Char} {s : List Char} {k : Cut} (h : CommentCut c s k) :
    (k.kind = .blank ∧ isPlain c = true) ∨ k.kind = .other := by
  cases h with
  | line hline =>
    rcases hline with rfl | ⟨rfl, -⟩
    · exact .inl ⟨rfl, rfl⟩
    · exact .inl ⟨rfl, rfl⟩
  | closed hc =>
    subst hc
    exact .inl ⟨rfl, rfl⟩
  | other => exact .inr rfl

theorem isAlpha_iff_toNat {c : Char} :
    c.isAlpha = true ↔ (65 ≤ c.toNat ∧ c.toNat ≤ 90) ∨ (97 ≤ c.toNat ∧ c.toNat ≤ 122) :=
  Bool.or_eq_true_iff.trans <| or_congr decide_eq_true_iff <|
    Bool.and_eq_true_iff.trans (and_congr decide_eq_true_iff decide_eq_true_iff)

/-- What characters below a bound have in common is found by looking at all of them. -/
@[elab_as_elim]
theorem holds_of_toNat_lt {P : Char → Prop} {c : Char} {bound : Nat} (hc : c.toNat < bound)
    (h : ∀ n < bound, P (Char.ofNat n)) : P c := by
  have hp := h c.toNat hc
  rwa [Char.ofNat_toNat] at hp

theorem isNamePart_of_isAlpha {c : Char} (h : c.isAlpha = true) : isNamePart c = true := by
  simp [isNamePart, isNameStart, h]

theorem not_isBlank_of_isPlain {c : Char} (h : isPlain c = true) : isBlank c = false := by
  simp only [isPlain, Bool.and_eq_true, Bool.not_eq_true'] at h
  exact h.1

theorem shaped_of_isNumeric {c : Char} {k : Cut} {text : List Char}
    (hk : k.kind.isNumeric = true) (ht : k.piece.1 = c :: text)
    (hc : c ∉ ['\x60', ',', ';', '(']) :
    Lexeme.Shaped ⟨k.kind, k.piece.1⟩ k.piece.2 := by
  rw [ht]
  cases hkind : k.kind with
  | other => exact .other
  | word quoted =>
    cases quoted with
    | false => exact .bare hc
    | true => simp [hkind, LexemeKind.isNumeric] at hk
  | blank => simp [hkind, LexemeKind.isNumeric] at hk
  | period => simp [hkind, LexemeKind.isNumeric] at hk
  | terminator => simp [hkind, LexemeKind.isNumeric] at hk

theorem quotedCut_shaped {quote : Char} {s : List Char} {k : Cut}
    (h : quotedCut quote s = .ok k) : Lexeme.Shaped ⟨k.kind, k.piece.1⟩ k.piece.2 := by
  unfold quotedCut at h
  split at h
  · next hq =>
    subst hq
    split at h
    · next name rest hr =>
      cases h
      refine .quoted ?_
      rw [quotedRest_join hr]
      exact hr
    · cases h
  · rw [stringCut_kind h]
    exact .other

/-- What the next lexeme can be, by the character that it starts with. -/
inductive NextCut (previous : Option LexemeKind) (c : Char) (s : List Char) : Cut → Prop where
  | lineEnd {t : List Char} (hc : c = '\r') (hs : s = '\n' :: t) :
      NextCut previous c s ⟨.blank, (['\r', '\n'], t)⟩
  | blank (hsmall : c.toNat < 0x80) (hc : isBlank c = true) :
      NextCut previous c s ⟨.blank, ([c], s)⟩
  | quoted {k : Cut} (hk : quotedCut c s = .ok k) : NextCut previous c s k
  | numeric {k : Cut} (hk : k.kind.isNumeric = true) (hc : c ∉ ['\x60', ',', ';', '(']) :
      NextCut previous c s k
  | period {rest : List Char} : NextCut previous c s ⟨.period, (['.'], rest)⟩
  | terminator (hc : c = ';') : NextCut previous c s ⟨.terminator, ([';'], s)⟩
  | comment {k : Cut} (hk : CommentCut c s k) : NextCut previous c s k

theorem nextCut_cases {previous : Option LexemeKind} {c : Char} {s : List Char} {k : Cut}
    (h : nextCut previous c s = .ok k) : NextCut previous c s k := by
  have hmark : ∀ p : Char → Bool, ['\x60', ',', ';', '('].any p = false → p c = true →
      c ∉ ['\x60', ',', ';', '('] := by
    intro p hp hc hm
    exact List.any_eq_false.1 hp c hm hc
  unfold nextCut at h
  split at h
  · next hc =>
    simp only [Bool.and_eq_true, decide_eq_true_eq, List.isPrefixOf_iff_prefix] at hc
    obtain ⟨rfl, t, rfl⟩ := hc
    cases h
    exact .lineEnd rfl rfl
  split at h
  · next hc =>
    cases h
    obtain ⟨hsmall, hblank⟩ := Bool.and_eq_true_iff.1 hc
    exact .blank (of_decide_eq_true hsmall) hblank
  split at h
  · exact .quoted h
  split at h
  · next hc =>
    cases h
    exact .numeric (digitCut_isNumeric ..) (hmark isDigit rfl hc)
  split at h
  · next hc =>
    rcases periodCut_kind h with ⟨hk, hp⟩ | hk
    · obtain ⟨kind, front, rest⟩ := k
      cases hk
      cases hp
      exact .period
    · exact .numeric hk (hmark (· == '.') rfl (by simp [hc]))
  split at h
  · next hc =>
    cases h
    exact .numeric (atCut_isNumeric s) (hmark (· == '@') rfl (by simp [hc]))
  split at h
  · next hc => exact .numeric (letterCut_isNumeric h) (hmark isNameStart rfl hc)
  split at h
  · next hc =>
    cases h
    exact .numeric rfl (hmark (· == '?') rfl (by simp [hc]))
  split at h
  · next hc =>
    cases h
    subst hc
    exact .terminator rfl
  · exact .comment (commentCut_iff.1 h)

theorem nextCut_shaped {previous : Option LexemeKind} {c : Char} {s : List Char} {k : Cut}
    (h : nextCut previous c s = .ok k) : Lexeme.Shaped ⟨k.kind, k.piece.1⟩ k.piece.2 := by
  obtain ⟨text, ht⟩ : ∃ text, k.piece.1 = c :: text := by
    obtain ⟨hj, hn⟩ := nextCut_join h
    obtain ⟨d, text, hd⟩ := List.exists_cons_of_ne_nil hn
    rw [hd] at hj
    cases hj
    exact ⟨text, hd⟩
  cases nextCut_cases h with
  | lineEnd => exact .blank nofun
  | blank _ hc =>
    refine .blank ?_
    simp [trimStart, hc]
  | quoted hk => exact quotedCut_shaped hk
  | numeric hk hc => exact shaped_of_isNumeric hk ht hc
  | period => exact .period
  | terminator => exact .terminator
  | comment hk =>
    rcases hk.blank_or_other with ⟨hkind, hc⟩ | hkind
    · rw [hkind, ht]
      refine .blank ?_
      simpa [trimStart, not_isBlank_of_isPlain hc] using hc
    · rw [hkind]
      exact .other

theorem Lexed.head_shaped {previous : Option LexemeKind} {s : List Char} {l : Lexeme}
    {ls : List Lexeme} (h : Lexed previous s (l :: ls)) : l.Shaped (spelled ls) := by
  obtain ⟨_, _, k, _, hk, rfl, hr, _⟩ := h.head_cut
  rw [← hr]
  exact nextCut_shaped hk

end SafeAlter.Sql
