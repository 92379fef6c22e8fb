import SafeAlter.Proofs.Sql.Continued
import SafeAlter.Sql.AlterClause
import SafeAlter.Sql.OnlineHints

/-! # What a hinted statement asks for

A server reads lexemes, and of these only the ones in front of the first terminator. A statement
asks for a setting where the word for it and an equals sign stand next to each other there. The
hints are added to the text, and only for a setting whose phrase is nowhere in the text. So a hinted
statement asks for a setting if the statement did so by itself, or if the phrase is not in its text
and the end of the text is a place where more of the statement can be read; in all other cases, as
with the phrase in a string or with a line comment at the end, it does not ask for it.
-/
namespace SafeAlter.Sql
open SafeAlter.Text

inductive OnlineSetting where
  | algorithm
  | lock
  deriving DecidableEq, Repr

namespace OnlineSetting

def keyword : OnlineSetting → String
  | .algorithm => "ALGORITHM"
  | .lock => "LOCK"

def phrase : OnlineSetting → Phrase
  | .algorithm => algorithmPhrase
  | .lock => lockPhrase

end OnlineSetting

/-- The lexemes in front of the first terminator, without blank ones. -/
def statementLexemes (ls : List Lexeme) : List Lexeme :=
  (ls.takeWhile (!·.isTerminator)).filter (!·.isBlank)

/-- Whether a keyword and an equals sign stand next to each other. -/
def setsKeyword (keyword : String) : List Lexeme → Bool
  | l :: m :: ls => (l.isKeyword keyword && m.spelling == ['=']) || setsKeyword keyword (m :: ls)
  | _ => false

def asksFor (setting : OnlineSetting) (ls : List Lexeme) : Bool :=
  setsKeyword setting.keyword (statementLexemes ls)

/-- Whether a text can go on after its last lexeme and still be read as the same statement. -/
def takesMore (ls : List Lexeme) : Bool :=
  !ls.any Lexeme.isTerminator && !ls.getLast?.any Lexeme.isOpenComment

variable {keyword : String} {setting : OnlineSetting} {ls ms more : List Lexeme} {m : Lexeme}

theorem setsKeyword_append (hm : m.spelling ≠ ['=']) (ls ms : List Lexeme) :
    setsKeyword keyword (ls ++ m :: ms) =
      (setsKeyword keyword ls || setsKeyword keyword (m :: ms)) := by
  match ls with
  | [] => rfl
  | [l] => simp [setsKeyword, hm]
  | l :: k :: ls =>
    have ih := setsKeyword_append hm (k :: ls) ms
    simp only [List.cons_append] at ih ⊢
    rw [setsKeyword, setsKeyword, ih, Bool.or_assoc]

theorem setsKeyword_cons (hm : m.isKeyword keyword = false) (ms : List Lexeme) :
    setsKeyword keyword (m :: ms) = setsKeyword keyword ms := by
  cases ms with
  | nil => rfl
  | cons k ms => rw [setsKeyword, hm, Bool.false_and, Bool.false_or]

theorem statementLexemes_append (ls ms : List Lexeme) :
    statementLexemes (ls ++ ms) =
      statementLexemes ls ++ if ls.any Lexeme.isTerminator then [] else statementLexemes ms := by
  induction ls with
  | nil => rfl
  | cons l ls ih =>
    by_cases hl : l.isTerminator = true
    · simp [statementLexemes, hl]
    · simp only [statementLexemes, List.cons_append, List.takeWhile_cons, List.any_cons, hl,
        Bool.not_false, if_true, Bool.false_or, List.filter_cons] at ih ⊢
      split
      · rw [ih, List.cons_append]
      · exact ih

theorem statementLexemes_of_isBlank {l : Lexeme} (h : l.isBlank = true) :
    statementLexemes [l] = [] := by
  simp only [statementLexemes, List.takeWhile_cons]
  split <;> simp [h]

/-- Where a statement goes on, it asks for what it asked for before, and for what the added lexemes
ask for if more of it can be read. -/
theorem asksFor_continued {after : List Char} {ls' : List Lexeme}
    (h : Continued after more ls ls') :
    asksFor setting ls' = (asksFor setting ls || (takesMore ls && asksFor setting more)) := by
  cases h with
  | apart hls =>
    have hcomma : statementLexemes (⟨.other, [',']⟩ :: more) =
        ⟨.other, [',']⟩ :: statementLexemes more := rfl
    rw [asksFor, statementLexemes_append, hcomma]
    cases ht : ls.any Lexeme.isTerminator with
    | true => simp [asksFor, takesMore, ht]
    | false =>
      have hm : takesMore ls = true := by simp [takesMore, ht, hls]
      rw [hm, Bool.true_and, if_neg Bool.false_ne_true, setsKeyword_append (by decide),
        setsKeyword_cons rfl]
      rfl
  | @swallowed ls l hl =>
    have hl' : l.isBlank = true := by
      simp only [Lexeme.isOpenComment, Bool.and_eq_true] at hl
      exact hl.1.1
    have hm : takesMore (ls ++ [l]) = false := by simp [takesMore, hl]
    rw [hm, Bool.false_and, Bool.or_false, asksFor, asksFor, statementLexemes_append,
      statementLexemes_append, statementLexemes_of_isBlank hl', statementLexemes_of_isBlank rfl]
  | @joined ls sign hs =>
    have hsign : statementLexemes [⟨.other, sign⟩] = [⟨.other, sign⟩] := rfl
    have hword : statementLexemes (⟨.word false, sign ++ [',']⟩ :: more) =
        ⟨.word false, sign ++ [',']⟩ :: statementLexemes more := rfl
    have hkeyword : Lexeme.isKeyword ⟨.word false, sign ++ [',']⟩ setting.keyword = false := by
      rcases hs with rfl | rfl <;> cases setting <;> decide
    have hequals : sign ≠ ['='] ∧ sign ++ [','] ≠ ['='] := by
      rcases hs with rfl | rfl <;> decide
    rw [asksFor, asksFor, statementLexemes_append, statementLexemes_append, hsign, hword]
    cases ht : ls.any Lexeme.isTerminator with
    | true => simp [takesMore, ht]
    | false =>
      have hm : takesMore (ls ++ [⟨.other, sign⟩]) = true := by
        simp [takesMore, ht, Lexeme.isTerminator, Lexeme.isOpenComment, Lexeme.isBlank]
      rw [hm, Bool.true_and, if_neg Bool.false_ne_true, if_neg Bool.false_ne_true,
        setsKeyword_append hequals.2, setsKeyword_cons hkeyword, setsKeyword_append hequals.1]
      simp [setsKeyword, asksFor]

/-! ## The hints -/

def OnlineSetting.value : OnlineSetting → String
  | .algorithm => "INPLACE"
  | .lock => "NONE"

/-- The lexemes of a hint after its comma. -/
def OnlineSetting.hint (setting : OnlineSetting) : List Lexeme :=
  [⟨.blank, [' ']⟩, ⟨.word false, setting.keyword.toList⟩, ⟨.other, ['=']⟩,
    ⟨.word false, setting.value.toList⟩]

theorem Lexed.blank {after : List Char} (h : Lexed (some .blank) after ls)
    (kind : Option LexemeKind) : Lexed kind (' ' :: after) (⟨.blank, [' ']⟩ :: ls) := by
  have hcut : nextCut kind ' ' after = .ok ⟨.blank, ([' '], after)⟩ := rfl
  exact .cons hcut h

/-- Either no hint is missing, or those that are missing are added after a comma and a blank. -/
theorem missingHints_cases (s : List Char) :
    (missingHints s = [] ∧ ∀ setting : OnlineSetting, setting.phrase.occursIn s = true) ∨
      ∃ after more, missingHints s = ',' :: ' ' :: after ∧ '\n' ∉ after ∧
        (∀ kind, Lexed kind (' ' :: after) more) ∧
        ∀ setting : OnlineSetting, asksFor setting more = !setting.phrase.occursIn s := by
  cases ha : algorithmPhrase.occursIn s <;> cases hl : lockPhrase.occursIn s
  · right
    refine ⟨"ALGORITHM=INPLACE, LOCK=NONE".toList,
      OnlineSetting.algorithm.hint ++ ⟨.other, [',']⟩ :: OnlineSetting.lock.hint,
      by simp [missingHints, ha, hl], by decide, Lexed.blank ⟨.start, by decide +kernel⟩, ?_⟩
    rintro (_ | _) <;> simp only [OnlineSetting.phrase, ha, hl] <;> decide
  · right
    refine ⟨"ALGORITHM=INPLACE".toList, OnlineSetting.algorithm.hint,
      by simp [missingHints, ha, hl], by decide, Lexed.blank ⟨.start, by decide +kernel⟩, ?_⟩
    rintro (_ | _) <;> simp only [OnlineSetting.phrase, ha, hl] <;> decide
  · right
    refine ⟨"LOCK=NONE".toList, OnlineSetting.lock.hint,
      by simp [missingHints, ha, hl], by decide, Lexed.blank ⟨.start, by decide +kernel⟩, ?_⟩
    rintro (_ | _) <;> simp only [OnlineSetting.phrase, ha, hl] <;> decide
  · left
    refine ⟨by simp [missingHints, ha, hl], ?_⟩
    rintro (_ | _)
    · exact ha
    · exact hl

/-- A hinted statement is a row of lexemes if the statement is one. It asks for a setting exactly
if the statement did so by itself, or if the phrase for the setting is nowhere in its text and more
of the statement can be read at its end. -/
theorem hinted_asksFor_iff {statement : String} {ls : List Lexeme}
    (h : lexemes (dropTerminators (trim statement.toList)) = .ok ls) :
    ∃ hs, lexemes (withOnlineHints statement).toList = .ok hs ∧
      ∀ setting : OnlineSetting, asksFor setting hs = true ↔ asksFor setting ls = true ∨
        setting.phrase.occursIn (trim statement.toList) = false ∧ takesMore ls = true := by
  rw [withOnlineHints, String.toList_ofList, hinted]
  rcases missingHints_cases (trim statement.toList) with
    ⟨hnone, hphrase⟩ | ⟨after, more, hhints, hline, hmore, hasks⟩
  · refine ⟨ls, by rw [hnone, List.append_nil, h], fun setting => ?_⟩
    simp [hphrase setting]
  · obtain ⟨hs, ⟨place, hlexed⟩, hcont⟩ := Lexed.continued ⟨.start, h⟩ hline hmore
    refine ⟨hs, ?_, fun setting => ?_⟩
    · rw [hhints]
      exact lexemesFrom_place hlexed
    · rw [asksFor_continued hcont, hasks setting]
      simp [and_comm]

/-- A column added to a table asks for both settings once it is hinted. -/
theorem hinted_asksFor_column :
    ∃ hs, lexemes (withOnlineHints "ALTER TABLE t ADD c INT;").toList = .ok hs ∧
      ∀ setting : OnlineSetting, asksFor setting hs = true := by
  have hlexed : lexemes (dropTerminators (trim "ALTER TABLE t ADD c INT;".toList)) =
      .ok (["ALTER", "TABLE", "t", "ADD", "c"].flatMap (fun w =>
        [⟨.word false, w.toList⟩, ⟨.blank, [' ']⟩]) ++ [⟨.word false, "INT".toList⟩]) := by
    decide +kernel
  obtain ⟨hs, hlexemes, hasks⟩ := hinted_asksFor_iff hlexed
  refine ⟨hs, hlexemes, fun setting => (hasks setting).2 (.inr ⟨?_, by decide⟩)⟩
  cases setting <;> decide +kernel

/-- Whether a text asks for a setting, if it is a row of lexemes. -/
def textAsksFor? (setting : OnlineSetting) (text : String) : Option Bool :=
  (lexemes text.toList).toOption.map (asksFor setting)

/-- The phrase in a string keeps the hint away, and a line comment at the end takes it in: neither
hinted statement asks for a lock level. -/
theorem hinted_unheard :
    textAsksFor? .lock "ALTER TABLE t ADD c INT COMMENT 'LOCK=x'" = some false ∧
      textAsksFor? .lock (withOnlineHints "ALTER TABLE t ADD c INT COMMENT 'LOCK=x'") = some false ∧
      textAsksFor? .lock "ALTER TABLE t ADD c INT -- note" = some false ∧
      textAsksFor? .lock (withOnlineHints "ALTER TABLE t ADD c INT -- note") = some false := by
  decide +kernel

end SafeAlter.Sql
