import SafeAlter.Proofs.Sql.Gaps
import SafeAlter.Proofs.Sql.NameAndClause
import SafeAlter.Proofs.Sql.WrittenName
import SafeAlter.Sql.CopyOperation

/-! # Statements as they are written

An ALTER TABLE statement is written as its two words, a name and a clause, with blank text around
each of them. What is read from it is the name as it was meant, whatever stands between the
backticks, and the clause: neither has a say in what the other one is.
-/
namespace SafeAlter.Sql
open SafeAlter.Text

/-- An ALTER TABLE statement, as it is written. -/
structure WrittenStatement where
  lead : List Char
  lead_blank : ∀ c ∈ lead, isBlank c = true
  verb : List Char
  verb_says : sameIgnoringCase "ALTER TABLE".toList verb = true
  before : List Char
  before_gap : before ≠ [] ∧ ∀ c ∈ before, c ∈ gapCharacters
  name : WrittenName
  behind : List Char
  behind_gap : behind ≠ [] ∧ ∀ c ∈ behind, c ∈ gapCharacters
  clause : List Char
  trail : List Char
  trail_blank : ∀ c ∈ trail, isBlank c = true

theorem isBlank_of_gap {g : List Char} (h : ∀ c ∈ g, c ∈ gapCharacters) :
    ∀ c ∈ g, isBlank c = true := by
  intro c hc
  have hall : ∀ d ∈ gapCharacters, isBlank d = true :=
    List.all_iff_forall_prop.1 (by decide +kernel)
  exact hall c (h c hc)

theorem isNamePart_of_gap {c : Char} (h : c ∈ gapCharacters) : isNamePart c = false := by
  have hall : ∀ d ∈ gapCharacters, isNamePart d = false :=
    List.all_iff_forall_prop.1 (by decide +kernel)
  exact hall c h

theorem WrittenWord.ends_solid (w : WrittenWord) :
    ∃ front c, w.spelling = front ++ [c] ∧ isBlank c = false := by
  cases w with
  | quoted text nonempty unquoted => exact ⟨'\x60' :: text, '\x60', rfl, rfl⟩
  | plain first more starts continues =>
    have hne : first :: more ≠ [] := List.cons_ne_nil _ _
    have hlast := isPlainPart_plain starts continues _ (List.getLast_mem hne)
    exact ⟨_, _, (List.dropLast_concat_getLast hne).symm,
      not_isBlank_of_isPlain (isPlain_of_isPlainPart hlast)⟩

theorem WrittenName.ends_solid (n : WrittenName) :
    ∃ front c, n.spelling = front ++ [c] ∧ isBlank c = false := by
  obtain ⟨database, table⟩ := n
  obtain ⟨front, c, htable, hc⟩ := table.ends_solid
  cases database with
  | none => exact ⟨front, c, htable, hc⟩
  | some d =>
    refine ⟨d.spelling ++ '.' :: front, c, ?_, hc⟩
    simp [spelling, htable]

theorem isKeyword_of_lowerCase {w : List Char} {keyword : String}
    (h : lowerCase w = lowerCase keyword.toList) :
    Lexeme.isKeyword ⟨.word false, w⟩ keyword = true := by
  simp [Lexeme.isKeyword, sameIgnoringCase, h]

theorem header_of_words {a t first : Lexeme} {gap after : List Lexeme}
    (ha : a.isKeyword "ALTER" = true) (ht : t.isKeyword "TABLE" = true)
    (hgap : ∀ l ∈ gap, l.isBlank = true) (hfirst : first.isWord = true) :
    header? (a :: ⟨.blank, [' ']⟩ :: t :: (gap ++ first :: after)) =
      some (Header.withFirst gap first after) := by
  have hfront : IsFront gap ([] ++ a :: ([⟨.blank, [' ']⟩] ++ t :: gap)) :=
    .intro (List.forall_mem_nil _) ha (List.forall_mem_singleton.2 rfl) ht hgap
  simpa using hfront.header? hfirst after

namespace WrittenStatement

def text (w : WrittenStatement) : String :=
  String.ofList
    (w.lead ++ (w.verb ++ w.before ++ w.name.spelling ++ w.behind ++ w.clause) ++ w.trail)

/-- What follows the name in the trimmed text. -/
def afterName (w : WrittenStatement) : List Char :=
  trimEnd (w.behind ++ w.clause)

def afterVerb (w : WrittenStatement) : List Char :=
  w.before ++ (w.name.spelling ++ w.afterName)

variable (w : WrittenStatement)

theorem trim_text : trim w.text.toList = w.verb ++ w.afterVerb := by
  obtain ⟨c, s, hverb, hc⟩ := alterTable_eq_cons w.verb_says
  obtain ⟨front, d, hname, hd⟩ := w.name.ends_solid
  have htext : w.verb ++ w.before ++ w.name.spelling ++ w.behind ++ w.clause =
      (w.verb ++ w.before ++ front) ++ d :: (w.behind ++ w.clause) := by
    simp [hname]
  have hstart : trimStart (w.verb ++ w.before ++ front ++ d :: (w.behind ++ w.clause)) =
      w.verb ++ w.before ++ front ++ d :: (w.behind ++ w.clause) := by
    rw [hverb]
    exact trimStart_of_not_isBlank hc _
  rw [text, String.toList_ofList, trim_append w.lead_blank w.trail_blank, htext, trim, hstart,
    trimEnd, dropEndWhile_cons hd, ← trimEnd]
  simp [afterVerb, afterName, hname]

theorem head_afterName : ∀ c ∈ w.afterName.head?, c ∈ gapCharacters := by
  obtain ⟨b, s, hb⟩ := List.exists_cons_of_ne_nil w.behind_gap.1
  have hfront : w.afterName <+: w.behind ++ w.clause := List.rdropWhile_prefix ..
  intro c hc
  obtain ⟨t, ht⟩ := List.head?_eq_some_iff.1 hc
  rw [ht, hb, List.cons_append, List.cons_prefix_cons] at hfront
  rw [hfront.1]
  exact w.behind_gap.2 b (by rw [hb]; exact List.mem_cons_self ..)

theorem trim_afterName : trim w.afterName = trim w.clause := by
  have hclause := trim_append (isBlank_of_gap w.behind_gap.2) (List.forall_mem_nil _) w.clause
  rw [List.append_nil] at hclause
  rw [afterName, trim_trimEnd, hclause]

/-- The lexemes of a written statement start with the header of its name. -/
theorem headerOf_text {ls : List Lexeme} (hl : lexemes (trim w.text.toList) = .ok ls) :
    ∃ gap rest, headerOf? w.text = some (w.name.header gap rest) ∧
      (∀ c ∈ spelled gap, isBlank c = true) ∧ spelled rest = w.afterName := by
  have hverb := afterIgnoringCase_append w.verb_says w.afterVerb
  rw [← trim_text] at hverb
  have hlexed : Lexed none (trim w.text.toList) ls := ⟨_, hl⟩
  obtain ⟨a, t, tail, ha, ht, rfl, htail⟩ := hlexed.of_alterTable hverb
  obtain ⟨b, s, hb⟩ := List.exists_cons_of_ne_nil w.before_gap.1
  have hb' : isNamePart b = false :=
    isNamePart_of_gap (w.before_gap.2 b (by rw [hb]; exact List.mem_cons_self ..))
  have htake : w.afterVerb.takeWhile isNamePart = [] := by simp [afterVerb, hb, hb']
  have hdrop : w.afterVerb.dropWhile isNamePart = w.afterVerb := by simp [afterVerb, hb, hb']
  rw [hdrop] at htail
  obtain ⟨gap, named, _, rfl, hblank, hgap, hnamed⟩ := htail.of_gap w.before_gap.2
  obtain ⟨first, after, rest, rfl, hfirst, hrest, hheader⟩ :=
    w.name.lexed_header w.head_afterName hnamed
  refine ⟨gap, rest, ?_, ?_, hrest⟩
  · have halter : Lexeme.isKeyword ⟨.word false, a⟩ "ALTER" = true := isKeyword_of_lowerCase ha
    have htable : Lexeme.isKeyword ⟨.word false, t⟩ "TABLE" = true := isKeyword_of_lowerCase ht
    rw [htake, List.append_nil] at hl
    simp only [headerOf?, hl]
    rw [header_of_words halter htable hblank hfirst, hheader]
  · rw [hgap]
    exact isBlank_of_gap w.before_gap.2

/-- A written statement is read back: the name is the one that was written, and the clause is the
one that was written without what is blank around it and without its terminators. Neither it nor
what is told from it depends on anything but the clause. -/
theorem read_back (ht : ∃ ls, lexemes (trim w.text.toList) = .ok ls) :
    extractTableName w.text = .ok w.name.name ∧
      alterClause w.text = String.ofList (dropTerminators (trim w.clause)) ∧
      ∀ v : WrittenStatement, (∃ ls, lexemes (trim v.text.toList) = .ok ls) → v.clause = w.clause →
        alterClause v.text = alterClause w.text ∧
          blockingOperation (alterClause v.text) = blockingOperation (alterClause w.text) := by
  have hread : ∀ u : WrittenStatement, (∃ ls, lexemes (trim u.text.toList) = .ok ls) →
      extractTableName u.text = .ok u.name.name ∧
        alterClause u.text = String.ofList (dropTerminators (trim u.clause)) := by
    rintro u ⟨ls, hl⟩
    obtain ⟨gap, rest, hheader, hgap, hrest⟩ := u.headerOf_text hl
    have hplain : (u.name.header gap rest).IsPlain := by
      refine u.name.isPlain_header hgap ?_
      rw [hrest]
      exact u.head_afterName
    have hverb : (afterAlterTable? (trim u.text.toList)).isSome = true := by
      rw [trim_text, afterAlterTable?, afterIgnoringCase_append u.verb_says]
      rfl
    constructor
    · rw [(hplain.readings_agree hverb hheader).2, u.name.name_header]
    · rw [alterClause_of_header hheader, u.name.rest_header, hrest, trim_afterName]
  obtain ⟨hname, hclause⟩ := hread w ht
  refine ⟨hname, hclause, fun v hv hsame => ?_⟩
  have hequal : alterClause v.text = alterClause w.text := by
    rw [(hread v hv).2, hclause, hsame]
  exact ⟨hequal, congrArg blockingOperation hequal⟩

def clauseLike : List Char :=
  "x; MODIFY c\n日本.".toList

theorem clauseLike_quotable : clauseLike ≠ [] ∧ '\x60' ∉ clauseLike := by
  decide +kernel

/-- A statement on a table whose database is called like a clause, with line ends in it. -/
def keywordNamed : WrittenStatement where
  lead := ['\n']
  lead_blank := List.forall_mem_singleton.2 rfl
  verb := "aLTER Table".toList
  verb_says := rfl
  before := [' ', '\t']
  before_gap := by simp [gapCharacters]
  name := ⟨some (.quoted clauseLike clauseLike_quotable.1 clauseLike_quotable.2),
    .plain 't' "$1_b".toList (.inl rfl) (List.all_eq_true.1 rfl)⟩
  behind := ['\n']
  behind_gap := by simp [gapCharacters]
  clause := " ADD c TEXT COMMENT 'CHANGE ;' ;; ".toList
  trail := ['\u3000']
  trail_blank := List.forall_mem_singleton.2 rfl

def plainNamed : WrittenStatement :=
  { keywordNamed with name := ⟨none, .plain '_' [] (.inr rfl) (List.forall_mem_nil _)⟩ }

theorem read_back_keywordNamed :
    extractTableName keywordNamed.text = .ok ⟨some "x; MODIFY c\n日本.", "t$1_b"⟩ ∧
      alterClause keywordNamed.text = "ADD c TEXT COMMENT 'CHANGE ;'" ∧
      alterClause plainNamed.text = alterClause keywordNamed.text := by
  have hkeyword := lexemes_of_isOk (s := trim keywordNamed.text.toList) (by decide +kernel)
  have hplain := lexemes_of_isOk (s := trim plainNamed.text.toList) (by decide +kernel)
  obtain ⟨hname, hclause, hsame⟩ := keywordNamed.read_back hkeyword
  refine ⟨hname, hclause.trans ?_, (hsame plainNamed hplain rfl).1⟩
  decide +kernel

end WrittenStatement

end SafeAlter.Sql
