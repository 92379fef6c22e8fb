import SafeAlter.Proofs.Sql.Nameless
import SafeAlter.Proofs.Sql.WrittenName
import SafeAlter.Sql.AlterClause

/-! # Clauses found by their words

The clause of a text that is no row of lexemes is found among the words of the text. It is what
follows the name from the first word on that starts like an alteration, and all of it where no word
does, with its words in their order; it is that text as it stands if the blank characters in it are
single spaces. A name with blank text between its backticks is several words: it stays out of the
clause where none of them but the first starts like an alteration and a later word does.
-/
namespace SafeAlter.Sql
open SafeAlter.Text

/-! ## Names of any spelling -/

/-- One word of a name, as it is written: plain, or up to the backtick that closes it. -/
inductive SpellsWord : List Char → Prop where
  | plain {text : List Char} (nonempty : text ≠ []) (h : ∀ c ∈ text, isPlain c = true) :
      SpellsWord text
  | quoted {text : List Char} (h : ClosedBy '\x60' false text) : SpellsWord ('\x60' :: text)

inductive SpellsName : List Char → Prop where
  | table {t : List Char} (ht : SpellsWord t) : SpellsName t
  | qualified {d t : List Char} (hd : SpellsWord d) (ht : SpellsWord t) :
      SpellsName (d ++ '.' :: t)

theorem SpellsWord.eq_cons {s : List Char} (h : SpellsWord s) :
    ∃ c t, s = c :: t ∧ isBlank c = false := by
  cases h with
  | plain nonempty hplain =>
    obtain ⟨c, t, rfl⟩ := List.exists_cons_of_ne_nil nonempty
    exact ⟨c, t, rfl, not_isBlank_of_isPlain (hplain c List.mem_cons_self)⟩
  | quoted => exact ⟨_, _, rfl, rfl⟩

theorem SpellsName.eq_cons {s : List Char} (h : SpellsName s) :
    ∃ c t, s = c :: t ∧ isBlank c = false := by
  cases h with
  | table ht => exact ht.eq_cons
  | qualified hd =>
    obtain ⟨c, t, rfl, hc⟩ := hd.eq_cons
    exact ⟨c, _, rfl, hc⟩

/-- An ALTER TABLE text with a name, whatever follows the name. -/
structure NamedText where
  lead : List Char
  lead_blank : ∀ c ∈ lead, isBlank c = true
  verb : List Char
  verb_says : SaysAlterTable verb
  before : List Char
  before_blank : before ≠ [] ∧ ∀ c ∈ before, isBlank c = true
  name : List Char
  name_spelled : SpellsName name
  behind : List Char
  behind_blank : behind ≠ [] ∧ ∀ c ∈ behind, isBlank c = true
  rest : List Char

/-- A part of a text that begins with the first word that starts like an alteration, or all of the
text if no word does. -/
inductive IsAlterationOf (rest : List Char) : List Char → Prop where
  | whole (h : ∀ word ∈ words rest, startsAlteration word = false) : IsAlterationOf rest rest
  | behind {skipped kept word : List Char} {ws : List (List Char)} (hrest : rest = skipped ++ kept)
      (hwords : words rest = words skipped ++ words kept)
      (hskipped : ∀ word ∈ words skipped, startsAlteration word = false)
      (hkept : words kept = word :: ws) (hstarts : startsAlteration word = true) :
      IsAlterationOf rest kept

theorem exists_isAlterationOf {rest word : List Char} {ws : List (List Char)}
    (h : (words rest).dropWhile (!startsAlteration ·) = word :: ws) :
    ∃ kept, IsAlterationOf rest kept ∧ words kept = word :: ws := by
  have hjoin := List.takeWhile_append_dropWhile (p := (!startsAlteration ·)) (l := words rest)
  rw [h] at hjoin
  obtain ⟨skipped, kept, hrest, hskipped, hkept⟩ := exists_cut_of_words hjoin.symm
  refine ⟨kept, .behind hrest ?_ ?_ hkept ?_, hkept⟩
  · rw [hskipped, hkept, hjoin]
  · intro word hword
    rw [hskipped] at hword
    simpa using List.all_eq_true.1 List.all_takeWhile word hword
  · have hnot := List.head?_dropWhile_not (!startsAlteration ·) (words rest)
    rw [h] at hnot
    simpa using hnot

/-- A clause that is joined of the words of a text has these words, and is that text where it is
spaced the same way. -/
theorem words_of_joined {kept : List Char} {clause : String}
    (h : clause = String.ofList ([' '].intercalate (words kept))) :
    words clause.toList = words kept ∧
      (IsSpaced (trim kept) → clause = String.ofList (trim kept)) := by
  constructor
  · rw [h, String.toList_ofList]
    exact words_intercalate (worded kept).isWord
  · intro hspaced
    rw [h, intercalate_words hspaced]

namespace NamedText
variable (w : NamedText)

def text : String :=
  String.ofList (w.lead ++ (w.verb ++ (w.before ++ (w.name ++ (w.behind ++ w.rest)))))

/-- The words of the text: the two of its beginning, those of the name, and those that follow. -/
theorem words_text : ∃ alter table,
    words w.text.toList = alter :: table :: (words w.name ++ words w.rest) := by
  obtain ⟨alter, table, hverb, halter, htable⟩ :=
    eq_append_of_afterAlterTable (afterIgnoringCase_append w.verb_says [])
  simp only [List.append_nil] at hverb
  have hword : ∀ {v k : List Char}, lowerCase v = k → k.all Char.isAlpha = true → k ≠ [] →
      IsWord v := by
    rintro v k hv hk hne
    refine ⟨?_, fun c hc => not_isBlank_of_isAlpha (isAlpha_of_lowerCase hv hk c hc)⟩
    rintro rfl
    exact hne hv.symm
  have hwords : words w.verb = [alter, table] := by
    rw [hverb, words_append rfl, words_word (hword halter rfl (by decide)),
      words_word (hword htable rfl (by decide))]
    rfl
  refine ⟨alter, table, ?_⟩
  rw [text, String.toList_ofList, words_blank_append w.lead_blank, words_append_gap w.before_blank,
    words_append_gap w.behind_blank, hwords]
  rfl

/-- The trimmed text still begins with its two words. -/
theorem afterAlterTable_text : ∃ rest, afterAlterTable? (trim w.text.toList) = some rest := by
  have htext : trim w.text.toList =
      w.verb ++ trimEnd (w.before ++ (w.name ++ (w.behind ++ w.rest))) := by
    have htrim := trim_append w.lead_blank (List.forall_mem_nil (isBlank · = true))
      (w.verb ++ (w.before ++ (w.name ++ (w.behind ++ w.rest))))
    rw [List.append_nil, trim_verb w.verb_says] at htrim
    rw [text, String.toList_ofList, htrim]
  exact ⟨_, afterAlterTable?_eq_some_iff.2 ⟨w.verb, _, htext, w.verb_says, rfl⟩⟩

variable {w} {e : LexicalError} {first : List Char} {more : List (List Char)}

/-- Where the text is no row of lexemes, the words behind the first one of the name decide. -/
theorem alterClause_found (he : lexemes (trim w.text.toList) = .error e)
    (hname : words w.name = first :: more) {word : List Char} {ws : List (List Char)}
    (hfound : (more ++ words w.rest).dropWhile (!startsAlteration ·) = word :: ws) :
    alterClause w.text = String.ofList ([' '].intercalate (word :: ws)) := by
  obtain ⟨alter, table, hwords⟩ := w.words_text
  obtain ⟨rest, hrest⟩ := w.afterAlterTable_text
  rw [hname] at hwords
  simp only [alterClause, clauseOf, he, clauseFromWords, words_trim, hwords, hrest,
    List.cons_append, hfound]

theorem alterClause_not_found (he : lexemes (trim w.text.toList) = .error e)
    (hname : words w.name = first :: more)
    (hfound : (more ++ words w.rest).dropWhile (!startsAlteration ·) = []) :
    alterClause w.text = String.ofList ([' '].intercalate (more ++ words w.rest)) := by
  obtain ⟨alter, table, hwords⟩ := w.words_text
  obtain ⟨rest, hrest⟩ := w.afterAlterTable_text
  rw [hname] at hwords
  simp only [alterClause, clauseOf, he, clauseFromWords, words_trim, hwords, hrest,
    List.cons_append, hfound]

/-- The clause of a text that is no row of lexemes has the words of what follows the name, from the
first that starts like an alteration on, or all of them if none does; and it is that text as it
stands if that has no blank characters but single spaces. A name of several words must have none
that starts like an alteration behind its first, and such a word has to follow it. -/
theorem clause_by_words (he : lexemes (trim w.text.toList) = .error e)
    (hname : ∀ word ∈ (words w.name).tail, startsAlteration word = false)
    (hrest : (words w.name).tail = [] ∨ ∃ word ∈ words w.rest, startsAlteration word = true) :
    ∃ kept, IsAlterationOf w.rest kept ∧ words (alterClause w.text).toList = words kept ∧
      (IsSpaced (trim kept) → alterClause w.text = String.ofList (trim kept)) := by
  obtain ⟨c, t, hcons, hc⟩ := w.name_spelled.eq_cons
  obtain ⟨first, more, hwords⟩ := exists_words_cons hc t
  rw [← hcons] at hwords
  rw [hwords, List.tail_cons] at hname hrest
  have hskip : (more ++ words w.rest).dropWhile (!startsAlteration ·) =
      (words w.rest).dropWhile (!startsAlteration ·) := by
    refine List.dropWhile_append_of_pos fun word hword => ?_
    rw [hname word hword]
    rfl
  cases hfound : (words w.rest).dropWhile (!startsAlteration ·) with
  | nil =>
    have hnone : ∀ word ∈ words w.rest, startsAlteration word = false := by
      intro word hword
      simpa using List.dropWhile_eq_nil_iff.1 hfound word hword
    have hmore : more = [] := by
      refine hrest.resolve_right ?_
      rintro ⟨word, hword, hstarts⟩
      rw [hnone word hword] at hstarts
      cases hstarts
    have hclause := alterClause_not_found he hwords (hskip.trans hfound)
    rw [hmore, List.nil_append] at hclause
    exact ⟨w.rest, .whole hnone, words_of_joined hclause⟩
  | cons word ws =>
    obtain ⟨kept, hkept, hkeptWords⟩ := exists_isAlterationOf hfound
    have hclause := alterClause_found he hwords (hskip.trans hfound)
    rw [← hkeptWords] at hclause
    exact ⟨kept, hkept, words_of_joined hclause⟩

/-- A name of two words, with a line end in front of the alteration. -/
def orderItems : NamedText where
  lead := []
  lead_blank := List.forall_mem_nil _
  verb := "alter table".toList
  verb_says := rfl
  before := [' ']
  before_blank := ⟨List.cons_ne_nil _ _, List.forall_mem_singleton.2 rfl⟩
  name := "\x60order items\x60".toList
  name_spelled := .table (.quoted
    (show ClosedBy '\x60' false ("order items".toList ++ ['\x60']) from
      closedBy_backtick (by decide)))
  behind := ['\u3000']
  behind_blank := ⟨List.cons_ne_nil _ _, List.forall_mem_singleton.2 rfl⟩
  rest := "ENGINE=InnoDB,\n  add c CHAR(3) DEFAULT 'a b".toList

theorem clause_by_words_orderItems :
    lexemes (trim orderItems.text.toList) = .error ⟨.unterminatedString, ⟨2, 25⟩⟩ ∧
      (words orderItems.name).tail = ["items\x60".toList] ∧
      ∃ kept, IsAlterationOf orderItems.rest kept ∧
        words (alterClause orderItems.text).toList = words kept ∧
        (IsSpaced (trim kept) → alterClause orderItems.text = String.ofList (trim kept)) := by
  have herror : lexemes (trim orderItems.text.toList) =
      .error ⟨.unterminatedString, ⟨2, 25⟩⟩ := by
    decide +kernel
  have htail : (words orderItems.name).tail = ["items\x60".toList] := by decide +kernel
  have hstarts : ∃ word ∈ words orderItems.rest, startsAlteration word = true :=
    ⟨"add".toList, by decide +kernel, by decide +kernel⟩
  refine ⟨herror, htail, clause_by_words herror ?_ (.inr hstarts)⟩
  rw [htail]
  exact List.forall_mem_singleton.2 (by decide +kernel)

/-- The alteration is left as it stands behind the name. -/
def KeepsRest (w : NamedText) : Prop := alterClause w.text = String.ofList (trim w.rest)

def engineFirst : NamedText :=
  { orderItems with
    name := ['t']
    name_spelled := .table (.plain (List.cons_ne_nil _ _) (List.forall_mem_singleton.2 rfl))
    rest := "ENGINE=InnoDB, ADD c VARCHAR(10) DEFAULT 'oops".toList }

def widelySpaced : NamedText := { engineFirst with rest := "ADD c CHAR(4) DEFAULT 'a  b".toList }

def namedByTwo : NamedText := { orderItems with rest := "ENGINE=InnoDB COMMENT='x".toList }

/-- What stands in front of the first word that starts like an alteration is dropped, more blank
text than a space is not kept, and a part of a name can be. -/
theorem rest_not_kept :
    (lexemes (trim engineFirst.text.toList)).isOk = false ∧
      alterClause engineFirst.text = "ADD c VARCHAR(10) DEFAULT 'oops" ∧ ¬KeepsRest engineFirst ∧
      (lexemes (trim widelySpaced.text.toList)).isOk = false ∧
      alterClause widelySpaced.text = "ADD c CHAR(4) DEFAULT 'a b" ∧ ¬KeepsRest widelySpaced ∧
      (lexemes (trim namedByTwo.text.toList)).isOk = false ∧
      alterClause namedByTwo.text = "items\x60 ENGINE=InnoDB COMMENT='x" ∧
      ¬KeepsRest namedByTwo := by
  unfold KeepsRest
  decide +kernel

end NamedText

end SafeAlter.Sql
