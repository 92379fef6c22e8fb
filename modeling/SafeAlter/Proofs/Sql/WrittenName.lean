import Mathlib.Data.Bool.AllAny
import SafeAlter.Proofs.Sql.Header
import SafeAlter.Proofs.Sql.StandingOff

/-! # Names as they are written

A name is written as one word or as two with a period between them, each in backticks or plain. With
blank text behind it, it is read back from its text and from its lexemes alike: every one of its
words is one lexeme, whatever stands between backticks, and the header that it makes is plain.
-/
namespace SafeAlter.Sql
open SafeAlter.Text

/-- A character that may stand in a plain word behind its first one. -/
def isPlainPart (c : Char) : Bool :=
  c.isAlphanum || c == '_' || c == '$'

theorem isPlainPart_cases {c : Char} (h : isPlainPart c = true) :
    c.isAlpha = true ∨ c.isDigit = true ∨ c = '_' ∨ c = '$' := by
  simp only [isPlainPart, Char.isAlphanum, Bool.or_eq_true, beq_iff_eq] at h
  rcases h with ((h | h) | h) | h
  · exact .inl h
  · exact .inr (.inl h)
  · exact .inr (.inr (.inl h))
  · exact .inr (.inr (.inr h))

theorem isNamePart_of_isPlainPart {c : Char} (h : isPlainPart c = true) : isNamePart c = true := by
  rcases isPlainPart_cases h with h | h | rfl | rfl
  · exact isNamePart_of_isAlpha h
  · exact isNamePart_of_isDigit h
  · rfl
  · rfl

theorem isPlain_of_isPlainPart {c : Char} (h : isPlainPart c = true) : isPlain c = true := by
  have hmark : ∀ d ∈ ['\x60', '.', ',', ';', '('], isPlainPart d = false :=
    List.all_iff_forall_prop.1 (by decide +kernel)
  have hother : ['\x60', '.', ',', ';', '('].contains c = false := by
    refine Bool.eq_false_iff.2 fun hc => ?_
    rw [hmark c (List.contains_iff_mem.1 hc)] at h
    cases h
  have hblank : isBlank c = false := by
    rcases isPlainPart_cases h with h | h | rfl | rfl
    · exact not_isBlank_of_isAlpha h
    · exact not_isBlank_of_isDigit h
    · rfl
    · rfl
  rw [isPlain, hblank, hother]
  rfl

/-- A word of a name, as it is written. -/
inductive WrittenWord where
  | quoted (text : List Char) (nonempty : text ≠ []) (unquoted : '\x60' ∉ text)
  | plain (first : Char) (more : List Char) (starts : first.isAlpha = true ∨ first = '_')
      (continues : ∀ c ∈ more, isPlainPart c = true)

/-- The characters that blank text around a name is made of. -/
def gapCharacters : List Char := [' ', '\t', '\n']

theorem period_not_gap : '.' ∉ gapCharacters := by decide

/-- A text that a word ends in front of. -/
def EndsWord (after : List Char) : Prop :=
  ∀ c ∈ after.head?, c ∈ '.' :: gapCharacters

theorem EndsWord.head {after : List Char} (h : EndsWord after) :
    ∀ c ∈ after.head?, isNamePart c = false ∧ isPlain c = false ∧
      c ∉ ['\x27', '\x22', '\x60'] := by
  intro c hc
  have hall : ∀ d ∈ '.' :: gapCharacters, isNamePart d = false ∧ isPlain d = false ∧
      d ∉ ['\x27', '\x22', '\x60'] := List.all_iff_forall_prop.1 (by decide +kernel)
  exact hall c (h c hc)

namespace WrittenWord

def text : WrittenWord → List Char
  | quoted text .. => text
  | plain first more .. => first :: more

def spelling : WrittenWord → List Char
  | quoted text .. => '\x60' :: text ++ ['\x60']
  | plain first more .. => first :: more

def isQuoted : WrittenWord → Bool
  | quoted .. => true
  | plain .. => false

def lexeme (w : WrittenWord) : Lexeme := ⟨.word w.isQuoted, w.spelling⟩

theorem undoubled_closed {text : List Char} (h : '\x60' ∉ text) :
    undoubled (text ++ ['\x60']) = text := by
  induction text with
  | nil => rfl
  | cons c text ih =>
    rw [List.mem_cons, not_or] at h
    rw [List.cons_append, undoubled_cons (Ne.symm h.1), ih h.2]

theorem isWord_lexeme (w : WrittenWord) : w.lexeme.isWord = true := rfl

theorem denoted_lexeme (w : WrittenWord) : w.lexeme.denoted = w.text := by
  cases w with
  | quoted text nonempty unquoted => exact undoubled_closed unquoted
  | plain => rfl

theorem isPlainPart_plain {first : Char} {more : List Char}
    (starts : first.isAlpha = true ∨ first = '_') (continues : ∀ c ∈ more, isPlainPart c = true) :
    ∀ c ∈ first :: more, isPlainPart c = true := by
  refine List.forall_mem_cons.2 ⟨?_, continues⟩
  rcases starts with h | rfl
  · simp [isPlainPart, Char.isAlphanum, h]
  · rfl

theorem isPlain_lexeme (w : WrittenWord) {after : List Char} (h : EndsWord after) :
    w.lexeme.IsPlain after := by
  cases w with
  | quoted text nonempty unquoted =>
    change undoubled (text ++ ['\x60']) ≠ [] ∧ '\x60' ∉ undoubled (text ++ ['\x60'])
    rw [undoubled_closed unquoted]
    exact ⟨nonempty, unquoted⟩
  | plain first more starts continues =>
    refine ⟨fun c hc => ?_, fun c hc => (h.head c hc).2.1⟩
    exact isPlain_of_isPlainPart (isPlainPart_plain starts continues c hc)

end WrittenWord

section
variable {previous : Option LexemeKind} {after : List Char} {ls : List Lexeme}

theorem closedBy_backtick {text : List Char} (h : '\x60' ∉ text) :
    ClosedBy '\x60' false (text ++ ['\x60']) := by
  induction text with
  | nil => exact .close
  | cons c text ih =>
    rw [List.mem_cons, not_or] at h
    exact .plain (Ne.symm h.1) rfl (ih h.2)

theorem nextCut_plain {first : Char} {more : List Char}
    (starts : first.isAlpha = true ∨ first = '_') (continues : ∀ c ∈ more, isPlainPart c = true)
    (hafter : EndsWord after) :
    nextCut previous first (more ++ after) = .ok ⟨.word false, (first :: more, after)⟩ := by
  have hletter : nextCut previous first (more ++ after) = letterCut first (more ++ after) := by
    rcases starts with h | rfl
    · exact nextCut_letter h
    · rfl
  have hquote : ∀ q ∈ (more ++ after).head?, q ∉ ['\x27', '\x22', '\x60'] := by
    intro q hq
    cases more with
    | nil => exact (hafter.head q hq).2.2
    | cons d more =>
      cases hq
      have hall : ∀ e ∈ ['\x27', '\x22', '\x60'], isPlainPart e = false :=
        List.all_iff_forall_prop.1 (by decide +kernel)
      have hq := continues q (List.mem_cons_self ..)
      intro hmem
      rw [hall q hmem] at hq
      cases hq
  have hstretch : stretch isNamePart (more ++ after) = (more, after) :=
    stretch_append_eq_iff.2 ⟨rfl, fun c hc => isNamePart_of_isPlainPart (continues c hc),
      fun c hc => (hafter.head c hc).1⟩
  rw [hletter, letterCut_eq_wordCut hquote, wordCut, hstretch]
  rfl

/-- A written word is one lexeme. -/
theorem Lexed.of_writtenWord (w : WrittenWord) (hafter : EndsWord after)
    (h : Lexed previous (w.spelling ++ after) ls) :
    ∃ rest, ls = w.lexeme :: rest ∧ Lexed (some w.lexeme.kind) after rest := by
  cases w with
  | quoted text nonempty unquoted =>
    have htext : (WrittenWord.quoted text nonempty unquoted).spelling ++ after =
        '\x60' :: (text ++ ['\x60'] ++ after) := rfl
    rw [htext] at h
    obtain ⟨k, rest, hk, rfl, hrest⟩ := h.of_cons
    have hclosed : quotedRest '\x60' false (text ++ ['\x60'] ++ after) =
        some (text ++ ['\x60'], after) :=
      (closedBy_backtick unquoted).quotedRest_append fun hq =>
        (hafter.head _ hq).2.2 (by decide)
    have hcut := quotedCut_name_iff.2 ⟨_, hclosed, rfl⟩
    cases hcut.symm.trans hk
    exact ⟨rest, rfl, hrest⟩
  | plain first more starts continues =>
    obtain ⟨k, rest, hk, rfl, hrest⟩ := h.of_cons
    cases (nextCut_plain starts continues hafter).symm.trans hk
    exact ⟨rest, rfl, hrest⟩

/-- Every blank character around a name is a lexeme of its own. -/
theorem Lexed.of_gap {g s : List Char} (hg : ∀ c ∈ g, c ∈ gapCharacters)
    (h : Lexed previous (g ++ s) ls) :
    ∃ gap rest kind, ls = gap ++ rest ∧ (∀ l ∈ gap, l.isBlank = true) ∧ spelled gap = g ∧
      Lexed kind s rest := by
  induction g generalizing previous ls with
  | nil => exact ⟨[], ls, previous, rfl, List.forall_mem_nil _, rfl, h⟩
  | cons c g ih =>
    obtain ⟨hc, hg⟩ := List.forall_mem_cons.1 hg
    obtain ⟨k, tail, hk, rfl, htail⟩ := h.of_cons
    have hcut : nextCut previous c (g ++ s) = .ok ⟨.blank, ([c], g ++ s)⟩ := by
      simp only [gapCharacters, List.mem_cons, List.not_mem_nil, or_false] at hc
      rcases hc with rfl | rfl | rfl <;> rfl
    cases hcut.symm.trans hk
    obtain ⟨gap, rest, kind, rfl, hblank, hspelled, hrest⟩ := ih hg htail
    refine ⟨⟨.blank, [c]⟩ :: gap, rest, kind, rfl, List.forall_mem_cons.2 ⟨rfl, hblank⟩, ?_, hrest⟩
    rw [spelled_cons, hspelled]
    rfl

/-- A name of one word that no period follows has no second word. -/
theorem Header.withFirst_of_noPeriod {gap : List Lexeme} {n : Lexeme} (h : Lexed previous after ls)
    (hafter : '.' ∉ after.head?) : withFirst gap n ls = ⟨gap, n, none, ls⟩ := by
  rcases ls with _ | ⟨p, _ | ⟨v, ls⟩⟩
  · rfl
  · rfl
  · have hshaped := h.head_shaped
    have hp : p.kind ≠ .period := by
      rintro hkind
      refine hafter ?_
      rw [← h.spelled_eq, spelled_cons]
      cases hshaped with
      | period => rfl
      | blank => cases hkind
      | quoted => cases hkind
      | bare => cases hkind
      | terminator => cases hkind
      | other => cases hkind
    simp [withFirst, hp]

end

/-- A name, as it is written. -/
structure WrittenName where
  database : Option WrittenWord
  table : WrittenWord

namespace WrittenName

def spelling (n : WrittenName) : List Char :=
  match n.database with
  | none => n.table.spelling
  | some d => d.spelling ++ '.' :: n.table.spelling

def name (n : WrittenName) : TableName :=
  ⟨n.database.map fun d => String.ofList d.text, String.ofList n.table.text⟩

/-- The header that a name makes between blank lexemes and what follows. -/
def header (n : WrittenName) (gap rest : List Lexeme) : Header :=
  match n.database with
  | none => ⟨gap, n.table.lexeme, none, rest⟩
  | some d => ⟨gap, d.lexeme, some n.table.lexeme, rest⟩

theorem name_header (n : WrittenName) (gap rest : List Lexeme) :
    (n.header gap rest).name = n.name := by
  obtain ⟨_ | d, table⟩ := n
  · simp [header, Header.name, name, WrittenWord.denoted_lexeme]
  · simp [header, Header.name, name, WrittenWord.denoted_lexeme]

theorem rest_header (n : WrittenName) (gap rest : List Lexeme) : (n.header gap rest).rest = rest := by
  obtain ⟨_ | d, table⟩ := n <;> rfl

theorem isPlain_header (n : WrittenName) {gap rest : List Lexeme}
    (hgap : ∀ c ∈ spelled gap, isBlank c = true)
    (hrest : ∀ c ∈ (spelled rest).head?, c ∈ gapCharacters) : (n.header gap rest).IsPlain := by
  have hends : EndsWord (spelled rest) := fun c hc => List.mem_cons_of_mem _ (hrest c hc)
  obtain ⟨_ | d, table⟩ := n
  · refine ⟨hgap, table.isPlain_lexeme hends, nofun, fun _ s hs => ?_⟩
    have hs : spelled rest = '.' :: s := hs
    rw [hs] at hrest
    exact absurd (hrest '.' rfl) period_not_gap
  · refine ⟨hgap, d.isPlain_lexeme ?_, ?_, nofun⟩
    · rintro c ⟨⟩
      exact List.mem_cons_self ..
    · rintro v ⟨⟩
      exact table.isPlain_lexeme hends

/-- The lexemes of a written name, whatever stands in front of it, make its header. -/
theorem lexed_header (n : WrittenName) {previous : Option LexemeKind} {after : List Char}
    {ls : List Lexeme} (hafter : ∀ c ∈ after.head?, c ∈ gapCharacters)
    (h : Lexed previous (n.spelling ++ after) ls) :
    ∃ first tail rest, ls = first :: tail ∧ first.isWord = true ∧ spelled rest = after ∧
      ∀ gap, Header.withFirst gap first tail = n.header gap rest := by
  have hends : EndsWord after := fun c hc => List.mem_cons_of_mem _ (hafter c hc)
  obtain ⟨_ | d, table⟩ := n
  · obtain ⟨rest, rfl, hrest⟩ := h.of_writtenWord table hends
    refine ⟨_, rest, rest, rfl, table.isWord_lexeme, hrest.spelled_eq, fun gap => ?_⟩
    exact Header.withFirst_of_noPeriod hrest fun hperiod => period_not_gap (hafter '.' hperiod)
  · have htext : (WrittenName.mk (some d) table).spelling ++ after =
        d.spelling ++ '.' :: (table.spelling ++ after) := by
      simp [spelling]
    rw [htext] at h
    have hperiod : EndsWord ('.' :: (table.spelling ++ after)) := by
      rintro c ⟨⟩
      exact List.mem_cons_self ..
    obtain ⟨_, rfl, hqualifier⟩ := h.of_writtenWord d hperiod
    obtain ⟨_, rfl, htable⟩ := hqualifier.of_period rfl
    obtain ⟨rest, rfl, hrest⟩ := htable.of_writtenWord table hends
    refine ⟨_, _, rest, rfl, d.isWord_lexeme, hrest.spelled_eq, fun gap => ?_⟩
    simp [Header.withFirst, header, table.isWord_lexeme]

end WrittenName

end SafeAlter.Sql
