import SafeAlter.Proofs.Sql.Header
import SafeAlter.Proofs.Text.Cutting
import SafeAlter.Proofs.Text.Words

/-! # The second chance of a name

Where a text starts with no identifier its first word is read as a name, without its backticks. That
name never is the one that the lexemes denote. A first word of theirs that is no identifier is
empty, has a backtick in it or opens with a period, and the name that is read is none of these.
-/
namespace SafeAlter.Sql
open SafeAlter.Text

/-- The first word of a trimmed text starts where the text does, and has no blank character. -/
theorem first_word {s word : List Char} {ws : List (List Char)}
    (h : words (trimStart s) = word :: ws) :
    (∃ c t, word = c :: t ∧ (trimStart s).head? = some c) ∧ ∀ c ∈ word, isBlank c = false := by
  have hs : trimStart s ≠ [] := by
    intro hnil
    rw [hnil] at h
    cases h
  obtain ⟨a, first, b, rfl, ha, hfirst, hb⟩ := exists_first_word hs
  have hwords : words (first ++ b) = first :: words b :=
    words_front (List.forall_mem_nil _) hfirst hb
  rw [trimStart_front ha hfirst] at h ⊢
  obtain ⟨rfl, -⟩ := List.cons.inj (h.symm.trans hwords)
  obtain ⟨c, t, rfl⟩ := List.exists_cons_of_ne_nil hfirst.1
  exact ⟨⟨c, t, rfl, rfl⟩, hfirst.2⟩

theorem trim_eq_self {s : List Char} (h : ∀ c ∈ s, isBlank c = false) : trim s = s := by
  have hd : ∀ t : List Char, (∀ c ∈ t, isBlank c = false) → t.dropWhile isBlank = t := by
    intro t ht
    cases t with
    | nil => rfl
    | cons c t => exact List.dropWhile_cons_of_neg (by simp [ht c])
  have hr := hd s.reverse fun c hc => h c (List.mem_reverse.1 hc)
  rw [trim, trimStart, hd s h, trimEnd, dropEndWhile, hr, List.reverse_reverse]

/-- The first word of a name: the database where there is one, the table otherwise. -/
def TableName.first (n : TableName) : List Char := (n.database.getD n.table).toList

theorem Header.first_name (h : Header) : h.name.first = h.first.denoted := by
  unfold name
  split <;> simp [TableName.first]

/-- A word that a name is made of does not open with a period, and the name's own first word is not
empty and has no backtick in it. -/
theorem TableName.first_of_parse {c : Char} {t : List Char} {name : TableName}
    (hb : ∀ d ∈ c :: t, isBlank d = false)
    (h : TableName.parse (String.ofList (c :: t)) = .ok name) :
    c ≠ '.' ∧ name.first ≠ [] ∧ ∀ d ∈ name.first, isBlank d = false ∧ d ≠ '\x60' := by
  have hbare : ∀ d ∈ (c :: t).filter (· ≠ '\x60'), isBlank d = false ∧ d ≠ '\x60' := by
    intro d hd
    obtain ⟨hm, hq⟩ := List.mem_filter.1 hd
    exact ⟨hb d hm, of_decide_eq_true hq⟩
  unfold parse at h
  simp only [String.toList_ofList, trim_eq_self hb] at h
  have hc : c ≠ '.' := by
    rintro rfl
    rw [List.filter_cons_of_pos (by decide)] at h
    cases h
  split at h
  · next database table hcut =>
    split at h
    · cases h
    · next hne =>
      cases h
      simp only [Bool.or_eq_true, List.isEmpty_iff, not_or] at hne
      refine ⟨hc, by simpa [first] using hne.1, fun d hd => hbare d ?_⟩
      rw [(cutFirst_eq_some_iff.1 hcut).1]
      exact List.mem_append_left _ (by simpa [first] using hd)
  · split at h
    · cases h
    · next hne =>
      cases h
      rw [List.isEmpty_iff] at hne
      exact ⟨hc, by simpa [first] using hne, fun d hd => hbare d (by simpa [first] using hd)⟩

/-- A text that starts with a word that denotes something, without blank characters and backticks,
starts with an identifier or with a period. -/
theorem Lexeme.Shaped.period_of_unread {l : Lexeme} {after : List Char} (h : l.Shaped after)
    (hw : l.isWord = true) (hne : l.denoted ≠ [])
    (hd : ∀ c ∈ l.denoted, Text.isBlank c = false ∧ c ≠ '\x60')
    (hi : identifier (trimStart (l.spelling ++ after)) = none) :
    (trimStart (l.spelling ++ after)).head? = some '.' := by
  rcases h.word_cases hw with ⟨text, rfl, hq⟩ | ⟨c, text, rfl, hc⟩
  · have hread := (identifier_quoted hq).2 ⟨rfl, hne, fun hm => (hd _ hm).2 rfl⟩
    change identifier ('\x60' :: text ++ after) = none at hi
    rw [hread] at hi
    cases hi
  · have hb : Text.isBlank c = false := (hd c (List.mem_cons_self ..)).1
    have hstart : trimStart (c :: text ++ after) = c :: text ++ after :=
      List.dropWhile_cons_of_neg (by simp [hb])
    rw [hstart] at hi ⊢
    have hq : '\x60' ∉ (c :: text ++ after).head? := by
      rintro ⟨⟩
      exact hc (by simp)
    have hplain := (identifier_eq_none_iff hq).1 hi c rfl
    simp only [List.mem_cons, List.not_mem_nil, or_false, not_or] at hc
    simp only [isPlain, hb] at hplain
    simpa [hc] using hplain

namespace Header.Stands
variable {h : Header} {u : List Char}

/-- Blank text is all that stands before a name that starts with no identifier: what opens a comment
would be one. -/
theorem trimStart_of_unread (hs : h.Stands u) (hi : identifier (trimStart u) = none) :
    trimStart u = trimStart (h.first.spelling ++ h.afterFirst) := by
  rw [hs.text, List.append_assoc] at hi ⊢
  rcases trimStart_append (spelled h.gap) (h.first.spelling ++ h.afterFirst) with
    ⟨-, he⟩ | ⟨c, t, hc, he⟩
  · exact he
  · have hplain : isPlain c = true := hs.gap c (by rw [hc]; rfl)
    rw [he] at hi
    have hq : '\x60' ∉ (c :: t ++ (h.first.spelling ++ h.afterFirst)).head? := by
      rintro ⟨⟩
      cases hplain
    rw [(identifier_eq_none_iff hq).1 hi c rfl] at hplain
    contradiction

/-- Where a text starts with no identifier, the name made of its first word is not the one that the
lexemes denote. -/
theorem parse_ne {word : List Char} {ws : List (List Char)} (hs : h.Stands u)
    (hn : readName (trimStart u) = none) (hw : words (trimStart u) = word :: ws) :
    TableName.parse (String.ofList word) ≠ .ok h.name := by
  intro hp
  obtain ⟨hword, hshaped⟩ := hs.first
  have hi : identifier (trimStart u) = none := readName_eq_none.1 hn
  have hu := hs.trimStart_of_unread hi
  obtain ⟨⟨c, t, rfl, hc⟩, hall⟩ := first_word hw
  obtain ⟨hperiod, hne, hfirst⟩ := TableName.first_of_parse hall hp
  rw [h.first_name] at hne hfirst
  rw [hu] at hi hc
  rw [hshaped.period_of_unread hword hne hfirst hi] at hc
  cases hc
  exact hperiod rfl

/-- Where the name of a statement's table is the one that the lexemes denote, it was read as
identifiers. -/
theorem readName_of_readTableName {statement after : List Char} (hs : h.Stands u)
    (hu : afterAlterTable? (trim statement) = some (trimStart u))
    (hr : readTableName statement = .ok (h.name, after)) :
    readName (trimStart u) = some (h.name, after) := by
  simp only [readTableName, hu] at hr
  cases hn : readName (trimStart u) with
  | some read =>
    rw [hn] at hr
    cases hr
    rfl
  | none =>
    simp only [hn] at hr
    split at hr
    · cases hr
    · next word ws hw =>
      refine absurd ?_ (hs.parse_ne hn hw)
      cases hp : TableName.parse (String.ofList word) with
      | error e => simp [hp, Except.map] at hr
      | ok name =>
        simp only [hp, Except.map] at hr
        cases hr
        rfl

end Header.Stands

end SafeAlter.Sql
