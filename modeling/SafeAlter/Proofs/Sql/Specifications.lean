import SafeAlter.Proofs.Sql.Gaps
import SafeAlter.Proofs.Sql.NameAndClause
import SafeAlter.Validation.Validate

/-! # Specifications that copy the table

A clause is a row of specifications with commas between them, and the first words of each tell
whether it copies the table. Among the lexemes these words are found whatever stands between them;
in the text of the clause they are found only where blank text does, and MODIFY and CHANGE only
where blank text follows them too. So a specification that copies the table is seen exactly if it is
plainly written.
-/
namespace SafeAlter.Sql
open SafeAlter.Text

/-- A specification of the lexemes after a name: the first, or one behind a comma, whether or not
that comma stands in parentheses. -/
structure IsSpecification (rest before spec : List Lexeme) : Prop where
  joined : rest = before ++ spec
  starts : ∀ l ∈ before.getLast?, l.spelling = [',']

/-- The lexemes behind a row of keywords, if they come first and if every gap in front of one of
them is accepted. -/
def afterWords? (accepts : List Char → Bool) : List String → List Lexeme → Option (List Lexeme)
  | [], ls => some ls
  | k :: ks, ls =>
    match dropBlank ls with
    | [] => none
    | l :: rest =>
      if accepts (spelled (ls.takeWhile Lexeme.isBlank)) && l.isKeyword k then
        afterWords? accepts ks rest
      else none

/-- The end of a clause that has a text at its end. -/
def clauseEnd (s : List Char) : List Char :=
  dropTerminators (trimEnd s)

namespace Phrase

/-- Whether a specification starts with the words of a phrase, whatever stands between them. -/
def Leads (p : Phrase) (spec : List Lexeme) : Prop :=
  (afterWords? (fun _ => true) p.keywords spec).isSome = true

/-- Whether the words of a phrase have blank text between them, and behind them where the phrase
asks for it. -/
def IsPlainIn (p : Phrase) (spec : List Lexeme) : Prop :=
  ∃ tail, afterWords? (·.all isBlank) p.keywords (dropBlank spec) = some tail ∧
    (p.closing = .blank → ∃ c ∈ (clauseEnd (spelled tail)).head?, isBlank c = true)

end Phrase

/-! ## The end of a clause -/

theorem isSolid_of_isAlpha {c : Char} (h : c.isAlpha = true) : isSolid c = true := by
  have hne : c ≠ ';' := ne_of_isAlpha h rfl
  simp [isSolid, not_isBlank_of_isAlpha h, hne]

section
variable {c : Char}

theorem clauseEnd_cons (hc : isSolid c = true) (a b : List Char) :
    clauseEnd (a ++ c :: b) = a ++ c :: clauseEnd b := by
  obtain ⟨hblank, hmark⟩ := Bool.and_eq_true_iff.1 hc
  have hblank : isBlank c = false := by simpa using hblank
  have hmark : (c == ';') = false := by simpa using hmark
  rw [clauseEnd, trimEnd, dropEndWhile_cons hblank, dropTerminators,
    dropEndWhile_cons (p := (· == ';')) hmark, trimEnd, dropEndWhile_cons hblank]
  rfl

theorem clause_cons (hc : isSolid c = true) (a b : List Char) :
    dropTerminators (trim (a ++ c :: b)) = trimStart a ++ clauseEnd (c :: b) := by
  have hblank : isBlank c = false := by simpa using (Bool.and_eq_true_iff.1 hc).1
  have hend := clauseEnd_cons hc [] b
  rw [List.nil_append, List.nil_append] at hend
  rw [trim, trimStart_cons hblank, ← clauseEnd, clauseEnd_cons hc, hend]

theorem clauseEnd_word {w : List Char} (hw : ∀ d ∈ w, isSolid d = true) (b : List Char) :
    clauseEnd (w ++ b) = w ++ clauseEnd b := by
  induction w with
  | nil => rfl
  | cons d w ih =>
    obtain ⟨hd, hw⟩ := List.forall_mem_cons.1 hw
    have hcons := clauseEnd_cons hd [] (w ++ b)
    rw [List.cons_append, List.cons_append, ← ih hw]
    exact hcons

end

/-! ## Words in the text and among the lexemes -/

theorem afterWords_gap {accepts : List Char → Bool} {gap ls : List Lexeme} {l : Lexeme}
    (hgap : ∀ g ∈ gap, g.isBlank = true) (hl : l.isWord = true) (k : String) (ks : List String) :
    afterWords? accepts (k :: ks) (gap ++ l :: ls) =
      if accepts (spelled gap) && l.isKeyword k then afterWords? accepts ks ls else none := by
  rw [afterWords?, dropBlank_gap hgap hl, takeWhile_gap hgap hl]

/-- Where a row of keywords is found, the first of them stands behind some gap. -/
theorem exists_gap {accepts : List Char → Bool} {k : String} {ks : List String} {ls : List Lexeme}
    (h : (afterWords? accepts (k :: ks) ls).isSome = true) :
    ∃ gap l rest, ls = gap ++ l :: rest ∧ (∀ g ∈ gap, g.isBlank = true) ∧ l.isKeyword k = true ∧
      (afterWords? accepts ks rest).isSome = true := by
  have hj : ls.takeWhile Lexeme.isBlank ++ dropBlank ls = ls := List.takeWhile_append_dropWhile
  rw [afterWords?] at h
  cases hdrop : dropBlank ls with
  | nil =>
    rw [hdrop] at h
    cases h
  | cons l rest =>
    rw [hdrop] at h hj
    dsimp only at h
    split at h
    · next hk =>
      exact ⟨_, l, rest, hj.symm, fun g hg => List.all_eq_true.1 List.all_takeWhile g hg,
        (Bool.and_eq_true_iff.1 hk).2, h⟩
    · cases h

section
variable {previous : Option LexemeKind} {s : List Char} {k : String} {ks : List String} {l : Lexeme}
  {gap rest : List Lexeme}

theorem clauseEnd_keyword (h : Lexed previous s (l :: rest)) (hk : IsCapital k)
    (hl : l.isKeyword k = true) :
    clauseEnd (spelled (l :: rest)) = l.spelling ++ clauseEnd (spelled rest) := by
  obtain ⟨⟨c, w, hspelling, halpha⟩, -⟩ := h.head_keyword hk hl
  have hsolid : ∀ d ∈ l.spelling, isSolid d = true := by
    rw [hspelling]
    exact fun d hd => isSolid_of_isAlpha (halpha d hd)
  rw [spelled_cons, clauseEnd_word hsolid]

theorem afterKeyword_lexeme (h : Lexed previous s (l :: rest)) (hk : IsCapital k)
    (hl : l.isKeyword k = true) :
    afterKeyword? k.toList (clauseEnd (spelled (l :: rest))) = some (clauseEnd (spelled rest)) := by
  rw [clauseEnd_keyword h hk hl]
  exact afterKeyword_append hk.2 (eq_of_beq (Bool.and_eq_true_iff.1 hl).2) _

/-- Between two keywords stands something, and behind it the text goes on with the second one. -/
theorem clauseEnd_gap {kind : LexemeKind} (h : Lexed (some kind) s (gap ++ l :: rest))
    (hk : IsCapital k) (hl : l.isKeyword k = true)
    (hnext : ∀ d ∈ s.head?, isNamePart d = false) :
    ∃ e g c w, spelled gap = e :: g ∧ isBlank c = false ∧
      clauseEnd (spelled (l :: rest)) = c :: w ∧
      clauseEnd (spelled (gap ++ l :: rest)) = e :: g ++ c :: w := by
  obtain ⟨previous, hword⟩ := h.of_append
  obtain ⟨⟨c, w, hspelling, halpha⟩, -⟩ := hword.head_keyword hk hl
  have hc := halpha c (List.mem_cons_self ..)
  have hend : clauseEnd (spelled (l :: rest)) = c :: (w ++ clauseEnd (spelled rest)) := by
    rw [clauseEnd_keyword hword hk hl, hspelling, List.cons_append]
  have htext : spelled (gap ++ l :: rest) = spelled gap ++ c :: (w ++ spelled rest) := by
    rw [spelled_append, spelled_cons, hspelling, List.cons_append]
  have hboth : clauseEnd (spelled (gap ++ l :: rest)) =
      spelled gap ++ c :: (w ++ clauseEnd (spelled rest)) := by
    have hsolid : ∀ d ∈ w, isSolid d = true := fun d hd =>
      isSolid_of_isAlpha (halpha d (List.mem_cons_of_mem c hd))
    rw [htext, clauseEnd_cons (isSolid_of_isAlpha hc), clauseEnd_word hsolid]
  have hne : spelled gap ≠ [] := by
    intro hempty
    have hhead := hnext c (by rw [← h.spelled_eq, htext, hempty]; rfl)
    rw [isNamePart_of_isAlpha hc] at hhead
    cases hhead
  obtain ⟨e, g, heg⟩ := List.exists_cons_of_ne_nil hne
  exact ⟨e, g, c, _, heg, not_isBlank_of_isAlpha hc, hend, by rw [hboth, heg]⟩

/-- A row of keywords is found behind a gap only if the gap is blank text: no keyword starts with the
mark that a comment opens with. -/
theorem afterKeywords_gap {e c : Char} {g w : List Char} (hk : IsCapital k) (hc : isBlank c = false)
    (hopens : (∀ d ∈ e :: g, isBlank d = true) ∨
      ∃ d t, trimStart (e :: g) = d :: t ∧ d ∈ commentOpeners) :
    (if isBlank e then afterKeywords? ((k :: ks).map String.toList) (trimStart (g ++ c :: w))
      else none) =
      if (e :: g).all isBlank then afterKeywords? ((k :: ks).map String.toList) (c :: w)
      else none := by
  rcases hopens with hblank | ⟨d, t, hd, hopener⟩
  · obtain ⟨he, hg⟩ := List.forall_mem_cons.1 hblank
    have hall : (e :: g).all isBlank = true := List.all_eq_true.2 hblank
    rw [if_pos he, if_pos hall, trimStart_cons hc, trimStart_eq_nil hg, List.nil_append]
  · have hall : (e :: g).all isBlank = false := by
      refine Bool.eq_false_iff.2 fun hall => ?_
      rw [trimStart_eq_nil (List.all_eq_true.1 hall)] at hd
      cases hd
    rw [hall, if_neg Bool.false_ne_true]
    split
    · next he =>
      have hg : trimStart g = d :: t := by
        rw [← hd, trimStart, trimStart, List.dropWhile_cons_of_pos he]
      rw [trimStart_cons hc, hg]
      exact afterKeywords_of_none (afterKeyword_comment hk hopener _) _
    · rfl

/-- The text of a clause has a row of keywords at its front, where the lexemes have it, if blank
text is all that stands between them. -/
theorem afterKeywords_eq (h : Lexed previous s (l :: rest)) (hks : ∀ x ∈ k :: ks, IsCapital x)
    (hl : l.isKeyword k = true) (hlead : (afterWords? (fun _ => true) ks rest).isSome = true) :
    afterKeywords? ((k :: ks).map String.toList) (clauseEnd (spelled (l :: rest))) =
      (afterWords? (·.all isBlank) ks rest).map fun tail => clauseEnd (spelled tail) := by
  induction ks generalizing previous s k l rest with
  | nil =>
    exact afterKeyword_lexeme h (hks k (List.mem_cons_self ..)) hl
  | cons k₂ ks ih =>
    obtain ⟨hk, hks⟩ := List.forall_mem_cons.1 hks
    obtain ⟨gap, m, after, rfl, hgap, hm, hmore⟩ := exists_gap hlead
    have hk₂ := hks k₂ (List.mem_cons_self ..)
    obtain ⟨e, g, c, w, heg, hc, hend, hboth⟩ :=
      clauseEnd_gap h.tail hk₂ hm (h.head_keyword hk hl).2
    obtain ⟨_, hword⟩ := h.tail.of_append
    have hfirst := afterKeyword_lexeme h hk hl
    rw [hboth] at hfirst
    have hread : afterKeywords? ((k :: k₂ :: ks).map String.toList)
        (clauseEnd (spelled (l :: (gap ++ m :: after)))) =
          if isBlank e then afterKeywords? ((k₂ :: ks).map String.toList) (trimStart (g ++ c :: w))
          else none := by
      simp only [List.map_cons, afterKeywords?, hfirst, List.cons_append]
    have hopens := h.tail.gap_opens hgap
    rw [heg] at hopens
    rw [hread, afterKeywords_gap hk₂ hc hopens, afterWords_gap hgap (isWord_of_isKeyword hm), hm,
      Bool.and_true, heg, ← hend, ih hword hks hm hmore]
    split
    · rfl
    · rfl

/-- Behind a row of keywords nothing follows that belongs to a name. -/
theorem head_afterWords {accepts : List Char → Bool} {tail : List Lexeme}
    (h : Lexed previous s rest) (hks : ∀ x ∈ ks, IsCapital x)
    (hnext : ∀ d ∈ (spelled rest).head?, isNamePart d = false)
    (ht : afterWords? accepts ks rest = some tail) :
    ∀ d ∈ (spelled tail).head?, isNamePart d = false := by
  induction ks generalizing previous s rest with
  | nil =>
    cases ht
    exact hnext
  | cons k ks ih =>
    obtain ⟨hk, hks⟩ := List.forall_mem_cons.1 hks
    obtain ⟨gap, m, after, rfl, hgap, hm, -⟩ := exists_gap (Option.isSome_of_eq_some ht)
    rw [afterWords_gap hgap (isWord_of_isKeyword hm)] at ht
    split at ht
    · obtain ⟨_, hword⟩ := h.of_append
      exact ih hword.tail hks (hword.head_keyword hk hm).2 ht
    · cases ht

end

theorem clauseEnd_isFront (s : List Char) : clauseEnd s <+: s :=
  (List.rdropWhile_prefix ..).trans <| (List.rdropWhile_prefix ..).trans (List.rdropWhile_prefix ..)

/-- What a phrase asks for behind its words is blank text or nothing at all, since no word goes on
there. -/
theorem Closing.holds_iff {closing : Closing} (hc : closing ≠ .equals) {s : List Char}
    (hs : ∀ d ∈ s.head?, isNamePart d = false) :
    closing.holds (clauseEnd s) = true ↔
      (closing = .blank → ∃ c ∈ (clauseEnd s).head?, isBlank c = true) := by
  cases closing with
  | wordEnd =>
    have hword : (clauseEnd s).head?.any isWordCharacter = false := by
      rw [Option.any_eq_false]
      intro d hd
      have hfront := (List.singleton_prefix_iff_head?_eq_some.2 hd).trans (clauseEnd_isFront s)
      have hnext := hs d (List.singleton_prefix_iff_head?_eq_some.1 hfront)
      simp [not_isWordCharacter hnext]
    simp [holds, hword]
  | blank => simp [holds, Option.any_eq_true]
  | equals => exact absurd rfl hc

/-! ## The places of specifications -/

section
variable {statement : String} {h : Header} {before spec : List Lexeme} {o : Phrase × String}

/-- In front of the first word of a specification stands no word character. -/
theorem IsSpecification.front {rest gap ls : List Lexeme} {l : Lexeme}
    (hs : IsSpecification rest before (gap ++ l :: ls)) {previous : Option LexemeKind} {s : List Char}
    (hl : Lexed previous s rest) (hgap : ∀ g ∈ gap, g.isBlank = true) :
    ∀ d ∈ (trimStart (spelled (before ++ gap))).getLast?, isWordCharacter d = false := by
  intro d hd
  have hsuffix : trimStart (spelled (before ++ gap)) <:+ spelled (before ++ gap) :=
    List.dropWhile_suffix _
  have hlast : (spelled before ++ spelled gap).getLast? = some d := by
    rw [← spelled_append]
    exact List.singleton_suffix_iff_getLast?_eq_some.1
      ((List.singleton_suffix_iff_getLast?_eq_some.2 hd).trans hsuffix)
  have hlexed := hl
  rw [hs.joined] at hlexed
  obtain ⟨_, hgapped⟩ := hlexed.of_append
  cases he : (spelled gap).getLast? with
  | some e =>
    rw [getLast?_append_of_some he] at hlast
    cases hlast
    obtain ⟨_, hword⟩ := hgapped.of_append
    have hne : spelled (l :: ls) ≠ [] := by
      rw [spelled_cons]
      exact List.append_ne_nil_of_left_ne_nil
        (hword.spelling_ne_nil l (List.mem_cons_self ..)) _
    exact hgapped.gap_ends hgap hne d he
  | none =>
    rw [List.getLast?_eq_none_iff.1 he, List.append_nil] at hlast
    rcases List.eq_nil_or_concat before with rfl | ⟨front, m, rfl⟩
    · cases hlast
    · have hcomma : m.spelling = [','] := hs.starts m (by simp)
      rw [List.concat_eq_append, spelled_append, spelled_cons, hcomma] at hlast
      have hmark : (spelled front ++ [',']).getLast? = some d := by simpa [spelled] using hlast
      rw [List.getLast?_concat] at hmark
      cases hmark
      exact not_isWordCharacter rfl

/-- A phrase stands in front of a text where its words do and the text closes it. -/
theorem Phrase.startsAt_iff {p : Phrase} {front : Option Char} {back : List Char}
    (hfront : ∀ d ∈ front, isWordCharacter d = false) :
    p.startsAt front back = true ↔
      ∃ rest ∈ afterKeywords? (p.keywords.map String.toList) back, p.closing.holds rest = true := by
  have hany : front.any isWordCharacter = false := by
    rw [Option.any_eq_false]
    intro d hd
    simp [hfront d hd]
  rw [Phrase.startsAt, hany, Bool.not_false, Bool.true_and, Option.any_eq_true]
  rfl

theorem lexed_rest {ls : List Lexeme} (hl : lexemes (trim statement.toList) = .ok ls)
    (hh : header? ls = some h) : ∃ kind, Lexed kind (spelled h.rest) h.rest := by
  obtain ⟨front, hfront⟩ := header_suffix hh
  have hlexed : Lexed none (trim statement.toList) (front ++ h.rest) := by
    rw [hfront]
    exact ⟨_, hl⟩
  exact hlexed.of_append

/-- The clause up to the first word of a specification, and from there on. -/
theorem clause_of_specification (hh : headerOf? statement = some h) {gap ls : List Lexeme}
    {l : Lexeme} {k : String} (hs : IsSpecification h.rest before (gap ++ l :: ls))
    (hk : IsCapital k) (hl : l.isKeyword k = true) :
    (alterClause statement).toList =
      trimStart (spelled (before ++ gap)) ++ clauseEnd (spelled (l :: ls)) := by
  obtain ⟨_, hlexemes, hheader⟩ := lexemes_of_headerOf hh
  obtain ⟨_, hrest⟩ := lexed_rest hlexemes hheader
  rw [hs.joined, ← List.append_assoc] at hrest
  obtain ⟨_, hword⟩ := hrest.of_append
  obtain ⟨⟨c, w, hspelling, halpha⟩, -⟩ := hword.head_keyword hk hl
  have hc := isSolid_of_isAlpha (halpha c (List.mem_cons_self ..))
  have htext : spelled (l :: ls) = c :: (w ++ spelled ls) := by
    rw [spelled_cons, hspelling, List.cons_append]
  rw [alterClause_of_header hh, String.toList_ofList, hs.joined, ← List.append_assoc, spelled_append,
    htext, clause_cons hc]

theorem judgeOnline_of_blocked (hb : (blockingOperation (alterClause statement)).isSome = true)
    (valid : Bool) : (Validation.judgeOnline valid statement).1 = false := by
  obtain ⟨operation, hoperation⟩ := Option.isSome_iff_exists.1 hb
  cases valid with
  | false => rfl
  | true => simp [Validation.judgeOnline, hoperation]

theorem Phrase.isPlainIn_iff {p : Phrase} {k : String} {ks : List String}
    (hp : p.keywords = k :: ks) {gap ls : List Lexeme} {l : Lexeme}
    (hgap : ∀ g ∈ gap, g.isBlank = true) (hl : l.isKeyword k = true) :
    p.IsPlainIn (gap ++ l :: ls) ↔
      ∃ tail, afterWords? (·.all isBlank) ks ls = some tail ∧
        (p.closing = .blank → ∃ c ∈ (clauseEnd (spelled tail)).head?, isBlank c = true) := by
  have hwords : afterWords? (·.all isBlank) (k :: ks) ([] ++ l :: ls) =
      if ([] : List Char).all isBlank && l.isKeyword k then afterWords? (·.all isBlank) ks ls
      else none :=
    afterWords_gap (List.forall_mem_nil _) (isWord_of_isKeyword hl) k ks
  rw [List.nil_append, hl] at hwords
  rw [Phrase.IsPlainIn, hp, dropBlank_gap hgap (isWord_of_isKeyword hl), hwords]
  rfl

/-- A phrase whose words start a specification is seen at its place in the text of the clause exactly
if it is plainly written there. -/
theorem IsSpecification.startsAt_iff {p : Phrase} {k : String} {ks : List String}
    {rest gap ls : List Lexeme} {l : Lexeme} {previous : Option LexemeKind} {s : List Char}
    (hs : IsSpecification rest before (gap ++ l :: ls)) (hrest : Lexed previous s rest)
    (hgap : ∀ g ∈ gap, g.isBlank = true) (hp : p.keywords = k :: ks)
    (hcapital : ∀ x ∈ k :: ks, IsCapital x) (hclosing : p.closing ≠ .equals)
    (hl : l.isKeyword k = true) (hmore : (afterWords? (fun _ => true) ks ls).isSome = true) :
    p.startsAt (trimStart (spelled (before ++ gap))).getLast? (clauseEnd (spelled (l :: ls))) = true ↔
      p.IsPlainIn (gap ++ l :: ls) := by
  have hlexed := hrest
  rw [hs.joined, ← List.append_assoc] at hlexed
  obtain ⟨_, hlexed⟩ := hlexed.of_append
  obtain ⟨hk, hks⟩ := List.forall_mem_cons.1 hcapital
  have hnext : ∀ tail, afterWords? (·.all isBlank) ks ls = some tail →
      ∀ d ∈ (spelled tail).head?, isNamePart d = false := fun tail ht =>
    head_afterWords hlexed.tail hks (hlexed.head_keyword hk hl).2 ht
  rw [Phrase.startsAt_iff (hs.front hrest hgap), Phrase.isPlainIn_iff hp hgap hl, hp,
    afterKeywords_eq hlexed hcapital hl hmore]
  simp only [Option.mem_def, Option.map_eq_some_iff]
  constructor
  · rintro ⟨_, ⟨tail, ht, rfl⟩, hholds⟩
    exact ⟨tail, ht, (Closing.holds_iff hclosing (hnext tail ht)).1 hholds⟩
  · rintro ⟨tail, ht, hblank⟩
    exact ⟨_, ⟨tail, ht, rfl⟩, (Closing.holds_iff hclosing (hnext tail ht)).2 hblank⟩

/-- Let a specification of a statement start, whatever stands between the words, with those of an
alteration that copies the table. The clause shows the alteration at that place exactly if it is
plainly written there; and if it is, the statement is known to copy the table and not reported as
one that can be changed in place. -/
theorem copying_seen_iff (hh : headerOf? statement = some h)
    (hs : IsSpecification h.rest before spec) (ho : o ∈ copyOperations) (hlead : o.1.Leads spec) :
    let front := trimStart (spelled (before ++ spec.takeWhile Lexeme.isBlank))
    let back := clauseEnd (spelled (dropBlank spec))
    (alterClause statement).toList = front ++ back ∧
      (o.1.startsAt front.getLast? back = true ↔ o.1.IsPlainIn spec) ∧
      (o.1.IsPlainIn spec → (blockingOperation (alterClause statement)).isSome = true ∧
        ∀ valid, (Validation.judgeOnline valid statement).1 = false) := by
  obtain ⟨hne, hcapital, hclosing⟩ := copyOperations_keywords o ho
  obtain ⟨k, ks, hkeywords⟩ := List.exists_cons_of_ne_nil hne
  rw [Phrase.Leads, hkeywords] at hlead
  rw [hkeywords] at hcapital
  obtain ⟨gap, l, ls, rfl, hgap, hl, hmore⟩ := exists_gap hlead
  have hword := isWord_of_isKeyword hl
  rw [takeWhile_gap hgap hword, dropBlank_gap hgap hword]
  intro front back
  have hclause : (alterClause statement).toList = front ++ back :=
    clause_of_specification hh hs (hcapital k (List.mem_cons_self ..)) hl
  obtain ⟨_, hlexemes, hheader⟩ := lexemes_of_headerOf hh
  obtain ⟨_, hrest⟩ := lexed_rest hlexemes hheader
  have hseen : o.1.startsAt front.getLast? back = true ↔ o.1.IsPlainIn (gap ++ l :: ls) :=
    hs.startsAt_iff hrest hgap hkeywords hcapital hclosing hl hmore
  refine ⟨hclause, hseen, fun hplain => ?_⟩
  have hblocked : (blockingOperation (alterClause statement)).isSome = true := by
    refine (blockingOperation_isSome_iff _).2 ⟨o, ho, (o.1.occursIn_iff _).2 ?_⟩
    exact ⟨front, back, hclause, hseen.2 hplain⟩
  exact ⟨hblocked, judgeOnline_of_blocked hblocked⟩

end

/-- The lexemes of ` ADD c INT,` and of ` /* x */modify\tc BIGINT;`. -/
def addedFirst : List Lexeme :=
  [⟨.blank, [' ']⟩, ⟨.word false, "ADD".toList⟩, ⟨.blank, [' ']⟩, ⟨.word false, ['c']⟩,
    ⟨.blank, [' ']⟩, ⟨.word false, "INT".toList⟩, ⟨.other, [',']⟩]

def modifiedSecond : List Lexeme :=
  [⟨.blank, [' ']⟩, ⟨.blank, "/* x */".toList⟩, ⟨.word false, "modify".toList⟩, ⟨.blank, ['\t']⟩,
    ⟨.word false, ['c']⟩, ⟨.blank, [' ']⟩, ⟨.word false, "BIGINT".toList⟩, ⟨.terminator, [';']⟩]

theorem copying_seen_modify :
    let statement := "ALTER TABLE t ADD c INT, /* x */modify\tc BIGINT;"
    let modify : Phrase := ⟨["MODIFY"], .blank⟩
    IsSpecification (addedFirst ++ modifiedSecond) addedFirst modifiedSecond ∧
      modify.Leads modifiedSecond ∧ modify.IsPlainIn modifiedSecond ∧
      (blockingOperation (alterClause statement)).isSome = true ∧
      (Validation.judgeOnline true statement).1 = false := by
  intro statement modify
  have hh : headerOf? statement =
      some ⟨[⟨.blank, [' ']⟩], ⟨.word false, ['t']⟩, none, addedFirst ++ modifiedSecond⟩ := by
    decide +kernel
  have hs : IsSpecification (addedFirst ++ modifiedSecond) addedFirst modifiedSecond := by
    refine ⟨rfl, ?_⟩
    rintro l ⟨⟩
    rfl
  have ho : (modify, "MODIFY") ∈ copyOperations := by
    unfold copyOperations
    simp [modify]
  have hlead : modify.Leads modifiedSecond := by
    unfold Phrase.Leads
    decide +kernel
  have hplain : modify.IsPlainIn modifiedSecond := by
    refine ⟨modifiedSecond.drop 3, ?_, fun _ => ⟨'\t', ?_, rfl⟩⟩
    · decide +kernel
    · decide +kernel
  obtain ⟨-, -, hblocked⟩ := copying_seen_iff hh hs ho hlead
  exact ⟨hs, hlead, hplain, (hblocked hplain).1, (hblocked hplain).2 true⟩

/-- Whether some specification of a statement starts with the words of a phrase. -/
def HasSpecification (statement : String) (p : Phrase) : Prop :=
  ∃ h before spec, headerOf? statement = some h ∧ IsSpecification h.rest before spec ∧ p.Leads spec

theorem hasSpecification_of_rest {statement : String} {p : Phrase}
    (h : ((headerOf? statement).bind fun h =>
      afterWords? (fun _ => true) p.keywords h.rest).isSome = true) :
    HasSpecification statement p := by
  obtain ⟨tail, htail⟩ := Option.isSome_iff_exists.1 h
  obtain ⟨h, hh, hlead⟩ := Option.bind_eq_some_iff.1 htail
  exact ⟨h, [], h.rest, hh, ⟨rfl, nofun⟩, Option.isSome_of_eq_some hlead⟩

theorem copying_unseen :
    (HasSpecification "ALTER TABLE t MODIFY\x60c\x60 INT" ⟨["MODIFY"], .blank⟩ ∧
      blockingOperation (alterClause "ALTER TABLE t MODIFY\x60c\x60 INT") = none ∧
      (Validation.judgeOnline true "ALTER TABLE t MODIFY\x60c\x60 INT").1 = true) ∧
    (HasSpecification "ALTER TABLE t ADD/**/FULLTEXT INDEX i (c)" ⟨["ADD", "FULLTEXT"], .wordEnd⟩ ∧
      blockingOperation (alterClause "ALTER TABLE t ADD/**/FULLTEXT INDEX i (c)") = none ∧
      (Validation.judgeOnline true "ALTER TABLE t ADD/**/FULLTEXT INDEX i (c)").1 = true) := by
  refine ⟨⟨hasSpecification_of_rest ?_, ?_, ?_⟩, ⟨hasSpecification_of_rest ?_, ?_, ?_⟩⟩
  all_goals decide +kernel

end SafeAlter.Sql
