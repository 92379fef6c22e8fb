import SafeAlter.Proofs.Sql.Keyword
import SafeAlter.Proofs.Sql.NameReading
import SafeAlter.Proofs.Text.Trimming

/-! # The header of a statement

The header of an ALTER TABLE statement is what its lexemes say up to the name: the two words, the
blank lexemes in front of the name, and the word or the two words of the name. The name is read from
the text as well, and there it is the same and ends at the same place exactly if the header is
plain.
-/
namespace SafeAlter.Sql
open SafeAlter.Text

/-- The lexemes between the word TABLE and the name, the first and the second word of the name, and
the lexemes after it. -/
structure Header where
  gap : List Lexeme
  first : Lexeme
  second : Option Lexeme
  rest : List Lexeme
  deriving DecidableEq, Repr

namespace Header

/-- A header whose name starts with a given word. The name has a second word if a period and that
word follow directly. -/
def withFirst (gap : List Lexeme) (n : Lexeme) : List Lexeme → Header
  | p :: v :: ls =>
    if p.kind == .period && v.isWord then ⟨gap, n, some v, ls⟩ else ⟨gap, n, none, p :: v :: ls⟩
  | ls => ⟨gap, n, none, ls⟩

def name (h : Header) : TableName :=
  match h.second with
  | some v => ⟨some (String.ofList h.first.denoted), String.ofList v.denoted⟩
  | none => ⟨none, String.ofList h.first.denoted⟩

def afterFirst (h : Header) : List Char :=
  match h.second with
  | some v => '.' :: v.spelling ++ spelled h.rest
  | none => spelled h.rest

/-- A header is plain if there is no comment in front of its name, if the words of the name are
plain, and if a period after a name of one word is not followed by a plain character. -/
structure IsPlain (h : Header) : Prop where
  gap : ∀ c ∈ spelled h.gap, isBlank c = true
  first : h.first.IsPlain h.afterFirst
  second : ∀ v, h.second = some v → v.IsPlain (spelled h.rest)
  noSecond : h.second = none → ∀ s, spelled h.rest = '.' :: s → ∀ c ∈ s.head?, isPlain c = false

/-- What holds of a header whose lexemes, from the gap on, are those of a text. -/
structure Stands (h : Header) (u : List Char) : Prop where
  text : u = spelled h.gap ++ h.first.spelling ++ h.afterFirst
  gap : ∀ c ∈ (trimStart (spelled h.gap)).head?, isPlain c = true
  first : h.first.isWord = true ∧ h.first.Shaped h.afterFirst
  second : ∀ v, h.second = some v → v.isWord = true ∧ v.Shaped (spelled h.rest)
  noSecond : h.second = none → ∀ s, spelled h.rest = '.' :: s → '\x60' ∉ s.head?

end Header

/-- The header of an ALTER TABLE statement, if its lexemes start with one. -/
def header? (ls : List Lexeme) : Option Header :=
  match dropBlank ls with
  | [] => none
  | a :: ls =>
    match dropBlank ls with
    | [] => none
    | t :: ls =>
      match dropBlank ls with
      | [] => none
      | n :: tail =>
        if a.isKeyword "ALTER" && t.isKeyword "TABLE" && n.isWord then
          some (Header.withFirst (ls.takeWhile Lexeme.isBlank) n tail)
        else none

@[simp] theorem Header.withFirst_first (gap : List Lexeme) (n : Lexeme) (ls : List Lexeme) :
    (withFirst gap n ls).first = n := by
  unfold withFirst
  repeat' split
  all_goals rfl

@[simp] theorem Header.withFirst_gap (gap : List Lexeme) (n : Lexeme) (ls : List Lexeme) :
    (withFirst gap n ls).gap = gap := by
  unfold withFirst
  repeat' split
  all_goals rfl

theorem Header.withFirst_of_second {gap tail : List Lexeme} {n v : Lexeme}
    (hv : (withFirst gap n tail).second = some v) :
    ∃ p, tail = p :: v :: (withFirst gap n tail).rest ∧ v.isWord = true := by
  rcases tail with _ | ⟨p, _ | ⟨w, ls⟩⟩
  · cases hv
  · cases hv
  · simp only [withFirst] at hv ⊢
    split at hv
    · next hpw =>
      cases hv
      rw [if_pos hpw]
      exact ⟨p, rfl, (Bool.and_eq_true_iff.1 hpw).2⟩
    · cases hv

theorem Header.withFirst_of_noSecond {gap tail : List Lexeme} {n : Lexeme}
    (hn : (withFirst gap n tail).second = none) : (withFirst gap n tail).rest = tail := by
  rcases tail with _ | ⟨p, _ | ⟨w, ls⟩⟩
  · rfl
  · rfl
  · simp only [withFirst] at hn ⊢
    split at hn
    · cases hn
    · next hpw => rw [if_neg hpw]

theorem Header.withFirst_rest (gap : List Lexeme) (n : Lexeme) (ls : List Lexeme) :
    (withFirst gap n ls).rest = afterQualifier ls := by
  rcases ls with _ | ⟨p, _ | ⟨v, ls⟩⟩
  · rfl
  · rfl
  · simp only [withFirst, afterQualifier]
    split <;> rfl

theorem afterTableName?_eq (ls : List Lexeme) :
    afterTableName? ls = (header? ls).map Header.rest := by
  unfold afterTableName? header?
  cases dropBlank ls with
  | nil => rfl
  | cons a ls =>
    cases h : dropBlank ls with
    | nil => simp only [h, Option.map_none]
    | cons t ls =>
      cases h' : dropBlank ls with
      | nil => simp only [h, h', Option.map_none]
      | cons n tail =>
        simp only [h, h']
        split
        · simp only [Option.map_some, Header.withFirst_rest]
        · rfl

/-- What stands in front of the name in a statement that starts with a header: its two words, each
after blank lexemes, and then the gap. -/
inductive IsFront (gap : List Lexeme) : List Lexeme → Prop where
  | intro {b₁ b₂ : List Lexeme} {a t : Lexeme} (hb₁ : ∀ l ∈ b₁, l.isBlank = true)
      (ha : a.isKeyword "ALTER" = true) (hb₂ : ∀ l ∈ b₂, l.isBlank = true)
      (ht : t.isKeyword "TABLE" = true) (hgap : ∀ l ∈ gap, l.isBlank = true) :
      IsFront gap (b₁ ++ a :: (b₂ ++ t :: gap))

section Front
variable {l n : Lexeme} {gap front ls tail : List Lexeme} {h : Header}

theorem not_isBlank_of_isWord (h : l.isWord = true) : l.isBlank = false := by
  obtain ⟨kind, spelling⟩ := l
  cases kind with
  | word => rfl
  | blank => cases h
  | period => cases h
  | terminator => cases h
  | other => cases h

theorem isWord_of_isKeyword {keyword : String} (h : l.isKeyword keyword = true) :
    l.isWord = true := by
  have hkind : l.kind = .word false := eq_of_beq (Bool.and_eq_true_iff.1 h).1
  rw [Lexeme.isWord, hkind]
  rfl

theorem dropBlank_gap (hgap : ∀ m ∈ gap, m.isBlank = true) (hl : l.isWord = true) :
    dropBlank (gap ++ l :: ls) = l :: ls := by
  rw [dropBlank, List.dropWhile_append_of_pos hgap,
    List.dropWhile_cons_of_neg (by simp [not_isBlank_of_isWord hl])]

theorem takeWhile_gap (hgap : ∀ m ∈ gap, m.isBlank = true) (hl : l.isWord = true) :
    (gap ++ l :: ls).takeWhile Lexeme.isBlank = gap := by
  rw [List.takeWhile_append_of_pos hgap,
    List.takeWhile_cons_of_neg (by simp [not_isBlank_of_isWord hl]), List.append_nil]

theorem exists_blank_append (h : dropBlank ls = l :: tail) :
    ∃ b, (∀ l ∈ b, l.isBlank = true) ∧ ls = b ++ l :: tail ∧ ls.takeWhile Lexeme.isBlank = b := by
  refine ⟨ls.takeWhile Lexeme.isBlank, fun l hl => List.all_eq_true.1 List.all_takeWhile l hl, ?_,
    rfl⟩
  rw [← h]
  exact List.takeWhile_append_dropWhile.symm

/-- What is found behind the front does not matter to it. -/
theorem IsFront.header? (hf : IsFront gap front) (hn : n.isWord = true) (tail : List Lexeme) :
    Sql.header? (front ++ n :: tail) = some (Header.withFirst gap n tail) := by
  obtain @⟨b₁, b₂, a, t, hb₁, ha, hb₂, ht, hgap⟩ := hf
  have halter : ∀ ls, dropBlank (b₁ ++ a :: ls) = a :: ls := fun ls =>
    dropBlank_gap hb₁ (isWord_of_isKeyword ha)
  have htable : ∀ ls, dropBlank (b₂ ++ t :: ls) = t :: ls := fun ls =>
    dropBlank_gap hb₂ (isWord_of_isKeyword ht)
  have hname : dropBlank (gap ++ n :: tail) = n :: tail := dropBlank_gap hgap hn
  have htake : (gap ++ n :: tail).takeWhile Lexeme.isBlank = gap := takeWhile_gap hgap hn
  simp only [Sql.header?, List.append_assoc, List.cons_append, halter, htable, hname, ha, ht, hn,
    htake, Bool.and_self, if_true]

theorem exists_front (hh : header? ls = some h) :
    ∃ gap front n tail, IsFront gap front ∧ n.isWord = true ∧ ls = front ++ n :: tail ∧
      h = Header.withFirst gap n tail := by
  unfold header? at hh
  split at hh
  · cases hh
  · next a ls₁ h₁ =>
    split at hh
    · cases hh
    · next t ls₂ h₂ =>
      split at hh
      · cases hh
      · next n tail h₃ =>
        split at hh
        · next hwords =>
          cases hh
          simp only [Bool.and_eq_true] at hwords
          obtain ⟨⟨ha, ht⟩, hn⟩ := hwords
          obtain ⟨b₁, hb₁, rfl, -⟩ := exists_blank_append h₁
          obtain ⟨b₂, hb₂, rfl, -⟩ := exists_blank_append h₂
          obtain ⟨gap, hgap, rfl, hgaps⟩ := exists_blank_append h₃
          rw [hgaps]
          refine ⟨gap, _, n, tail, .intro hb₁ ha hb₂ ht hgap, hn, ?_, rfl⟩
          simp only [List.append_assoc, List.cons_append]
        · cases hh

theorem IsFront.blank_or_word (hf : IsFront gap front) :
    ∀ l ∈ front, l.isBlank = true ∨ l.isWord = true := by
  obtain ⟨hb₁, ha, hb₂, ht, hgap⟩ := hf
  simp only [List.forall_mem_append, List.forall_mem_cons]
  exact ⟨fun l hl => .inl (hb₁ l hl), .inr (isWord_of_isKeyword ha), fun l hl => .inl (hb₂ l hl),
    .inr (isWord_of_isKeyword ht), fun l hl => .inl (hgap l hl)⟩

theorem afterQualifier_suffix (ls : List Lexeme) : afterQualifier ls <:+ ls := by
  rcases ls with _ | ⟨p, _ | ⟨v, ls⟩⟩
  · exact List.suffix_rfl
  · exact List.suffix_rfl
  · simp only [afterQualifier]
    split
    · exact (List.suffix_cons v ls).trans (List.suffix_cons p _)
    · exact List.suffix_rfl

theorem header_suffix (hh : header? ls = some h) : h.rest <:+ ls := by
  obtain ⟨gap, front, n, tail, -, -, rfl, rfl⟩ := exists_front hh
  rw [Header.withFirst_rest]
  exact (afterQualifier_suffix tail).trans
    ((List.suffix_cons n tail).trans (List.suffix_append front _))

end Front

/-! ## The text of a header -/

section Lexed
variable {previous : Option LexemeKind} {s u : List Char} {ls tail gap : List Lexeme}
  {n : Lexeme}

theorem Lexed.of_period {kind : LexemeKind} (hk : isWord kind = true)
    (h : Lexed (some kind) ('.' :: s) ls) :
    ∃ rest, ls = ⟨.period, ['.']⟩ :: rest ∧ Lexed (some .period) s rest := by
  obtain ⟨k, rest, hcut, rfl, hrest⟩ := h.of_cons
  have hp : nextCut (some kind) '.' s = .ok ⟨.period, (['.'], s)⟩ := by
    have hb : isBlank '.' = false := rfl
    have hd : isDigit '.' = false := rfl
    simp [nextCut, periodCut, hk, hb, hd]
  rw [hp] at hcut
  cases hcut
  exact ⟨rest, rfl, hrest⟩

theorem Lexed.of_backtick (h : Lexed previous ('\x60' :: s) ls) :
    ∃ v rest, ls = v :: rest ∧ v.isWord = true := by
  obtain ⟨k, rest, hcut, rfl, -⟩ := h.of_cons
  have hq : nextCut previous '\x60' s = quotedCut '\x60' s := rfl
  rw [hq] at hcut
  unfold quotedCut at hcut
  simp only [if_true] at hcut
  split at hcut
  · cases hcut
    exact ⟨_, rest, rfl, rfl⟩
  · cases hcut

theorem Header.afterFirst_withFirst (h : Lexed previous s tail) :
    (withFirst gap n tail).afterFirst = spelled tail := by
  rcases tail with _ | ⟨p, _ | ⟨v, ls⟩⟩
  · rfl
  · rfl
  · simp only [withFirst]
    split
    · next hpv =>
      simp only [Bool.and_eq_true, beq_iff_eq] at hpv
      have hp := h.head_shaped
      obtain ⟨kind, spelling⟩ := p
      cases hpv.1
      cases hp
      rfl
    · rfl

/-- A name of one word is followed by no word in backticks after a period: it would be the second
word of the name. -/
theorem Lexed.noSecond {kind : LexemeKind} (hk : isWord kind = true)
    (h : Lexed (some kind) (spelled tail) tail) (hn : (Header.withFirst gap n tail).second = none)
    (hs : spelled tail = '.' :: s) : '\x60' ∉ s.head? := by
  intro hq
  rw [Option.mem_def, List.head?_eq_some_iff] at hq
  obtain ⟨t, rfl⟩ := hq
  rw [hs] at h
  obtain ⟨ls, rfl, hls⟩ := h.of_period hk
  obtain ⟨v, rest, rfl, hv⟩ := hls.of_backtick
  simp [Header.withFirst, hv] at hn

/-- Where blank lexemes are not blank text alone, they start, after such text, with the plain
character that opens a comment. -/
theorem Lexed.trimStart_gap (h : Lexed previous u (gap ++ ls))
    (hg : ∀ l ∈ gap, l.isBlank = true) :
    ∀ c ∈ (trimStart (spelled gap)).head?, isPlain c = true := by
  induction gap generalizing previous u with
  | nil => nofun
  | cons l gap ih =>
    have hrest := ih h.tail fun l' hl' => hg l' (List.mem_cons_of_mem l hl')
    have hl : l.kind = .blank := eq_of_beq (hg l (List.mem_cons_self ..))
    have hshaped := h.head_shaped
    generalize spelled (gap ++ ls) = after at hshaped
    cases hshaped with
    | @blank text _ hplain =>
      change ∀ c ∈ (trimStart (text ++ spelled gap)).head?, isPlain c = true
      rcases trimStart_append text (spelled gap) with ⟨-, he⟩ | ⟨c, t, hc, he⟩
      · rwa [he]
      · rw [hc] at hplain
        rwa [he]
    | quoted => cases hl
    | bare => cases hl
    | period => cases hl
    | terminator => cases hl
    | other => cases hl

theorem Lexed.stands (h : Lexed previous u (gap ++ n :: tail))
    (hg : ∀ l ∈ gap, l.isBlank = true) (hn : n.isWord = true) :
    (Header.withFirst gap n tail).Stands u := by
  obtain ⟨_, hname⟩ := h.of_append
  have htail := hname.tail
  have hafter : (Header.withFirst gap n tail).afterFirst = spelled tail :=
    Header.afterFirst_withFirst htail
  refine ⟨?_, ?_, ?_, ?_, ?_⟩
  · rw [hafter, Header.withFirst_first, Header.withFirst_gap, ← h.spelled_eq]
    simp [spelled]
  · rw [Header.withFirst_gap]
    exact h.trimStart_gap hg
  · rw [hafter, Header.withFirst_first]
    exact ⟨hn, hname.head_shaped⟩
  · intro v hv
    obtain ⟨p, ht, hw⟩ := Header.withFirst_of_second hv
    rw [ht] at htail
    exact ⟨hw, htail.tail.head_shaped⟩
  · intro hsecond s hs
    rw [Header.withFirst_of_noSecond hsecond] at hs
    exact htail.noSecond hn hsecond hs

end Lexed

/-! ## The two readings of a header -/

namespace Header
variable {h : Header} {u : List Char}

/-- Where a text has the first word's identifier and then what follows that word, blank text is all
that stands before the word. -/
theorem Stands.of_identifier (hs : h.Stands u)
    (hi : identifier (trimStart u) = some (h.first.denoted, h.afterFirst)) :
    (∀ c ∈ spelled h.gap, isBlank c = true) ∧ trimStart u = h.first.spelling ++ h.afterFirst := by
  obtain ⟨hx, hq, w, hw, -, hu⟩ := identifier_writes hi
  obtain ⟨hword, hshaped⟩ := hs.first
  have hj : u.takeWhile isBlank ++ trimStart u = u := List.takeWhile_append_dropWhile
  rw [hu, hs.text, ← List.append_assoc] at hj
  obtain ⟨hg, rfl⟩ := hw.cancel (hshaped.writes hword hq) hx hq (List.append_cancel_right hj)
  rw [← hg, ← hs.text]
  exact ⟨fun c hc => List.all_eq_true.1 List.all_takeWhile c hc, hu⟩

theorem Stands.second_eq (hs : h.Stands u) {v : Lexeme} {t : List Char} (hv : h.second = some v)
    (hi : identifier (trimStart u) = some (h.first.denoted, '.' :: t))
    (ht : identifier t = some (v.denoted, spelled h.rest)) :
    t = v.spelling ++ spelled h.rest := by
  obtain ⟨-, -, w, -, -, hu⟩ := identifier_writes hi
  obtain ⟨hy, hq, w', hw', -, rfl⟩ := identifier_writes ht
  obtain ⟨hword, hshaped⟩ := hs.second v hv
  have hafter : h.afterFirst = '.' :: v.spelling ++ spelled h.rest := by
    simp only [afterFirst, hv]
  have hj : u.takeWhile isBlank ++ trimStart u = u := List.takeWhile_append_dropWhile
  have hends : u.takeWhile isBlank ++ w ++ ['.'] ++ w' ++ spelled h.rest =
      spelled h.gap ++ h.first.spelling ++ ['.'] ++ v.spelling ++ spelled h.rest := by
    rw [hu] at hj
    have htext := hs.text
    rw [hafter, ← hj] at htext
    simpa using htext
  obtain ⟨-, rfl⟩ :=
    hw'.cancel (hshaped.writes hword hq) hy hq (List.append_cancel_right hends)
  rfl

theorem Stands.trimStart_eq (hs : h.Stands u) (hp : h.IsPlain) :
    trimStart u = h.first.spelling ++ h.afterFirst := by
  obtain ⟨hword, hshaped⟩ := hs.first
  rw [hs.text, List.append_assoc]
  exact hshaped.trimStart_append hword hp.first hp.gap

/-- The name that is read from the text is the one that the lexemes denote, and ends where they
end it, exactly if the header is plain. -/
theorem Stands.readName_iff (hs : h.Stands u) :
    readName (trimStart u) = some (h.name, spelled h.rest) ↔ h.IsPlain := by
  obtain ⟨hword, hshaped⟩ := hs.first
  cases hsecond : h.second with
  | none =>
    have hafter : h.afterFirst = spelled h.rest := by simp only [afterFirst, hsecond]
    have hname : h.name = ⟨none, String.ofList h.first.denoted⟩ := by simp only [name, hsecond]
    rw [hname, readName_one, ← hafter]
    constructor
    · rintro ⟨hi, hnone⟩
      obtain ⟨hg, hu⟩ := hs.of_identifier hi
      rw [hu, hshaped.identifier_iff hword] at hi
      refine ⟨hg, hi.2, by simp [hsecond], fun _ s hrest => ?_⟩
      exact (identifier_eq_none_iff (hs.noSecond hsecond s hrest)).1
        (hnone s (hafter.trans hrest))
    · intro hp
      rw [hs.trimStart_eq hp, hshaped.identifier_iff hword]
      refine ⟨⟨rfl, hp.first⟩, fun s hrest => ?_⟩
      rw [hafter] at hrest
      exact (identifier_eq_none_iff (hs.noSecond hsecond s hrest)).2
        (hp.noSecond hsecond s hrest)
  | some v =>
    have hafter : h.afterFirst = '.' :: (v.spelling ++ spelled h.rest) := by
      simp only [afterFirst, hsecond, List.cons_append]
    have hname : h.name = ⟨some (String.ofList h.first.denoted), String.ofList v.denoted⟩ := by
      simp only [name, hsecond]
    obtain ⟨hvword, hvshaped⟩ := hs.second v hsecond
    rw [hname, readName_two]
    constructor
    · rintro ⟨t, hi, ht⟩
      obtain rfl := hs.second_eq hsecond hi ht
      rw [← hafter] at hi
      obtain ⟨hg, hu⟩ := hs.of_identifier hi
      rw [hu, hshaped.identifier_iff hword] at hi
      rw [hvshaped.identifier_iff hvword] at ht
      refine ⟨hg, hi.2, fun w hw => ?_, by simp [hsecond]⟩
      rw [hsecond] at hw
      cases hw
      exact ht.2
    · intro hp
      refine ⟨v.spelling ++ spelled h.rest, ?_, ?_⟩
      · rw [hs.trimStart_eq hp, hshaped.identifier_iff hword]
        exact ⟨hafter.symm, hp.first⟩
      · rw [hvshaped.identifier_iff hvword]
        exact ⟨rfl, hp.second v hsecond⟩

end Header

/-- The header among the lexemes of a text that begins with ALTER TABLE stands in what follows these
words. -/
theorem stands_of_header {s u : List Char} {ls : List Lexeme} {h : Header}
    (hs : afterIgnoringCase? "ALTER TABLE".toList s = some u) (hl : Lexed none s ls)
    (hh : header? ls = some h) : h.Stands u := by
  obtain ⟨a, t, rest, -, ht, rfl, hrest⟩ := hl.of_alterTable hs
  change (match dropBlank rest with
    | [] => none
    | n :: tail =>
      if Lexeme.isKeyword ⟨.word false, a⟩ "ALTER" &&
          Lexeme.isKeyword ⟨.word false, t ++ u.takeWhile isNamePart⟩ "TABLE" && n.isWord then
        some (Header.withFirst (rest.takeWhile Lexeme.isBlank) n tail)
      else none) = some h at hh
  split at hh
  · cases hh
  · next n tail hn =>
    split at hh
    · next hk =>
      cases hh
      simp only [Bool.and_eq_true] at hk
      obtain ⟨⟨-, hk⟩, hword⟩ := hk
      -- nothing but the letters of TABLE belongs to the second word
      have htable : u.takeWhile isNamePart = [] := by
        have hlower : lowerCase (t ++ u.takeWhile isNamePart) = "table".toList :=
          eq_of_beq (Bool.and_eq_true_iff.1 hk).2
        rw [lowerCase, List.map_append, ← lowerCase, ht] at hlower
        exact List.map_eq_nil_iff.1 (List.append_right_eq_self.1 hlower)
      have hu : u.dropWhile isNamePart = u := by
        have hj : u.takeWhile isNamePart ++ u.dropWhile isNamePart = u :=
          List.takeWhile_append_dropWhile
        rwa [htable, List.nil_append] at hj
      rw [hu] at hrest
      have hr : rest.takeWhile Lexeme.isBlank ++ n :: tail = rest := by
        rw [← hn]
        exact List.takeWhile_append_dropWhile
      rw [← hr] at hrest
      exact hrest.stands (fun l hl => List.all_eq_true.1 List.all_takeWhile l hl) hword
    · cases hh

end SafeAlter.Sql
