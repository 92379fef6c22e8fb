import Mathlib.Data.Bool.AllAny
import SafeAlter.Proofs.Sql.Keyword
import SafeAlter.Proofs.Text.Trimming
import SafeAlter.Sql.CopyOperation

/-! # Places of a phrase

A phrase occurs in a text if it stands at some place of it, where only the one character in front
matters. A keyword is read off a word that is spelled like it in any letter case, and off nothing
that starts like a comment.
-/
namespace SafeAlter.Sql
open SafeAlter.Text

namespace Phrase
variable (p : Phrase)

theorem occursAfter_iff (before : Option Char) (s : List Char) :
    p.occursAfter before s = true ↔
      ∃ x y, s = x ++ y ∧ p.startsAt (x.getLast?.or before) y = true := by
  induction s generalizing before with
  | nil =>
    constructor
    · exact fun h => ⟨[], [], rfl, h⟩
    · rintro ⟨x, y, hxy, h⟩
      obtain ⟨rfl, rfl⟩ := List.append_eq_nil_iff.1 hxy.symm
      exact h
  | cons c s ih =>
    have hlast : ∀ x : List Char, (c :: x).getLast?.or before = x.getLast?.or (some c) := by
      intro x
      cases hx : x.getLast? <;> simp [List.getLast?_cons, hx]
    rw [occursAfter, Bool.or_eq_true, ih]
    constructor
    · rintro (h | ⟨x, y, rfl, h⟩)
      · exact ⟨[], c :: s, rfl, h⟩
      · exact ⟨c :: x, y, rfl, by rwa [hlast]⟩
    · rintro ⟨_ | ⟨d, x⟩, y, hxy, h⟩
      · subst hxy
        exact .inl h
      · obtain ⟨rfl, rfl⟩ := List.cons_eq_cons.1 hxy
        rw [hlast] at h
        exact .inr ⟨x, y, rfl, h⟩

/-- A phrase occurs where it stands at some place. -/
theorem occursIn_iff (s : List Char) :
    p.occursIn s = true ↔ ∃ x y, s = x ++ y ∧ p.startsAt x.getLast? y = true := by
  simp only [occursIn, occursAfter_iff, Option.or_none]

end Phrase

theorem blockingOperation_isSome_iff (clause : String) :
    (blockingOperation clause).isSome = true ↔
      ∃ o ∈ copyOperations, o.1.occursIn clause.toList = true := by
  rw [blockingOperation, Option.isSome_map, List.find?_isSome]

/-! ## Keywords -/

/-- A word in capital letters that makes no string of a quote behind it. -/
def IsCapital (keyword : String) : Prop :=
  (∃ c ∈ keyword.toList.head?, c ∉ ['B', 'N', 'X']) ∧ ∀ d ∈ keyword.toList, d.isUpper = true

instance (keyword : String) : Decidable (IsCapital keyword) :=
  decidable_of_iff
    ((keyword.toList.head?.any fun c => c ∉ ['B', 'N', 'X']) = true ∧
      keyword.toList.all (·.isUpper) = true) <| by
    rw [IsCapital, List.all_eq_true, Option.any_eq_true]
    simp only [decide_eq_true_eq, Option.mem_def]

theorem IsCapital.eq_cons {keyword : String} (h : IsCapital keyword) :
    ∃ c s, keyword.toList = c :: s ∧ c ∉ ['B', 'N', 'X'] ∧ ∀ d ∈ c :: s, d.isUpper = true := by
  obtain ⟨⟨c, hc, hmark⟩, hupper⟩ := h
  obtain ⟨s, hs⟩ := List.head?_eq_some_iff.1 hc
  rw [hs] at hupper
  exact ⟨c, s, hs, hmark, hupper⟩

/-- The phrases that tell of a copy are made of such words, and none of them is a setting. -/
theorem copyOperations_keywords :
    ∀ o ∈ copyOperations, o.1.keywords ≠ [] ∧ (∀ k ∈ o.1.keywords, IsCapital k) ∧
      o.1.closing ≠ .equals := by
  decide +kernel

theorem matchesLetter_of_toLower {c k : Char} (hk : k.isUpper = true)
    (h : c.toLower = k.toLower) : matchesLetter k c = true := by
  rw [matchesLetter, toUpper_of_toLower hk h]
  simp

theorem afterKeyword_append {w k : List Char} (hk : ∀ c ∈ k, c.isUpper = true)
    (h : lowerCase w = lowerCase k) (s : List Char) : afterKeyword? k (w ++ s) = some s := by
  induction k generalizing w with
  | nil =>
    obtain rfl := List.map_eq_nil_iff.1 h
    rfl
  | cons d k ih =>
    obtain ⟨c, w, rfl, hc, hw⟩ := List.map_eq_cons_iff.1 h
    obtain ⟨hd, hk⟩ := List.forall_mem_cons.1 hk
    rw [List.cons_append, afterKeyword?, if_pos (matchesLetter_of_toLower hd hc)]
    exact ih hk hw

theorem afterKeywords_of_none {k s : List Char} (h : afterKeyword? k s = none)
    (ks : List (List Char)) : afterKeywords? (k :: ks) s = none := by
  cases ks with
  | nil => exact h
  | cons => simp [afterKeywords?, h]

/-- The characters that a comment starts with. -/
def commentOpeners : List Char := ['#', '-', '/']

theorem afterKeyword_comment {k : String} (hk : IsCapital k) {c : Char} (hc : c ∈ commentOpeners)
    (s : List Char) : afterKeyword? k.toList (c :: s) = none := by
  obtain ⟨d, w, hd, -, hupper⟩ := hk.eq_cons
  have hd' := hupper d (List.mem_cons_self ..)
  have hmatch : matchesLetter d c = false := by
    have hopener : ∀ e ∈ commentOpeners, e.isUpper = false ∧ e.toUpper = e ∧ e ≠ '\u212A' ∧
        e ≠ '\u017F' := List.all_iff_forall_prop.1 (by decide +kernel)
    obtain ⟨hnot, hupper, hkelvin, hlong⟩ := hopener c hc
    have hne : c ≠ d := by
      rintro rfl
      rw [hnot] at hd'
      cases hd'
    simp [matchesLetter, hupper, hne, hkelvin, hlong]
  rw [hd, afterKeyword?, hmatch]
  rfl

/-! ## Settings -/

/-- The word of a setting, with an equals sign behind it. -/
def settingPhrase (keyword : String) : Phrase := ⟨[keyword], .equals⟩

section
variable {keyword : String} {before : Option Char} {k s t rest : List Char}

theorem afterKeyword_suffix (h : afterKeyword? k s = some rest) : rest <:+ s := by
  induction k generalizing s with
  | nil =>
    cases h
    exact List.suffix_rfl
  | cons d k ih =>
    cases s with
    | nil => cases h
    | cons c s =>
      rw [afterKeyword?] at h
      split at h
      · exact (ih h).trans (List.suffix_cons c s)
      · cases h

/-- A keyword is read off the front of a text in the same way if that goes on, as long as what is
added is left. -/
theorem afterKeyword_append_iff :
    afterKeyword? k (s ++ t) = some (rest ++ t) ↔ afterKeyword? k s = some rest := by
  induction k generalizing s with
  | nil => simp [afterKeyword?]
  | cons d k ih =>
    cases s with
    | nil =>
      refine iff_of_false (fun h => ?_) nofun
      cases t with
      | nil => cases h
      | cons c t =>
        rw [List.nil_append, afterKeyword?] at h
        split at h
        · have hlength := (afterKeyword_suffix h).length_le
          rw [List.length_append, List.length_cons] at hlength
          omega
        · cases h
    | cons c s =>
      rw [List.cons_append, afterKeyword?, afterKeyword?]
      split
      · exact ih
      · exact iff_of_false nofun nofun

theorem settingPhrase_startsAt_iff :
    (settingPhrase keyword).startsAt before s = true ↔
      before.any isWordCharacter = false ∧ ∃ rest, afterKeyword? keyword.toList s = some rest ∧
        (trimStart rest).head? = some '=' := by
  rw [Phrase.startsAt, Bool.and_eq_true, Bool.not_eq_true', Option.any_eq_true]
  simp only [settingPhrase, List.map_cons, List.map_nil, afterKeywords?, Closing.holds, beq_iff_eq]

theorem settingPhrase_startsAt_nil (before : Option Char) :
    (settingPhrase keyword).startsAt before [] = false := by
  rw [Bool.eq_false_iff, Ne, settingPhrase_startsAt_iff]
  rintro ⟨-, rest, hkeyword, hequals⟩
  obtain rfl := List.suffix_nil.1 (afterKeyword_suffix hkeyword)
  cases hequals

/-- What follows the text of a setting says nothing about it if there is no equals sign in it. -/
theorem settingPhrase_startsAt_append (ht : '=' ∉ t) (before : Option Char) (s : List Char) :
    (settingPhrase keyword).startsAt before (s ++ t) =
      (settingPhrase keyword).startsAt before s := by
  have hmem : ∀ {u : List Char}, (trimStart u).head? = some '=' → '=' ∈ u := fun h =>
    (List.dropWhile_suffix isBlank).mem (List.mem_of_mem_head? h)
  rw [Bool.eq_iff_iff, settingPhrase_startsAt_iff, settingPhrase_startsAt_iff]
  refine and_congr_right fun _ => ⟨?_, ?_⟩
  · rintro ⟨rest, hkeyword, hequals⟩
    -- the equals sign is in front of what is added, so that all of this is left behind it
    obtain ⟨y, hy⟩ := afterKeyword_suffix hkeyword
    obtain ⟨z, rfl⟩ : ∃ z, rest = z ++ t := by
      rcases List.append_eq_append_iff.1 hy with ⟨z, -, rfl⟩ | ⟨z, -, rfl⟩
      · exact ⟨z, rfl⟩
      · exact absurd (List.mem_append_right z (hmem hequals)) ht
    refine ⟨z, afterKeyword_append_iff.1 hkeyword, ?_⟩
    rcases trimStart_append z t with ⟨-, hzt⟩ | ⟨c, u, hz, hzt⟩
    · rw [hzt] at hequals
      exact absurd ((List.dropWhile_suffix isBlank).mem (List.mem_of_mem_head? hequals)) ht
    · rw [hzt] at hequals
      rwa [hz]
  · rintro ⟨rest, hkeyword, hequals⟩
    refine ⟨rest ++ t, afterKeyword_append_iff.2 hkeyword, ?_⟩
    rcases trimStart_append rest t with ⟨hz, -⟩ | ⟨c, u, hz, hzt⟩
    · rw [hz] at hequals
      cases hequals
    · rw [hz] at hequals
      rwa [hzt]

theorem settingPhrase_occursAfter_append (ht : '=' ∉ t) (before : Option Char) (s : List Char) :
    (settingPhrase keyword).occursAfter before (s ++ t) =
      (settingPhrase keyword).occursAfter before s := by
  induction s generalizing before with
  | nil =>
    rw [List.nil_append, Phrase.occursAfter, settingPhrase_startsAt_nil, Bool.eq_false_iff, Ne,
      Phrase.occursAfter_iff]
    rintro ⟨x, y, rfl, hstart⟩
    have hy : '=' ∉ y := fun h => ht (List.mem_append_right x h)
    rw [← List.nil_append y, settingPhrase_startsAt_append hy, settingPhrase_startsAt_nil] at hstart
    cases hstart
  | cons c s ih =>
    rw [List.cons_append, Phrase.occursAfter, Phrase.occursAfter, ← List.cons_append,
      settingPhrase_startsAt_append ht, ih]

end

end SafeAlter.Sql
