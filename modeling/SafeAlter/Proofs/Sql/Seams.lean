import SafeAlter.Proofs.Sql.Gaps

/-! # Phrases at a seam

A character that is no word character, no blank and no equals sign keeps a phrase from going across
it, and closes a word as the end of the text does. In a text that is joined of two by such a
character a phrase stands at as many places as in the two together. Of what is in front of a place
it matters only whether a word goes on there.
-/
namespace SafeAlter.Sql
open SafeAlter.Text

/-- A phrase of one or more keywords, each in capital letters. -/
def Phrase.OfCapitals (p : Phrase) : Prop :=
  p.keywords ≠ [] ∧ ∀ k ∈ p.keywords, IsCapital k

/-- The number of places where a phrase stands in a text that follows a given character. -/
def Phrase.startCount (p : Phrase) (before : Option Char) : List Char → Nat
  | [] => (p.startsAt before []).toNat
  | c :: s => (p.startsAt before (c :: s)).toNat + p.startCount (some c) s

/-- A character that ends a word, is not passed over between two words and sets nothing. -/
structure Separates (c : Char) : Prop where
  notWord : isWordCharacter c = false
  notBlank : isBlank c = false
  notEquals : c ≠ '='

theorem separates_comma : Separates ',' := ⟨by decide +kernel, by decide, by decide⟩

section Letters
variable {c d k : Char}

theorem isWordCharacter_of_isAlpha (h : c.isAlpha = true) : isWordCharacter c = true := by
  have hc := isAlpha_iff_toNat.1 h
  have hword : c.isAlpha = true → isWordCharacter c = true :=
    holds_of_toNat_lt (by omega : c.toNat < 0x80) (by decide +kernel)
  exact hword h

theorem isWordCharacter_of_matchesLetter (hk : k.isUpper = true) (h : matchesLetter k c = true) :
    isWordCharacter c = true := by
  simp only [matchesLetter, Bool.or_eq_true, Bool.and_eq_true, beq_iff_eq] at h
  rcases h with (h | ⟨-, rfl⟩) | ⟨-, rfl⟩
  · have hupper : 65 ≤ c.toUpper.toNat ∧ c.toUpper.toNat ≤ 90 := h ▸ of_decide_eq_true hk
    rw [toNat_toUpper] at hupper
    refine isWordCharacter_of_isAlpha (isAlpha_iff_toNat.2 ?_)
    split at hupper
    · next hlower => exact .inr hlower
    · exact .inl hupper
  · decide +kernel
  · decide +kernel

theorem matchesLetter_eq_false (hk : k.isUpper = true) (hc : isWordCharacter c = false) :
    matchesLetter k c = false := by
  refine Bool.eq_false_iff.2 fun h => ?_
  rw [isWordCharacter_of_matchesLetter hk h] at hc
  cases hc

theorem not_isWordCharacter_of_isBlank (hc : isBlank c = true) : isWordCharacter c = false := by
  have hgap : ∀ r ∈ blankRanges, ∀ q ∈ wordRanges, r.2 < q.1 ∨ q.2 < r.1 := by decide +kernel
  obtain ⟨r, hr, hin⟩ := List.any_eq_true.1 hc
  refine Bool.eq_false_iff.2 fun hword => ?_
  obtain ⟨q, hq, hin'⟩ := List.any_eq_true.1 hword
  simp only [Bool.and_eq_true, decide_eq_true_eq] at hin hin'
  have hapart := hgap r hr q hq
  omega

end Letters

/-! ## One phrase at one place -/

section
variable {p : Phrase} {before before' : Option Char} {c : Char} {s t : List Char}

theorem Phrase.startsAt_congr (h : before.any isWordCharacter = before'.any isWordCharacter)
    (s : List Char) : p.startsAt before s = p.startsAt before' s := by
  rw [Phrase.startsAt, Phrase.startsAt, h]

theorem Phrase.startCount_congr (h : before.any isWordCharacter = before'.any isWordCharacter)
    (s : List Char) : p.startCount before s = p.startCount before' s := by
  cases s with
  | nil => rw [startCount, startCount, startsAt_congr h]
  | cons c s => rw [startCount, startCount, startsAt_congr h]

theorem Phrase.startCount_some (hc : isWordCharacter c = false) (s : List Char) :
    p.startCount (some c) s = p.startCount none s :=
  startCount_congr (by simp [hc]) s

theorem Phrase.startCount_pos_iff (before : Option Char) (s : List Char) :
    0 < p.startCount before s ↔ p.occursAfter before s = true := by
  have hone : ∀ b : Bool, 0 < b.toNat ↔ b = true := by decide
  induction s generalizing before with
  | nil => exact hone _
  | cons c s ih =>
    rw [startCount, occursAfter, Bool.or_eq_true, Nat.add_pos_iff_pos_or_pos]
    exact or_congr (hone _) (ih (some c))

/-- A keyword starts with a word character. -/
theorem afterKeyword_of_not_isWordCharacter {k : String} (hk : IsCapital k)
    (hc : isWordCharacter c = false) (s : List Char) : afterKeyword? k.toList (c :: s) = none := by
  obtain ⟨d, w, hd, -, hupper⟩ := hk.eq_cons
  rw [hd, afterKeyword?, matchesLetter_eq_false (hupper d (List.mem_cons_self ..)) hc]
  rfl

/-- Between two keywords stands blank text, and the second is read behind all of it. -/
theorem afterKeywords_cons (k l : List Char) (ks : List (List Char)) (s : List Char) :
    afterKeywords? (k :: l :: ks) s = (afterKeyword? k s).bind fun rest =>
      if Closing.blank.holds rest then afterKeywords? (l :: ks) (trimStart rest) else none := by
  rw [afterKeywords?]
  · cases afterKeyword? k s with
    | none => rfl
    | some rest =>
      cases rest with
      | nil => rfl
      | cons c rest =>
        cases hc : isBlank c with
        | false => simp [Closing.holds, hc]
        | true => simp [Closing.holds, trimStart, hc]
  · intro h
    cases h

theorem Phrase.OfCapitals.startsAt_of_not_isWordCharacter (hp : p.OfCapitals)
    (hc : isWordCharacter c = false) (before : Option Char) (s : List Char) :
    p.startsAt before (c :: s) = false := by
  obtain ⟨hne, hcapital⟩ := hp
  obtain ⟨k, ks, hk⟩ := List.exists_cons_of_ne_nil hne
  have hnone := afterKeyword_of_not_isWordCharacter (hcapital k (hk ▸ List.mem_cons_self ..)) hc s
  rw [startsAt, hk, List.map_cons, afterKeywords_of_none hnone]
  exact Bool.and_false _

/-- What ends a word can be left out at the front of a text. -/
theorem Phrase.OfCapitals.startCount_cons (hp : p.OfCapitals) (hc : isWordCharacter c = false)
    (before : Option Char) (s : List Char) :
    p.startCount before (c :: s) = p.startCount none s := by
  rw [startCount, hp.startsAt_of_not_isWordCharacter hc, Bool.toNat_false, Nat.zero_add,
    startCount_some hc]

/-- So can a run of characters that are no word characters. -/
theorem Phrase.OfCapitals.startCount_append (hp : p.OfCapitals) (hne : t ≠ [])
    (ht : ∀ c ∈ t, isWordCharacter c = false) (before : Option Char) (s : List Char) :
    p.startCount before (t ++ s) = p.startCount none s := by
  induction t generalizing before with
  | nil => exact absurd rfl hne
  | cons c t ih =>
    obtain ⟨hc, ht⟩ := List.forall_mem_cons.1 ht
    rw [List.cons_append, hp.startCount_cons hc]
    cases t with
    | nil => rfl
    | cons d t => exact ih (List.cons_ne_nil d t) ht none

theorem Phrase.OfCapitals.occursAfter_append (hp : p.OfCapitals) (hne : t ≠ [])
    (ht : ∀ c ∈ t, isWordCharacter c = false) (before : Option Char) (s : List Char) :
    p.occursAfter before (t ++ s) = p.occursIn s := by
  rw [occursIn, Bool.eq_iff_iff, ← startCount_pos_iff, ← startCount_pos_iff,
    hp.startCount_append hne ht]

theorem Phrase.OfCapitals.occursAfter_cons (hp : p.OfCapitals) (hc : isWordCharacter c = false)
    (before : Option Char) (s : List Char) : p.occursAfter before (c :: s) = p.occursIn s := by
  rw [occursIn, Bool.eq_iff_iff, ← startCount_pos_iff, ← startCount_pos_iff, hp.startCount_cons hc]

/-! ## Across a separating character -/

theorem afterKeyword_separated {k : List Char} (hk : ∀ d ∈ k, d.isUpper = true) (hc : Separates c)
    (s t : List Char) :
    afterKeyword? k (s ++ c :: t) = (afterKeyword? k s).map (· ++ c :: t) := by
  induction k generalizing s with
  | nil => rfl
  | cons d k ih =>
    obtain ⟨hd, hk⟩ := List.forall_mem_cons.1 hk
    cases s with
    | nil =>
      have hnone : afterKeyword? (d :: k) (c :: t) = none := by
        rw [afterKeyword?, matchesLetter_eq_false hd hc.notWord]
        rfl
      exact hnone
    | cons e s =>
      rw [List.cons_append, afterKeyword?, afterKeyword?, ih hk]
      split <;> rfl

theorem Closing.holds_separated (closing : Closing) (hc : Separates c) (s t : List Char) :
    closing.holds (s ++ c :: t) = closing.holds s := by
  cases closing with
  | equals =>
    rw [holds, holds, trimStart_cons hc.notBlank]
    cases trimStart s with
    | nil => simp [hc.notEquals]
    | cons d u => rfl
  | wordEnd => cases s <;> simp [holds, hc.notWord]
  | blank => cases s <;> simp [holds, hc.notBlank]

theorem afterKeywords_separated {ks : List (List Char)}
    (hks : ∀ k ∈ ks, ∀ d ∈ k, d.isUpper = true) (hc : Separates c) (s t : List Char) :
    afterKeywords? ks (s ++ c :: t) = (afterKeywords? ks s).map (· ++ c :: t) := by
  induction ks generalizing s with
  | nil => rfl
  | cons k ks ih =>
    obtain ⟨hk, hks⟩ := List.forall_mem_cons.1 hks
    have hkeyword := afterKeyword_separated hk hc s t
    cases ks with
    | nil => exact hkeyword
    | cons l ls =>
      rw [afterKeywords_cons, afterKeywords_cons, hkeyword]
      cases afterKeyword? k s with
      | none => rfl
      | some rest =>
        rw [Option.map_some, Option.bind_some, Option.bind_some, Closing.holds_separated .blank hc,
          trimStart_cons hc.notBlank, ih hks]
        split <;> rfl

theorem Phrase.OfCapitals.isUpper (hp : p.OfCapitals) :
    ∀ k ∈ p.keywords.map String.toList, ∀ d ∈ k, d.isUpper = true := by
  simpa using fun k hk => (hp.2 k hk).2

theorem Phrase.OfCapitals.startsAt_separated (hp : p.OfCapitals) (hc : Separates c)
    (before : Option Char) (s t : List Char) :
    p.startsAt before (s ++ c :: t) = p.startsAt before s := by
  rw [startsAt, startsAt, afterKeywords_separated hp.isUpper hc, Option.any_map]
  congr 2
  exact funext fun rest => p.closing.holds_separated hc rest t

theorem Phrase.OfCapitals.startCount_separated (hp : p.OfCapitals) (hc : Separates c)
    (before : Option Char) (s t : List Char) :
    p.startCount before (s ++ c :: t) = p.startCount before s + p.startCount none t := by
  induction s generalizing before with
  | nil =>
    have hstart := hp.startsAt_separated hc before [] t
    rw [List.nil_append] at hstart ⊢
    rw [startCount.eq_2, hstart, startCount_some hc.notWord, startCount]
  | cons d s ih =>
    have hstart := hp.startsAt_separated hc before (d :: s) t
    rw [List.cons_append] at hstart ⊢
    rw [startCount, hstart, ih, startCount, Nat.add_assoc]

theorem Phrase.OfCapitals.occursAfter_separated (hp : p.OfCapitals) (hc : Separates c)
    (before : Option Char) (s t : List Char) :
    p.occursAfter before (s ++ c :: t) = (p.occursAfter before s || p.occursIn t) := by
  rw [occursIn, Bool.eq_iff_iff, Bool.or_eq_true, ← startCount_pos_iff, ← startCount_pos_iff,
    ← startCount_pos_iff, hp.startCount_separated hc, Nat.add_pos_iff_pos_or_pos]

end

end SafeAlter.Sql
