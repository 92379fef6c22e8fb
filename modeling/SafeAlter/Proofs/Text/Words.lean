import Mathlib.Data.List.Chain
import SafeAlter.Proofs.Text.Trimming

/-! # The words of a text

Words are parted at blank characters, and what is blank around a text is in none of them. Joined
with a space between any two, words are read back; the text that they came from is not, unless it
has just one space between any two of them as well.
-/
namespace SafeAlter.Text
variable {c : Char} {a b s word : List Char} {xs ys : List (List Char)}

def IsWord (s : List Char) : Prop := s ≠ [] ∧ ∀ c ∈ s, isBlank c = false

theorem words_append (hc : isBlank c = true) (a b : List Char) :
    words (a ++ c :: b) = words a ++ words b := by
  rw [words, List.splitOnP_append_cons a b hc, List.filter_append]
  rfl

theorem words_cons (hc : isBlank c = true) (s : List Char) : words (c :: s) = words s :=
  words_append hc [] s

theorem words_blank_append (ha : ∀ c ∈ a, isBlank c = true) (s : List Char) :
    words (a ++ s) = words s := by
  induction a with
  | nil => rfl
  | cons c a ih =>
    obtain ⟨hc, ha⟩ := List.forall_mem_cons.1 ha
    rw [List.cons_append, words_cons hc, ih ha]

theorem words_append_blank (hb : ∀ c ∈ b, isBlank c = true) (s : List Char) :
    words (s ++ b) = words s := by
  cases b with
  | nil => rw [List.append_nil]
  | cons c b =>
    obtain ⟨hc, hb⟩ := List.forall_mem_cons.1 hb
    have hnone : words b = [] := by
      have hblank := words_blank_append hb []
      rwa [List.append_nil] at hblank
    rw [words_append hc, hnone, List.append_nil]

/-- Blank text parts the words in front of it from those behind it. -/
theorem words_append_gap (hb : b ≠ [] ∧ ∀ c ∈ b, isBlank c = true) (a s : List Char) :
    words (a ++ (b ++ s)) = words a ++ words s := by
  obtain ⟨hne, hblank⟩ := hb
  obtain ⟨c, b, rfl⟩ := List.exists_cons_of_ne_nil hne
  obtain ⟨hc, hblank⟩ := List.forall_mem_cons.1 hblank
  rw [List.cons_append, words_append hc, words_blank_append hblank]

theorem words_trim (s : List Char) : words (trim s) = words s := by
  obtain ⟨a, ha, hs⟩ := exists_trimStart s
  obtain ⟨b, hb, hstart⟩ := exists_dropEndWhile isBlank (trimStart s)
  have htrim : trimStart s = trim s ++ b := hstart
  rw [hs, words_blank_append ha, htrim, words_append_blank hb, ← htrim, ← hs]

theorem words_word (h : IsWord word) : words word = [word] := by
  have hne : word ≠ [] := h.1
  rw [words, List.splitOnP_eq_singleton h.2]
  simp [hne]

theorem trimStart_front (ha : ∀ c ∈ a, isBlank c = true) (hword : IsWord word) (b : List Char) :
    trimStart (a ++ (word ++ b)) = word ++ b := by
  obtain ⟨c, t, rfl⟩ := List.exists_cons_of_ne_nil hword.1
  rw [trimStart, List.dropWhile_append_of_pos ha, ← trimStart, List.cons_append,
    trimStart_of_not_isBlank (hword.2 c List.mem_cons_self)]

/-- The first word of a text stands behind blank text, and the other words are those of what
follows it. -/
theorem words_front (ha : ∀ c ∈ a, isBlank c = true) (hword : IsWord word)
    (hb : ∀ c ∈ b.head?, isBlank c = true) : words (a ++ (word ++ b)) = word :: words b := by
  rw [words_blank_append ha]
  cases b with
  | nil =>
    rw [List.append_nil, words_word hword]
    rfl
  | cons c b => rw [words_append (hb c rfl), words_word hword, words_cons (hb c rfl)]; rfl

/-- A text and its words: it is blank, or its first word stands behind blank text and in front of
nothing or of a blank character. -/
inductive Worded : List Char → List (List Char) → Prop where
  | blank {s : List Char} (h : ∀ c ∈ s, isBlank c = true) : Worded s []
  | word {a word b : List Char} {ws : List (List Char)} (ha : ∀ c ∈ a, isBlank c = true)
      (hword : IsWord word) (hb : ∀ c ∈ b.head?, isBlank c = true) (h : Worded b ws) :
      Worded (a ++ (word ++ b)) (word :: ws)

theorem exists_first_word (hs : trimStart s ≠ []) :
    ∃ a word b, s = a ++ (word ++ b) ∧ (∀ c ∈ a, isBlank c = true) ∧ IsWord word ∧
      ∀ c ∈ b.head?, isBlank c = true := by
  obtain ⟨a, ha, hj⟩ := exists_trimStart s
  obtain ⟨c, t, ht⟩ := List.exists_cons_of_ne_nil hs
  have hc : isBlank c = false := not_isBlank_of_trimStart ht
  refine ⟨a, (c :: t).takeWhile (!isBlank ·), (c :: t).dropWhile (!isBlank ·), ?_, ha, ⟨?_, ?_⟩, ?_⟩
  · rw [List.takeWhile_append_dropWhile, ← ht]
    exact hj
  · rw [List.takeWhile_cons_of_pos (by simp [hc])]
    exact List.cons_ne_nil _ _
  · intro d hd
    simpa using List.all_eq_true.1 List.all_takeWhile d hd
  · intro d hd
    have hnot := List.head?_dropWhile_not (!isBlank ·) (c :: t)
    rw [hd] at hnot
    simpa using hnot

theorem exists_words_cons (hc : isBlank c = false) (s : List Char) :
    ∃ word ws, words (c :: s) = word :: ws := by
  have hstart : trimStart (c :: s) ≠ [] := by
    rw [trimStart_of_not_isBlank hc]
    exact List.cons_ne_nil c s
  obtain ⟨a, word, b, hs, ha, hword, hb⟩ := exists_first_word hstart
  exact ⟨word, words b, by rw [hs, words_front ha hword hb]⟩

theorem worded (s : List Char) : Worded s (words s) := by
  induction hn : s.length using Nat.strong_induction_on generalizing s with
  | _ n ih =>
    by_cases hs : trimStart s = []
    · have hblank : ∀ c ∈ s, isBlank c = true := List.dropWhile_eq_nil_iff.1 hs
      have hnone := words_append_blank hblank []
      rw [List.nil_append] at hnone
      rw [hnone]
      exact .blank hblank
    · obtain ⟨a, word, b, rfl, ha, hword, hb⟩ := exists_first_word hs
      have hpos := List.length_pos_iff.2 hword.1
      rw [words_front ha hword hb]
      refine .word ha hword hb (ih b.length ?_ b rfl)
      simp only [List.length_append] at hn
      omega

theorem Worded.words_eq (h : Worded s xs) : words s = xs := by
  induction h with
  | blank h => exact words_append_blank h []
  | word ha hword hb _ ih => rw [words_front ha hword hb, ih]

theorem Worded.isWord (h : Worded s xs) : ∀ word ∈ xs, IsWord word := by
  induction h with
  | blank => exact List.forall_mem_nil _
  | word _ hword _ _ ih => exact List.forall_mem_cons.2 ⟨hword, ih⟩

/-- A text can be cut in front of each of its words. -/
theorem exists_cut_of_words (h : words s = xs ++ word :: ys) :
    ∃ a b, s = a ++ b ∧ words a = xs ∧ words b = word :: ys := by
  induction xs generalizing s with
  | nil => exact ⟨[], s, rfl, rfl, h⟩
  | cons x xs ih =>
    have hs := worded s
    rw [h] at hs
    obtain @⟨_⟩ | @⟨gap, _, after, _, hgap, hx, hafter, htail⟩ := hs
    cases after with
    | nil =>
      have hnone : words [] = xs ++ word :: ys := htail.words_eq
      exact absurd hnone.symm (List.append_ne_nil_of_right_ne_nil xs (List.cons_ne_nil word ys))
    | cons c t =>
      have hc : isBlank c = true := hafter c rfl
      have ht := htail.words_eq
      rw [words_cons hc] at ht
      obtain ⟨a, b, rfl, ha, hb⟩ := ih ht
      refine ⟨gap ++ (x ++ c :: a), b, by simp, ?_, hb⟩
      rw [words_front hgap hx (by simpa using hc), words_cons hc, ha]

/-- The words of a text, joined with a space between any two, are the words of the joined text. -/
theorem words_intercalate (h : ∀ word ∈ xs, IsWord word) : words ([' '].intercalate xs) = xs := by
  induction xs with
  | nil => rfl
  | cons x xs ih =>
    obtain ⟨hx, hxs⟩ := List.forall_mem_cons.1 h
    cases xs with
    | nil => rw [List.intercalate_singleton, words_word hx]
    | cons y ys =>
      rw [List.intercalate_cons_cons, List.append_assoc, List.singleton_append, words_append rfl,
        words_word hx, ih hxs]
      rfl

/-- A text whose blank characters are single spaces. -/
def IsSpaced (s : List Char) : Prop :=
  s.IsChain fun c d => isBlank c = true → c = ' ' ∧ isBlank d = false

/-- Where the blank characters of a text are single spaces, joining its words gives the text
back. -/
theorem Worded.intercalate_eq (h : Worded s xs) (hspaced : IsSpaced s)
    (hlast : ∀ c ∈ s.getLast?, isBlank c = false) : [' '].intercalate xs = trimStart s := by
  induction h with
  | blank h => rw [trimStart_eq_nil h, List.intercalate_nil]
  | @word a word b ws ha hword hb htail ih =>
    rw [trimStart_front ha hword]
    have hrest : IsSpaced b := (List.IsChain.right_of_append hspaced).right_of_append
    cases b with
    | nil =>
      have hnone : ws = [] := htail.words_eq.symm
      rw [hnone, List.intercalate_singleton, List.append_nil]
    | cons c t =>
      have hc : isBlank c = true := hb c rfl
      have hlast : ∀ d ∈ (c :: t).getLast?, isBlank d = false := by
        intro d hd
        refine hlast d ?_
        rw [List.getLast?_append, List.getLast?_append, hd]
        rfl
      have ih := ih hrest hlast
      cases t with
      | nil =>
        rw [hlast c rfl] at hc
        cases hc
      | cons d t =>
        -- the one blank character in front of the next word is a space
        obtain ⟨rfl, hd⟩ := (List.isChain_cons_cons.1 hrest).1 hc
        have hnext : trimStart (' ' :: d :: t) = d :: t := trimStart_of_not_isBlank hd t
        have hne : ws ≠ [] := by
          rintro rfl
          rw [hnext] at ih
          cases ih
        rw [List.intercalate_cons_of_ne_nil hne, ih, hnext, List.append_assoc]
        rfl

theorem intercalate_words (h : IsSpaced (trim s)) : [' '].intercalate (words s) = trim s := by
  have hjoin := (worded (trim s)).intercalate_eq h not_isBlank_of_getLast?_trimEnd
  have hstart : trimStart (trimStart s) = trimStart s := List.dropWhile_idempotent ..
  rwa [words_trim, trim, trimStart_trimEnd, trim, hstart] at hjoin

end SafeAlter.Text
