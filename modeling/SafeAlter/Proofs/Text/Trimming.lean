import Mathlib.Data.List.DropRight
import SafeAlter.Text.Blank

/-! # What trimming leaves

Trimming stops at the first character from either end that is not blank, so that it does not reach
beyond such a character. What is blank around a text makes no difference to it, and a second time
there is nothing left to trim.
-/
namespace SafeAlter.Text
variable {p : Char → Bool} {c : Char} {a b s : List Char}

theorem dropEndWhile_cons (hc : p c = false) (a b : List Char) :
    dropEndWhile p (a ++ c :: b) = a ++ c :: dropEndWhile p b := by
  have hreverse : (a ++ c :: b).reverse = b.reverse ++ c :: a.reverse := by simp
  have hstop : (c :: a.reverse).dropWhile p = c :: a.reverse :=
    List.dropWhile_cons_of_neg (by simp [hc])
  rw [dropEndWhile, hreverse, List.dropWhile_append, hstop]
  split
  · next hb => simp [dropEndWhile, List.isEmpty_iff.1 hb]
  · simp [dropEndWhile]

theorem dropEndWhile_append (hb : ∀ c ∈ b, p c = true) (a : List Char) :
    dropEndWhile p (a ++ b) = dropEndWhile p a := by
  have hreverse : ∀ c ∈ b.reverse, p c = true := fun c hc => hb c (List.mem_reverse.1 hc)
  rw [dropEndWhile, List.reverse_append, List.dropWhile_append_of_pos hreverse, dropEndWhile]

theorem dropEndWhile_isPrefix (s : List Char) : dropEndWhile p s <+: s := by
  rw [← List.reverse_suffix, dropEndWhile, List.reverse_reverse]
  exact List.dropWhile_suffix p

theorem exists_dropEndWhile (p : Char → Bool) (s : List Char) :
    ∃ b, (∀ c ∈ b, p c = true) ∧ s = dropEndWhile p s ++ b :=
  ⟨s.rtakeWhile p, fun _ => List.mem_rtakeWhile_imp, List.rdropWhile_append_rtakeWhile.symm⟩

/-- A text is blank up to some character, or all of it is and trimming goes on behind it. -/
theorem trimStart_append (a b : List Char) :
    (trimStart a = [] ∧ trimStart (a ++ b) = trimStart b) ∨
      ∃ c t, trimStart a = c :: t ∧ trimStart (a ++ b) = c :: t ++ b := by
  simp only [trimStart, List.dropWhile_append]
  cases a.dropWhile isBlank with
  | nil => exact .inl ⟨rfl, rfl⟩
  | cons c t => exact .inr ⟨c, t, rfl, rfl⟩

theorem trimStart_of_not_isBlank (hc : isBlank c = false) (s : List Char) :
    trimStart (c :: s) = c :: s :=
  List.dropWhile_cons_of_neg (by simp [hc])

theorem trimStart_cons (hc : isBlank c = false) (a b : List Char) :
    trimStart (a ++ c :: b) = trimStart a ++ c :: b := by
  rcases trimStart_append a (c :: b) with ⟨ha, hab⟩ | ⟨d, t, ha, hab⟩
  · rw [hab, ha, trimStart_of_not_isBlank hc, List.nil_append]
  · rw [hab, ha]

theorem not_isBlank_of_trimStart {t : List Char} (h : trimStart s = c :: t) : isBlank c = false := by
  have hnot := List.head?_dropWhile_not isBlank s
  rw [← trimStart, h] at hnot
  simpa using hnot

theorem trimStart_eq_nil (h : ∀ c ∈ s, isBlank c = true) : trimStart s = [] :=
  List.dropWhile_eq_nil_iff.2 h

theorem exists_trimStart (s : List Char) :
    ∃ b, (∀ c ∈ b, isBlank c = true) ∧ s = b ++ trimStart s :=
  ⟨s.takeWhile isBlank, fun c hc => List.all_eq_true.1 List.all_takeWhile c hc,
    List.takeWhile_append_dropWhile.symm⟩

/-- A text goes on behind the front of a trimmed one with no blank character in front of it. -/
theorem trimStart_of_isPrefix (ha : a <+: trimStart s) (hb : trimStart b = b) :
    trimStart (a ++ b) = a ++ b := by
  cases a with
  | nil => exact hb
  | cons c a =>
    obtain ⟨t, ht⟩ := ha
    exact trimStart_of_not_isBlank (not_isBlank_of_trimStart ht.symm) (a ++ b)

theorem not_isBlank_of_getLast?_trimEnd : ∀ c ∈ (trimEnd s).getLast?, isBlank c = false := by
  intro c hc
  have hne : trimEnd s ≠ [] := List.ne_nil_of_mem (List.mem_of_getLast? hc)
  have hnot := List.rdropWhile_last_not isBlank s hne
  rw [Option.mem_def, List.getLast?_eq_some_getLast hne, Option.some.injEq] at hc
  rw [← hc]
  exact Bool.eq_false_iff.2 hnot

/-- It makes no difference which end is trimmed first. -/
theorem trimStart_trimEnd (s : List Char) : trimStart (trimEnd s) = trim s := by
  rw [trim]
  cases hs : trimStart s with
  | nil =>
    have hblank : ∀ c ∈ s, isBlank c = true := List.dropWhile_eq_nil_iff.1 hs
    have hend : trimEnd s = [] := List.rdropWhile_eq_nil_iff.2 hblank
    rw [hend]
    rfl
  | cons c t =>
    have hc := not_isBlank_of_trimStart hs
    obtain ⟨b, hb, hj⟩ := exists_trimStart s
    have hend : trimEnd (c :: t) = c :: trimEnd t := dropEndWhile_cons hc [] t
    rw [hj, hs, trimEnd, dropEndWhile_cons hc, trimStart_cons hc, trimStart_eq_nil hb,
      List.nil_append, hend, trimEnd]

theorem trim_trim (s : List Char) : trim (trim s) = trim s := by
  have hstart : trimStart (trimStart s) = trimStart s := List.dropWhile_idempotent ..
  have hend : trimEnd (trim s) = trim s := List.rdropWhile_idempotent ..
  have hswap : trimStart (trim s) = trim s := by
    have h := trimStart_trimEnd (trimStart s)
    rwa [trim, hstart] at h
  rw [trim, hswap, hend]

theorem trim_eq_nil_iff : trim s = [] ↔ ∀ c ∈ s, isBlank c = true := by
  rw [trim, trimEnd, dropEndWhile, List.reverse_eq_nil_iff, List.dropWhile_eq_nil_iff]
  constructor
  · intro h
    cases hs : trimStart s with
    | nil => exact List.dropWhile_eq_nil_iff.1 hs
    | cons c t =>
      have hc : isBlank c = true := h c (by rw [hs]; simp)
      rw [not_isBlank_of_trimStart hs] at hc
      cases hc
  · intro h
    rw [trimStart_eq_nil h]
    simp

theorem trim_isInfix (s : List Char) : trim s <:+: s :=
  (dropEndWhile_isPrefix _).isInfix.trans (List.dropWhile_suffix isBlank).isInfix

theorem trim_sublist (s : List Char) : (trim s).Sublist s :=
  (trim_isInfix s).sublist

theorem trim_append (ha : ∀ c ∈ a, isBlank c = true) (hb : ∀ c ∈ b, isBlank c = true)
    (s : List Char) : trim (a ++ s ++ b) = trim s := by
  rw [← trimStart_trimEnd, trimEnd, dropEndWhile_append hb, ← trimEnd, trimStart_trimEnd, trim,
    trimStart, List.dropWhile_append_of_pos ha, ← trimStart, ← trim]

theorem trim_trimEnd (s : List Char) : trim (trimEnd s) = trim s := by
  rw [trim, trimStart_trimEnd, trim]
  exact List.rdropWhile_idempotent ..

end SafeAlter.Text
