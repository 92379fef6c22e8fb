import Mathlib.Data.List.Basic
import SafeAlter.Text.Search

/-! # Where a text is cut

A text is cut at a mark into what stands in front of it and what stands behind it. The mark is not
in the first part where it is the first one, and not in the second part where it is the last one;
and only one cut of a text has this property. A beginning in any letter case is as long as the one
that was asked for, and the cut is behind it.
-/
namespace SafeAlter.Text
variable {mark : Char} {s a b start : List Char}

theorem cutFirst_eq_none_iff : cutFirst mark s = none ↔ mark ∉ s := by
  induction s with
  | nil => simp [cutFirst]
  | cons c s ih =>
    rw [cutFirst]
    split
    · next hc => simp [hc]
    · next hc => simp [ih, Ne.symm hc]

theorem cutFirst_append (ha : mark ∉ a) (b : List Char) :
    cutFirst mark (a ++ mark :: b) = some (a, b) := by
  induction a with
  | nil => simp [cutFirst]
  | cons c a ih =>
    obtain ⟨hc, ha⟩ := List.ne_and_not_mem_of_not_mem_cons ha
    rw [List.cons_append, cutFirst, if_neg (Ne.symm hc), ih ha]
    rfl

theorem cutFirst_eq_some_iff :
    cutFirst mark s = some (a, b) ↔ s = a ++ mark :: b ∧ mark ∉ a := by
  constructor
  · intro h
    have hmem : mark ∈ s := by
      by_contra hnot
      rw [cutFirst_eq_none_iff.2 hnot] at h
      cases h
    obtain ⟨a', b', rfl, ha'⟩ := List.eq_append_cons_of_mem hmem
    rw [cutFirst_append ha'] at h
    cases h
    exact ⟨rfl, ha'⟩
  · rintro ⟨rfl, ha⟩
    exact cutFirst_append ha b

theorem cutLast_eq_none_iff : cutLast mark s = none ↔ mark ∉ s := by
  induction s with
  | nil => simp [cutLast]
  | cons c s ih =>
    rw [cutLast, List.mem_cons, not_or]
    cases hs : cutLast mark s with
    | none => simp [ih.1 hs, eq_comm]
    | some p =>
      have hmem : mark ∈ s := by simpa [hs] using ih
      simp [hmem]

theorem cutLast_append (hb : mark ∉ b) (a : List Char) :
    cutLast mark (a ++ mark :: b) = some (a, b) := by
  induction a with
  | nil => simp [cutLast, cutLast_eq_none_iff.2 hb]
  | cons c a ih => simp [cutLast, ih]

theorem cutLast_eq_some_iff :
    cutLast mark s = some (a, b) ↔ s = a ++ mark :: b ∧ mark ∉ b := by
  constructor
  · intro h
    have hmem : mark ∈ s.reverse := by
      by_contra hnot
      rw [cutLast_eq_none_iff.2 fun hs => hnot (List.mem_reverse.2 hs)] at h
      cases h
    -- the last mark of the text is the first one of its reverse
    obtain ⟨b', a', hs, hb'⟩ := List.eq_append_cons_of_mem hmem
    have hs' : s = a'.reverse ++ mark :: b'.reverse := by
      rw [← List.reverse_reverse s, hs]
      simp
    rw [← List.mem_reverse] at hb'
    rw [hs', cutLast_append hb'] at h
    cases h
    exact ⟨hs', hb'⟩
  · rintro ⟨rfl, hb⟩
    exact cutLast_append hb a

/-- A character that is not in the beginning asked for keeps what is behind it out of the search. -/
theorem isPrefixOf?_append (h : mark ∉ start) (s b : List Char) :
    start.isPrefixOf? (s ++ mark :: b) = (start.isPrefixOf? s).map (· ++ mark :: b) := by
  induction start generalizing s with
  | nil => rfl
  | cons c start ih =>
    obtain ⟨hc, h⟩ := List.ne_and_not_mem_of_not_mem_cons h
    cases s with
    | nil => simp [List.isPrefixOf?, Ne.symm hc]
    | cons d s =>
      simp only [List.cons_append, List.isPrefixOf?]
      split
      · exact ih h s
      · rfl

theorem isPrefixOf?_append_self (start s : List Char) : start.isPrefixOf? (start ++ s) = some s :=
  List.isPrefixOf?_eq_some_iff_append_eq.2 rfl

theorem isPrefixOf?_eq_none (h : ¬start <+: s) : start.isPrefixOf? s = none := by
  refine Option.eq_none_iff_forall_ne_some.2 fun t ht => h ⟨t, ?_⟩
  exact List.isPrefixOf?_eq_some_iff_append_eq.1 ht

theorem prefix_append_mark (h : mark ∉ start) (s b : List Char) :
    start <+: s ++ mark :: b ↔ start <+: s := by
  refine ⟨fun ⟨t, ht⟩ => ?_, fun hs => hs.trans (List.prefix_append s _)⟩
  by_contra hs
  have hsome := isPrefixOf?_append_self start t
  rw [ht, isPrefixOf?_append h, isPrefixOf?_eq_none hs] at hsome
  cases hsome

theorem withoutStart_append (start s : List Char) : withoutStart start (start ++ s) = s := by
  rw [withoutStart, isPrefixOf?_append_self]
  rfl

theorem withoutStart_of_not_isPrefix (h : ¬start <+: s) : withoutStart start s = s := by
  rw [withoutStart, isPrefixOf?_eq_none h]
  rfl

theorem withoutStart_suffix (start s : List Char) : withoutStart start s <:+ s := by
  rw [withoutStart]
  cases h : start.isPrefixOf? s with
  | none => exact List.suffix_refl s
  | some t => exact ⟨start, List.isPrefixOf?_eq_some_iff_append_eq.1 h⟩

theorem withoutStart_append_mark (h : mark ∉ start) (s b : List Char) :
    withoutStart start (s ++ mark :: b) = withoutStart start s ++ mark :: b := by
  rw [withoutStart, withoutStart, isPrefixOf?_append h]
  cases start.isPrefixOf? s <;> rfl

/-! ## Beginnings in any letter case -/

theorem length_of_sameIgnoringCase {w : List Char} (h : sameIgnoringCase start w = true) :
    w.length = start.length := by
  have hlower := congrArg List.length (eq_of_beq h)
  simpa [lowerCase] using hlower.symm

theorem afterIgnoringCase_append {w : List Char} (h : sameIgnoringCase start w = true)
    (u : List Char) : afterIgnoringCase? start (w ++ u) = some u := by
  have hlength := length_of_sameIgnoringCase h
  rw [afterIgnoringCase?, List.take_left' hlength, List.drop_left' hlength, if_pos h]

theorem afterIgnoringCase?_eq_some_iff {u : List Char} :
    afterIgnoringCase? start s = some u ↔ ∃ w, s = w ++ u ∧ sameIgnoringCase start w = true := by
  constructor
  · intro h
    unfold afterIgnoringCase? at h
    split at h
    · next hsame =>
      cases h
      exact ⟨s.take start.length, (List.take_append_drop ..).symm, hsame⟩
    · cases h
  · rintro ⟨w, rfl, hw⟩
    exact afterIgnoringCase_append hw u

end SafeAlter.Text
