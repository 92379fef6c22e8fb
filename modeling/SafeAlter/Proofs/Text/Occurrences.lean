import Mathlib.Data.List.Infix
import SafeAlter.Proofs.Text.Cutting

/-! # Replacing the occurrences of a text

The occurrences that are replaced leave gaps between them in which the text does not occur: a gap
ends where the first occurrence behind it starts, so one inside of it would have been found before.
What is put between the gaps cannot make up an occurrence either, as long as it has no character of
the text that is replaced; for an occurrence would have to lie in front of it or behind it.
-/
namespace SafeAlter.Text
variable {mark : Char} {old new a b s : List Char}

theorem occursIn_iff_infix : occursIn old s = true ↔ old <:+: s := by
  induction s with
  | nil => simp [occursIn]
  | cons c s ih =>
    rw [occursIn, Bool.or_eq_true, List.isPrefixOf_iff_prefix, ih, List.infix_cons_iff]

/-! ## Occurrences around a mark -/

theorem infix_append_mark (h : mark ∉ old) (a b : List Char) :
    old <:+: a ++ mark :: b ↔ old <:+: a ∨ old <:+: b := by
  induction a with
  | nil =>
    have hstart : old <+: mark :: b ↔ old = [] := by
      simpa using prefix_append_mark h [] b
    rw [List.nil_append, List.infix_cons_iff, hstart, List.infix_nil]
  | cons c a ih =>
    rw [List.cons_append, List.infix_cons_iff, ← List.cons_append, prefix_append_mark h, ih,
      List.infix_cons_iff, or_assoc]

/-- A text that shares no character with another one does not occur across it. -/
theorem infix_append_apart (hne : new ≠ []) (h : ∀ c ∈ new, c ∉ old) (a b : List Char)
    (ho : old <:+: a ++ (new ++ b)) : old <:+: a ∨ old <:+: b := by
  induction new generalizing a with
  | nil => exact absurd rfl hne
  | cons mark rest ih =>
    obtain ⟨hmark, hrest⟩ := List.forall_mem_cons.1 h
    rw [List.cons_append, infix_append_mark hmark] at ho
    rcases ho with ha | hb
    · exact .inl ha
    · cases rest with
      | nil => exact .inr hb
      | cons c rest =>
        rcases ih (List.cons_ne_nil c rest) hrest [] hb with hnil | hb
        · rw [List.eq_nil_of_infix_nil hnil]
          exact .inl List.nil_infix
        · exact .inr hb

/-- A text that occurs among gaps occurs in one of them, if what stands between the gaps has no
character of it. -/
theorem infix_gap_of_intercalate (hne : new ≠ []) (h : ∀ c ∈ new, c ∉ old)
    {first : List Char} {rest : List (List Char)}
    (ho : old <:+: new.intercalate (first :: rest)) : ∃ gap ∈ first :: rest, old <:+: gap := by
  induction rest generalizing first with
  | nil =>
    rw [List.intercalate_singleton] at ho
    exact ⟨first, List.mem_cons_self, ho⟩
  | cons second rest ih =>
    rw [List.intercalate_cons_cons, List.append_assoc] at ho
    rcases infix_append_apart hne h _ _ ho with hfirst | hrest
    · exact ⟨first, List.mem_cons_self, hfirst⟩
    · obtain ⟨gap, hgap, hocc⟩ := ih hrest
      exact ⟨gap, List.mem_cons_of_mem first hgap, hocc⟩

/-! ## Gaps -/

/-- A text is made up of gaps without an occurrence of another text and of that text between them;
replacing it changes what is between the gaps and nothing else. -/
theorem exists_gaps (hne : old ≠ []) (new s : List Char) :
    ∃ first rest, (∀ gap ∈ first :: rest, ¬old <:+: gap) ∧
      s = old.intercalate (first :: rest) ∧
        replaceAll old new s = new.intercalate (first :: rest) := by
  have hold : old.isEmpty = false := List.isEmpty_eq_false_iff.2 hne
  fun_induction replaceAll old new s with
  | case1 => exact ⟨[], [], by simpa using hne, rfl, rfl⟩
  | case2 c s hstart ih =>
    obtain ⟨first, rest, hgaps, hs, hr⟩ := ih
    have hprefix : old <+: c :: s := by simpa [hold] using hstart
    have hcut : c :: s = old ++ s.drop (old.length - 1) := by
      obtain ⟨d, old, rfl⟩ := List.exists_cons_of_ne_nil hne
      exact List.prefix_append_drop hprefix
    refine ⟨[], first :: rest, ?_, ?_, ?_⟩
    · exact List.forall_mem_cons.2 ⟨by simpa using hne, hgaps⟩
    · rw [List.intercalate_cons_cons, List.nil_append, ← hs, hcut]
    · rw [List.intercalate_cons_cons, List.nil_append, ← hr]
  | case3 c s hstart ih =>
    obtain ⟨first, rest, hgaps, hs, hr⟩ := ih
    obtain ⟨hfirst, hrest⟩ := List.forall_mem_cons.1 hgaps
    have hnot : ¬old <+: c :: s := by simpa [hold] using hstart
    have hcons (t : List Char) :
        t.intercalate ((c :: first) :: rest) = c :: t.intercalate (first :: rest) := by
      cases rest <;> simp [List.intercalate_cons_cons]
    refine ⟨c :: first, rest, ?_, ?_, ?_⟩
    · -- an occurrence at the start of the longer gap would be one at the start of the text
      have hgap : ¬old <:+: c :: first := by
        intro hocc
        rcases List.infix_cons_iff.1 hocc with hp | hocc
        · have hlead : first <+: s := by
            rw [hs]
            cases rest <;> simp [List.intercalate_cons_cons]
          exact hnot (hp.trans (List.cons_prefix_cons.2 ⟨rfl, hlead⟩))
        · exact hfirst hocc
      exact List.forall_mem_cons.2 ⟨hgap, hrest⟩
    · rw [hcons, ← hs]
    · rw [hcons, ← hr]

/-- A text that does not occur leaves one gap, and nothing to replace. -/
theorem replaceAll_of_not_occursIn (h : occursIn old s = false) : replaceAll old new s = s := by
  have hocc : ¬old <:+: s := by
    rw [← occursIn_iff_infix, h]
    exact Bool.false_ne_true
  have hne : old ≠ [] := by
    rintro rfl
    exact hocc List.nil_infix
  obtain ⟨first, rest, -, hs, hr⟩ := exists_gaps hne new s
  cases rest with
  | nil => rw [hr, hs, List.intercalate_singleton, List.intercalate_singleton]
  | cons second rest =>
    rw [List.intercalate_cons_cons] at hs
    exact absurd ⟨first, _, hs.symm⟩ hocc

end SafeAlter.Text
