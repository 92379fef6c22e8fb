import Mathlib.Data.List.Induction
import SafeAlter.Proofs.Text.Trimming

/-! # Semicolons at the end of a text

At the end of a text semicolons and blank text can alternate. Semicolons that stand next to each
other are a run. Dropping terminators takes away the last run and the blank text around it, and
nothing else, so that a text keeps all of its runs but one. Therefore a tail that is added makes no
difference exactly if it adds no run to a text that has one, and at most one to a text that has none.
-/
namespace SafeAlter.Text

/-- A text of semicolons and blank characters. -/
def IsTail (s : List Char) : Prop := ∀ c ∈ s, c = ';' ∨ isBlank c = true

/-- The runs of semicolons at the end of what has been read of a text, and whether the last of them
may go on. -/
structure EndRuns where
  count : Nat
  goesOn : Bool

def EndRuns.next (r : EndRuns) (c : Char) : EndRuns :=
  if c = ';' then ⟨if r.goesOn then r.count else r.count + 1, true⟩
  else if isBlank c then ⟨r.count, false⟩
  else ⟨0, false⟩

def endRuns (s : List Char) : EndRuns := s.foldl EndRuns.next ⟨0, false⟩

/-- The number of runs of semicolons at the end of a text, with nothing but blank text behind and
between them. -/
def terminatorRuns (s : List Char) : Nat := (endRuns s).count

example : terminatorRuns "; a;; ; \n;".toList = 3 := by decide

/-- A text without what is dropped at its end. -/
def settled (s : List Char) : List Char := dropTerminators (trimEnd s)

section
variable {s t : List Char} {c : Char}

theorem endRuns_concat (s : List Char) (c : Char) : endRuns (s ++ [c]) = (endRuns s).next c := by
  rw [endRuns, List.foldl_append]
  rfl

/-! ## One character more -/

theorem trimEnd_blank (hc : isBlank c = true) (s : List Char) : trimEnd (s ++ [c]) = trimEnd s :=
  dropEndWhile_append (by simpa using hc) s

theorem trimEnd_concat (hc : isBlank c = false) (s : List Char) : trimEnd (s ++ [c]) = s ++ [c] :=
  dropEndWhile_cons hc s []

theorem settled_blank (hc : isBlank c = true) (s : List Char) : settled (s ++ [c]) = settled s := by
  rw [settled, trimEnd_blank hc, settled]

theorem settled_semicolon (s : List Char) : settled (s ++ [';']) = dropTerminators s := by
  rw [settled, trimEnd_concat rfl, dropTerminators, dropEndWhile_append (by simp), dropTerminators]

theorem dropTerminators_concat (hc : c ≠ ';') (s : List Char) :
    dropTerminators (s ++ [c]) = trimEnd (s ++ [c]) := by
  have hstop : dropEndWhile (· == ';') (s ++ [c]) = s ++ [c] :=
    dropEndWhile_cons (by simpa using hc) s []
  rw [dropTerminators, hstop]

theorem settled_concat (hc : isBlank c = false) (hne : c ≠ ';') (s : List Char) :
    settled (s ++ [c]) = s ++ [c] := by
  rw [settled, trimEnd_concat hc, dropTerminators_concat hne, trimEnd_concat hc]

theorem terminatorRuns_blank (hc : isBlank c = true) (s : List Char) :
    terminatorRuns (s ++ [c]) = terminatorRuns s := by
  have hne : c ≠ ';' := by
    rintro rfl
    cases hc
  rw [terminatorRuns, endRuns_concat, EndRuns.next, if_neg hne, if_pos hc, terminatorRuns]

theorem terminatorRuns_concat (hc : isBlank c = false) (hne : c ≠ ';') (s : List Char) :
    terminatorRuns (s ++ [c]) = 0 := by
  rw [terminatorRuns, endRuns_concat, EndRuns.next, if_neg hne, hc]
  rfl

theorem terminatorRuns_semicolon_pos (s : List Char) : 0 < terminatorRuns (s ++ [';']) := by
  induction s using List.reverseRecOn with
  | nil => exact Nat.one_pos
  | append_singleton s c ih =>
    rw [terminatorRuns, endRuns_concat] at ih ⊢
    rw [endRuns_concat]
    by_cases hne : c = ';'
    · subst hne
      simpa [EndRuns.next] using ih
    · cases hc : isBlank c <;> simp [EndRuns.next, hne, hc]

/-- A semicolon more makes a run more behind blank text, and then what has been dropped comes back.
Elsewhere it makes no difference to what is left, and at most the first run. -/
theorem semicolon_cases (s : List Char) :
    (settled (s ++ [';']) = trimEnd s ∧ terminatorRuns (s ++ [';']) = terminatorRuns s + 1) ∨
      settled (s ++ [';']) = settled s ∧
        (terminatorRuns (s ++ [';']) = terminatorRuns s ∨
          terminatorRuns s = 0 ∧ terminatorRuns (s ++ [';']) = 1) := by
  rw [settled_semicolon, terminatorRuns, endRuns_concat]
  rcases List.eq_nil_or_concat' s with rfl | ⟨s, c, rfl⟩
  · exact .inr ⟨rfl, .inr ⟨rfl, rfl⟩⟩
  by_cases hne : c = ';'
  · subst hne
    refine .inr ⟨?_, .inl ?_⟩
    · rw [settled, trimEnd_concat rfl]
    · simp [terminatorRuns, endRuns_concat, EndRuns.next]
  rw [dropTerminators_concat hne]
  cases hc : isBlank c with
  | true =>
    refine .inl ⟨rfl, ?_⟩
    simp [terminatorRuns, endRuns_concat, EndRuns.next, hne, hc]
  | false =>
    refine .inr ⟨?_, .inr ⟨terminatorRuns_concat hc hne s, ?_⟩⟩
    · rw [settled_concat hc hne, trimEnd_concat hc]
    · simp [endRuns_concat, EndRuns.next, hne, hc]

/-! ## What is left of a text -/

theorem trimEnd_isPrefix (s : List Char) : trimEnd s <+: s := dropEndWhile_isPrefix s

theorem settled_isPrefix (s : List Char) : settled s <+: trimEnd s :=
  (dropEndWhile_isPrefix _).trans (dropEndWhile_isPrefix _)

/-- Something besides blank text is dropped exactly if there is a run. -/
theorem settled_eq_trimEnd_iff (s : List Char) : settled s = trimEnd s ↔ terminatorRuns s = 0 := by
  induction s using List.reverseRecOn with
  | nil => exact ⟨fun _ => rfl, fun _ => rfl⟩
  | append_singleton s c ih =>
    cases hc : isBlank c with
    | true => rwa [settled_blank hc, trimEnd_blank hc, terminatorRuns_blank hc]
    | false =>
      by_cases hne : c = ';'
      · subst hne
        refine iff_of_false (fun h => ?_) (terminatorRuns_semicolon_pos s).ne'
        have hshort : (settled (s ++ [';'])).length ≤ s.length := by
          rw [settled_semicolon]
          exact ((dropEndWhile_isPrefix _).trans (dropEndWhile_isPrefix s)).length_le
        rw [h, trimEnd_concat hc, List.length_append] at hshort
        exact Nat.not_succ_le_self _ hshort
      · rw [settled_concat hc hne, trimEnd_concat hc, terminatorRuns_concat hc hne]
        exact ⟨fun _ => rfl, fun _ => rfl⟩

theorem getLast?_trimEnd_iff (s : List Char) :
    (trimEnd s).getLast? = some ';' ↔ 1 ≤ terminatorRuns s := by
  induction s using List.reverseRecOn with
  | nil => exact ⟨nofun, nofun⟩
  | append_singleton s c ih =>
    cases hc : isBlank c with
    | true => rwa [trimEnd_blank hc, terminatorRuns_blank hc]
    | false =>
      rw [trimEnd_concat hc, List.getLast?_concat, Option.some.injEq]
      by_cases hne : c = ';'
      · subst hne
        exact ⟨fun _ => terminatorRuns_semicolon_pos s, fun _ => rfl⟩
      · rw [terminatorRuns_concat hc hne]
        exact iff_of_false hne nofun

/-- What is left ends in a semicolon exactly if there was more than the run that is dropped. -/
theorem getLast?_settled_iff (s : List Char) :
    (settled s).getLast? = some ';' ↔ 2 ≤ terminatorRuns s := by
  induction s using List.reverseRecOn with
  | nil => exact ⟨nofun, nofun⟩
  | append_singleton s c ih =>
    cases hc : isBlank c with
    | true => rwa [settled_blank hc, terminatorRuns_blank hc]
    | false =>
      by_cases hne : c = ';'
      · subst hne
        rcases semicolon_cases s with ⟨hback, hruns⟩ | ⟨hleft, hruns⟩
        · rw [hback, hruns, getLast?_trimEnd_iff, Nat.succ_le_succ_iff]
        · rw [hleft, ih]
          omega
      · rw [settled_concat hc hne, terminatorRuns_concat hc hne, List.getLast?_concat,
          Option.some.injEq]
        exact iff_of_false hne nofun

/-! ## A tail more -/

theorem IsTail.nil : IsTail [] := nofun

theorem IsTail.of_append (h : IsTail (s ++ t)) : IsTail s ∧ IsTail t :=
  List.forall_mem_append.1 h

/-- One character of a tail after the other, what is left and the number of runs only grow. -/
theorem settled_append_iff (s : List Char) (ht : IsTail t) :
    settled s <+: settled (s ++ t) ∧ terminatorRuns s ≤ terminatorRuns (s ++ t) ∧
      (settled (s ++ t) = settled s ↔ terminatorRuns (s ++ t) ≤ max 1 (terminatorRuns s)) := by
  induction t using List.reverseRecOn with
  | nil =>
    rw [List.append_nil]
    exact ⟨List.prefix_rfl, Nat.le_refl _, iff_of_true rfl (Nat.le_max_right ..)⟩
  | append_singleton t c ih =>
    obtain ⟨htail, hc⟩ := ht.of_append
    obtain ⟨hleft, hruns, hiff⟩ := ih htail
    rw [← List.append_assoc]
    rcases hc c (List.mem_singleton_self c) with rfl | hblank
    · rcases semicolon_cases (s ++ t) with ⟨hback, hmore⟩ | ⟨hsame, hmore⟩
      · -- what was dropped comes back, so that nothing may have been dropped yet
        have hfront := settled_isPrefix (s ++ t)
        rw [hback, hmore]
        refine ⟨hleft.trans hfront, by omega, ?_⟩
        constructor
        · intro h
          rw [← h] at hleft
          have hnone := (settled_eq_trimEnd_iff (s ++ t)).1
            (hfront.eq_of_length_le hleft.length_le)
          omega
        · intro h
          have hnone : terminatorRuns (s ++ t) = 0 := by omega
          rw [← (settled_eq_trimEnd_iff (s ++ t)).2 hnone, hiff, hnone]
          exact Nat.zero_le _
      · rw [hsame, hiff]
        exact ⟨hleft, by omega, by omega⟩
    · rw [settled_blank hblank, terminatorRuns_blank hblank]
      exact ⟨hleft, hruns, hiff⟩

/-! ## Texts that are trimmed first -/

theorem IsTail.of_isBlank (h : ∀ c ∈ s, isBlank c = true) : IsTail s := fun c hc => .inr (h c hc)

theorem IsTail.append (hs : IsTail s) (ht : IsTail t) : IsTail (s ++ t) :=
  List.forall_mem_append.2 ⟨hs, ht⟩

theorem IsTail.of_suffix (h : IsTail t) (hs : s <:+ t) : IsTail s := fun c hc => h c (hs.mem hc)

theorem IsTail.of_prefix (h : IsTail t) (hs : s <+: t) : IsTail s := fun c hc => h c (hs.mem hc)

theorem terminatorRuns_trimStart (s : List Char) :
    terminatorRuns (trimStart s) = terminatorRuns s := by
  rw [terminatorRuns, terminatorRuns, trimStart]
  induction s with
  | nil => rfl
  | cons c s ih =>
    cases hc : isBlank c with
    | false => rw [List.dropWhile_cons_of_neg (by simp [hc])]
    | true =>
      have hne : c ≠ ';' := by
        rintro rfl
        cases hc
      have hnext : EndRuns.next ⟨0, false⟩ c = ⟨0, false⟩ := by simp [EndRuns.next, hne, hc]
      rw [List.dropWhile_cons_of_pos hc, ih, endRuns, endRuns, List.foldl_cons, hnext]

theorem trimStart_append_tail (s : List Char) (ht : IsTail t) :
    ∃ t', IsTail t' ∧ trimStart (s ++ t) = trimStart s ++ t' := by
  rcases trimStart_append s t with ⟨hs, hst⟩ | ⟨c, u, hs, hst⟩
  · refine ⟨trimStart t, ht.of_suffix (List.dropWhile_suffix _), ?_⟩
    rw [hst, hs, List.nil_append]
  · exact ⟨t, ht, by rw [hst, hs]⟩

theorem exists_trimEnd (s : List Char) :
    ∃ b, (∀ c ∈ b, isBlank c = true) ∧ s = trimEnd s ++ b :=
  exists_dropEndWhile isBlank s

theorem trimEnd_append (s u : List Char) : trimEnd (trimEnd s ++ u) = trimEnd s ++ trimEnd u := by
  induction u using List.reverseRecOn with
  | nil =>
    have htwice : trimEnd (trimEnd s) = trimEnd s := List.rdropWhile_idempotent ..
    rw [List.append_nil, htwice]
    exact (List.append_nil _).symm
  | append_singleton u c ih =>
    rw [← List.append_assoc]
    cases hc : isBlank c with
    | true => rw [trimEnd_blank hc, trimEnd_blank hc, ih]
    | false => rw [trimEnd_concat hc, trimEnd_concat hc, List.append_assoc]

/-- What a text has more once a tail is added and the ends are trimmed is again a tail. -/
theorem trim_append_tail (s : List Char) (ht : IsTail t) :
    ∃ t', IsTail t' ∧ trim (s ++ t) = trim s ++ t' := by
  obtain ⟨u, hu, hstart⟩ := trimStart_append_tail s ht
  obtain ⟨b, hb, hs⟩ := exists_trimEnd (trimStart s)
  have htail : IsTail (b ++ u) := (IsTail.of_isBlank hb).append hu
  refine ⟨trimEnd (b ++ u), htail.of_prefix (trimEnd_isPrefix _), ?_⟩
  rw [trim, trim, hstart, hs, List.append_assoc, trimEnd_append, ← hs]

/-- A tail makes no difference to a text without the terminators at its end exactly if it adds no
run of them to those that there are, or is the first. -/
theorem dropTerminators_append_iff (ht : IsTail t) :
    dropTerminators (trim (s ++ t)) = dropTerminators (trim s) ↔
      terminatorRuns (s ++ t) ≤ max 1 (terminatorRuns s) := by
  obtain ⟨u, hu, hstart⟩ := trimStart_append_tail s ht
  have hiff := (settled_append_iff (trimStart s) hu).2.2
  rwa [← hstart, terminatorRuns_trimStart, terminatorRuns_trimStart] at hiff

theorem exists_dropTerminators (s : List Char) : ∃ x, IsTail x ∧ s = dropTerminators s ++ x := by
  obtain ⟨x, hx, hs⟩ := exists_dropEndWhile (· == ';') s
  obtain ⟨b, hb, hs'⟩ := exists_trimEnd (dropEndWhile (· == ';') s)
  refine ⟨b ++ x, (IsTail.of_isBlank hb).append fun c hc => .inl (eq_of_beq (hx c hc)), ?_⟩
  rw [← List.append_assoc, dropTerminators, ← hs', ← hs]

/-- Nothing is dropped behind a character that is neither blank nor a semicolon. -/
theorem dropTerminators_of_getLast? (hs : trimStart s = s)
    (hlast : ∀ c ∈ s.getLast?, isBlank c = false ∧ c ≠ ';') :
    trim s = s ∧ dropTerminators s = s := by
  rw [trim, hs]
  rcases List.eq_nil_or_concat' s with rfl | ⟨s, c, rfl⟩
  · exact ⟨rfl, rfl⟩
  · obtain ⟨hc, hne⟩ := hlast c List.getLast?_concat
    have hend := trimEnd_concat hc s
    exact ⟨hend, (dropTerminators_concat hne s).trans hend⟩

theorem getLast?_dropTerminators_iff (s : List Char) :
    (dropTerminators (trim s)).getLast? = some ';' ↔ 2 ≤ terminatorRuns s := by
  have hiff := getLast?_settled_iff (trimStart s)
  rwa [terminatorRuns_trimStart] at hiff

end

end SafeAlter.Text
