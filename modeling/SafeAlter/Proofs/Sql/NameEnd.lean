import SafeAlter.Proofs.Sql.Header

/-! # A clause tells where its name ends

A clause is cut from the text after a name by dropping blank text and terminators at its ends. Solid
characters all stay, so that the texts after two names give the same clause only if what one has
more than the other is not solid. A name that is read ends in a solid character; therefore, where
the same name is read and denoted and the clause is the same, the name ends at the same place.
-/
namespace SafeAlter.Sql
open SafeAlter.Text

section Clause
variable {p q : Char → Bool}

theorem filter_dropWhile (h : ∀ c, p c = true → q c = false) (s : List Char) :
    (s.dropWhile p).filter q = s.filter q := by
  induction s with
  | nil => rfl
  | cons c s ih =>
    cases hc : p c with
    | true => rw [List.dropWhile_cons_of_pos hc, ih, List.filter_cons_of_neg (by simp [h c hc])]
    | false => rw [List.dropWhile_cons_of_neg (by simp [hc])]

theorem filter_dropEndWhile (h : ∀ c, p c = true → q c = false) (s : List Char) :
    (dropEndWhile p s).filter q = s.filter q := by
  rw [dropEndWhile, List.filter_reverse, filter_dropWhile h, List.filter_reverse,
    List.reverse_reverse]

/-- No solid character is dropped to make a clause of a text. -/
theorem filter_clause (s : List Char) :
    (dropTerminators (trim s)).filter isSolid = s.filter isSolid := by
  have hblank : ∀ c, isBlank c = true → isSolid c = false := by
    intro c hc
    simp [isSolid, hc]
  have hmark : ∀ c, (c == ';') = true → isSolid c = false := by
    intro c hc
    rw [eq_of_beq hc]
    rfl
  rw [dropTerminators, trimEnd, filter_dropEndWhile hblank, filter_dropEndWhile hmark, trim,
    trimEnd, filter_dropEndWhile hblank, trimStart, filter_dropWhile hblank]

theorem clause_sublist (s : List Char) : (dropTerminators (trim s)).Sublist s :=
  (dropEndWhile_isPrefix _).sublist.trans <| (dropEndWhile_isPrefix _).sublist.trans (trim_sublist s)

/-- Where more text in front makes no difference for the clause, nothing in it is solid. -/
theorem not_isSolid_of_clause_eq {x s : List Char}
    (h : dropTerminators (trim (x ++ s)) = dropTerminators (trim s)) :
    ∀ c ∈ x, isSolid c = false := by
  have hf := congrArg (List.filter isSolid) h
  rw [filter_clause, filter_clause, List.filter_append, List.append_left_eq_self] at hf
  intro c hc
  simpa using List.filter_eq_nil_iff.1 hf c hc

end Clause

/-! ## The end of a word -/

/-- Two texts end in the same identifier, but for more of one that is not solid. Then there is
nothing more, or the other text has the identifier in backticks before it. -/
theorem Writes.cancel_unsolid {x w w' a b y : List Char} (hw : Writes x w) (hw' : Writes x w')
    (hend : ∀ c ∈ w.getLast?, isSolid c = true) (hx : x ≠ []) (hq : '\x60' ∉ x)
    (hy : ∀ c ∈ y, isSolid c = false) (h : a ++ w ++ y = b ++ w') :
    y = [] ∨ ∃ y', y = y' ++ x ∧ b = a ++ ('\x60' :: x ++ ['\x60']) ++ y' := by
  cases hd : y.getLast? with
  | none => exact .inl (List.getLast?_eq_none_iff.1 hd)
  | some d =>
    right
    have hunsolid : isSolid d = false := hy d (List.mem_of_getLast? hd)
    have hlast : (b ++ w').getLast? = some d := by
      rw [← h]
      exact getLast?_append_of_some hd
    cases hw' with
    | quoted =>
      rw [← List.append_assoc, List.getLast?_concat] at hlast
      cases hlast
      cases hunsolid
    | bare =>
      obtain ⟨e, he⟩ : ∃ e, x.getLast? = some e := ⟨_, List.getLast?_eq_some_getLast hx⟩
      rw [getLast?_append_of_some he] at hlast
      cases hlast
      cases hw with
      | bare =>
        rw [hend d he] at hunsolid
        contradiction
      | quoted =>
        rcases List.append_eq_append_iff.1 h with ⟨y', hb, hy'⟩ | ⟨z, hb, hx'⟩
        · exact ⟨y', hy', hb⟩
        · cases hz : z.getLast? with
          | none =>
            obtain rfl := List.getLast?_eq_none_iff.1 hz
            exact ⟨[], hx'.symm, by simpa using hb.symm⟩
          | some e =>
            have hl := congrArg List.getLast? hb
            rw [getLast?_append_of_some hz, ← List.append_assoc, List.getLast?_concat] at hl
            cases hl
            refine absurd ?_ hq
            rw [hx']
            exact List.mem_append_left _ (List.mem_of_getLast? hz)

/-- Two words write the same identifier in one text, and what follows them gives the same clause.
Then the words end at the same place, or the one is the other's in backticks before it. -/
theorem Writes.end_eq {x w w' a b s t : List Char} (hw : Writes x w) (hw' : Writes x w')
    (hend : ∀ c ∈ w.getLast?, isSolid c = true) (hx : x ≠ []) (hq : '\x60' ∉ x)
    (h : a ++ w ++ s = b ++ w' ++ t)
    (hc : dropTerminators (trim s) = dropTerminators (trim t)) :
    s = t ∨ ∃ y, (∀ c ∈ y, isSolid c = false) ∧ b = a ++ ('\x60' :: x ++ ['\x60']) ++ y := by
  rcases List.append_eq_append_iff.1 h with ⟨y, hb, rfl⟩ | ⟨y, ha, rfl⟩
  · have hy := not_isSolid_of_clause_eq hc
    rcases hw.cancel_unsolid hw' hend hx hq hy hb.symm with rfl | ⟨y', rfl, hgap⟩
    · exact .inl rfl
    · exact .inr ⟨y', fun c hc => hy c (List.mem_append_left _ hc), hgap⟩
  · have hy := not_isSolid_of_clause_eq hc.symm
    cases hd : y.getLast? with
    | none =>
      obtain rfl := List.getLast?_eq_none_iff.1 hd
      exact .inl rfl
    | some d =>
      have hne : w ≠ [] := by
        cases hw with
        | bare => exact hx
        | quoted => simp
      obtain ⟨e, he⟩ : ∃ e, w.getLast? = some e := ⟨_, List.getLast?_eq_some_getLast hne⟩
      have hl := congrArg List.getLast? ha
      rw [getLast?_append_of_some he, getLast?_append_of_some hd] at hl
      cases hl
      have hunsolid := hy d (List.mem_of_getLast? hd)
      rw [hend d he] at hunsolid
      contradiction

/-- A name that is read from the text and is the one that the lexemes denote ends where they end it
if the clauses after both are the same. -/
theorem Header.Stands.after_eq {h : Header} {u after : List Char} (hs : h.Stands u)
    (hr : readName (trimStart u) = some (h.name, after))
    (hc : dropTerminators (trim after) = dropTerminators (trim (spelled h.rest))) :
    after = spelled h.rest := by
  obtain ⟨hword, hshaped⟩ := hs.first
  have hj : u.takeWhile isBlank ++ trimStart u = u := List.takeWhile_append_dropWhile
  cases hsecond : h.second with
  | none =>
    have hafter : h.afterFirst = spelled h.rest := by simp only [afterFirst, hsecond]
    have hname : h.name = ⟨none, String.ofList h.first.denoted⟩ := by simp only [name, hsecond]
    rw [hname, readName_one] at hr
    obtain ⟨hx, hq, w, hw, hend, hu⟩ := identifier_writes hr.1
    have htext : u.takeWhile isBlank ++ w ++ after =
        spelled h.gap ++ h.first.spelling ++ spelled h.rest := by
      rw [← hafter, ← hs.text, List.append_assoc, ← hu, hj]
    rcases hw.end_eq (hshaped.writes hword hq) hend hx hq htext hc with he | ⟨y, -, hgap⟩
    · exact he
    · -- then the blank lexemes would open with a backtick
      have hopen : (trimStart (spelled h.gap)).head? = some '\x60' := by
        rw [hgap, List.append_assoc, trimStart,
          List.dropWhile_append_of_pos (List.all_eq_true.1 List.all_takeWhile)]
        rfl
      cases hs.gap _ hopen
  | some v =>
    have hafter : h.afterFirst = '.' :: v.spelling ++ spelled h.rest := by
      simp only [afterFirst, hsecond]
    have hname : h.name = ⟨some (String.ofList h.first.denoted), String.ofList v.denoted⟩ := by
      simp only [name, hsecond]
    rw [hname, readName_two] at hr
    obtain ⟨t, hi, ht⟩ := hr
    obtain ⟨hvword, hvshaped⟩ := hs.second v hsecond
    obtain ⟨-, -, w₁, -, -, hu⟩ := identifier_writes hi
    obtain ⟨hx, hq, w₂, hw, hend, rfl⟩ := identifier_writes ht
    have htext : u.takeWhile isBlank ++ w₁ ++ ['.'] ++ w₂ ++ after =
        spelled h.gap ++ h.first.spelling ++ ['.'] ++ v.spelling ++ spelled h.rest := by
      have htext := hs.text
      rw [hafter, ← hj, hu] at htext
      simpa using htext
    rcases hw.end_eq (hvshaped.writes hvword hq) hend hx hq htext hc with he | ⟨y, hy, hgap⟩
    · exact he
    · -- then a period would be a backtick, or not be solid
      have hlast := congrArg List.getLast? hgap
      rw [List.getLast?_concat] at hlast
      cases hd : y.getLast? with
      | none =>
        obtain rfl := List.getLast?_eq_none_iff.1 hd
        rw [List.append_nil, ← List.append_assoc, List.getLast?_concat] at hlast
        cases hlast
      | some d =>
        rw [getLast?_append_of_some hd] at hlast
        cases hlast
        cases hy '.' (List.mem_of_getLast? hd)

end SafeAlter.Sql
