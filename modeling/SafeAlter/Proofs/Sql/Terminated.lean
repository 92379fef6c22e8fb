import SafeAlter.Proofs.Sql.NameAndClause
import SafeAlter.Proofs.Sql.Phrases
import SafeAlter.Proofs.Sql.Tailed
import SafeAlter.Sql.OnlineHints

/-! # Statements with a tail

A statement says the same with a tail of semicolons and blank text behind it. Its clause and the
hinted statement are the same exactly if the tail adds no run of semicolons to those there are, or
is the first, and if the tail makes no name of two words of a name of one word. The second can
happen behind a period, since a wide blank character makes a word and a sign makes a word of any
character behind it.
-/
namespace SafeAlter.Sql
open SafeAlter.Text

/-! ## The header of a statement with a tail -/

/-- How a header changes where a tail is added: what is after the name gains an end of the tail, or
the name of one word, with a period behind it, gets a second word. -/
inductive Header.Tailed (x : List Char) (h h' : Header) : Prop where
  | kept {z : List Char} (hz : z <:+ x) (hsecond : h'.second.isSome = h.second.isSome)
      (hrest : spelled h'.rest = spelled h.rest ++ z)
  | qualified (hnone : h.second = none) (hsome : h'.second.isSome = true)
      (hperiod : (spelled h.rest).head? = some '.') (hrest : spelled h'.rest <:+ x)

section
variable {previous : Option LexemeKind} {s x : List Char} {gap tail tail' ls ls' : List Lexeme}
  {l n n' p v : Lexeme} {h : Header}

theorem Lexed.head_period (hl : Lexed previous s (p :: ls)) (hp : p.kind = .period) :
    s.head? = some '.' := by
  have hshaped := hl.head_shaped
  have hjoin := hl.spelled_eq
  obtain ⟨kind, spelling⟩ := p
  cases hp
  cases hshaped
  rw [← hjoin]
  rfl

/-- No lexeme at the front of a tail is a period. -/
theorem Lexed.not_period (hl : Lexed previous x (p :: ls)) (hx : IsTail x) : p.kind ≠ .period :=
  fun hp => hx.head_ne (by decide) (hl.head_period hp)

theorem isWord_of_takes {kind : LexemeKind} (h : l.kind.Takes kind) (hl : l.isWord = true) :
    isWord kind = true := by
  rw [Lexeme.isWord] at hl
  rcases h.2 with rfl | ⟨hother, -⟩
  · exact hl
  · rw [hother] at hl
    cases hl

namespace Header

/-- Whether two lexemes after a word make it the first of two words of a name. -/
def Qualifies (p v : Lexeme) : Prop := p.kind = .period ∧ v.isWord = true

theorem withFirst_of_qualifies (hq : Qualifies p v) :
    withFirst gap n (p :: v :: ls) = ⟨gap, n, some v, ls⟩ := by
  rw [withFirst, hq.1, hq.2]
  rfl

theorem withFirst_of_not_qualifies (hq : ¬Qualifies p v) :
    withFirst gap n (p :: v :: ls) = ⟨gap, n, none, p :: v :: ls⟩ :=
  if_neg fun h => hq (by simpa [Qualifies] using h)

theorem withFirst_of_not_period (hp : p.kind ≠ .period) :
    withFirst gap n (p :: ls) = ⟨gap, n, none, p :: ls⟩ := by
  cases ls with
  | nil => rfl
  | cons v ls => exact withFirst_of_not_qualifies fun hq => hp hq.1

theorem withFirst_tailed_two (h : spelled ls' = spelled ls ++ x) :
    (withFirst gap n (p :: v :: ls)).Tailed x (withFirst gap n' (p :: v :: ls')) := by
  by_cases hq : Qualifies p v
  · rw [withFirst_of_qualifies hq, withFirst_of_qualifies hq]
    exact .kept List.suffix_rfl rfl h
  · rw [withFirst_of_not_qualifies hq, withFirst_of_not_qualifies hq]
    exact .kept List.suffix_rfl rfl (by simp [spelled_cons, h])

theorem withFirst_tailed (hl : Lexed previous (spelled tail) tail) (hx : IsTail x)
    (ht : Sql.Tailed x tail tail') :
    (withFirst gap n tail).Tailed x (withFirst gap n' tail') := by
  have hspelled := ht.spelled_eq
  cases ht with
  | @apart _ ts _ hts =>
    match tail, ts with
    | [], [] => exact .kept List.suffix_rfl rfl hspelled
    | [], v :: ts =>
      rw [List.nil_append, withFirst_of_not_period (hts.not_period hx)]
      exact .kept List.suffix_rfl rfl hspelled
    | [p], [] => exact .kept List.suffix_rfl rfl hspelled
    | [p], v :: ts =>
      by_cases hq : Qualifies p v
      · rw [List.singleton_append, withFirst_of_qualifies hq]
        exact .qualified rfl rfl (hl.head_period hq.1) ⟨v.spelling, hts.spelled_eq⟩
      · rw [List.singleton_append, withFirst_of_not_qualifies hq]
        exact .kept List.suffix_rfl rfl hspelled
    | p :: v :: tail, ts => exact withFirst_tailed_two (Sql.Tailed.apart tail hts).spelled_eq
  | @joined front rest ts l kind y z hxyz hts hend hkind =>
    have hz : z <:+ x := ⟨y, hxyz.symm⟩
    match front with
    | [] =>
      have hkind' : kind ≠ .period := by
        rcases hkind.2 with rfl | ⟨-, rfl | rfl⟩
        · exact hkind.1
        · decide
        · decide
      rw [List.nil_append, List.nil_append] at hspelled ⊢
      rw [withFirst_of_not_period hkind.1, withFirst_of_not_period hkind']
      exact .kept List.suffix_rfl rfl hspelled
    | [p] =>
      rw [List.singleton_append] at hspelled hl ⊢
      by_cases hq : Qualifies p l
      · have hrest : rest = [] := by
          refine hend.resolve_right fun hother => ?_
          have hword := hq.2
          rw [Lexeme.isWord, hother] at hword
          cases hword
        subst hrest
        rw [List.singleton_append, withFirst_of_qualifies hq,
          withFirst_of_qualifies ⟨hq.1, isWord_of_takes hkind hq.2⟩]
        exact .kept hz rfl hts.spelled_eq
      · rw [List.singleton_append, withFirst_of_not_qualifies hq]
        by_cases hq' : Qualifies p ⟨kind, l.spelling ++ spelled rest ++ y⟩
        · rw [withFirst_of_qualifies hq']
          refine .qualified rfl rfl (hl.head_period hq'.1) ?_
          rwa [hts.spelled_eq]
        · rw [withFirst_of_not_qualifies hq']
          exact .kept List.suffix_rfl rfl hspelled
    | p :: v :: front =>
      exact withFirst_tailed_two (Sql.Tailed.joined front hxyz hts hend hkind).spelled_eq

end Header

theorem Header.Tailed.of_suffix {z : List Char} {h' : Header} (ht : h.Tailed z h') (hz : z <:+ x) :
    h.Tailed x h' := by
  cases ht with
  | kept hsuffix hsecond hrest => exact .kept (hsuffix.trans hz) hsecond hrest
  | qualified hnone hsome hperiod hrest => exact .qualified hnone hsome hperiod (hrest.trans hz)

/-- A statement starts with a header if it does so without its tail. -/
theorem header_tailed (hl : Lexed previous s ls) (hx : IsTail x) (ht : Tailed x ls ls')
    (hh : header? ls = some h) : ∃ h', header? ls' = some h' ∧ h.Tailed x h' := by
  obtain ⟨gap, front, n, tail, hf, hn, rfl, rfl⟩ := exists_front hh
  obtain ⟨_, hname⟩ := hl.of_append
  have htail := hname.tail
  generalize hrow : front ++ n :: tail = row at ht
  cases ht with
  | @apart _ ts _ hts =>
    subst hrow
    refine ⟨Header.withFirst gap n (tail ++ ts), ?_,
      Header.withFirst_tailed htail hx (.apart tail hts)⟩
    rw [List.append_assoc, List.cons_append, hf.header? hn]
  | @joined before rest ts l kind y z hxyz hts hend hkind =>
    have hz : z <:+ x := ⟨y, hxyz.symm⟩
    -- the lexeme that takes in more is the first word of the name, or is behind or in front of it
    obtain ⟨rfl, rfl, rfl⟩ | ⟨inner, rfl, rfl⟩ | ⟨inner, rfl, rfl⟩ :
        (before = front ∧ l = n ∧ rest = tail) ∨
          (∃ inner, before = front ++ n :: inner ∧ tail = inner ++ l :: rest) ∨
          ∃ inner, front = before ++ l :: inner ∧ rest = inner ++ n :: tail := by
      rcases List.append_eq_append_iff.1 hrow with ⟨_ | ⟨m, inner⟩, hb, hi⟩ | ⟨_ | ⟨m, inner⟩, hb, hi⟩
      · obtain ⟨rfl, rfl⟩ := List.cons_eq_cons.1 hi
        exact .inl ⟨by simpa using hb, rfl, rfl⟩
      · obtain ⟨rfl, rfl⟩ := List.cons_eq_cons.1 hi
        exact .inr (.inl ⟨inner, hb, rfl⟩)
      · obtain ⟨rfl, rfl⟩ := List.cons_eq_cons.1 hi
        exact .inl ⟨by simpa using hb.symm, rfl, rfl⟩
      · obtain ⟨rfl, rfl⟩ := List.cons_eq_cons.1 hi
        exact .inr (.inr ⟨inner, hb, rfl⟩)
    · have hrest : rest = [] := by
        refine hend.resolve_right fun hother => ?_
        rw [Lexeme.isWord, hother] at hn
        cases hn
      subst hrest
      refine ⟨_, hf.header? (isWord_of_takes hkind hn) ts, ?_⟩
      exact (Header.withFirst_tailed htail (hx.of_suffix hz) (.apart [] hts)).of_suffix hz
    · refine ⟨Header.withFirst gap n (inner ++ _ :: ts), ?_,
        Header.withFirst_tailed htail hx (.joined inner hxyz hts hend hkind)⟩
      rw [List.append_assoc, List.cons_append, hf.header? hn]
    · have hother : l.kind = .other := hend.resolve_left (by simp)
      rcases hf.blank_or_word l (by simp) with hl' | hl'
      · rw [Lexeme.isBlank, hother] at hl'
        cases hl'
      · rw [Lexeme.isWord, hother] at hl'
        cases hl'

end

/-! ## The clause and the hints -/

section
variable {x : List Char} {statement tail : String} {ls ls' : List Lexeme} {l : Lexeme}
  {h h' : Header}

theorem filter_isSolid_of_tail (hx : IsTail x) : x.filter isSolid = [] := by
  refine List.filter_eq_nil_iff.2 fun c hc => ?_
  rcases hx c hc with rfl | hblank
  · decide
  · simp [isSolid, hblank]

theorem exists_isSolid_of_isKeyword (hl : l.isKeyword "ALTER" = true) :
    ∃ c ∈ l.spelling, isSolid c = true := by
  simp only [Lexeme.isKeyword, Bool.and_eq_true, sameIgnoringCase, beq_iff_eq] at hl
  obtain ⟨c, w, hspelling, hc, -⟩ := List.map_eq_cons_iff.1 hl.2
  refine ⟨c, hspelling ▸ List.mem_cons_self .., ?_⟩
  by_contra hsolid
  have hletter : ∀ d ∈ tailCharacters, d.toLower ≠ 'a' :=
    List.all_iff_forall_prop.1 (by decide +kernel)
  refine hletter c (mem_tailCharacters ?_) hc
  simpa [isSolid, imp_iff_not_or, or_comm] using hsolid

/-- A header leaves solid characters in front of what is after the name. -/
theorem length_filter_rest (hh : header? ls = some h) :
    ((spelled h.rest).filter isSolid).length < ((spelled ls).filter isSolid).length := by
  obtain ⟨gap, front, n, tail, hf, -, rfl, rfl⟩ := exists_front hh
  obtain ⟨qualifier, hqualifier⟩ := afterQualifier_suffix tail
  obtain ⟨c, hc, hsolid⟩ : ∃ c ∈ spelled front, isSolid c = true := by
    obtain ⟨-, ha, -, -, -⟩ := hf
    obtain ⟨c, hc, hsolid⟩ := exists_isSolid_of_isKeyword ha
    exact ⟨c, List.mem_flatMap.2 ⟨_, by simp, hc⟩, hsolid⟩
  have hpos : 0 < ((spelled front).filter isSolid).length :=
    List.length_pos_of_mem (List.mem_filter.2 ⟨hc, hsolid⟩)
  rw [Header.withFirst_rest, spelled_append, spelled_cons]
  conv_rhs => rw [← hqualifier, spelled_append]
  simp only [List.filter_append, List.length_append]
  omega

/-- The clause stays the same where the name gets no second word and at most the first run of
semicolons is added to what is after it. -/
theorem Header.Tailed.clause_iff (hx : IsTail x) (ht : h.Tailed x h') :
    dropTerminators (trim (spelled h'.rest)) = dropTerminators (trim (spelled h.rest)) ↔
      h'.second.isSome = h.second.isSome ∧
        terminatorRuns (spelled h'.rest) ≤ max 1 (terminatorRuns (spelled h.rest)) := by
  cases ht with
  | kept hz hsecond hrest =>
    rw [hrest, dropTerminators_append_iff (hx.of_suffix hz)]
    exact (and_iff_right hsecond).symm
  | qualified hnone hsome hperiod hrest =>
    refine iff_of_false (fun heq => ?_) fun hboth => ?_
    · obtain ⟨s, hs⟩ := List.head?_eq_some_iff.1 hperiod
      have hsolid := congrArg (List.filter isSolid) heq
      rw [filter_clause, filter_clause, filter_isSolid_of_tail (hx.of_suffix hrest), hs] at hsolid
      cases hsolid
    · rw [hnone, hsome] at hboth
      cases hboth.1

theorem missingHints_append (hx : IsTail x) (s : List Char) :
    missingHints (s ++ x) = missingHints s := by
  have hequals : '=' ∉ x := hx.not_mem (by decide)
  have hphrase : ∀ keyword, (settingPhrase keyword).occursIn (s ++ x) =
      (settingPhrase keyword).occursIn s := fun keyword =>
    settingPhrase_occursAfter_append hequals none s
  have halgorithm : algorithmPhrase.occursIn (s ++ x) = algorithmPhrase.occursIn s :=
    hphrase "ALGORITHM"
  have hlock : lockPhrase.occursIn (s ++ x) = lockPhrase.occursIn s := hphrase "LOCK"
  rw [missingHints, missingHints, halgorithm, hlock]

theorem withOnlineHints_append_iff (statement : String) (ht : IsTail tail.toList) :
    withOnlineHints (statement ++ tail) = withOnlineHints statement ↔
      terminatorRuns (statement ++ tail).toList ≤ max 1 (terminatorRuns statement.toList) := by
  obtain ⟨x, hx, htrim⟩ := trim_append_tail statement.toList ht
  rw [withOnlineHints, withOnlineHints, String.ofList_inj, String.toList_append, hinted, hinted]
  rw [← dropTerminators_append_iff ht, htrim, missingHints_append hx, List.append_cancel_right_eq]

theorem alterClause_of_lexemes (hl : lexemes (trim statement.toList) = .ok ls) :
    alterClause statement = String.ofList (match header? ls with
      | some h => dropTerminators (trim (spelled h.rest))
      | none => trim statement.toList) := by
  rw [alterClause, clauseOf]
  simp only [hl, afterTableName?_eq]
  cases header? ls with
  | none => rfl
  | some h => rfl

/-- With a tail a statement is a row of lexemes if it is one without it. The clause stays the same
exactly if the name gets no second word and the tail adds no run of semicolons to those at the end
of the clause, or is the first; the hinted statement, exactly if the tail adds none to those of the
statement, or is the first. For a text that starts with no header the clause is all of it. A
semicolon is left at the end of a clause, or in front of the hints, exactly if there were two runs. -/
theorem tail_dropped_iff (hl : lexemes (trim statement.toList) = .ok ls)
    (ht : IsTail tail.toList) :
    ∃ ls', lexemes (trim (statement ++ tail).toList) = .ok ls' ∧
      (∀ h, header? ls = some h → ∃ h', header? ls' = some h' ∧
        (alterClause (statement ++ tail) = alterClause statement ↔
          h'.second.isSome = h.second.isSome ∧
            terminatorRuns (spelled h'.rest) ≤ max 1 (terminatorRuns (spelled h.rest))) ∧
        ((alterClause statement).toList.getLast? = some ';' ↔
          2 ≤ terminatorRuns (spelled h.rest))) ∧
      (header? ls = none →
        (alterClause (statement ++ tail) = alterClause statement ↔
          header? ls' = none ∧ trim (statement ++ tail).toList = trim statement.toList)) ∧
      (withOnlineHints (statement ++ tail) = withOnlineHints statement ↔
        terminatorRuns (statement ++ tail).toList ≤ max 1 (terminatorRuns statement.toList)) ∧
      ∃ front, (withOnlineHints statement).toList =
          front ++ missingHints (trim statement.toList) ∧
        (front.getLast? = some ';' ↔ 2 ≤ terminatorRuns statement.toList) := by
  obtain ⟨x, hx, htrim⟩ := trim_append_tail statement.toList ht
  rw [← String.toList_append] at htrim
  obtain ⟨ls', ⟨place, hlexed⟩, htailed⟩ := Lexed.tailed ⟨_, hl⟩ hx
  have hl' : lexemes (trim (statement ++ tail).toList) = .ok ls' := by
    rw [htrim]
    exact lexemesFrom_place hlexed
  have hclause := alterClause_of_lexemes hl
  have hclause' := alterClause_of_lexemes hl'
  refine ⟨ls', hl', fun h hh => ?_, fun hn => ?_, withOnlineHints_append_iff statement ht,
    dropTerminators (trim statement.toList), by simp [withOnlineHints, hinted],
    getLast?_dropTerminators_iff _⟩
  · obtain ⟨h', hh', hheader⟩ := header_tailed ⟨_, hl⟩ hx htailed hh
    rw [hclause, hclause', hh, hh', String.ofList_inj, String.toList_ofList]
    exact ⟨h', rfl, hheader.clause_iff hx, getLast?_dropTerminators_iff _⟩
  · rw [hclause, hclause', hn, String.ofList_inj]
    cases hn' : header? ls' with
    | none => exact (and_iff_right rfl).symm
    | some h' =>
      refine iff_of_false (fun heq => ?_) fun hboth => by cases hboth.1
      -- the statement would be as short as what is after the name
      have hshort := length_filter_rest hn'
      dsimp only at heq
      rw [← filter_clause (spelled h'.rest), heq, htailed.spelled_eq, List.filter_append,
        filter_isSolid_of_tail hx, spelled_lexemes hl, List.append_nil] at hshort
      exact Nat.lt_irrefl _ hshort

end

/-- A column added to a table is added the same way with one run of semicolons behind it. -/
theorem tail_dropped_column :
    let statement := "ALTER TABLE t ADD c INT"
    let tail := "\n;;\u00A0"
    alterClause (statement ++ tail) = alterClause statement ∧
      withOnlineHints (statement ++ tail) = withOnlineHints statement := by
  intro statement tail
  have ht : IsTail tail.toList := List.all_iff_forall_prop.1 (by decide +kernel)
  have hbare : (headerOf? statement).map
      (fun h => (h.second.isSome, terminatorRuns (spelled h.rest))) = some (false, 0) := by
    decide +kernel
  have hlong : (headerOf? (statement ++ tail)).map
      (fun h => (h.second.isSome, terminatorRuns (spelled h.rest))) = some (false, 1) := by
    decide +kernel
  obtain ⟨h, hh, hfacts⟩ := Option.map_eq_some_iff.1 hbare
  obtain ⟨h', hh', hfacts'⟩ := Option.map_eq_some_iff.1 hlong
  obtain ⟨hsecond, hruns⟩ := Prod.mk.inj hfacts
  obtain ⟨hsecond', hruns'⟩ := Prod.mk.inj hfacts'
  obtain ⟨ls, hl, hls⟩ := lexemes_of_headerOf hh
  obtain ⟨ms, hm, hms⟩ := lexemes_of_headerOf hh'
  obtain ⟨ls', hl', hclause, -, hhints, -⟩ := tail_dropped_iff hl ht
  obtain ⟨k, hk, hsame, -⟩ := hclause h hls
  have hrow : ms = ls' := Except.ok.inj (hm.symm.trans hl')
  have hheader : h' = k := by
    rw [← hrow, hms] at hk
    exact Option.some.inj hk
  subst hheader
  refine ⟨hsame.2 ⟨by rw [hsecond, hsecond'], by rw [hruns, hruns']; decide⟩, hhints.2 ?_⟩
  decide +kernel

/-- With a blank between two semicolons one is left, in the clause and in front of the hints. With a
wide blank character behind a period the clause is lost to the name. -/
theorem terminators_left :
    alterClause "ALTER TABLE t ADD c INT" = "ADD c INT" ∧
      alterClause "ALTER TABLE t ADD c INT; ;" = "ADD c INT;" ∧
      withOnlineHints "ALTER TABLE t ADD c INT" =
        "ALTER TABLE t ADD c INT, ALGORITHM=INPLACE, LOCK=NONE" ∧
      withOnlineHints "ALTER TABLE t ADD c INT; ;" =
        "ALTER TABLE t ADD c INT;, ALGORITHM=INPLACE, LOCK=NONE" ∧
      alterClause "ALTER TABLE t." = "." ∧
      alterClause "ALTER TABLE t.\u00A0;" = "" := by
  decide +kernel

end SafeAlter.Sql
