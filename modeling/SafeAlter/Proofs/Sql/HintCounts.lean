import SafeAlter.Proofs.Sql.Hints
import SafeAlter.Proofs.Sql.Seams
import SafeAlter.Proofs.Sql.Tailed

/-! # How often a text names a setting

The matches of a setting are found from left to right, each behind the equals sign of the one
before. None is passed over that way: inside a match there is no place where a word of letters
starts, so that the matches are as many as the places. What is trimmed off a statement takes no
match away, and a hint makes none across the comma that it begins with. So a hinted statement names
each setting as often as the statement did, or once if it did not, and has nothing to be added.
-/
namespace SafeAlter.Sql
open SafeAlter.Text

/-- What follows the equals sign of a setting at the front of a text. -/
def afterSetting? (keyword : String) (before : Option Char) (s : List Char) : Option (List Char) :=
  if (settingPhrase keyword).startsAt before s then
    (afterKeyword? keyword.toList s).map fun rest => (trimStart rest).tail
  else none

section
variable {keyword : String} {before : Option Char} {c d : Char} {p : Phrase}
  {s t u w rest : List Char}

theorem afterSetting_eq_some_iff :
    afterSetting? keyword before s = some rest ↔
      (settingPhrase keyword).startsAt before s = true ∧
        ∃ v, afterKeyword? keyword.toList s = some v ∧ trimStart v = '=' :: rest := by
  rw [afterSetting?]
  split
  · next hstart =>
    rw [Option.map_eq_some_iff, and_iff_right hstart]
    obtain ⟨-, v, hv, hequals⟩ := settingPhrase_startsAt_iff.1 hstart
    obtain ⟨t, ht⟩ := List.head?_eq_some_iff.1 hequals
    simp [hv, ht]
  · next hstart => exact iff_of_false nofun fun h => hstart h.1

theorem afterSetting_eq_none_iff :
    afterSetting? keyword before s = none ↔ (settingPhrase keyword).startsAt before s = false := by
  rw [afterSetting?]
  split
  · next hstart =>
    obtain ⟨-, v, hv, -⟩ := settingPhrase_startsAt_iff.1 hstart
    simp [hv, hstart]
  · next hstart => exact iff_of_true rfl (Bool.eq_false_iff.2 hstart)

theorem length_afterSetting (h : afterSetting? keyword before s = some rest) :
    rest.length < s.length := by
  obtain ⟨-, v, hv, hequals⟩ := afterSetting_eq_some_iff.1 h
  have hsuffix := (List.dropWhile_suffix isBlank).length_le.trans (afterKeyword_suffix hv).length_le
  rw [← trimStart, hequals] at hsuffix
  exact hsuffix

end

/-- The number of matches of a setting in a text that follows a given character. -/
def matchCount (keyword : String) (before : Option Char) : List Char → Nat
  | [] => 0
  | c :: s =>
    match h : afterSetting? keyword before (c :: s) with
    | some rest => matchCount keyword (some '=') rest + 1
    | none => matchCount keyword (some c) s
  termination_by s => s.length
  decreasing_by
  · exact length_afterSetting h
  · exact Nat.lt_succ_self _

section
variable {keyword : String} {before : Option Char} {c d : Char} {p : Phrase}
  {s t u w rest : List Char}

/-! ## Matches and places -/

theorem ofCapitals_settingPhrase (hk : IsCapital keyword) : (settingPhrase keyword).OfCapitals :=
  ⟨List.cons_ne_nil _ _, List.forall_mem_singleton.2 hk⟩

theorem afterKeyword_eq_append {k : List Char} (hk : ∀ e ∈ k, e.isUpper = true)
    (h : afterKeyword? k s = some rest) :
    ∃ w, s = w ++ rest ∧ w.length = k.length ∧ ∀ e ∈ w, isWordCharacter e = true := by
  induction k generalizing s with
  | nil =>
    cases h
    exact ⟨[], rfl, rfl, nofun⟩
  | cons e k ih =>
    obtain ⟨he, hk⟩ := List.forall_mem_cons.1 hk
    cases s with
    | nil => cases h
    | cons c s =>
      rw [afterKeyword?] at h
      split at h
      · next hletter =>
        obtain ⟨w, rfl, hlength, hw⟩ := ih hk h
        exact ⟨c :: w, rfl, congrArg Nat.succ hlength,
          List.forall_mem_cons.2 ⟨isWordCharacter_of_matchesLetter he hletter, hw⟩⟩
      · cases h

/-- No phrase starts inside a word. -/
theorem Phrase.startCount_word {n : Nat} (hd : isWordCharacter d = true)
    (hw : ∀ e ∈ w, isWordCharacter e = true) (hu : ∀ e, p.startCount e u = n) :
    p.startCount (some d) (w ++ u) = n := by
  induction w generalizing d with
  | nil => exact hu (some d)
  | cons c w ih =>
    obtain ⟨hc, hw⟩ := List.forall_mem_cons.1 hw
    have hstart : p.startsAt (some d) (c :: (w ++ u)) = false := by simp [startsAt, hd]
    rw [List.cons_append, startCount, hstart, Bool.toNat_false, Nat.zero_add]
    exact ih hc hw

/-- A setting stands once where it matches, and then as often as behind the match. -/
theorem startCount_afterSetting (hk : IsCapital keyword)
    (h : afterSetting? keyword before s = some rest) :
    (settingPhrase keyword).startCount before s =
      (settingPhrase keyword).startCount none rest + 1 := by
  have hp := ofCapitals_settingPhrase hk
  obtain ⟨hstart, v, hv, hequals⟩ := afterSetting_eq_some_iff.1 h
  obtain ⟨w, rfl, hlength, hw⟩ := afterKeyword_eq_append hk.2 hv
  have hbehind : ∀ e, (settingPhrase keyword).startCount e v =
      (settingPhrase keyword).startCount none rest := by
    intro e
    obtain ⟨b, hb, hs⟩ := exists_trimStart v
    have hjoin : v = (b ++ ['=']) ++ rest := by
      rw [hs, hequals, List.append_assoc]
      rfl
    rw [hjoin]
    refine hp.startCount_append (by simp) ?_ e rest
    exact List.forall_mem_append.2 ⟨fun d hd => not_isWordCharacter_of_isBlank (hb d hd),
      List.forall_mem_singleton.2 (not_isWordCharacter rfl)⟩
  cases w with
  | nil =>
    obtain ⟨c, k, hc, -⟩ := hk.eq_cons
    rw [hc] at hlength
    cases hlength
  | cons c w =>
    obtain ⟨hc, hw⟩ := List.forall_mem_cons.1 hw
    rw [List.cons_append] at hstart ⊢
    rw [Phrase.startCount, hstart, Phrase.startCount_word hc hw hbehind, Bool.toNat_true,
      Nat.add_comm]

/-- The matches that are found are as many as the places where the setting stands. -/
theorem matchCount_eq_startCount (hk : IsCapital keyword) (before : Option Char) (s : List Char) :
    matchCount keyword before s = (settingPhrase keyword).startCount before s := by
  fun_induction matchCount keyword before s with
  | case1 before => rw [Phrase.startCount, settingPhrase_startsAt_nil, Bool.toNat_false]
  | case2 before c s rest h ih =>
    have hequals : isWordCharacter '=' = false := not_isWordCharacter rfl
    rw [ih, startCount_afterSetting hk h, Phrase.startCount_some hequals]
  | case3 before c s h ih =>
    rw [ih, Phrase.startCount, afterSetting_eq_none_iff.1 h, Bool.toNat_false, Nat.zero_add]

/-! ## The ends of a statement -/

theorem startCount_append_of_not_mem (ht : '=' ∉ t) (before : Option Char) (s : List Char) :
    (settingPhrase keyword).startCount before (s ++ t) =
      (settingPhrase keyword).startCount before s := by
  induction s generalizing before with
  | nil =>
    have hoccurs : ¬0 < (settingPhrase keyword).startCount before t := by
      rw [Phrase.startCount_pos_iff, ← List.nil_append t, settingPhrase_occursAfter_append ht,
        Phrase.occursAfter, settingPhrase_startsAt_nil]
      exact Bool.false_ne_true
    rw [List.nil_append, Nat.eq_zero_of_not_pos hoccurs, Phrase.startCount,
      settingPhrase_startsAt_nil, Bool.toNat_false]
  | cons c s ih =>
    have hstart : (settingPhrase keyword).startsAt before (c :: s ++ t) =
        (settingPhrase keyword).startsAt before (c :: s) :=
      settingPhrase_startsAt_append ht before (c :: s)
    rw [List.cons_append] at hstart ⊢
    rw [Phrase.startCount, hstart, ih, Phrase.startCount]

theorem Phrase.OfCapitals.startCount_trimStart (hp : p.OfCapitals) (s : List Char) :
    p.startCount none (trimStart s) = p.startCount none s := by
  obtain ⟨b, hb, hs⟩ := exists_trimStart s
  cases b with
  | nil => exact congrArg (p.startCount none) hs.symm
  | cons c b =>
    have hword := fun e he => not_isWordCharacter_of_isBlank (hb e he)
    conv_rhs => rw [hs, hp.startCount_append (List.cons_ne_nil c b) hword]

/-- A statement without what is trimmed off and without its terminators names a setting as often. -/
theorem startCount_core (hk : IsCapital keyword) (s : List Char) :
    (settingPhrase keyword).startCount none (dropTerminators (trim s)) =
        (settingPhrase keyword).startCount none s ∧
      (settingPhrase keyword).startCount none (trim s) =
        (settingPhrase keyword).startCount none s := by
  have htail : ∀ {u x : List Char}, IsTail x → (settingPhrase keyword).startCount none (u ++ x) =
      (settingPhrase keyword).startCount none u := fun hx =>
    startCount_append_of_not_mem (hx.not_mem (by decide)) none _
  have htrim : (settingPhrase keyword).startCount none (trim s) =
      (settingPhrase keyword).startCount none s := by
    obtain ⟨b, hb, hs⟩ := exists_trimEnd (trimStart s)
    rw [← (ofCapitals_settingPhrase hk).startCount_trimStart s]
    conv_rhs => rw [hs, htail (.of_isBlank hb), ← trim]
  obtain ⟨x, hx, hs⟩ := exists_dropTerminators (trim s)
  refine ⟨?_, htrim⟩
  rw [← htrim]
  conv_rhs => rw [hs, htail hx]

end

/-! ## The hints -/

/-- What is added to a text, where the algorithm and the lock are named or not. -/
def additions (algorithm lock : Bool) : List Char :=
  (if algorithm then [] else ", ALGORITHM=INPLACE".toList) ++
    if lock then [] else ", LOCK=NONE".toList

section
variable {setting : OnlineSetting} {s : List Char}

theorem OnlineSetting.isCapital (setting : OnlineSetting) : IsCapital setting.keyword := by
  cases setting <;> decide

theorem phrase_eq_settingPhrase (setting : OnlineSetting) :
    setting.phrase = settingPhrase setting.keyword := by
  cases setting <;> rfl

theorem missingHints_eq_additions (s : List Char) :
    missingHints s = additions (algorithmPhrase.occursIn s) (lockPhrase.occursIn s) := rfl

/-- What is added, if it is anything, starts with a comma and ends in the same letter. -/
theorem additions_ends (algorithm lock : Bool) :
    (∀ c ∈ (additions algorithm lock).head?, c = ',') ∧
      ∀ c ∈ (additions algorithm lock).getLast?, c = 'E' := by
  cases algorithm <;> cases lock <;> simp [additions]

/-- What is added names the settings that it is added for, and each of them once. -/
theorem startCount_additions (named : OnlineSetting → Bool) (setting : OnlineSetting) :
    (settingPhrase setting.keyword).startCount none
      (additions (named .algorithm) (named .lock)) = (!named setting).toNat := by
  have hboth : ∀ algorithm lock : Bool,
      algorithmPhrase.startCount none (additions algorithm lock) = (!algorithm).toNat ∧
        lockPhrase.startCount none (additions algorithm lock) = (!lock).toNat := by
    decide +kernel
  cases setting with
  | algorithm => exact (hboth _ _).1
  | lock => exact (hboth _ _).2

/-- No match goes across the comma that a hint starts with. -/
theorem startCount_append_additions (named : OnlineSetting → Bool) (setting : OnlineSetting)
    (s : List Char) :
    (settingPhrase setting.keyword).startCount none
        (s ++ additions (named .algorithm) (named .lock)) =
      (settingPhrase setting.keyword).startCount none s + (!named setting).toNat := by
  have hcomma := (additions_ends (named .algorithm) (named .lock)).1
  have hp := ofCapitals_settingPhrase setting.isCapital
  rw [← startCount_additions named]
  cases hadded : additions (named .algorithm) (named .lock) with
  | nil =>
    rw [List.append_nil, Phrase.startCount.eq_1, settingPhrase_startsAt_nil]
    rfl
  | cons c u =>
    rw [hadded] at hcomma
    obtain rfl : c = ',' := hcomma c rfl
    rw [hp.startCount_separated separates_comma, hp.startCount_cons separates_comma.notWord]

theorem startCount_hinted (setting : OnlineSetting) (s : List Char) :
    (settingPhrase setting.keyword).startCount none (hinted s) =
      max 1 ((settingPhrase setting.keyword).startCount none s) := by
  obtain ⟨hcore, htrim⟩ := startCount_core setting.isCapital s
  have hadded := startCount_append_additions
    (fun o => (settingPhrase o.keyword).occursIn (trim s)) setting (dropTerminators (trim s))
  have hnamed := Phrase.startCount_pos_iff (p := settingPhrase setting.keyword) none (trim s)
  rw [htrim, ← Phrase.occursIn] at hnamed
  rw [hcore] at hadded
  refine hadded.trans ?_
  cases hoccurs : (settingPhrase setting.keyword).occursIn (trim s) with
  | true => exact (Nat.max_eq_right (hnamed.2 hoccurs)).symm
  | false =>
    have hzero := Nat.eq_zero_of_not_pos fun hpos => Bool.eq_false_iff.1 hoccurs (hnamed.1 hpos)
    rw [hzero]
    rfl

/-- A hinted statement is left as it is, unless a run of terminators is still in front of the
hints. -/
theorem hinted_hinted (h : (dropTerminators (trim s)).getLast? ≠ some ';') :
    hinted (hinted s) = hinted s := by
  have hnamed : missingHints (hinted s) = [] := by
    have hall : ∀ setting : OnlineSetting, setting.phrase.occursIn (hinted s) = true := by
      intro setting
      rw [phrase_eq_settingPhrase, Phrase.occursIn, ← Phrase.startCount_pos_iff, startCount_hinted]
      exact Nat.le_max_left ..
    have halgorithm : algorithmPhrase.occursIn (hinted s) = true := hall .algorithm
    have hlock : lockPhrase.occursIn (hinted s) = true := hall .lock
    rw [missingHints_eq_additions, halgorithm, hlock]
    rfl
  obtain ⟨hcomma, hend⟩ := additions_ends (algorithmPhrase.occursIn (trim s))
    (lockPhrase.occursIn (trim s))
  rw [← missingHints_eq_additions] at hcomma hend
  have hlast : ∀ c ∈ (hinted s).getLast?, isBlank c = false ∧ c ≠ ';' := by
    intro c hc
    rw [hinted, List.getLast?_append, Option.mem_def, Option.or_eq_some_iff] at hc
    rcases hc with hc | ⟨-, hc⟩
    · rw [hend c hc]
      decide
    · refine ⟨not_isBlank_of_getLast?_trimEnd c hc, ?_⟩
      rintro rfl
      exact h hc
  have hstart : trimStart (hinted s) = hinted s := by
    have hfront : dropTerminators (trim s) <+: trimStart s :=
      ((dropEndWhile_isPrefix _).trans (dropEndWhile_isPrefix _)).trans (trimEnd_isPrefix _)
    refine trimStart_of_isPrefix hfront ?_
    cases hmissing : missingHints (trim s) with
    | nil => rfl
    | cons c u =>
      rw [hmissing] at hcomma
      obtain rfl : c = ',' := hcomma c rfl
      exact trimStart_of_not_isBlank rfl u
  obtain ⟨htrim, hdrop⟩ := dropTerminators_of_getLast? hstart hlast
  rw [hinted, htrim, hdrop, hnamed, List.append_nil]

end

/-- The number of matches of a setting in a text. -/
def OnlineSetting.matches (setting : OnlineSetting) (s : List Char) : Nat :=
  matchCount setting.keyword none s

theorem OnlineSetting.matches_eq_startCount (setting : OnlineSetting) (s : List Char) :
    setting.matches s = (settingPhrase setting.keyword).startCount none s :=
  matchCount_eq_startCount setting.isCapital none s

theorem OnlineSetting.occursIn_trim (setting : OnlineSetting) (s : List Char) :
    setting.phrase.occursIn (trim s) = !decide (setting.matches s = 0) := by
  rw [Bool.eq_iff_iff, Phrase.occursIn, ← Phrase.startCount_pos_iff, phrase_eq_settingPhrase,
    (startCount_core setting.isCapital _).2, ← setting.matches_eq_startCount, Bool.not_eq_true',
    decide_eq_false_iff_not]
  exact Nat.pos_iff_ne_zero

/-- A hinted statement is the text without what is trimmed off and without its terminators, with a
hint behind it for each setting that has no match in the text. It has the matches that the text has,
or one if there are none, and is hinted itself, unless a terminator stands in front of the hints. -/
theorem hints_added_once (statement : String) :
    (withOnlineHints statement).toList = dropTerminators (trim statement.toList) ++
        (if OnlineSetting.algorithm.matches statement.toList = 0 then
          ", ALGORITHM=INPLACE".toList else []) ++
        (if OnlineSetting.lock.matches statement.toList = 0 then ", LOCK=NONE".toList else []) ∧
      (∀ setting : OnlineSetting, setting.matches (withOnlineHints statement).toList =
        max 1 (setting.matches statement.toList)) ∧
      ((dropTerminators (trim statement.toList)).getLast? ≠ some ';' →
        withOnlineHints (withOnlineHints statement) = withOnlineHints statement) := by
  have htext : (withOnlineHints statement).toList = hinted statement.toList := by
    rw [withOnlineHints, String.toList_ofList]
  refine ⟨?_, fun setting => ?_, fun h => ?_⟩
  · have hadded : ∀ (n : Nat) (u : List Char),
        (if (!decide (n = 0)) = true then [] else u) = if n = 0 then u else [] := by
      intro n u
      cases n <;> rfl
    have halgorithm : algorithmPhrase.occursIn (trim statement.toList) =
        !decide (OnlineSetting.algorithm.matches statement.toList = 0) :=
      OnlineSetting.algorithm.occursIn_trim statement.toList
    have hlock : lockPhrase.occursIn (trim statement.toList) =
        !decide (OnlineSetting.lock.matches statement.toList = 0) :=
      OnlineSetting.lock.occursIn_trim statement.toList
    rw [htext, hinted, missingHints_eq_additions, additions, halgorithm, hlock, hadded, hadded,
      List.append_assoc]
  · rw [htext, setting.matches_eq_startCount, startCount_hinted, ← setting.matches_eq_startCount]
  · rw [withOnlineHints, htext, hinted_hinted h, withOnlineHints]

/-- A statement that names the lock in small letters gets the other hint, once and for all. -/
theorem hint_added_beside_lock :
    let statement := "ALTER TABLE t ADD c INT, lock\n= none ;; "
    withOnlineHints statement = "ALTER TABLE t ADD c INT, lock\n= none, ALGORITHM=INPLACE" ∧
      withOnlineHints (withOnlineHints statement) = withOnlineHints statement := by
  intro statement
  obtain ⟨-, -, htwice⟩ := hints_added_once statement
  exact ⟨by decide +kernel, htwice (by decide +kernel)⟩

end SafeAlter.Sql
