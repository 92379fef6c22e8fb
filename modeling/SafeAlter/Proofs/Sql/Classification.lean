import SafeAlter.Proofs.Sql.Seams

/-! # What tells of a copy

A clause is a list of specifications with a comma between two. It copies the table if one of them
does, and it is named after the first of their names in the table. Letter case and the kind and the
length of blank text make no difference: a phrase cannot tell such texts apart, at any place.
-/
namespace SafeAlter.Sql
open SafeAlter.Text

/-- Blank text of one character or more. -/
def IsBlankRun (s : List Char) : Prop := s ≠ [] ∧ ∀ c ∈ s, isBlank c = true

/-- Texts that differ in nothing but the case of the ASCII letters and in what their runs of blank
text are made of. -/
inductive Respelled : List Char → List Char → Prop
  | nil : Respelled [] []
  | letter {c d : Char} {s t : List Char} (hcd : c.toLower = d.toLower) (h : Respelled s t) :
      Respelled (c :: s) (d :: t)
  | blank {a b s t : List Char} (ha : IsBlankRun a) (hb : IsBlankRun b) (h : Respelled s t) :
      Respelled (a ++ s) (b ++ t)

theorem IsBlankRun.eq_cons {s : List Char} (h : IsBlankRun s) :
    ∃ c t, s = c :: t ∧ isBlank c = true ∧ isWordCharacter c = false := by
  obtain ⟨c, t, rfl⟩ := List.exists_cons_of_ne_nil h.1
  have hc := h.2 c (List.mem_cons_self ..)
  exact ⟨c, t, rfl, hc, not_isWordCharacter_of_isBlank hc⟩

section Letters
variable {c d : Char}

theorem toLower_eq_cases (h : c.toLower = d.toLower) :
    c = d ∨ (c.isAlpha = true ∧ d.isAlpha = true ∧ c.toUpper = d.toUpper) := by
  have hlower := congrArg Char.toNat h
  rw [toNat_toLower, toNat_toLower] at hlower
  have hupper : ∀ e f : Char, 65 ≤ e.toNat ∧ e.toNat ≤ 90 → e.toNat + 32 = f.toNat →
      e.toUpper = f.toUpper := by
    intro e f he hf
    rw [← Char.toNat_inj, toNat_toUpper, toNat_toUpper]
    split <;> split <;> omega
  split at hlower <;> split at hlower
  · exact .inl (Char.toNat_inj.1 (by omega))
  · next hc hd =>
    exact .inr ⟨isAlpha_iff_toNat.2 (.inl hc), isAlpha_iff_toNat.2 (.inr (by omega)),
      hupper c d hc hlower⟩
  · next hc hd =>
    exact .inr ⟨isAlpha_iff_toNat.2 (.inr (by omega)), isAlpha_iff_toNat.2 (.inl hd),
      (hupper d c hd hlower.symm).symm⟩
  · exact .inl (Char.toNat_inj.1 hlower)

/-- A character that is none of the letters of ASCII is told in any case. -/
theorem eq_congr (h : c.toLower = d.toLower) {e : Char} (he : e.isAlpha = false) :
    (c == e) = (d == e) := by
  rcases toLower_eq_cases h with rfl | ⟨hc, hd, -⟩
  · rfl
  · rw [beq_false_of_ne (ne_of_isAlpha hc he), beq_false_of_ne (ne_of_isAlpha hd he)]

theorem matchesLetter_congr (h : c.toLower = d.toLower) (k : Char) :
    matchesLetter k c = matchesLetter k d := by
  have hupper : c.toUpper = d.toUpper := by
    rcases toLower_eq_cases h with rfl | ⟨-, -, hupper⟩
    · rfl
    · exact hupper
  rw [matchesLetter, matchesLetter, hupper, eq_congr h (by decide), eq_congr h (by decide)]

theorem isBlank_congr (h : c.toLower = d.toLower) : isBlank c = isBlank d := by
  rcases toLower_eq_cases h with rfl | ⟨hc, hd, -⟩
  · rfl
  · rw [not_isBlank_of_isAlpha hc, not_isBlank_of_isAlpha hd]

theorem isWordCharacter_congr (h : c.toLower = d.toLower) :
    isWordCharacter c = isWordCharacter d := by
  rcases toLower_eq_cases h with rfl | ⟨hc, hd, -⟩
  · rfl
  · rw [isWordCharacter_of_isAlpha hc, isWordCharacter_of_isAlpha hd]

end Letters

/-! ## Texts that a phrase cannot tell apart -/

namespace Respelled
variable {s t s' t' : List Char}

theorem of_lowerCase (h : lowerCase s = lowerCase t) : Respelled s t := by
  induction s generalizing t with
  | nil =>
    obtain rfl := List.map_eq_nil_iff.1 h.symm
    exact .nil
  | cons c s ih =>
    obtain ⟨d, t, rfl, hd, ht⟩ := List.map_eq_cons_iff.1 h.symm
    exact .letter hd.symm (ih ht.symm)

theorem refl (s : List Char) : Respelled s s := of_lowerCase rfl

theorem append (h : Respelled s t) (h' : Respelled s' t') : Respelled (s ++ s') (t ++ t') := by
  induction h with
  | nil => exact h'
  | letter hcd h ih => exact .letter hcd ih
  | blank ha hb h ih =>
    rw [List.append_assoc, List.append_assoc]
    exact .blank ha hb ih

theorem of_blankRun {a b : List Char} (ha : IsBlankRun a) (hb : IsBlankRun b) : Respelled a b := by
  have h := blank ha hb .nil
  rwa [List.append_nil, List.append_nil] at h

theorem trimStart (h : Respelled s t) : Respelled (trimStart s) (trimStart t) := by
  induction h with
  | nil => exact .nil
  | letter hcd h ih =>
    rw [Text.trimStart, Text.trimStart, List.dropWhile_cons, List.dropWhile_cons,
      isBlank_congr hcd]
    split
    · exact ih
    · exact .letter hcd h
  | blank ha hb h ih =>
    rwa [Text.trimStart, Text.trimStart, List.dropWhile_append_of_pos ha.2,
      List.dropWhile_append_of_pos hb.2]

/-- The first characters agree in what is the same for a letter in either case and for all blank
characters. -/
theorem head_any (h : Respelled s t) {f : Char → Bool}
    (hletter : ∀ c d : Char, c.toLower = d.toLower → f c = f d)
    (hblank : ∀ c d, isBlank c = true → isBlank d = true → f c = f d) :
    s.head?.any f = t.head?.any f := by
  cases h with
  | nil => rfl
  | letter hcd h => exact hletter _ _ hcd
  | blank ha hb h =>
    obtain ⟨c, a, rfl, hc, -⟩ := ha.eq_cons
    obtain ⟨d, b, rfl, hd, -⟩ := hb.eq_cons
    exact hblank c d hc hd

theorem closing_holds (h : Respelled s t) (closing : Closing) :
    closing.holds s = closing.holds t := by
  cases closing with
  | wordEnd =>
    refine congrArg not (h.head_any (fun _ _ => isWordCharacter_congr) fun c d hc hd => ?_)
    rw [not_isWordCharacter_of_isBlank hc, not_isWordCharacter_of_isBlank hd]
  | blank => exact h.head_any (fun _ _ => isBlank_congr) fun c d hc hd => hc.trans hd.symm
  | equals =>
    have hany : ∀ u : List Char, (u.head? == some '=') = u.head?.any (· == '=') := by
      rintro (_ | _) <;> rfl
    have hne : ∀ c : Char, isBlank c = true → (c == '=') = false := by
      refine fun c hc => beq_false_of_ne ?_
      rintro rfl
      cases hc
    rw [Closing.holds, Closing.holds, hany, hany]
    refine h.trimStart.head_any (fun _ _ hcd => eq_congr hcd rfl) fun c d hc hd => ?_
    rw [hne c hc, hne d hd]

theorem afterKeyword (h : Respelled s t) {k : List Char} (hk : ∀ d ∈ k, d.isUpper = true) :
    Option.Rel Respelled (afterKeyword? k s) (afterKeyword? k t) := by
  induction k generalizing s t with
  | nil => exact .some h
  | cons e k ih =>
    obtain ⟨he, hk⟩ := List.forall_mem_cons.1 hk
    cases h with
    | nil => exact .none
    | letter hcd h =>
      rw [afterKeyword?, afterKeyword?, matchesLetter_congr hcd]
      split
      · exact ih h hk
      · exact .none
    | blank ha hb h =>
      obtain ⟨c, a, rfl, -, hc⟩ := ha.eq_cons
      obtain ⟨d, b, rfl, -, hd⟩ := hb.eq_cons
      rw [List.cons_append, List.cons_append, afterKeyword?, afterKeyword?,
        matchesLetter_eq_false he hc, matchesLetter_eq_false he hd]
      exact .none

theorem afterKeywords (h : Respelled s t) {ks : List (List Char)}
    (hks : ∀ k ∈ ks, ∀ d ∈ k, d.isUpper = true) :
    Option.Rel Respelled (afterKeywords? ks s) (afterKeywords? ks t) := by
  induction ks generalizing s t with
  | nil => exact .some h
  | cons k ks ih =>
    obtain ⟨hk, hks⟩ := List.forall_mem_cons.1 hks
    cases ks with
    | nil => exact h.afterKeyword hk
    | cons l ls =>
      have hkeyword := h.afterKeyword hk
      rw [afterKeywords_cons, afterKeywords_cons]
      generalize afterKeyword? k s = rest, afterKeyword? k t = rest' at hkeyword
      cases hkeyword with
      | none => exact .none
      | some hrest =>
        rw [Option.bind_some, Option.bind_some, hrest.closing_holds]
        split
        · exact ih hrest.trimStart hks
        · exact .none

end Respelled

namespace Phrase.OfCapitals
variable {p : Phrase} {before before' : Option Char} {s t : List Char}

theorem startsAt_respelled (hp : p.OfCapitals)
    (hb : before.any isWordCharacter = before'.any isWordCharacter) (h : Respelled s t) :
    p.startsAt before s = p.startsAt before' t := by
  have hkeywords := h.afterKeywords hp.isUpper
  rw [startsAt, startsAt, hb]
  generalize afterKeywords? _ s = rest, afterKeywords? _ t = rest' at hkeywords
  cases hkeywords with
  | none => rfl
  | some hrest => rw [Option.any_some, Option.any_some, hrest.closing_holds]

/-- A phrase starts at no blank character, so that only where it starts at a letter is there
something to compare. -/
theorem occursAfter_respelled (hp : p.OfCapitals)
    (hb : before.any isWordCharacter = before'.any isWordCharacter) (h : Respelled s t) :
    p.occursAfter before s = p.occursAfter before' t := by
  have hrun : ∀ {a u : List Char} (e : Option Char), IsBlankRun a →
      p.occursAfter e (a ++ u) = p.occursIn u := fun e ha =>
    hp.occursAfter_append ha.1 (fun c hc => not_isWordCharacter_of_isBlank (ha.2 c hc)) e _
  induction h generalizing before before' with
  | nil => exact hp.startsAt_respelled hb .nil
  | @letter c d s t hcd h ih =>
    have hword : (some c).any isWordCharacter = (some d).any isWordCharacter :=
      isWordCharacter_congr hcd
    rw [occursAfter, occursAfter, hp.startsAt_respelled hb (.letter hcd h), ih hword]
  | blank ha hb' h ih => rw [hrun before ha, hrun before' hb', occursIn, occursIn, ih rfl]

theorem occursIn_respelled (hp : p.OfCapitals) (h : Respelled s t) : p.occursIn s = p.occursIn t :=
  hp.occursAfter_respelled rfl h

/-- A phrase stands in a list of specifications if it stands in a member. -/
theorem occursIn_specifications (hp : p.OfCapitals) (s t : List Char) :
    p.occursIn (s ++ ", ".toList ++ t) = (p.occursIn s || p.occursIn t) := by
  have hspace : p.occursIn (' ' :: t) = p.occursIn t :=
    hp.occursAfter_cons (not_isWordCharacter_of_isBlank rfl) none t
  have hjoin : s ++ ", ".toList ++ t = s ++ ',' :: ' ' :: t := List.append_assoc s _ t
  rw [hjoin, occursIn, hp.occursAfter_separated separates_comma, ← occursIn, hspace]

end Phrase.OfCapitals

/-! ## The table of the alterations that copy -/

theorem ofCapitals_of_copyOperation {o : Phrase × String} (h : o ∈ copyOperations) :
    o.1.OfCapitals :=
  let ⟨hne, hcapital, _⟩ := copyOperations_keywords o h
  ⟨hne, hcapital⟩

theorem copyOperations_nodup : (copyOperations.map Prod.snd).Nodup := by decide

/-- In a table of distinct names the first entry with one of two properties has the name that comes
first of those that the two give alone. -/
theorem find?_or_map {α β : Type} [DecidableEq β] {name : α → β} {table : List α}
    (h : (table.map name).Nodup) (p q : α → Bool) :
    (table.find? fun a => p a || q a).map name = (table.map name).find? fun b =>
      (table.find? p).map name = some b ∨ (table.find? q).map name = some b := by
  induction table with
  | nil => rfl
  | cons a table ih =>
    obtain ⟨ha, hrest⟩ := List.nodup_cons.1 h
    have hlater : ∀ r : α → Bool, (table.find? r).map name ≠ some (name a) := by
      intro r hr
      obtain ⟨b, hb, hname⟩ := Option.map_eq_some_iff.1 hr
      exact ha (hname ▸ List.mem_map_of_mem (List.mem_of_find?_eq_some hb))
    rw [List.map_cons, List.find?_cons, List.find?_cons, List.find?_cons, List.find?_cons]
    cases hp : p a with
    | true => simp
    | false =>
      cases hq : q a with
      | true => simp
      | false => simpa [hlater] using ih hrest

/-- The name that comes first in the table, of two names that may be missing. -/
def firstInTable (name name' : Option String) : Option String :=
  (copyOperations.map Prod.snd).find? fun n => name = some n ∨ name' = some n

theorem blockingOperation_respelled {clause clause' : String}
    (h : Respelled clause.toList clause'.toList) :
    blockingOperation clause = blockingOperation clause' := by
  rw [blockingOperation, blockingOperation]
  congr 1
  exact List.find?_congr fun o ho => (ofCapitals_of_copyOperation ho).occursIn_respelled h

theorem blockingOperation_specifications (clause clause' : String) :
    blockingOperation (clause ++ ", " ++ clause') =
      firstInTable (blockingOperation clause) (blockingOperation clause') := by
  have hmember : copyOperations.find? (fun o => o.1.occursIn (clause ++ ", " ++ clause').toList) =
      copyOperations.find? fun o => o.1.occursIn clause.toList || o.1.occursIn clause'.toList := by
    refine List.find?_congr fun o ho => ?_
    rw [String.toList_append, String.toList_append]
    exact (ofCapitals_of_copyOperation ho).occursIn_specifications _ _
  rw [blockingOperation, hmember, find?_or_map copyOperations_nodup]
  rfl

theorem blockingOperation_mem {clause name : String} (h : blockingOperation clause = some name) :
    name ∈ copyOperations.map Prod.snd := by
  obtain ⟨o, ho, rfl⟩ := Option.map_eq_some_iff.1 h
  exact List.mem_map_of_mem (List.mem_of_find?_eq_some ho)

theorem firstInTable_eq_none_iff {name name' : Option String}
    (h : ∀ n, name = some n ∨ name' = some n → n ∈ copyOperations.map Prod.snd) :
    firstInTable name name' = none ↔ name = none ∧ name' = none := by
  rw [firstInTable, List.find?_eq_none]
  simp only [decide_eq_true_eq, Option.eq_none_iff_forall_ne_some]
  constructor
  · exact fun hnone =>
      ⟨fun n hn => hnone n (h n (.inl hn)) (.inl hn), fun n hn => hnone n (h n (.inr hn)) (.inr hn)⟩
  · rintro ⟨hl, hr⟩ n - (hn | hn)
    · exact hl n hn
    · exact hr n hn

/-- Two clauses with a comma between them copy the table if one of them does, and are named after
the one that comes first in the table. The case of a letter and what a run of blank text is made of
make no difference. -/
theorem classification_by_members :
    (∀ clause clause' : String,
      blockingOperation (clause ++ ", " ++ clause') =
          firstInTable (blockingOperation clause) (blockingOperation clause') ∧
        (blockingOperation (clause ++ ", " ++ clause') = none ↔
          blockingOperation clause = none ∧ blockingOperation clause' = none)) ∧
      (∀ clause clause' : String, sameIgnoringCase clause.toList clause'.toList = true →
        blockingOperation clause = blockingOperation clause') ∧
      ∀ x run run' y : String, IsBlankRun run.toList → IsBlankRun run'.toList →
        blockingOperation (x ++ run ++ y) = blockingOperation (x ++ run' ++ y) := by
  refine ⟨fun clause clause' => ?_, fun clause clause' h => ?_, fun x run run' y h h' => ?_⟩
  · have hfirst := blockingOperation_specifications clause clause'
    refine ⟨hfirst, ?_⟩
    rw [hfirst, firstInTable_eq_none_iff]
    rintro n (hn | hn)
    · exact blockingOperation_mem hn
    · exact blockingOperation_mem hn
  · exact blockingOperation_respelled (.of_lowerCase (eq_of_beq h))
  · apply blockingOperation_respelled
    simp only [String.toList_append]
    exact ((Respelled.refl _).append (.of_blankRun h h')).append (.refl _)

/-- A column is modified in small letters behind a wide blank, next to a column that is renamed. -/
theorem modify_before_change :
    blockingOperation ("CHANGE a b INT" ++ ", " ++ ("modify" ++ "\t\u00A0" ++ "c BIGINT")) =
      some "MODIFY" := by
  obtain ⟨hlist, hcase, hblank⟩ := classification_by_members
  have hwide : IsBlankRun "\t\u00A0".toList :=
    ⟨nofun, List.all_iff_forall_prop.1 (by decide +kernel)⟩
  have hspace : IsBlankRun " ".toList := ⟨nofun, List.all_iff_forall_prop.1 (by decide +kernel)⟩
  rw [(hlist _ _).1, hblank "modify" _ " " "c BIGINT" hwide hspace,
    hcase ("modify" ++ " " ++ "c BIGINT") "MODIFY c BIGINT" (by decide +kernel)]
  decide +kernel

end SafeAlter.Sql
