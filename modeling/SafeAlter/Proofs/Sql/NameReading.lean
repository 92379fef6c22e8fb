import SafeAlter.Proofs.Sql.Lexing
import SafeAlter.Sql.AlterClause

/-! # Where a table name ends

A table name is read from the text of a statement; here it is read together with the text that
follows it. The identifier at the front of a text is set against the word that is the first lexeme
of the text: the two are the same, and end at the same place, exactly if the word is plain.
-/
namespace SafeAlter.Sql
open SafeAlter.Text

/-- The name that a text starts with, and the text after it. -/
def readName (s : List Char) : Option (TableName × List Char) :=
  match identifier s with
  | none => none
  | some (first, rest) =>
    match rest with
    | '.' :: t =>
      match identifier t with
      | some (second, after) => some (⟨some (String.ofList first), String.ofList second⟩, after)
      | none => some (⟨none, String.ofList first⟩, '.' :: t)
    | rest => some (⟨none, String.ofList first⟩, rest)

theorem leadingName_eq (s : List Char) : leadingName s = (readName s).map Prod.fst := by
  unfold leadingName readName
  cases identifier s with
  | none => rfl
  | some read =>
    obtain ⟨first, _ | ⟨c, t⟩⟩ := read
    · rfl
    · by_cases hc : c = '.'
      · subst hc
        cases ht : identifier t <;> simp [ht]
      · simp [hc]

theorem readName_eq_none {s : List Char} : readName s = none ↔ identifier s = none := by
  unfold readName
  grind

theorem readName_one {s x rest : List Char} :
    readName s = some (⟨none, String.ofList x⟩, rest) ↔
      identifier s = some (x, rest) ∧ ∀ t, rest = '.' :: t → identifier t = none := by
  unfold readName
  grind [String.ofList_inj]

theorem readName_two {s x y rest : List Char} :
    readName s = some (⟨some (String.ofList x), String.ofList y⟩, rest) ↔
      ∃ t, identifier s = some (x, '.' :: t) ∧ identifier t = some (y, rest) := by
  unfold readName
  grind [String.ofList_inj]

/-- The name of the table that an ALTER TABLE statement is about, with the text that follows the
name. -/
def readTableName (statement : List Char) : Except StatementFault (TableName × List Char) :=
  match afterAlterTable? (trim statement) with
  | none => .error .notAlterTable
  | some rest =>
    match readName rest with
    | some read => .ok read
    | none =>
      match words rest with
      | [] => .error .nameless
      | word :: _ =>
        (TableName.parse (String.ofList word)).map fun name => (name, rest.drop word.length)

theorem tableNameOf_eq (statement : List Char) :
    tableNameOf statement = (readTableName statement).map Prod.fst := by
  unfold tableNameOf readTableName
  cases afterAlterTable? (trim statement) with
  | none => rfl
  | some rest =>
    simp only [leadingName_eq]
    cases readName rest with
    | some read => rfl
    | none =>
      cases words rest with
      | nil => rfl
      | cons word ws =>
        simp only [Option.map_none]
        cases TableName.parse (String.ofList word) <;> rfl

/-! ## The identifier that a word denotes -/

/-- The identifier in a quoted name after its opening backtick: what stands in front of the closing
backtick, a doubled backtick read as one. -/
def undoubled : List Char → List Char
  | [] => []
  | [c] => if c = '\x60' then [] else [c]
  | c :: d :: s =>
    if c = '\x60' then if d = '\x60' then '\x60' :: undoubled s else []
    else c :: undoubled (d :: s)

def Lexeme.denoted (l : Lexeme) : List Char :=
  match l.kind with
  | .word true => undoubled (l.spelling.drop 1)
  | _ => l.spelling

/-- A word in backticks is plain if the name is not empty and has no backtick in it; any other word
is plain if its characters are, and if it is not followed by another plain character. -/
def Lexeme.IsPlain (l : Lexeme) (after : List Char) : Prop :=
  match l.kind with
  | .word true => l.denoted ≠ [] ∧ '\x60' ∉ l.denoted
  | _ => (∀ c ∈ l.spelling, isPlain c = true) ∧ ∀ c ∈ after.head?, isPlain c = false

theorem undoubled_cons {c : Char} (hc : c ≠ '\x60') (s : List Char) :
    undoubled (c :: s) = c :: undoubled s := by
  cases s <;> simp [undoubled, hc]

theorem eq_undoubled_append {s text rest : List Char}
    (h : quotedRest '\x60' false s = some (text, rest)) (hn : '\x60' ∉ undoubled text) :
    text = undoubled text ++ ['\x60'] := by
  fun_induction quotedRest '\x60' false s generalizing text rest with
  | case1 => cases h
  | case2 =>
    cases h
    rfl
  | case3 => cases h
  | case4 =>
    obtain ⟨⟨text', rest'⟩, -, hp⟩ := Option.map_eq_some_iff.1 h
    cases hp
    exact absurd (List.mem_cons_self ..) hn
  | case5 =>
    cases h
    rfl
  | case6 c d s hc he => simp at he
  | case7 c d s hc he ih =>
    obtain ⟨⟨text', rest'⟩, hp, he⟩ := Option.map_eq_some_iff.1 h
    cases he
    rw [undoubled_cons hc] at hn ⊢
    simp only [List.mem_cons, not_or] at hn
    rw [List.cons_append, ← ih hp hn.2]

theorem stretch_append_eq_iff {p : Char → Bool} {s after rest : List Char} :
    stretch p (s ++ after) = (s, rest) ↔
      rest = after ∧ (∀ c ∈ s, p c = true) ∧ ∀ c ∈ after.head?, p c = false := by
  constructor
  · intro h
    obtain ⟨ht, hd⟩ := Prod.mk.inj h
    have hj := stretch_join p (s ++ after)
    rw [h] at hj
    have hr : rest = after := List.append_cancel_left hj
    subst hr
    refine ⟨rfl, fun c hc => ?_, fun c hc => ?_⟩
    · rw [← ht] at hc
      exact List.all_eq_true.1 List.all_takeWhile c hc
    · have hnot := List.head?_dropWhile_not p (s ++ rest)
      rw [hd, hc] at hnot
      simpa using hnot
  · rintro ⟨rfl, hs, hr⟩
    unfold stretch
    rw [List.takeWhile_append_of_pos hs, List.dropWhile_append_of_pos hs]
    cases rest with
    | nil => simp
    | cons c t =>
      have hc := hr c rfl
      simp [hc]

theorem identifier_bare {c : Char} {text after rest : List Char} (hc : c ≠ '\x60') :
    identifier (c :: text ++ after) = some (c :: text, rest) ↔
      rest = after ∧ (∀ d ∈ c :: text, isPlain d = true) ∧ ∀ d ∈ after.head?, isPlain d = false := by
  rw [← stretch_append_eq_iff]
  simp only [List.cons_append, identifier, hc, if_false]
  constructor
  · intro h
    split at h
    · cases h
    · exact Option.some.inj h
  · intro h
    rw [h]
    rfl

theorem identifier_quoted {text after rest : List Char}
    (hq : quotedRest '\x60' false (text ++ after) = some (text, after)) :
    identifier ('\x60' :: text ++ after) = some (undoubled text, rest) ↔
      rest = after ∧ undoubled text ≠ [] ∧ '\x60' ∉ undoubled text := by
  -- without a backtick inside, the stretch up to the first backtick is the whole name
  have hstretch : '\x60' ∉ undoubled text →
      stretch (· ≠ '\x60') (text ++ after) = (undoubled text, '\x60' :: after) := by
    intro hn
    have ht : text ++ after = undoubled text ++ '\x60' :: after := by
      rw [List.append_cons, ← eq_undoubled_append hq hn]
    rw [ht, stretch_append_eq_iff]
    refine ⟨rfl, fun c hc => ?_, by simp⟩
    rw [decide_eq_true_eq]
    rintro rfl
    exact hn hc
  simp only [List.cons_append, identifier, if_true]
  constructor
  · intro h
    split at h
    · cases h
    · next c after' hd =>
      split at h
      · cases h
      · next he =>
        obtain ⟨ht, rfl⟩ := Prod.mk.inj (Option.some.inj h)
        have hn : '\x60' ∉ undoubled text := by
          rw [← ht]
          intro hm
          have hp := List.all_eq_true.1 List.all_takeWhile _ hm
          simp at hp
        obtain ⟨-, hrest⟩ := Prod.mk.inj (hstretch hn)
        rw [hd] at hrest
        cases hrest
        rw [ht] at he
        exact ⟨rfl, by simpa using he, hn⟩
  · rintro ⟨rfl, hne, hn⟩
    obtain ⟨ht, hd⟩ := Prod.mk.inj (hstretch hn)
    rw [ht, hd]
    simpa using hne

/-- The identifier at the front of a word's text is the one that the word denotes, and ends where
the word ends, exactly if the word is plain. -/
theorem Lexeme.Shaped.identifier_iff {l : Lexeme} {after rest : List Char} (h : l.Shaped after)
    (hw : l.isWord = true) :
    identifier (l.spelling ++ after) = some (l.denoted, rest) ↔ rest = after ∧ l.IsPlain after := by
  rcases h.word_cases hw with ⟨text, rfl, hq⟩ | ⟨c, text, rfl, hc⟩
  · exact identifier_quoted hq
  · exact identifier_bare fun he => hc (by simp [he])

theorem identifier_eq_none_iff {s : List Char} (hs : '\x60' ∉ s.head?) :
    identifier s = none ↔ ∀ c ∈ s.head?, isPlain c = false := by
  cases s with
  | nil => simp [identifier]
  | cons c t =>
    have hc : c ≠ '\x60' := by
      rintro rfl
      exact hs rfl
    cases hp : isPlain c <;> simp [identifier, hc, stretch, hp]

theorem Lexeme.Shaped.trimStart_append {l : Lexeme} {after gap : List Char} (h : l.Shaped after)
    (hw : l.isWord = true) (hp : l.IsPlain after) (hg : ∀ c ∈ gap, Text.isBlank c = true) :
    trimStart (gap ++ (l.spelling ++ after)) = l.spelling ++ after := by
  rw [trimStart, List.dropWhile_append_of_pos hg]
  rcases h.word_cases hw with ⟨text, rfl, -⟩ | ⟨c, text, rfl, -⟩
  · exact List.dropWhile_cons_of_neg (by decide)
  · have hc : Text.isBlank c = false := not_isBlank_of_isPlain (hp.1 c (List.mem_cons_self ..))
    exact List.dropWhile_cons_of_neg (by simp [hc])

/-! ## Ways to write an identifier -/

/-- A text writes an identifier as it is or in backticks. -/
inductive Writes (x : List Char) : List Char → Prop where
  | bare : Writes x x
  | quoted : Writes x ('\x60' :: x ++ ['\x60'])

/-- A character that is neither blank nor a terminator. -/
def isSolid (c : Char) : Bool := !isBlank c && c != ';'

theorem isSolid_of_isPlain {c : Char} (h : isPlain c = true) : isSolid c = true := by
  have hc : c ≠ ';' := by
    rintro rfl
    cases h
  simp [isSolid, not_isBlank_of_isPlain h, hc]

theorem not_mem_of_isPlain {s : List Char} (h : ∀ c ∈ s, isPlain c = true) : '\x60' ∉ s := by
  intro hm
  have hp := h _ hm
  cases hp

/-- An identifier that was read is not empty, has no backtick in it, and is written at the front of
the text, up to a solid character. -/
theorem identifier_writes {s x rest : List Char} (h : identifier s = some (x, rest)) :
    x ≠ [] ∧ '\x60' ∉ x ∧
      ∃ w, Writes x w ∧ (∀ c ∈ w.getLast?, isSolid c = true) ∧ s = w ++ rest := by
  cases s with
  | nil => cases h
  | cons c t =>
    by_cases hc : c = '\x60'
    · subst hc
      simp only [identifier, if_true] at h
      split at h
      · cases h
      · next d after hd =>
        have hj : t.takeWhile (· ≠ '\x60') ++ d :: after = t := by
          rw [← hd]
          exact List.takeWhile_append_dropWhile
        split at h
        · cases h
        · next he =>
          cases h
          have hq : d = '\x60' := by
            have hnot := List.head?_dropWhile_not (· ≠ '\x60') t
            rw [hd] at hnot
            simpa using hnot
          subst hq
          refine ⟨by simpa using he, ?_, _, .quoted, ?_, ?_⟩
          · intro hm
            have hp := List.all_eq_true.1 List.all_takeWhile _ hm
            simp at hp
          · rw [List.getLast?_concat]
            rintro c ⟨⟩
            rfl
          · rw [List.append_assoc]
            exact congrArg ('\x60' :: ·) hj.symm
    · simp only [identifier, hc, if_false] at h
      split at h
      · cases h
      · next he =>
        have hs := Option.some.inj h
        have hj := stretch_join isPlain (c :: t)
        rw [hs] at he hj
        have hplain : ∀ d ∈ x, isPlain d = true := by
          intro d hd
          obtain ⟨hx, -⟩ := Prod.mk.inj hs
          rw [← hx] at hd
          exact List.all_eq_true.1 List.all_takeWhile d hd
        refine ⟨by simpa using he, not_mem_of_isPlain hplain, x, .bare, fun d hd => ?_, hj.symm⟩
        exact isSolid_of_isPlain (hplain d (List.mem_of_getLast? hd))

theorem readName_suffix {s after : List Char} {name : TableName}
    (h : readName s = some (name, after)) : after <:+ s := by
  have hsuffix : ∀ {s x rest : List Char}, identifier s = some (x, rest) → rest <:+ s := by
    intro s x rest hi
    obtain ⟨-, -, w, -, -, rfl⟩ := identifier_writes hi
    exact List.suffix_append w rest
  unfold readName at h
  split at h
  · cases h
  · next hi =>
    split at h
    · split at h
      · next ht =>
        cases h
        exact (hsuffix ht).trans ((List.suffix_cons ..).trans (hsuffix hi))
      · cases h
        exact hsuffix hi
    · cases h
      exact hsuffix hi

/-- What follows a name is an end of the text that the name is read from. -/
theorem readTableName_suffix {statement rest after : List Char} {name : TableName}
    (hs : afterAlterTable? (trim statement) = some rest)
    (h : readTableName statement = .ok (name, after)) : after <:+ rest := by
  simp only [readTableName, hs] at h
  split at h
  · next hr =>
    cases h
    exact readName_suffix hr
  · split at h
    · cases h
    · next word _ _ =>
      cases hp : TableName.parse (String.ofList word) with
      | error e => simp [hp, Except.map] at h
      | ok name =>
        simp only [hp, Except.map] at h
        cases h
        exact List.drop_suffix ..

theorem Lexeme.Shaped.writes {l : Lexeme} {after : List Char} (h : l.Shaped after)
    (hw : l.isWord = true) (hn : '\x60' ∉ l.denoted) : Writes l.denoted l.spelling := by
  rcases h.word_cases hw with ⟨text, rfl, hq⟩ | ⟨c, text, rfl, -⟩
  · have ht := eq_undoubled_append hq hn
    have hs : '\x60' :: text = '\x60' :: undoubled text ++ ['\x60'] := congrArg ('\x60' :: ·) ht
    change Writes (undoubled text) ('\x60' :: text)
    rw [hs]
    exact .quoted
  · exact .bare

theorem getLast?_append_of_some {α : Type} {s t : List α} {c : α} (h : t.getLast? = some c) :
    (s ++ t).getLast? = some c := by
  rw [List.getLast?_append, h, Option.some_or]

theorem append_ne_append_quoted {x a b : List Char} (hx : x ≠ []) (hq : '\x60' ∉ x) :
    a ++ x ≠ b ++ ('\x60' :: x ++ ['\x60']) := by
  intro h
  obtain ⟨c, hc⟩ : ∃ c, x.getLast? = some c := ⟨_, List.getLast?_eq_some_getLast hx⟩
  have hl := congrArg List.getLast? h
  rw [getLast?_append_of_some hc, ← List.append_assoc, List.getLast?_concat] at hl
  cases hl
  exact hq (List.mem_of_getLast? hc)

/-- Where two texts end in the same identifier, it is written the same way in both. -/
theorem Writes.cancel {x w w' a b : List Char} (hw : Writes x w) (hw' : Writes x w')
    (hx : x ≠ []) (hq : '\x60' ∉ x) (h : a ++ w = b ++ w') : a = b ∧ w = w' := by
  cases hw with
  | bare =>
    cases hw' with
    | bare => exact ⟨List.append_cancel_right h, rfl⟩
    | quoted => exact absurd h (append_ne_append_quoted hx hq)
  | quoted =>
    cases hw' with
    | bare => exact absurd h.symm (append_ne_append_quoted hx hq)
    | quoted => exact ⟨List.append_cancel_right h, rfl⟩

end SafeAlter.Sql
