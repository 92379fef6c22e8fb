import Mathlib.Data.Bool.AllAny
import SafeAlter.Proofs.Sql.FirstWord
import SafeAlter.Proofs.Sql.Slices
import SafeAlter.Proofs.Text.Words

/-! # Texts without a name

A name that is read can be used: no word of it is empty or has a backtick in it. No name is read
exactly from the texts that do not begin with ALTER TABLE, that have nothing behind it, or whose
first word behind it is neither an identifier nor anything that makes one without its backticks.
What is blank around a text makes no difference, nor does the letter case of its beginning, which
can be sliced off by bytes whatever follows it.
-/
namespace SafeAlter.Sql
open SafeAlter.Text

/-- A name that can be put into a command. -/
structure TableName.IsUsable (n : TableName) : Prop where
  table : n.table ≠ "" ∧ '\x60' ∉ n.table.toList
  database : ∀ d ∈ n.database, d ≠ "" ∧ '\x60' ∉ d.toList

/-- An identifier stands at the front of a text, in backticks or plain. -/
inductive OpensIdentifier : List Char → Prop where
  | quoted {name after : List Char} (nonempty : name ≠ []) (unquoted : '\x60' ∉ name) :
      OpensIdentifier ('\x60' :: name ++ '\x60' :: after)
  | plain {c : Char} {s : List Char} (h : isPlain c = true) : OpensIdentifier (c :: s)

/-- Without its backticks a word is empty, or it has nothing in front of its first period or nothing
behind it. -/
def NamesNothing (word : List Char) : Prop :=
  let bare := word.filter (· ≠ '\x60')
  bare = [] ∨ ∃ database table, bare = database ++ '.' :: table ∧ '.' ∉ database ∧
    (database = [] ∨ table = [])

def SaysAlterTable (verb : List Char) : Prop :=
  sameIgnoringCase "ALTER TABLE".toList verb = true

/-- The trimmed texts that no name is read from, each with its fault. -/
inductive Nameless : List Char → StatementFault → Prop where
  | other {s : List Char} (h : ∀ verb rest, s = verb ++ rest → ¬SaysAlterTable verb) :
      Nameless s .notAlterTable
  | bare {verb gap : List Char} (hverb : SaysAlterTable verb)
      (hgap : ∀ c ∈ gap, isBlank c = true) : Nameless (verb ++ gap) .nameless
  | unusable {verb gap word rest : List Char} (hverb : SaysAlterTable verb)
      (hgap : ∀ c ∈ gap, isBlank c = true) (hword : IsWord word)
      (hrest : ∀ c ∈ rest.head?, isBlank c = true) (hopens : ¬OpensIdentifier (word ++ rest))
      (hnothing : NamesNothing word) :
      Nameless (verb ++ (gap ++ (word ++ rest))) (.invalidName (String.ofList word))

/-! ## Identifiers -/

theorem identifier_quoted_front {name : List Char} (nonempty : name ≠ [])
    (unquoted : '\x60' ∉ name) (after : List Char) :
    identifier ('\x60' :: name ++ '\x60' :: after) = some (name, after) := by
  have hstretch : stretch (· ≠ '\x60') (name ++ '\x60' :: after) = (name, '\x60' :: after) := by
    refine stretch_append_eq_iff.2 ⟨rfl, fun c hc => ?_, by simp⟩
    rw [decide_eq_true_eq]
    rintro rfl
    exact unquoted hc
  obtain ⟨hname, hafter⟩ := Prod.mk.inj hstretch
  simp only [List.cons_append, identifier, if_true]
  rw [hname, hafter]
  simpa using nonempty

theorem identifier_isSome_iff {s : List Char} :
    (identifier s).isSome = true ↔ OpensIdentifier s := by
  constructor
  · intro h
    obtain ⟨⟨x, rest⟩, hi⟩ := Option.isSome_iff_exists.1 h
    obtain ⟨hx, hq, w, hw, -, rfl⟩ := identifier_writes hi
    cases hw with
    | quoted =>
      rw [List.append_assoc]
      exact .quoted hx hq
    | bare =>
      obtain ⟨c, t, rfl⟩ := List.exists_cons_of_ne_nil hx
      have hquote : '\x60' ∉ (c :: t ++ rest).head? := by
        rintro ⟨⟩
        exact hq List.mem_cons_self
      refine .plain (Bool.not_eq_false _ ▸ fun hc => ?_)
      have hnone := (identifier_eq_none_iff hquote).2 (by
        rintro d ⟨⟩
        exact hc)
      rw [hi] at hnone
      cases hnone
  · intro h
    cases h with
    | quoted nonempty unquoted => rw [identifier_quoted_front nonempty unquoted]; rfl
    | @plain c t hc =>
      have hquote : '\x60' ∉ (c :: t).head? := by
        rintro ⟨⟩
        cases hc
      rw [Option.isSome_iff_ne_none]
      intro hnone
      rw [(identifier_eq_none_iff hquote).1 hnone c rfl] at hc
      cases hc

/-! ## Names that are read -/

theorem isUsable_one {x : List Char} (hx : x ≠ []) (hq : '\x60' ∉ x) :
    TableName.IsUsable ⟨none, String.ofList x⟩ where
  table := by simpa [String.ofList_eq_empty_iff] using ⟨hx, hq⟩
  database := nofun

theorem isUsable_two {x y : List Char} (hx : x ≠ [] ∧ '\x60' ∉ x) (hy : y ≠ [] ∧ '\x60' ∉ y) :
    TableName.IsUsable ⟨some (String.ofList x), String.ofList y⟩ where
  table := by simpa using hy
  database := by
    rintro d ⟨⟩
    simpa using hx

theorem isUsable_of_leadingName {s : List Char} {name : TableName}
    (h : leadingName s = some name) : name.IsUsable := by
  unfold leadingName at h
  split at h
  · cases h
  · next first rest hfirst =>
    obtain ⟨hx, hq, -⟩ := identifier_writes hfirst
    split at h
    · split at h
      · next second _ hsecond =>
        obtain ⟨hy, hr, -⟩ := identifier_writes hsecond
        cases h
        exact isUsable_two ⟨hx, hq⟩ ⟨hy, hr⟩
      · cases h
        exact isUsable_one hx hq
    · cases h
      exact isUsable_one hx hq

theorem not_mem_bare {word part : List Char} (h : part <:+: word.filter (· ≠ '\x60')) :
    '\x60' ∉ part := by
  intro hmem
  have hfilter := (List.mem_filter.1 (h.subset hmem)).2
  simp at hfilter

/-- A word makes a name without its backticks, and that can be used, or it is refused. -/
theorem parse_cases {word : List Char} (h : ∀ c ∈ word, isBlank c = false) :
    (∃ name, TableName.parse (String.ofList word) = .ok name ∧ name.IsUsable ∧
        ¬NamesNothing word) ∨
      (TableName.parse (String.ofList word) = .error (.invalidName (String.ofList word)) ∧
        NamesNothing word) := by
  have hbare := trim_eq_self h
  unfold TableName.parse
  simp only [String.toList_ofList, hbare]
  split
  · next database table hcut =>
    obtain ⟨hjoin, hfirst⟩ := cutFirst_eq_some_iff.1 hcut
    split
    · next hempty =>
      refine .inr ⟨rfl, .inr ⟨database, table, hjoin, hfirst, ?_⟩⟩
      simpa using hempty
    · next hempty =>
      simp only [Bool.or_eq_true, List.isEmpty_iff, not_or] at hempty
      have hdatabase : database <:+: word.filter (· ≠ '\x60') := ⟨[], '.' :: table, hjoin.symm⟩
      have htable : table <:+: word.filter (· ≠ '\x60') :=
        ⟨database ++ ['.'], [], by rw [hjoin]; simp⟩
      refine .inl ⟨_, rfl, isUsable_two ⟨hempty.1, not_mem_bare hdatabase⟩
        ⟨hempty.2, not_mem_bare htable⟩, ?_⟩
      rintro (hnone | ⟨database', table', hjoin', hfirst', hempty'⟩)
      · rw [hnone] at hcut
        cases hcut
      · -- the first period is at one place only
        rw [hjoin', cutFirst_append hfirst'] at hcut
        cases hcut
        exact hempty'.elim hempty.1 hempty.2
  · next hcut =>
    have hperiod := cutFirst_eq_none_iff.1 hcut
    split
    · next hempty => exact .inr ⟨rfl, .inl (List.isEmpty_iff.1 hempty)⟩
    · next hempty =>
      rw [List.isEmpty_iff] at hempty
      refine .inl ⟨_, rfl, isUsable_one hempty (not_mem_bare (List.infix_refl _)), ?_⟩
      rintro (hnone | ⟨database, table, hjoin, -, -⟩)
      · exact hempty hnone
      · rw [hjoin] at hperiod
        exact hperiod (by simp)

/-! ## The text behind ALTER TABLE -/

theorem alterTable_eq_concat {verb : List Char} (h : SaysAlterTable verb) :
    ∃ t c, verb = t ++ [c] ∧ isBlank c = false := by
  have hlower : verb.map Char.toLower = "alter tabl".toList ++ ['e'] := (eq_of_beq h).symm
  obtain ⟨t, last, rfl, -, hlast⟩ := List.map_eq_append_iff.1 hlower
  obtain ⟨c, rfl, hc⟩ := List.map_eq_singleton_iff.1 hlast
  exact ⟨t, c, rfl, not_isBlank_of_isAlpha (isAlpha_of_toLower (by rw [hc]; rfl))⟩

theorem trim_verb {verb : List Char} (h : SaysAlterTable verb) (u : List Char) :
    trim (verb ++ u) = verb ++ trimEnd u := by
  obtain ⟨c, t, hcons, hc⟩ := alterTable_eq_cons h
  obtain ⟨t', d, hconcat, hd⟩ := alterTable_eq_concat h
  have hstart : trimStart (verb ++ u) = verb ++ u := by
    rw [hcons]
    exact trimStart_of_not_isBlank hc _
  rw [trim, hstart, hconcat, List.append_assoc, List.singleton_append, trimEnd,
    dropEndWhile_cons hd, ← trimEnd, List.append_assoc, List.singleton_append]

theorem afterAlterTable?_eq_some_iff {s rest : List Char} :
    afterAlterTable? s = some rest ↔
      ∃ verb u, s = verb ++ u ∧ SaysAlterTable verb ∧ trimStart u = rest := by
  rw [afterAlterTable?, Option.map_eq_some_iff]
  constructor
  · rintro ⟨u, hu, rfl⟩
    obtain ⟨verb, rfl, hverb⟩ := afterIgnoringCase?_eq_some_iff.1 hu
    exact ⟨verb, u, rfl, hverb, rfl⟩
  · rintro ⟨verb, u, rfl, hverb, rfl⟩
    exact ⟨u, afterIgnoringCase_append hverb u, rfl⟩

theorem byteLength_of_ascii {s : List Char} (h : ∀ c ∈ s, c.toNat < 128) :
    byteLength s = s.length := by
  induction s with
  | nil => rfl
  | cons c s ih =>
    obtain ⟨hc, hs⟩ := List.forall_mem_cons.1 h
    have hsize : c.utf8Size = 1 := by
      rw [Char.utf8Size_eq_one_iff, UInt32.le_iff_toNat_le]
      exact Nat.le_of_lt_succ hc
    rw [byteLength, hsize, ih hs, List.length_cons, Nat.add_comm]

/-- The characters of ALTER TABLE take up one byte each, whatever letter case they have. -/
theorem byteLength_verb {verb : List Char} (h : SaysAlterTable verb) :
    byteLength verb = byteLength "ALTER TABLE".toList := by
  have hascii : ∀ c ∈ verb, c.toNat < 128 := by
    intro c hc
    have hall : ∀ d ∈ lowerCase "ALTER TABLE".toList, d.toNat < 128 :=
      List.all_iff_forall_prop.1 (by decide +kernel)
    have hlower := hall c.toLower (by
      rw [eq_of_beq h]
      exact List.mem_map_of_mem hc)
    rw [toNat_toLower] at hlower
    split at hlower <;> omega
  rw [byteLength_of_ascii hascii]
  exact length_of_sameIgnoringCase h

/-- What follows ALTER TABLE at the front of a text, found by slicing off as many bytes as these
words have. -/
def afterAlterTableBytes? (s : List Char) : Option (List Char) := do
  let (front, rest) ← cutBytes? (byteLength "ALTER TABLE".toList) s
  if sameIgnoringCase "ALTER TABLE".toList front then some (trimStart rest) else none

theorem afterAlterTableBytes?_eq (s : List Char) :
    afterAlterTableBytes? s = afterAlterTable? s := by
  have hcut : ∀ verb u, s = verb ++ u → SaysAlterTable verb →
      cutBytes? (byteLength "ALTER TABLE".toList) s = some (verb, u) := by
    rintro verb u rfl hverb
    rw [← byteLength_verb hverb]
    exact cutBytes?_append verb u
  cases h : afterAlterTable? s with
  | some rest =>
    obtain ⟨verb, u, hs, hverb, rfl⟩ := afterAlterTable?_eq_some_iff.1 h
    have hsame : sameIgnoringCase "ALTER TABLE".toList verb = true := hverb
    simp only [afterAlterTableBytes?, hcut verb u hs hverb, Option.bind_eq_bind, Option.bind_some,
      hsame, if_true]
  | none =>
    rw [afterAlterTableBytes?, Option.bind_eq_bind, Option.bind_eq_none_iff]
    rintro ⟨front, rest⟩ hfront
    obtain ⟨rfl, -⟩ := cutBytes?_eq_some_iff.1 hfront
    refine if_neg fun hsame => ?_
    rw [afterAlterTable?_eq_some_iff.2 ⟨front, rest, rfl, hsame, rfl⟩] at h
    cases h

/-! ## Outcomes -/

theorem not_opensIdentifier_iff {s : List Char} :
    ¬OpensIdentifier s ↔ leadingName s = none := by
  rw [← identifier_isSome_iff, leadingName_eq, Option.map_eq_none_iff, readName_eq_none,
    Option.not_isSome_iff_eq_none]

/-- What is read behind blank text and in front of a blank character or nothing, where a text does
not open with an identifier, is the first word. -/
theorem tableNameOf_word {statement verb gap word rest : List Char}
    (ht : trim statement = verb ++ (gap ++ (word ++ rest))) (hverb : SaysAlterTable verb)
    (hgap : ∀ c ∈ gap, isBlank c = true) (hword : IsWord word)
    (hrest : ∀ c ∈ rest.head?, isBlank c = true) (hopens : ¬OpensIdentifier (word ++ rest)) :
    tableNameOf statement = TableName.parse (String.ofList word) := by
  have hafter := afterAlterTable?_eq_some_iff.2
    ⟨verb, _, ht, hverb, trimStart_front hgap hword rest⟩
  have hwords : words (word ++ rest) = word :: words rest :=
    words_front (List.forall_mem_nil _) hword hrest
  simp only [tableNameOf, hafter, not_opensIdentifier_iff.1 hopens, hwords]

theorem tableNameOf_of_nameless {statement : List Char} {fault : StatementFault}
    (h : Nameless (trim statement) fault) : tableNameOf statement = .error fault := by
  generalize ht : trim statement = s at h
  cases h with
  | other hother =>
    have hafter : afterAlterTable? s = none := by
      refine Option.eq_none_iff_forall_ne_some.2 fun rest hrest => ?_
      obtain ⟨verb, u, hs, hverb, -⟩ := afterAlterTable?_eq_some_iff.1 hrest
      exact hother verb u hs hverb
    simp only [tableNameOf, ht, hafter]
  | bare hverb hgap =>
    have hafter := afterAlterTable?_eq_some_iff.2 ⟨_, _, ht, hverb, trimStart_eq_nil hgap⟩
    simp only [tableNameOf, hafter]
    rfl
  | unusable hverb hgap hword hrest hopens hnothing =>
    rw [tableNameOf_word ht hverb hgap hword hrest hopens]
    rcases parse_cases hword.2 with ⟨name, -, -, hnot⟩ | ⟨herror, -⟩
    · exact absurd hnothing hnot
    · exact herror

/-- A name that can be used is read from a text, or the text has none. -/
theorem usable_or_nameless (statement : List Char) :
    (∃ name, tableNameOf statement = .ok name ∧ name.IsUsable) ∨
      ∃ fault, Nameless (trim statement) fault := by
  cases hafter : afterAlterTable? (trim statement) with
  | none =>
    refine .inr ⟨_, .other fun verb rest hs hverb => ?_⟩
    rw [afterAlterTable?_eq_some_iff.2 ⟨verb, rest, hs, hverb, rfl⟩] at hafter
    cases hafter
  | some rest =>
    obtain ⟨verb, u, ht, hverb, rfl⟩ := afterAlterTable?_eq_some_iff.1 hafter
    by_cases hopens : OpensIdentifier (trimStart u)
    · rw [← identifier_isSome_iff] at hopens
      cases hname : leadingName (trimStart u) with
      | some name =>
        refine .inl ⟨name, ?_, isUsable_of_leadingName hname⟩
        simp only [tableNameOf, hafter, hname]
      | none => exact absurd (identifier_isSome_iff.1 hopens) (not_opensIdentifier_iff.2 hname)
    by_cases hu : trimStart u = []
    · refine .inr ⟨.nameless, ?_⟩
      rw [ht]
      exact .bare hverb (List.dropWhile_eq_nil_iff.1 hu)
    · obtain ⟨gap, word, after, rfl, hgap, hword, hafter⟩ := exists_first_word hu
      rw [trimStart_front hgap hword] at hopens
      have hread := tableNameOf_word ht hverb hgap hword hafter hopens
      rcases parse_cases hword.2 with ⟨name, hname, husable, -⟩ | ⟨-, hnothing⟩
      · exact .inl ⟨name, hread.trans hname, husable⟩
      · refine .inr ⟨.invalidName (String.ofList word), ?_⟩
        rw [ht]
        exact .unusable hverb hgap hword hafter hopens hnothing

/-- A name that is read can be used, and none is read exactly from the texts without one, each with
its fault. Blank text around a statement makes no difference, and neither does the letter case of
its beginning; the text behind that is the one that slicing by bytes gives. -/
theorem tableName_usable_or_nameless (statement : String) :
    (∀ name, extractTableName statement = .ok name → name.IsUsable) ∧
      (∀ fault, extractTableName statement = .error fault ↔
        Nameless (trim statement.toList) fault) ∧
      (∀ lead trail : List Char, (∀ c ∈ lead, isBlank c = true) → (∀ c ∈ trail, isBlank c = true) →
        extractTableName (String.ofList (lead ++ statement.toList ++ trail)) =
          extractTableName statement) ∧
      (∀ verb verb' u : List Char, SaysAlterTable verb → SaysAlterTable verb' →
        trim statement.toList = verb ++ u →
        extractTableName (String.ofList (verb' ++ u)) = extractTableName statement) ∧
      afterAlterTableBytes? (trim statement.toList) = afterAlterTable? (trim statement.toList) := by
  refine ⟨?_, ?_, ?_, ?_, afterAlterTableBytes?_eq _⟩
  · intro name hname
    rcases usable_or_nameless statement.toList with ⟨name', hname', husable⟩ | ⟨fault, hnameless⟩
    · cases hname.symm.trans hname'
      exact husable
    · cases hname.symm.trans (tableNameOf_of_nameless hnameless)
  · intro fault
    refine ⟨fun hfault => ?_, tableNameOf_of_nameless⟩
    rcases usable_or_nameless statement.toList with ⟨name', hname', -⟩ | ⟨fault', hnameless⟩
    · cases hfault.symm.trans hname'
    · cases hfault.symm.trans (tableNameOf_of_nameless hnameless)
      exact hnameless
  · intro lead trail hlead htrail
    have htrim := trim_append hlead htrail statement.toList
    simp only [extractTableName, tableNameOf, String.toList_ofList, htrim]
  · intro verb verb' u hverb hverb' ht
    have hend : trimEnd u = u := by
      have htrim := congrArg trim ht
      rw [trim_trim, ht, trim_verb hverb] at htrim
      exact (List.append_cancel_left htrim).symm
    have htrim : trim (verb' ++ u) = verb' ++ u := by rw [trim_verb hverb', hend]
    have hafter := afterAlterTable?_eq_some_iff.2 ⟨verb, u, ht, hverb, rfl⟩
    have hafter' := afterAlterTable?_eq_some_iff.2 ⟨verb', u, htrim, hverb', rfl⟩
    simp only [extractTableName, tableNameOf, String.toList_ofList, hafter, hafter']

theorem tableName_usable_or_nameless_multibyte :
    extractTableName "\n aLTER Table\u3000\x60日 本\x60.é;" = .ok ⟨some "日 本", "é"⟩ ∧
      TableName.IsUsable ⟨some "日 本", "é"⟩ ∧
      Nameless "ALTER TABLE \x60\x60.é ADD c INT".toList (.invalidName "\x60\x60.é") ∧
      extractTableName "aLTER Table \x60\x60.é ADD c INT" =
        .error (.invalidName "\x60\x60.é") := by
  have hread : extractTableName "\n aLTER Table\u3000\x60日 本\x60.é;" =
      .ok ⟨some "日 本", "é"⟩ := by
    decide +kernel
  have hrefused : extractTableName "ALTER TABLE \x60\x60.é ADD c INT" =
      .error (.invalidName "\x60\x60.é") := by
    decide +kernel
  obtain ⟨-, hfault, -, hcase, -⟩ :=
    tableName_usable_or_nameless "ALTER TABLE \x60\x60.é ADD c INT"
  have hother := hcase "ALTER TABLE".toList "aLTER Table".toList " \x60\x60.é ADD c INT".toList
    rfl rfl (by decide +kernel)
  exact ⟨hread, (tableName_usable_or_nameless _).1 _ hread, (hfault _).1 hrefused,
    hother.trans hrefused⟩

end SafeAlter.Sql
