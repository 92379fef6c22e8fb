import SafeAlter.Proofs.Sql.NameEnd
import SafeAlter.Proofs.Sql.FirstWord

/-! # The name and the clause of a statement

The name of a statement's table is read from its text, its clause is found among its lexemes. Both
are about the same header exactly if that is plain. They are not where TABLE is not a word of its
own, where a comment stands in front of the name, or where a name is one that text and lexemes
delimit differently.
-/
namespace SafeAlter.Sql
open SafeAlter.Text

/-- The header of a statement, if its text has lexemes that start with one. -/
def headerOf? (statement : String) : Option Header :=
  match lexemes (trim statement.toList) with
  | .ok ls => header? ls
  | .error _ => none

/-- The two readings of a statement agree: the name that is read is the one that the lexemes
denote, and the clause is the text after the name that was read. -/
structure ReadingsAgree (statement : String) : Prop where
  name : ∀ h, headerOf? statement = some h → extractTableName statement = .ok h.name
  clause : ∀ name after, readTableName statement.toList = .ok (name, after) →
    alterClause statement = String.ofList (dropTerminators (trim after))

theorem extractTableName_eq (statement : String) :
    extractTableName statement = (readTableName statement.toList).map Prod.fst :=
  tableNameOf_eq statement.toList

theorem lexemes_of_headerOf {statement : String} {h : Header} (hh : headerOf? statement = some h) :
    ∃ ls, lexemes (trim statement.toList) = .ok ls ∧ header? ls = some h := by
  unfold headerOf? at hh
  split at hh
  · next ls hl => exact ⟨ls, hl, hh⟩
  · cases hh

theorem alterClause_of_header {statement : String} {h : Header}
    (hh : headerOf? statement = some h) :
    alterClause statement = String.ofList (dropTerminators (trim (spelled h.rest))) := by
  obtain ⟨ls, hl, hls⟩ := lexemes_of_headerOf hh
  rw [alterClause, clauseOf]
  simp only [hl, afterTableName?_eq, hls, Option.map_some]

theorem stands_of_headerOf {statement : String} {h : Header}
    (hs : (afterAlterTable? (trim statement.toList)).isSome = true)
    (hh : headerOf? statement = some h) :
    ∃ u, afterAlterTable? (trim statement.toList) = some (trimStart u) ∧ h.Stands u := by
  obtain ⟨rest, hrest⟩ := Option.isSome_iff_exists.1 hs
  obtain ⟨u, hu, rfl⟩ := Option.map_eq_some_iff.1 hrest
  obtain ⟨ls, hl, hls⟩ := lexemes_of_headerOf hh
  exact ⟨u, hrest, stands_of_header hu ⟨_, hl⟩ hls⟩

theorem Header.IsPlain.readings_agree {statement : String} {h : Header} (hp : h.IsPlain)
    (hs : (afterAlterTable? (trim statement.toList)).isSome = true)
    (hh : headerOf? statement = some h) :
    ReadingsAgree statement ∧ extractTableName statement = .ok h.name := by
  obtain ⟨u, hu, hstands⟩ := stands_of_headerOf hs hh
  have hread : readTableName statement.toList = .ok (h.name, spelled h.rest) := by
    simp only [readTableName, hu, hstands.readName_iff.2 hp]
  have hname : extractTableName statement = .ok h.name := by
    rw [extractTableName_eq, hread]
    rfl
  refine ⟨⟨?_, ?_⟩, hname⟩
  · intro h' hh'
    rw [hh] at hh'
    cases hh'
    exact hname
  · intro name after ha
    rw [hread] at ha
    cases ha
    exact alterClause_of_header hh

/-- Where the two readings agree, the name is read as identifiers, up to where the lexemes end it. -/
theorem ReadingsAgree.isPlain {statement : String} {h : Header} (ha : ReadingsAgree statement)
    (hs : (afterAlterTable? (trim statement.toList)).isSome = true)
    (hh : headerOf? statement = some h) : h.IsPlain := by
  obtain ⟨u, hu, hstands⟩ := stands_of_headerOf hs hh
  have hname := ha.name h hh
  rw [extractTableName_eq] at hname
  cases hread : readTableName statement.toList with
  | error e =>
    rw [hread] at hname
    cases hname
  | ok read =>
    obtain ⟨name, after⟩ := read
    rw [hread] at hname
    cases hname
    have hclause := ha.clause h.name after hread
    rw [alterClause_of_header hh, String.ofList_inj] at hclause
    have hr := hstands.readName_of_readTableName hu hread
    rw [hstands.after_eq hr hclause.symm] at hr
    exact hstands.readName_iff.1 hr

/-- Where the lexemes start with no header the clause is the statement, and it is longer than all
that follows a name. -/
theorem readingsAgree_iff_of_no_header {statement : String} {ls : List Lexeme}
    (hs : (afterAlterTable? (trim statement.toList)).isSome = true)
    (hl : lexemes (trim statement.toList) = .ok ls) (hn : header? ls = none) :
    ReadingsAgree statement ↔ ∃ fault, extractTableName statement = .error fault := by
  have hclause : alterClause statement = String.ofList (trim statement.toList) := by
    rw [alterClause, clauseOf]
    simp only [hl, afterTableName?_eq, hn, Option.map_none]
  have hnone : headerOf? statement = none := by
    simp only [headerOf?, hl, hn]
  rw [extractTableName_eq]
  constructor
  · intro ha
    cases hread : readTableName statement.toList with
    | error fault => exact ⟨fault, rfl⟩
    | ok read =>
      obtain ⟨name, after⟩ := read
      have he := ha.clause name after hread
      rw [hclause, String.ofList_inj] at he
      obtain ⟨rest, hrest⟩ := Option.isSome_iff_exists.1 hs
      have hafter := (readTableName_suffix hrest hread).length_le
      obtain ⟨u, hu, rfl⟩ := Option.map_eq_some_iff.1 hrest
      obtain ⟨a, t, ht, -, -⟩ := eq_append_of_afterAlterTable hu
      have hlong := congrArg List.length ht
      have hshort := (clause_sublist after).length_le
      have hrest := (List.dropWhile_sublist isBlank (l := u)).length_le
      rw [← he] at hshort
      simp only [trimStart, List.length_append, List.length_cons] at hafter hlong
      omega
  · rintro ⟨fault, hf⟩
    refine ⟨fun h hh => ?_, fun name after ha => ?_⟩
    · rw [hnone] at hh
      cases hh
    · rw [ha] at hf
      cases hf

/-- The two readings of a statement that begins with ALTER TABLE agree exactly if its header is
plain, or, where its lexemes start with no header, if no name is read at all. With a plain header
both tell what the lexemes say. -/
theorem readings_agree_iff {statement : String} {ls : List Lexeme}
    (hs : (afterAlterTable? (trim statement.toList)).isSome = true)
    (hl : lexemes (trim statement.toList) = .ok ls) :
    (ReadingsAgree statement ↔
      match header? ls with
      | some h => h.IsPlain
      | none => ∃ fault, extractTableName statement = .error fault) ∧
    ∀ h, header? ls = some h → h.IsPlain → extractTableName statement = .ok h.name ∧
      alterClause statement = String.ofList (dropTerminators (trim (spelled h.rest))) := by
  have hheader : headerOf? statement = header? ls := by
    simp only [headerOf?, hl]
  constructor
  · split
    · next h hh =>
      rw [← hheader] at hh
      exact ⟨fun ha => ha.isPlain hs hh, fun hp => (hp.readings_agree hs hh).1⟩
    · next hn => exact readingsAgree_iff_of_no_header hs hl hn
  · intro h hh hp
    rw [← hheader] at hh
    exact ⟨(hp.readings_agree hs hh).2, alterClause_of_header hh⟩

def qualifiedHeader : Header :=
  ⟨[⟨.blank, [' ']⟩], ⟨.word true, "\x60my db\x60".toList⟩, some ⟨.word false, "users".toList⟩,
    [⟨.blank, [' ']⟩, ⟨.word false, "ADD".toList⟩, ⟨.blank, [' ']⟩, ⟨.word false, "c".toList⟩,
      ⟨.blank, [' ']⟩, ⟨.word false, "INT".toList⟩, ⟨.terminator, [';']⟩]⟩

theorem readings_agree_qualified :
    let statement := "ALTER TABLE \x60my db\x60.users ADD c INT;"
    headerOf? statement = some qualifiedHeader ∧ qualifiedHeader.IsPlain ∧
      ReadingsAgree statement ∧ extractTableName statement = .ok ⟨some "my db", "users"⟩ := by
  intro statement
  have hs : (afterAlterTable? (trim statement.toList)).isSome = true := by decide +kernel
  have hh : headerOf? statement = some qualifiedHeader := by decide +kernel
  have hp : qualifiedHeader.IsPlain := by
    refine ⟨List.all_eq_true.1 rfl, ?_, ?_, nofun⟩
    · have hd : qualifiedHeader.first.denoted = "my db".toList := rfl
      change qualifiedHeader.first.denoted ≠ [] ∧ '\x60' ∉ qualifiedHeader.first.denoted
      simp [hd]
    · rintro v ⟨⟩
      refine ⟨List.all_eq_true.1 rfl, ?_⟩
      rintro c ⟨⟩
      rfl
  obtain ⟨ls, hl, hls⟩ := lexemes_of_headerOf hh
  obtain ⟨hagree, hread⟩ := readings_agree_iff hs hl
  rw [hls] at hagree
  exact ⟨hh, hp, hagree.2 hp, (hread qualifiedHeader hls hp).1⟩

def Disagrees (statement : String) : Prop :=
  (afterAlterTable? (trim statement.toList)).isSome = true ∧
    (∃ ls, lexemes (trim statement.toList) = .ok ls) ∧ ¬ReadingsAgree statement

theorem disagrees_of_name {statement : String} (name written : TableName)
    (hs : (afterAlterTable? (trim statement.toList)).isSome = true)
    (hn : (headerOf? statement).map Header.name = some name)
    (hw : extractTableName statement = .ok written) (hne : written ≠ name) :
    Disagrees statement := by
  obtain ⟨h, hh, rfl⟩ := Option.map_eq_some_iff.1 hn
  obtain ⟨ls, hl, -⟩ := lexemes_of_headerOf hh
  refine ⟨hs, ⟨ls, hl⟩, fun ha => hne ?_⟩
  have he := ha.name h hh
  rw [hw] at he
  exact Except.ok.inj he

theorem disagrees_of_clause {statement : String} {name : TableName} {after : List Char}
    (hs : (afterAlterTable? (trim statement.toList)).isSome = true)
    (hl : (lexemes (trim statement.toList)).isOk = true)
    (hr : readTableName statement.toList = .ok (name, after))
    (hc : alterClause statement ≠ String.ofList (dropTerminators (trim after))) :
    Disagrees statement := by
  exact ⟨hs, lexemes_of_isOk hl, fun ha => hc (ha.clause name after hr)⟩

theorem readings_disagree :
    Disagrees "ALTER TABLESfoo ADD c INT" ∧
      Disagrees "ALTER TABLE /* note */ t ADD c INT" ∧
      Disagrees "ALTER TABLE \x60a\x60\x60b\x60 ADD c INT" ∧
      Disagrees "ALTER TABLE t-1 ADD c INT" ∧
      Disagrees "ALTER TABLE db.1 ADD c INT" := by
  refine ⟨?_, ?_, ?_, ?_, ?_⟩
  · have hr : readTableName "ALTER TABLESfoo ADD c INT".toList =
        .ok (⟨none, "Sfoo"⟩, " ADD c INT".toList) := rfl
    exact disagrees_of_clause rfl (by decide +kernel) hr (by decide +kernel)
  · exact disagrees_of_name ⟨none, "t"⟩ ⟨none, "/*"⟩ rfl (by decide +kernel) rfl (by decide)
  · exact disagrees_of_name ⟨none, "a\x60b"⟩ ⟨none, "a"⟩ rfl (by decide +kernel) rfl (by decide)
  · exact disagrees_of_name ⟨none, "t"⟩ ⟨none, "t-1"⟩ rfl (by decide +kernel) rfl (by decide)
  · exact disagrees_of_name ⟨none, "db"⟩ ⟨some "db", "1"⟩ rfl (by decide +kernel) rfl (by decide)

end SafeAlter.Sql
