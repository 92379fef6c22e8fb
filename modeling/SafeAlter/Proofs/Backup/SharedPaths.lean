import Mathlib.Data.List.Basic
import SafeAlter.Backup.Path

/-! # Which backups share a path

The name of a backup has an underscore between its parts, and the names of a database and of a
table may hold underscores of their own. Two tables whose names read alike with the underscore
between them share their dumps and their copies, and a copy whose table ends like a dump may be
taken for one; these are all the backups of one time that share a path. A backup is one component
below its directory as long as the names hold no slash; a slash in a name leads further down, unless
it is at the end of a copy.
-/
namespace SafeAlter.BackupPath
open SafeAlter.Sql

/-- The time of a backup: the year, the month, the day, the hour, the minute and the second, each
in two digits. -/
def IsTimestamp (s : String) : Prop :=
  s.toList.length = 12 ∧ s.toList.all Char.isDigit = true

instance (s : String) : Decidable (IsTimestamp s) := inferInstanceAs (Decidable (_ ∧ _))

/-- Tables whose two names come to the same text with an underscore between them. -/
inductive ReadAlike : QualifiedTable → QualifiedTable → Prop where
  | same (t : QualifiedTable) : ReadAlike t t
  | earlier (d x t : String) : ReadAlike ⟨d, x ++ "_" ++ t⟩ ⟨d ++ "_" ++ x, t⟩
  | later (d x t : String) : ReadAlike ⟨d ++ "_" ++ x, t⟩ ⟨d, x ++ "_" ++ t⟩

/-- A backup on the disk: of which kind it is, and of which table. -/
inductive Saved where
  | dump (t : QualifiedTable)
  | copy (t : QualifiedTable)
  deriving DecidableEq, Repr

/-- Backups that share their name. -/
inductive Saved.ShareName : Saved → Saved → Prop where
  | dumps {a b : QualifiedTable} (h : ReadAlike a b) : ShareName (.dump a) (.dump b)
  | copies {a b : QualifiedTable} (h : ReadAlike a b) : ShareName (.copy a) (.copy b)
  | dumpCopy {a : QualifiedTable} {d t : String} (h : ReadAlike a ⟨"xtrabackup_" ++ d, t⟩) :
      ShareName (.dump a) (.copy ⟨d, t ++ ".sql"⟩)
  | copyDump {a : QualifiedTable} {d t : String} (h : ReadAlike a ⟨"xtrabackup_" ++ d, t⟩) :
      ShareName (.copy ⟨d, t ++ ".sql"⟩) (.dump a)

/-- A piece of a path that leads to another place; an empty one and a single period do not. -/
def leads (piece : List Char) : Bool :=
  !piece.isEmpty && piece != ['.']

/-- Where a path starts: at the root, at the place itself, or at neither in so many words. -/
def start : List Char → List (List Char)
  | [] => []
  | c :: s =>
    if c = '/' then [['/']]
    else if c = '.' ∧ s.head?.all (· = '/') then [['.']]
    else []

/-- What a path is made of. Slashes part the components, however many there are; a period by itself
is a component only at the start. -/
def components (path : List Char) : List (List Char) :=
  start path ++ (path.splitOn '/').filter leads

/-- What comes behind the first slash of a text leads nowhere. -/
def IsFlat (s : List Char) : Prop :=
  ∀ piece ∈ (s.splitOn '/').tail, leads piece = false

/-- The table that a backup is of. -/
def Saved.of : Saved → QualifiedTable
  | dump t => t
  | copy t => t

/-- A backup neither of whose names holds a slash. -/
def Saved.Slashless (s : Saved) : Prop :=
  '/' ∉ s.of.database.toList ∧ '/' ∉ s.of.table.toList

instance (s : Saved) : Decidable s.Slashless := inferInstanceAs (Decidable (_ ∧ _))

/-- A backup whose names do not lead further down than its directory. A copy may have slashes at its
end. -/
def Saved.StaysFlat : Saved → Prop
  | dump t => '/' ∉ t.database.toList ∧ '/' ∉ t.table.toList
  | copy t => '/' ∉ t.database.toList ∧ IsFlat t.table.toList

/-- The name of a backup in its directory. -/
def Saved.file (timestamp : String) : Saved → String
  | dump t => timestamp ++ "_" ++ t.database ++ "_" ++ t.table ++ ".sql"
  | copy t => timestamp ++ "_xtrabackup_" ++ t.database ++ "_" ++ t.table

def Saved.path (directory timestamp : String) : Saved → String
  | dump t => BackupPath.dump directory timestamp t
  | copy t => BackupPath.copy directory timestamp t

/-- The names of a table, with an underscore between them. -/
def label (t : QualifiedTable) : String :=
  t.database ++ "_" ++ t.table

/-- What the name of a backup tells besides the time. -/
def Saved.told : Saved → String
  | dump t => label t ++ ".sql"
  | copy t => "xtrabackup_" ++ label t

variable {directory timestamp name name' : String} {a b : QualifiedTable} {s s' : Saved} {c : Char}
  {p q x y e : List Char}

/-! ## Names that read alike -/

/-- An end without a mark is the end of what stands behind that mark. -/
theorem exists_of_append_cons_eq_append (hc : c ∉ e) (h : p ++ c :: q = x ++ e) :
    ∃ v, q = v ++ e ∧ x = p ++ c :: v := by
  rw [List.append_cons, List.append_eq_append_iff] at h
  rcases h with ⟨v, rfl, rfl⟩ | ⟨v, hp, rfl⟩
  · exact ⟨v, rfl, by simp⟩
  · rcases List.eq_nil_or_concat v with rfl | ⟨v, c', rfl⟩
    · exact ⟨[], rfl, by simpa using hp.symm⟩
    · rw [List.concat_eq_append, ← List.append_assoc] at hp
      obtain ⟨-, hcc⟩ := List.append_inj' hp rfl
      cases hcc
      simp at hc

theorem toList_label (t : QualifiedTable) :
    (label t).toList = t.database.toList ++ '_' :: t.table.toList := by
  simp [label]

theorem readAlike_of_database_eq_append (h : label a = label b)
    (hx : b.database.toList = a.database.toList ++ x) : ReadAlike a b := by
  obtain ⟨d, t⟩ := a
  obtain ⟨d', t'⟩ := b
  rw [← String.toList_inj, toList_label, toList_label, hx, List.append_assoc,
    List.append_cancel_left_eq] at h
  cases x with
  | nil =>
    have hd : d' = d := String.toList_injective (by simpa using hx)
    have ht : t = t' := String.toList_injective (List.cons.inj h).2
    subst hd ht
    exact .same _
  | cons c x =>
    obtain ⟨rfl, ht⟩ := List.cons.inj h
    have hd : d' = d ++ "_" ++ String.ofList x := String.toList_injective (by simpa using hx)
    have ht' : t = String.ofList x ++ "_" ++ t' := String.toList_injective (by simpa using ht)
    subst hd ht'
    exact .earlier _ _ _

theorem ReadAlike.symm (h : ReadAlike a b) : ReadAlike b a := by
  cases h with
  | same => exact .same _
  | earlier => exact .later _ _ _
  | later => exact .earlier _ _ _

theorem ReadAlike.label_eq (h : ReadAlike a b) : label a = label b := by
  cases h <;> simp [label, String.append_assoc]

theorem readAlike_iff : ReadAlike a b ↔ label a = label b := by
  constructor
  · exact ReadAlike.label_eq
  · intro h
    -- one of the databases goes on where the other ends
    have hlist := congrArg String.toList h
    rw [toList_label, toList_label] at hlist
    rcases List.append_eq_append_iff.1 hlist with ⟨x, hx, -⟩ | ⟨x, hx, -⟩
    · exact readAlike_of_database_eq_append h hx
    · apply ReadAlike.symm
      exact readAlike_of_database_eq_append h.symm hx

instance (a b : QualifiedTable) : Decidable (ReadAlike a b) := decidable_of_iff _ readAlike_iff.symm

/-! ## Backups that share their name -/

namespace Saved

theorem file_eq (timestamp : String) (s : Saved) :
    s.file timestamp = timestamp ++ "_" ++ s.told := by
  cases s <;> simp [file, told, label, String.append_assoc, ← String.toList_inj]

theorem told_copy (d t : String) :
    (copy ⟨d, t ++ ".sql"⟩).told = label ⟨"xtrabackup_" ++ d, t⟩ ++ ".sql" := by
  simp [label, told, String.append_assoc]

theorem shareName_of_told_eq (h : (dump a).told = (copy b).told) :
    (dump a).ShareName (copy b) := by
  obtain ⟨d, t⟩ := b
  have hend : ("xtrabackup_" ++ d).toList ++ '_' :: t.toList =
      (label a).toList ++ ['.', 's', 'q', 'l'] := by
    simpa [told, label, ← String.toList_inj] using h.symm
  obtain ⟨v, ht, hv⟩ := exists_of_append_cons_eq_append (by decide) hend
  have ht : t = String.ofList v ++ ".sql" := String.toList_injective (by simpa using ht)
  subst ht
  apply ShareName.dumpCopy
  rw [readAlike_iff, ← String.toList_inj, hv, toList_label, String.toList_ofList]

theorem ShareName.symm (h : s.ShareName s') : s'.ShareName s := by
  cases h with
  | dumps h => exact .dumps h.symm
  | copies h => exact .copies h.symm
  | dumpCopy h => exact .copyDump h
  | copyDump h => exact .dumpCopy h

theorem ShareName.told_eq (h : s.ShareName s') : s.told = s'.told := by
  cases h with
  | dumps h => rw [told, told, h.label_eq]
  | copies h => rw [told, told, h.label_eq]
  | dumpCopy h => rw [told_copy, told, h.label_eq]
  | copyDump h => rw [told_copy, told, h.label_eq]

theorem file_inj : s.file timestamp = s'.file timestamp ↔ s.told = s'.told := by
  rw [file_eq, file_eq, String.append_right_inj]

theorem shareName_iff : s.ShareName s' ↔ s.file timestamp = s'.file timestamp := by
  rw [file_inj]
  constructor
  · exact ShareName.told_eq
  · intro h
    cases s <;> cases s'
    case dump.dump a b =>
      apply ShareName.dumps
      exact readAlike_iff.2 ((String.append_left_inj _).1 h)
    case copy.copy a b =>
      apply ShareName.copies
      exact readAlike_iff.2 ((String.append_right_inj _).1 h)
    case dump.copy a b => exact shareName_of_told_eq h
    case copy.dump a b =>
      apply ShareName.symm
      exact shareName_of_told_eq h.symm

instance (s s' : Saved) : Decidable (s.ShareName s') :=
  decidable_of_iff (s.file "" = s'.file "") shareName_iff.symm

end Saved

/-! ## Below a directory -/

theorem path_eq_join (s : Saved) :
    s.path directory timestamp = join directory (s.file timestamp) := by
  cases s <;> rfl

theorem startsWith_slash_iff : name.startsWith "/" = true ↔ name.toList.head? = some '/' := by
  rw [String.startsWith_string_iff, List.head?_eq_some_iff]
  exact ⟨fun ⟨rest, h⟩ => ⟨rest, h.symm⟩, fun ⟨rest, h⟩ => ⟨rest, h.symm⟩⟩

theorem endsWith_slash_iff : name.endsWith "/" = true ↔ ∃ rest, name.toList = rest ++ ['/'] := by
  rw [String.endsWith_eq_endsWith_toSlice, String.Slice.endsWith_string_iff]
  simp [List.IsSuffix, eq_comm]

theorem join_inj (h : name.toList.head? ≠ some '/') (h' : name'.toList.head? ≠ some '/') :
    join directory name = join directory name' ↔ name = name' := by
  rw [ne_eq, ← startsWith_slash_iff, Bool.not_eq_true] at h h'
  rw [join, join, h, h', Bool.false_or]
  split
  · rfl
  · split
    · exact String.append_right_inj _
    · exact String.append_right_inj _

theorem start_of_slash (p x : List Char) : start (p ++ '/' :: x) = start (p ++ ['/']) := by
  cases p with
  | nil => rfl
  | cons c p => cases p <;> rfl

theorem start_slash (hp : p ≠ []) : start (p ++ ['/']) = start p := by
  obtain ⟨c, p, rfl⟩ := List.exists_cons_of_ne_nil hp
  cases p <;> rfl

theorem start_cons (hslash : c ≠ '/') (hdot : c ≠ '.') : start (c :: x) = [] := by
  rw [start, if_neg hslash, if_neg fun h => hdot h.1]

theorem head?_ne_slash (h : start x = []) : x.head? ≠ some '/' := by
  cases x with
  | nil => exact nofun
  | cons c x =>
    intro hc
    rw [start, if_pos (by simpa using hc)] at h
    cases h

theorem components_append_slash (p x : List Char) :
    components (p ++ '/' :: x) = components (p ++ ['/']) ++ (x.splitOn '/').filter leads := by
  rw [components, components, start_of_slash, List.splitOn_append_cons_self,
    List.splitOn_append_cons_self, List.splitOn_nil]
  simp [leads]

theorem components_slash (hp : p ≠ []) : components (p ++ ['/']) = components p := by
  rw [components, components, start_slash hp, List.splitOn_append_cons_self, List.splitOn_nil]
  simp [leads]

theorem components_join (h : start name.toList = []) :
    components (join directory name).toList =
      components directory.toList ++ (name.toList.splitOn '/').filter leads := by
  have hroot := head?_ne_slash h
  rw [ne_eq, ← startsWith_slash_iff, Bool.not_eq_true] at hroot
  rw [join, hroot, Bool.false_or]
  split
  · next hempty =>
    rw [String.isEmpty_iff.1 hempty, components, h]
    rfl
  · next hempty =>
    split
    · next hslash =>
      obtain ⟨d, hd⟩ := endsWith_slash_iff.1 hslash
      rw [String.toList_append, hd, List.append_assoc]
      exact components_append_slash d _
    · have hd : directory.toList ≠ [] := fun hnil =>
        hempty (String.isEmpty_iff.2 (String.toList_injective hnil))
      have hjoined : (directory ++ "/" ++ name).toList =
          directory.toList ++ '/' :: name.toList := by
        simp
      rw [hjoined, components_append_slash, components_slash hd]

/-! ## One component further -/

theorem splitOn_append_of_not_mem (hx : '/' ∉ x) (y : List Char) :
    (x ++ y).splitOn '/' = (y.splitOn '/').modifyHead (x ++ ·) := by
  induction x with
  | nil => exact (congrFun List.modifyHead_id _).symm
  | cons c x ih =>
    obtain ⟨hc, hx⟩ := List.ne_and_not_mem_of_not_mem_cons hx
    rw [List.cons_append, List.splitOn_cons_eq_if_modifyHead, if_neg (by simpa using hc.symm),
      ih hx, List.modifyHead_modifyHead]
    rfl

/-- A character besides the slash is in one of the pieces between slashes. -/
theorem exists_mem_splitOn (hslash : c ≠ '/') (hc : c ∈ x) :
    ∃ piece ∈ x.splitOn '/', c ∈ piece := by
  induction x with
  | nil => cases hc
  | cons d x ih =>
    rw [List.splitOn_cons_eq_if_modifyHead]
    split
    · next hd =>
      have hcd : c ≠ d := fun h => hslash (h.trans (by simpa using hd))
      obtain ⟨piece, hpiece, hmem⟩ := ih ((List.mem_cons.1 hc).resolve_left hcd)
      exact ⟨piece, List.mem_cons_of_mem _ hpiece, hmem⟩
    · cases hs : x.splitOn '/' with
      | nil => exact absurd hs (List.splitOn_ne_nil _ _)
      | cons first pieces =>
        rcases List.mem_cons.1 hc with rfl | hc
        · exact ⟨c :: first, List.mem_cons_self, List.mem_cons_self⟩
        · obtain ⟨piece, hpiece, hmem⟩ := ih hc
          rw [hs, List.mem_cons] at hpiece
          rcases hpiece with rfl | hpiece
          · exact ⟨d :: piece, List.mem_cons_self, List.mem_cons_of_mem _ hmem⟩
          · exact ⟨piece, List.mem_cons_of_mem _ hpiece, hmem⟩

theorem leads_of_mem (hdot : c ≠ '.') (hc : c ∈ p) : leads p = true := by
  rw [leads, Bool.and_eq_true]
  refine ⟨by simpa using List.ne_nil_of_mem hc, ?_⟩
  rw [bne_iff_ne]
  rintro rfl
  exact hdot (List.mem_singleton.1 hc)

theorem isFlat_of_not_mem (hx : '/' ∉ x) : IsFlat x := by
  rw [IsFlat, List.splitOn_eq_singleton hx]
  exact nofun

theorem isFlat_append_of_not_mem (hx : '/' ∉ x) : IsFlat (x ++ y) ↔ IsFlat y := by
  rw [IsFlat, IsFlat, splitOn_append_of_not_mem hx, List.tail_modifyHead]

theorem not_isFlat_of_mem (hslash : c ≠ '/') (hdot : c ≠ '.') (hx : '/' ∈ x) :
    ¬IsFlat (x ++ c :: y) := by
  intro hflat
  obtain ⟨p, q, rfl, hp⟩ := List.eq_append_cons_of_mem hx
  rw [IsFlat, List.append_assoc, List.cons_append, List.splitOn_append_cons_self_of_not_mem hp,
    List.tail_cons] at hflat
  obtain ⟨piece, hpiece, hc⟩ :=
    exists_mem_splitOn hslash (List.mem_append_right q List.mem_cons_self)
  exact Bool.false_ne_true ((hflat piece hpiece).symm.trans (leads_of_mem hdot hc))

theorem isFlat_append_cons_iff (hslash : c ≠ '/') (hdot : c ≠ '.') :
    IsFlat (x ++ c :: y) ↔ '/' ∉ x ∧ IsFlat y := by
  by_cases hx : '/' ∈ x
  · exact iff_of_false (not_isFlat_of_mem hslash hdot hx) fun h => h.1 hx
  · have hxc : '/' ∉ x ++ [c] := by simpa [hx] using hslash.symm
    rw [List.append_cons, isFlat_append_of_not_mem hxc, and_iff_right hx]

/-- What leads to just one place, if its first piece leads there. -/
theorem filter_leads_eq_singleton_iff (hdot : c ≠ '.') (hslash : c ≠ '/') :
    (∃ piece, ((c :: x).splitOn '/').filter leads = [piece]) ↔ IsFlat (c :: x) := by
  rw [IsFlat, List.splitOn_cons_eq_if_modifyHead, if_neg (by simpa using hslash)]
  cases hs : x.splitOn '/' with
  | nil => exact absurd hs (List.splitOn_ne_nil _ _)
  | cons first pieces =>
    rw [List.modifyHead_cons, List.filter_cons_of_pos (leads_of_mem hdot List.mem_cons_self)]
    simp [List.filter_eq_nil_iff]

namespace Saved

theorem toList_file (timestamp : String) (s : Saved) :
    (s.file timestamp).toList = timestamp.toList ++ '_' :: s.told.toList := by
  rw [file_eq]
  simp

theorem exists_file_eq_cons (h : IsTimestamp timestamp) (s : Saved) :
    ∃ c rest, (s.file timestamp).toList = c :: rest ∧ c ≠ '/' ∧ c ≠ '.' := by
  obtain ⟨hlength, hdigit⟩ := h
  cases ht : timestamp.toList with
  | nil => rw [ht] at hlength; cases hlength
  | cons c rest =>
    have hc := List.all_eq_true.1 hdigit c (ht ▸ List.mem_cons_self)
    refine ⟨c, rest ++ '_' :: s.told.toList, by rw [toList_file, ht]; rfl, ?_, ?_⟩
    · rintro rfl
      cases hc
    · rintro rfl
      cases hc

theorem not_mem_timestamp (h : IsTimestamp timestamp) : '/' ∉ timestamp.toList :=
  fun hc => Bool.false_ne_true (List.all_eq_true.1 h.2 _ hc)

theorem isFlat_file_iff (h : IsTimestamp timestamp) :
    IsFlat (s.file timestamp).toList ↔ s.StaysFlat := by
  have htime := not_mem_timestamp h
  cases s with
  | dump t =>
    have hfile : ((dump t).file timestamp).toList =
        (timestamp.toList ++ '_' :: t.database.toList ++ '_' :: t.table.toList ++ ['.']) ++
          's' :: ['q', 'l'] := by
      simp [file]
    rw [hfile, isFlat_append_cons_iff (by decide) (by decide),
      and_iff_left (isFlat_of_not_mem (by decide))]
    simp [htime, StaysFlat]
  | copy t =>
    have hfile : ((copy t).file timestamp).toList =
        (timestamp.toList ++ "_xtrabackup_".toList ++ t.database.toList) ++
          '_' :: t.table.toList := by
      simp [file]
    rw [hfile, isFlat_append_cons_iff (by decide) (by decide)]
    simp [htime, StaysFlat]

theorem components_path (h : IsTimestamp timestamp) (s : Saved) :
    components (s.path directory timestamp).toList =
      components directory.toList ++ ((s.file timestamp).toList.splitOn '/').filter leads := by
  obtain ⟨c, rest, hfile, hslash, hdot⟩ := s.exists_file_eq_cons h
  rw [path_eq_join, components_join (by rw [hfile, start_cons hslash hdot])]

theorem path_inj (h : IsTimestamp timestamp) :
    s.path directory timestamp = s'.path directory timestamp ↔ s.ShareName s' := by
  have hroot (s : Saved) : (s.file timestamp).toList.head? ≠ some '/' := by
    obtain ⟨c, rest, hfile, hslash, -⟩ := s.exists_file_eq_cons h
    rw [hfile]
    exact fun hc => hslash (Option.some_inj.1 hc)
  rw [path_eq_join, path_eq_join, join_inj (hroot s) (hroot s'), shareName_iff]

theorem exists_components_path_iff (h : IsTimestamp timestamp) :
    (∃ piece, components (s.path directory timestamp).toList =
        components directory.toList ++ [piece]) ↔ s.StaysFlat := by
  obtain ⟨c, rest, hfile, hslash, hdot⟩ := s.exists_file_eq_cons h
  simp only [components_path h, List.append_cancel_left_eq]
  rw [← isFlat_file_iff h, hfile, filter_leads_eq_singleton_iff hdot hslash]

theorem not_mem_file (h : IsTimestamp timestamp) (hs : s.Slashless) :
    '/' ∉ (s.file timestamp).toList := by
  have htime := not_mem_timestamp h
  cases s with
  | dump t =>
    obtain ⟨hdatabase, htable⟩ : '/' ∉ t.database.toList ∧ '/' ∉ t.table.toList := hs
    simp [file, htime, hdatabase, htable]
  | copy t =>
    obtain ⟨hdatabase, htable⟩ : '/' ∉ t.database.toList ∧ '/' ∉ t.table.toList := hs
    simp [file, htime, hdatabase, htable]

theorem components_path_of_slashless (h : IsTimestamp timestamp) (hs : s.Slashless) :
    components (s.path directory timestamp).toList =
      components directory.toList ++ [(s.file timestamp).toList] := by
  obtain ⟨c, rest, hfile, -, hdot⟩ := s.exists_file_eq_cons h
  have hleads : leads (s.file timestamp).toList = true := by
    rw [hfile]
    exact leads_of_mem hdot List.mem_cons_self
  rw [components_path h, List.splitOn_eq_singleton (not_mem_file h hs),
    List.filter_cons_of_pos hleads, List.filter_nil]

/-- Two backups of one time have one path exactly if they share their name, and a backup is one
component below its directory exactly if its names stay flat. Without slashes in their names, two
backups that share their name are also the only ones at one place, however their paths are
written. -/
theorem paths_shared_exactly (h : IsTimestamp timestamp) (directory : String) (s s' : Saved) :
    (s.path directory timestamp = s'.path directory timestamp ↔ s.ShareName s') ∧
      ((∃ piece, components (s.path directory timestamp).toList =
          components directory.toList ++ [piece]) ↔ s.StaysFlat) ∧
      (s.Slashless → s'.Slashless →
        (components (s.path directory timestamp).toList =
          components (s'.path directory timestamp).toList ↔ s.ShareName s')) := by
  refine ⟨path_inj h, exists_components_path_iff h, fun hs hs' => ?_⟩
  rw [components_path_of_slashless h hs, components_path_of_slashless h hs',
    List.append_cancel_left_eq, List.singleton_inj, String.toList_inj, shareName_iff]

/-- Noon on the first day of a year. -/
def noon : String := "240101120000"

def orderItems : QualifiedTable := ⟨"shop", "order_items"⟩

theorem paths_shared_exactly_orderItems :
    IsTimestamp noon ∧ (dump orderItems).Slashless ∧ (copy orderItems).Slashless ∧
      (dump orderItems).path "backups" noon ≠ (copy orderItems).path "backups" noon ∧
      components ((dump orderItems).path "backups" noon).toList ≠
        components ((copy orderItems).path "backups" noon).toList ∧
      ∃ piece, components ((dump orderItems).path "backups" noon).toList =
        components "backups".toList ++ [piece] := by
  have htime : IsTimestamp noon := by decide
  have hdump : (dump orderItems).Slashless := by decide
  have hcopy : (copy orderItems).Slashless := by decide
  have happart : ¬(dump orderItems).ShareName (copy orderItems) := by decide
  obtain ⟨hpath, hflat, hplace⟩ :=
    paths_shared_exactly htime "backups" (dump orderItems) (copy orderItems)
  exact ⟨htime, hdump, hcopy, fun h => happart (hpath.1 h),
    fun h => happart ((hplace hdump hcopy).1 h), hflat.2 hdump⟩

/-- Backups of different tables at one path, a dump at the path of a copy, and a dump that is two
components below the directory. -/
theorem paths_not_apart :
    IsTimestamp noon ∧
      (dump ⟨"a_b", "c"⟩).path "backups" noon = (dump ⟨"a", "b_c"⟩).path "backups" noon ∧
      (dump ⟨"xtrabackup", "a_b"⟩).path "backups" noon =
        (copy ⟨"a", "b.sql"⟩).path "backups" noon ∧
      components ((dump ⟨"x/y", "t"⟩).path "backups" noon).toList =
        ["backups".toList, "240101120000_x".toList, "y_t.sql".toList] := by
  have htime : IsTimestamp noon := by decide
  refine ⟨htime, (path_inj htime).2 (by decide), (path_inj htime).2 (by decide), ?_⟩
  rw [components_path htime]
  decide

end Saved

end SafeAlter.BackupPath
