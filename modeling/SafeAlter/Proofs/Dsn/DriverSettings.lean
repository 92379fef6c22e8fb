import SafeAlter.Proofs.Dsn.Credentials
import SafeAlter.Proofs.Dsn.Place

/-! # Driver settings behind a connection string

A connection string can go on with a question mark and settings of a driver, which are not about the
connection. They are left out where the place shows where its address ends: at a parenthesis that
closes it, or at a slash, with or without a database behind them. Where the address is all of the
place, the settings are read as the end of the address, so that there is another host, or a port that
is none, and never the connection that the string stands for without them.
-/
namespace SafeAlter.Dsn
open SafeAlter.Text

/-- Whether a place shows where its address ends. -/
def ClosesAddress (place : List Char) : Prop :=
  "tcp(".toList <+: place ∨ '/' ∈ place

section
variable {place address rest host database : List Char} {port : UInt16}

/-- Where a place shows the end of its address, settings go on after what is left for the database. -/
theorem Splits.append (h : Splits place address rest) (hclosed : ClosesAddress place)
    (settings : List Char) :
    Splits (place ++ '?' :: settings) address (rest ++ '?' :: settings) := by
  cases h with
  | @enclosed _ behind hend =>
    have hmark : '?' ∉ ['/'] := by decide
    rw [List.append_assoc, List.append_assoc, List.cons_append, ← withoutStart_append_mark hmark]
    exact .enclosed hend
  | slashed hopen hend =>
    rw [List.append_assoc, List.cons_append]
    exact .slashed hopen hend
  | whole hopen hend => exact absurd hclosed (not_or.2 ⟨hopen, hend⟩)

/-- Where it does not, at least the question mark goes to the address. -/
theorem splits_settings (hopen : ¬ClosesAddress place) (settings : List Char) :
    ∃ more rest, Splits (place ++ '?' :: settings) (place ++ '?' :: more) rest := by
  obtain ⟨htcp, hslash⟩ := not_or.1 hopen
  have hmark : '?' ∉ "tcp(".toList := by decide
  have htcp' : ∀ more, ¬"tcp(".toList <+: place ++ '?' :: more := fun more =>
    mt (prefix_append_mark hmark place more).1 htcp
  by_cases hmem : '/' ∈ settings
  · obtain ⟨front, behind, rfl, hfront⟩ := List.eq_append_cons_of_mem hmem
    refine ⟨front, behind, ?_⟩
    rw [← List.cons_append, ← List.append_assoc]
    exact .slashed (htcp' front) (by simp [hslash, hfront])
  · exact ⟨settings, [], .whole (htcp' settings) (by simp [hslash, hmem])⟩

theorem Splits.eq (h : Splits place address rest) {address' rest' : List Char}
    (h' : Splits place address' rest') : address = address' ∧ rest = rest' := by
  rw [← splitPlace_eq_ok_iff] at h h'
  cases h.symm.trans h'
  exact ⟨rfl, rfl⟩

/-- Settings make no difference to a place that is read exactly if that shows where its address
ends. -/
theorem readPlace_settings_iff (hplace : '?' ∉ place)
    (h : readPlace place = .ok (host, port, database)) (settings : List Char) :
    readPlace (place ++ '?' :: settings) = .ok (host, port, database) ↔ ClosesAddress place := by
  obtain ⟨address, rest, hsplit, haddress, hne, hdatabase⟩ := readPlace_eq_ok_iff.1 h
  obtain ⟨hsub, hrest⟩ := hsplit.subset
  constructor
  · intro hsettings
    by_contra hopen
    obtain ⟨more, rest', hmore⟩ := splits_settings hopen settings
    obtain ⟨address', _, hsplit', haddress', -⟩ := readPlace_eq_ok_iff.1 hsettings
    obtain ⟨rfl, -⟩ := hmore.eq hsplit'
    have hmem : '?' ∈ host := haddress'.question_mem_iff.2 (by simp)
    exact hplace (hsub (haddress.question_mem_iff.1 hmem))
  · intro hclosed
    have hall : ∀ c ∈ rest, decide (c ≠ '?') = true := by
      intro c hc
      refine decide_eq_true ?_
      rintro rfl
      exact hplace (hrest hc)
    refine readPlace_eq_ok_iff.2 ⟨_, _, hsplit.append hclosed settings, haddress, hne, ?_⟩
    rw [← hdatabase, List.takeWhile_append_of_pos hall, List.takeWhile_eq_self_iff.2 hall]
    simp

end

theorem ofParts_eq_iff {credentials place place' : List Char} {d : Dsn}
    (h : ofParts credentials place = .ok d) :
    ofParts credentials place' = .ok d ↔ readPlace place' = readPlace place := by
  cases hplace : readPlace place with
  | error defect =>
    simp only [ofParts, hplace] at h
    cases h
  | ok v =>
    simp only [ofParts, hplace] at h
    cases h
    cases hplace' : readPlace place' with
    | error defect => simp [ofParts, hplace']
    | ok v' => simp [ofParts, hplace', Prod.ext_iff, String.ofList_inj]

/-- Settings behind a connection string make no difference exactly if its place shows where its
address ends. -/
theorem parse_settings_iff {d settings : String} {x : Dsn} (hd : '?' ∉ d.toList)
    (hend : trimEnd d.toList = d.toList) (hx : parse d = .ok x) (hs : '@' ∉ settings.toList) :
    parse (d ++ "?" ++ settings) = .ok x ↔ ClosesAddress (shownPart d.toList) := by
  obtain ⟨credentials, place, htext, hplace⟩ := eq_parts_of_ok hx
  have hparse : parse d = ofParts (withoutStart scheme (trimStart credentials)) place := by
    have hend' : trimEnd place = place := by
      rw [htext, trimEnd, dropEndWhile_cons rfl, ← trimEnd] at hend
      exact List.cons.inj (List.append_cancel_left hend) |>.2
    rw [parse, htext, ofChars_at hplace, hend']
  have hlong : '@' ∉ place ++ '?' :: settings.toList := by
    simp [hplace, hs]
  have hparse' : parse (d ++ "?" ++ settings) =
      ofParts (withoutStart scheme (trimStart credentials))
        (place ++ '?' :: trimEnd settings.toList) := by
    have htext' : (d ++ "?" ++ settings).toList =
        credentials ++ '@' :: (place ++ '?' :: settings.toList) := by
      simp [htext]
    rw [parse, htext', ofChars_at hlong, trimEnd, dropEndWhile_cons rfl, ← trimEnd]
  rw [hparse] at hx
  rw [hparse', ofParts_eq_iff hx, htext, shownPart_at hplace]
  cases hread : readPlace place with
  | error defect =>
    simp only [ofParts, hread] at hx
    cases hx
  | ok v =>
    refine readPlace_settings_iff (fun hmem => hd ?_) hread _
    rw [htext]
    exact List.mem_append_right _ (List.mem_cons_of_mem _ hmem)

/-- A connection without a database, whose settings hold all other marks. -/
theorem parse_settings_parenthesis :
    parse "app:p@ss@tcp(db:3307)" = .ok ⟨"app", "p@ss", "db", 3307, ""⟩ ∧
      parse "app:p@ss@tcp(db:3307)?init=a:b/c)" = .ok ⟨"app", "p@ss", "db", 3307, ""⟩ := by
  have hx : parse "app:p@ss@tcp(db:3307)" = .ok ⟨"app", "p@ss", "db", 3307, ""⟩ := by
    decide +kernel
  refine ⟨hx, ?_⟩
  have hclosed : ClosesAddress (shownPart "app:p@ss@tcp(db:3307)".toList) :=
    .inl (by decide +kernel)
  have hmark : '@' ∉ "init=a:b/c)".toList := by decide
  exact (parse_settings_iff (by decide) (by decide +kernel) hx hmark).2 hclosed

/-- Behind an address that is all of the place, settings spoil the port or end up in the host. -/
theorem settings_misread :
    parse "app:pw@db:3306" = .ok ⟨"app", "pw", "db", 3306, ""⟩ ∧
      parse "app:pw@db:3306?timeout=5" = .error ⟨"db:3306?timeout=5", .badPort⟩ ∧
      parse "mysql://app:pw@db" = .ok ⟨"app", "pw", "db", 3306, ""⟩ ∧
      parse "mysql://app:pw@db?timeout=5" = .ok ⟨"app", "pw", "db?timeout=5", 3306, ""⟩ := by
  decide +kernel

end SafeAlter.Dsn
