import SafeAlter.Dsn
import SafeAlter.Proofs.Text.Cutting

/-! # The place of a connection string

A place is an address, by itself or in parentheses, with or without a database behind it; an address
is a host, with or without a port. Each of the two cuts is given as a relation that does not mention
how it is found.
-/
namespace SafeAlter.Dsn
open SafeAlter.Text

/-! ## Ports -/

section
variable {digits : List Char} {port : UInt16}

theorem isDigit_of_mem_toString {n : Nat} {c : Char} (h : c ∈ (toString n).toList) :
    c.isDigit = true := by
  rw [Nat.toString_eq_repr, Nat.toList_repr] at h
  exact Nat.isDigit_of_mem_toDigits (by decide) (by decide) h

theorem not_mem_toString {c : Char} (hc : c.isDigit = false) (n : Nat) :
    c ∉ (toString n).toList := by
  intro hmem
  rw [isDigit_of_mem_toString hmem] at hc
  cases hc

/-- A port is read back from its digits. -/
theorem readPort?_toString (port : UInt16) :
    readPort? (toString port.toNat).toList = some port := by
  have hsign : withoutStart ['+'] (toString port.toNat).toList = (toString port.toNat).toList :=
    withoutStart_of_not_isPrefix fun h => not_mem_toString rfl _ (h.subset List.mem_cons_self)
  have hdigits : (toString port.toNat).toList.all Char.isDigit = true :=
    List.all_eq_true.2 fun _ => isDigit_of_mem_toString
  have hne : (toString port.toNat).toList.isEmpty = false := by
    rw [Nat.toString_eq_repr, Nat.toList_repr]
    exact List.isEmpty_eq_false_iff.2 Nat.toDigits_ne_nil
  have hvalue : (toString port.toNat).toList.foldl
      (fun n c => 10 * n + (c.toNat - '0'.toNat)) 0 = port.toNat := by
    rw [Nat.toString_eq_repr, Nat.toList_repr]
    exact Nat.ofDigitChars_toDigits (by decide) (by decide)
  simp only [readPort?, hsign, hdigits, hne, hvalue, Bool.not_true, Bool.or_false,
    Bool.false_eq_true, if_false, if_pos port.toNat_lt, UInt16.ofNat_toNat]

theorem readPort?_chars (h : readPort? digits = some port) :
    ∀ c ∈ digits, c = '+' ∨ c.isDigit = true := by
  intro c hc
  have hall : (withoutStart ['+'] digits).all Char.isDigit = true := by
    by_contra hall
    simp [readPort?, Bool.eq_false_iff.2 hall] at h
  by_cases hsign : ['+'] <+: digits
  · obtain ⟨s, rfl⟩ := hsign
    rw [withoutStart_append] at hall
    exact (List.mem_cons.1 hc).imp_right (List.all_eq_true.1 hall c)
  · rw [withoutStart_of_not_isPrefix hsign] at hall
    exact .inr (List.all_eq_true.1 hall c hc)

end

/-! ## Addresses -/

section
variable {address host : List Char} {port : UInt16}

/-- The host and the port that an address tells. The last colon is in front of the port. -/
inductive Addresses : List Char → List Char → UInt16 → Prop where
  | withPort {host digits : List Char} {port : UInt16} (hmark : ':' ∉ digits)
      (hport : readPort? digits = some port) : Addresses (host ++ ':' :: digits) host port
  | bare {host : List Char} (hmark : ':' ∉ host) : Addresses host host defaultPort

theorem readAddress_eq_ok_iff :
    readAddress address = .ok (host, port) ↔ Addresses address host port ∧ host ≠ [] := by
  simp only [readAddress, bind, Except.bind]
  constructor
  · intro h
    cases hcut : cutLast ':' address with
    | none =>
      simp only [hcut] at h
      split at h
      · cases h
      · next hne =>
        cases h
        exact ⟨.bare (cutLast_eq_none_iff.1 hcut), by simpa using hne⟩
    | some p =>
      obtain ⟨front, digits⟩ := p
      obtain ⟨rfl, hmark⟩ := cutLast_eq_some_iff.1 hcut
      cases hport : readPort? digits with
      | none =>
        simp only [hcut, hport] at h
        cases h
      | some n =>
        simp only [hcut, hport] at h
        split at h
        · cases h
        · next hne =>
          cases h
          exact ⟨.withPort hmark hport, by simpa using hne⟩
  · rintro ⟨haddress, hne⟩
    have hhost : ¬host.isEmpty = true := fun he => hne (List.isEmpty_iff.1 he)
    cases haddress with
    | withPort hmark hport => simp only [cutLast_append hmark, hport, if_neg hhost]
    | bare hmark => simp only [cutLast_eq_none_iff.2 hmark, if_neg hhost]

/-- A question mark in an address is in the host. -/
theorem Addresses.question_mem_iff (h : Addresses address host port) :
    '?' ∈ host ↔ '?' ∈ address := by
  cases h with
  | withPort _ hport =>
    have hdigits := fun hmem => readPort?_chars hport '?' hmem
    simp_all
  | bare => rfl

end

/-! ## Places -/

/-- The address that a place tells, and what is left for the database. -/
inductive Splits : List Char → List Char → List Char → Prop where
  | enclosed {address behind : List Char} (hend : ')' ∉ address) :
      Splits ("tcp(".toList ++ (address ++ ')' :: behind)) address (withoutStart ['/'] behind)
  | slashed {address rest : List Char} (hopen : ¬"tcp(".toList <+: address) (hend : '/' ∉ address) :
      Splits (address ++ '/' :: rest) address rest
  | whole {address : List Char} (hopen : ¬"tcp(".toList <+: address) (hend : '/' ∉ address) :
      Splits address address []

section
variable {place address rest host database : List Char} {port : UInt16}

theorem splitPlace_eq_ok_iff :
    splitPlace place = .ok (address, rest) ↔ Splits place address rest := by
  constructor
  · intro h
    by_cases htcp : "tcp(".toList <+: place
    · obtain ⟨inner, rfl⟩ := htcp
      simp only [splitPlace, isPrefixOf?_append_self] at h
      cases hcut : cutFirst ')' inner with
      | none =>
        rw [hcut] at h
        cases h
      | some p =>
        rw [hcut] at h
        cases h
        obtain ⟨rfl, hend⟩ := cutFirst_eq_some_iff.1 hcut
        exact .enclosed hend
    · simp only [splitPlace, isPrefixOf?_eq_none htcp] at h
      cases hcut : cutFirst '/' place with
      | none =>
        rw [hcut] at h
        cases h
        exact .whole htcp (cutFirst_eq_none_iff.1 hcut)
      | some p =>
        rw [hcut] at h
        cases h
        obtain ⟨rfl, hend⟩ := cutFirst_eq_some_iff.1 hcut
        exact .slashed (fun h => htcp (h.trans (List.prefix_append _ _))) hend
  · intro h
    cases h with
    | enclosed hend => simp only [splitPlace, isPrefixOf?_append_self, cutFirst_append hend]
    | slashed hopen hend =>
      have hmark : '/' ∉ "tcp(".toList := by decide
      have hopen := mt (prefix_append_mark hmark address rest).1 hopen
      simp only [splitPlace, isPrefixOf?_eq_none hopen, cutFirst_append hend]
      rfl
    | whole hopen hend =>
      simp only [splitPlace, isPrefixOf?_eq_none hopen, cutFirst_eq_none_iff.2 hend]
      rfl

theorem Splits.subset (h : Splits place address rest) : address ⊆ place ∧ rest ⊆ place := by
  cases h with
  | @enclosed _ behind =>
    have hbehind := (withoutStart_suffix ['/'] behind).subset
    exact ⟨fun c hc => by simp [hc], fun c hc => by simp [hbehind hc]⟩
  | slashed => exact ⟨fun c hc => by simp [hc], fun c hc => by simp [hc]⟩
  | whole => exact ⟨List.Subset.refl _, List.nil_subset _⟩

theorem readPlace_eq_ok_iff :
    readPlace place = .ok (host, port, database) ↔
      ∃ address rest, Splits place address rest ∧ Addresses address host port ∧ host ≠ [] ∧
        rest.takeWhile (· ≠ '?') = database := by
  simp only [readPlace, bind, Except.bind, pure, Except.pure]
  constructor
  · intro h
    split at h
    · cases h
    · next p hsplit =>
      split at h
      · cases h
      · next q hread =>
        cases h
        obtain ⟨haddress, hne⟩ := readAddress_eq_ok_iff.1 hread
        exact ⟨_, _, splitPlace_eq_ok_iff.1 hsplit, haddress, hne, rfl⟩
  · rintro ⟨address, rest, hsplit, haddress, hne, rfl⟩
    simp only [splitPlace_eq_ok_iff.2 hsplit, readAddress_eq_ok_iff.2 ⟨haddress, hne⟩]

end

end SafeAlter.Dsn
