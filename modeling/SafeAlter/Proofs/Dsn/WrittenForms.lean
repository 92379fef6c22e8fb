import SafeAlter.Proofs.Dsn.Credentials
import SafeAlter.Proofs.Dsn.Place

/-! # The two written forms of a connection string

A connection is written in either of two forms, and read back from both. The password is the part
that may hold anything, as it stands between the first colon and the last `@`. The other parts must
not hold the marks that end them, which for the host are not the same in the two forms: a closing
parenthesis in the one, a slash in the other.
-/
namespace SafeAlter.Dsn
open SafeAlter.Text

/-! ## The forms -/

section
variable (d : Dsn)

def tcpForm : String :=
  d.user ++ ":" ++ d.password ++ "@tcp(" ++ d.host ++ ":" ++ toString d.port.toNat ++ ")/" ++
    d.database

def urlForm : String :=
  "mysql://" ++ d.user ++ ":" ++ d.password ++ "@" ++ d.host ++ ":" ++ toString d.port.toNat ++
    "/" ++ d.database

/-- What holds of a connection that can be written in one of the forms: user, host and database do
not hold the marks that end them, no blank text is at the two ends, and there is a host. -/
structure IsWritable : Prop where
  user_mark : ':' ∉ d.user.toList
  user_start : trimStart d.user.toList = d.user.toList
  host_ne : d.host ≠ ""
  host_mark : '@' ∉ d.host.toList
  database_mark : '@' ∉ d.database.toList
  database_settings : '?' ∉ d.database.toList
  database_end : trimEnd d.database.toList = d.database.toList

def credentials : List Char := d.user.toList ++ ':' :: d.password.toList

def address : List Char := d.host.toList ++ ':' :: (toString d.port.toNat).toList

theorem toList_tcpForm :
    d.tcpForm.toList =
      d.credentials ++ '@' :: ("tcp(".toList ++ (d.address ++ ')' :: '/' :: d.database.toList)) := by
  have hmarks : ":".toList = [':'] ∧ "@tcp(".toList = '@' :: "tcp(".toList ∧
      ")/".toList = [')', '/'] := ⟨rfl, rfl, rfl⟩
  simp only [tcpForm, credentials, address, String.toList_append, hmarks, List.append_assoc,
    List.cons_append, List.nil_append]

theorem toList_urlForm :
    d.urlForm.toList =
      (scheme ++ d.credentials) ++ '@' :: (d.address ++ '/' :: d.database.toList) := by
  have hmarks : ":".toList = [':'] ∧ "@".toList = ['@'] ∧ "/".toList = ['/'] := ⟨rfl, rfl, rfl⟩
  have hscheme : "mysql://".toList = scheme := rfl
  -- `delta`, since the equation of a text that starts with a literal is slow to derive
  delta urlForm
  simp only [credentials, address, String.toList_append, hmarks, hscheme,
    List.append_assoc, List.cons_append, List.nil_append]

end

theorem not_mem_address {d : Dsn} {c : Char} (hc : c ∉ d.host.toList) (hcolon : c ≠ ':')
    (hdigit : c.isDigit = false) : c ∉ d.address := by
  rw [address, List.mem_append, List.mem_cons, not_or, not_or]
  exact ⟨hc, hcolon, not_mem_toString hdigit _⟩

theorem addresses (d : Dsn) : Addresses d.address d.host.toList d.port :=
  .withPort (not_mem_toString (by decide) _) (readPort?_toString d.port)

namespace IsWritable
variable {d : Dsn}

theorem splitCredentials_eq (h : d.IsWritable) :
    splitCredentials d.credentials = (d.user.toList, d.password.toList) := by
  rw [splitCredentials, credentials, cutFirst_append h.user_mark]
  rfl

theorem trimStart_credentials (h : d.IsWritable) : trimStart d.credentials = d.credentials := by
  rw [credentials, trimStart_cons rfl, h.user_start]

theorem takeWhile_database (h : d.IsWritable) :
    d.database.toList.takeWhile (· ≠ '?') = d.database.toList := by
  refine List.takeWhile_eq_self_iff.2 fun c hc => decide_eq_true ?_
  rintro rfl
  exact h.database_settings hc

/-- A connection is read back where its credentials are the written ones and its place splits into
the written address and database. -/
theorem ofChars_eq (h : d.IsWritable) {before front : List Char}
    (hbefore : withoutStart scheme (trimStart before) = d.credentials) (hfront : '@' ∉ front)
    (hsplit : Splits (front ++ '/' :: d.database.toList) d.address d.database.toList) :
    ofChars (before ++ '@' :: (front ++ '/' :: d.database.toList)) = .ok d := by
  have hplace : '@' ∉ front ++ '/' :: d.database.toList := by
    rw [List.mem_append, List.mem_cons, not_or, not_or]
    exact ⟨hfront, by decide, h.database_mark⟩
  have hend : trimEnd (front ++ '/' :: d.database.toList) = front ++ '/' :: d.database.toList := by
    rw [trimEnd, dropEndWhile_cons rfl, ← trimEnd, h.database_end]
  have hhost : d.host.toList ≠ [] := fun he => h.host_ne (String.toList_eq_nil_iff.1 he)
  have hread : readPlace (front ++ '/' :: d.database.toList) =
      .ok (d.host.toList, d.port, d.database.toList) :=
    readPlace_eq_ok_iff.2 ⟨_, _, hsplit, d.addresses, hhost, h.takeWhile_database⟩
  rw [ofChars_at hplace, hbefore, hend, ofParts, hread, h.splitCredentials_eq]
  simp only [String.ofList_toList]

end IsWritable

/-- A connection is read back from either form, whatever its password. The one form asks that the
host does not hold a closing parenthesis and that what is in front of the `@` does not look like a
scheme, the other that the host holds no slash and does not look like the first form. -/
theorem parse_written {d : Dsn} (h : d.IsWritable) :
    (')' ∉ d.host.toList → ¬scheme <+: (d.user ++ ":" ++ d.password).toList →
        parse d.tcpForm = .ok d) ∧
      ('/' ∉ d.host.toList → ¬"tcp(".toList <+: d.host.toList → parse d.urlForm = .ok d) := by
  have haddress : '@' ∉ d.address := not_mem_address h.host_mark (by decide) rfl
  constructor
  · intro hhost hscheme
    have hcredentials : (d.user ++ ":" ++ d.password).toList = d.credentials := by
      simp [credentials]
    rw [hcredentials] at hscheme
    have htext : "tcp(".toList ++ (d.address ++ ')' :: '/' :: d.database.toList) =
        ("tcp(".toList ++ d.address ++ [')']) ++ '/' :: d.database.toList := by
      simp only [List.append_assoc, List.cons_append, List.nil_append]
    have hsplit : Splits ("tcp(".toList ++ (d.address ++ ')' :: '/' :: d.database.toList)) d.address
        (withoutStart ['/'] (['/'] ++ d.database.toList)) :=
      .enclosed (not_mem_address hhost (by decide) rfl)
    rw [withoutStart_append, htext] at hsplit
    rw [parse, toList_tcpForm, htext]
    refine h.ofChars_eq ?_ ?_ hsplit
    · rw [h.trimStart_credentials, withoutStart_of_not_isPrefix hscheme]
    · have hopen : '@' ∉ "tcp(".toList := by decide
      rw [List.mem_append, List.mem_append, not_or, not_or]
      exact ⟨⟨hopen, haddress⟩, by decide⟩
  · intro hslash htcp
    have hmark : ':' ∉ "tcp(".toList := by decide
    have hopen : ¬"tcp(".toList <+: d.address := mt (prefix_append_mark hmark _ _).1 htcp
    have hsplit : Splits (d.address ++ '/' :: d.database.toList) d.address d.database.toList :=
      .slashed hopen (not_mem_address hslash (by decide) rfl)
    have htrim : trimStart (scheme ++ d.credentials) = scheme ++ d.credentials :=
      trimStart_of_not_isBlank rfl _
    rw [parse, toList_urlForm]
    refine h.ofChars_eq ?_ haddress hsplit
    rw [htrim, withoutStart_append]

def awkward : Dsn := ⟨"app", "p@s:s/)?tcp(", "fe80::1", 3306, "shop"⟩

/-- All marks of both forms in the password, and a colon in the host, do no harm. -/
theorem parse_written_awkward :
    awkward.IsWritable ∧ parse "app:p@s:s/)?tcp(@tcp(fe80::1:3306)/shop" = .ok awkward ∧
      parse "mysql://app:p@s:s/)?tcp(@fe80::1:3306/shop" = .ok awkward := by
  have h : awkward.IsWritable :=
    ⟨by decide, by decide, by decide, by decide, by decide, by decide, by decide⟩
  obtain ⟨htcp, hurl⟩ := parse_written h
  exact ⟨h, htcp (by decide) (by decide), hurl (by decide) (by decide)⟩

end SafeAlter.Dsn
