import SafeAlter.Dsn
import SafeAlter.Proofs.Text.Cutting
import SafeAlter.Proofs.Text.Trimming

/-! # Credentials and place of a connection string

The last `@` of a connection string is the one that ends the credentials, with or without blank text
and a scheme around them. What follows it is read by itself, and a fault shows nothing else. So two
strings that differ in their credentials only have the same fault, or else the same host, port and
database.
-/
namespace SafeAlter.Dsn
open SafeAlter.Text

/-- What credentials and a place amount to, each by itself. -/
def ofParts (credentials place : List Char) : Except Fault Dsn :=
  match readPlace place with
  | .error defect => .error ⟨String.ofList place, defect⟩
  | .ok (host, port, database) =>
    let (user, password) := splitCredentials credentials
    .ok ⟨String.ofList user, String.ofList password, String.ofList host, port,
      String.ofList database⟩

variable {s credentials place : List Char}

theorem at_not_mem_trimEnd (h : '@' ∉ place) : '@' ∉ trimEnd place :=
  fun hmem => h ((dropEndWhile_isPrefix place).subset hmem)

theorem shownPart_at (h : '@' ∉ place) (credentials : List Char) :
    shownPart (credentials ++ '@' :: place) = place := by
  rw [shownPart, cutLast_append h]

/-- A string is read by its parts. The text that a fault shows is cut off the whole string, scheme
included, and is the place all the same. -/
theorem ofChars_at (h : '@' ∉ place) (credentials : List Char) :
    ofChars (credentials ++ '@' :: place) =
      ofParts (withoutStart scheme (trimStart credentials)) (trimEnd place) := by
  have hplace := at_not_mem_trimEnd h
  have htrim : trim (credentials ++ '@' :: place) =
      trimStart credentials ++ '@' :: trimEnd place := by
    rw [trim, trimStart_cons rfl, trimEnd, dropEndWhile_cons rfl, ← trimEnd]
  have hscheme : '@' ∉ scheme := by decide
  simp only [ofChars, htrim, withoutStart_append_mark hscheme, cutLast_append hplace, Fault.about,
    shownPart_at hplace]
  rfl

/-- Only a text with an `@` is a connection string. -/
theorem eq_parts_of_ok {d : Dsn} (h : ofChars s = .ok d) :
    ∃ credentials place, s = credentials ++ '@' :: place ∧ '@' ∉ place := by
  cases hs : cutLast '@' s with
  | some p => exact ⟨p.1, p.2, cutLast_eq_some_iff.1 hs⟩
  | none =>
    have hnone : '@' ∉ withoutStart scheme (trim s) := fun hmem =>
      cutLast_eq_none_iff.1 hs ((trim_sublist s).subset ((withoutStart_suffix _ _).subset hmem))
    simp only [ofChars, cutLast_eq_none_iff.2 hnone] at h
    cases h

/-- Two readings have the same fault, or else they agree in host, port and database. -/
def SameButCredentials (a b : Except Fault Dsn) : Prop :=
  (∃ fault, a = .error fault ∧ b = .error fault) ∨
    ∃ d e, a = .ok d ∧ b = .ok e ∧ d.host = e.host ∧ d.port = e.port ∧ d.database = e.database

/-- Credentials, whatever they are, make no difference to a fault, nor to host, port and database; and
nothing that is shown of a connection tells its password. -/
theorem credentials_not_shown (credentials credentials' : String) {place : String}
    (h : '@' ∉ place.toList) (d : Dsn) (password : String) :
    SameButCredentials (parse (credentials ++ "@" ++ place)) (parse (credentials' ++ "@" ++ place)) ∧
      text { d with password } = d.text ∧ fields { d with password } = d.fields := by
  refine ⟨?_, rfl, rfl⟩
  have hparse : ∀ c : String, parse (c ++ "@" ++ place) =
      ofParts (withoutStart scheme (trimStart c.toList)) (trimEnd place.toList) := by
    intro c
    have htext : (c ++ "@" ++ place).toList = c.toList ++ '@' :: place.toList := by simp
    rw [parse, htext, ofChars_at h]
  rw [hparse credentials, hparse credentials', ofParts, ofParts]
  cases readPlace (trimEnd place.toList) with
  | error defect => exact .inl ⟨_, rfl, rfl⟩
  | ok read => exact .inr ⟨_, _, rfl, rfl, rfl, rfl, rfl⟩

/-- Credentials that look like a place, or like a scheme and another `@`, in front of a bad port. -/
theorem credentials_not_shown_badPort :
    '@' ∉ "tcp(db:33o6)/shop".toList ∧
      parse "root:secret@tcp(h:1)/x@tcp(db:33o6)/shop" = .error ⟨"tcp(db:33o6)/shop", .badPort⟩ ∧
      parse "mysql://:@@tcp(db:33o6)/shop" = .error ⟨"tcp(db:33o6)/shop", .badPort⟩ := by
  have hmark : '@' ∉ "tcp(db:33o6)/shop".toList := by decide
  have hfault : parse "root:secret@tcp(h:1)/x@tcp(db:33o6)/shop" =
      .error ⟨"tcp(db:33o6)/shop", .badPort⟩ := by decide +kernel
  obtain ⟨hsame, -, -⟩ := credentials_not_shown "root:secret@tcp(h:1)/x" "mysql://:@" hmark
    ⟨"app", "secret", "db", 3306, ""⟩ "other"
  refine ⟨hmark, hfault, ?_⟩
  rcases hsame with ⟨fault, hfirst, hsecond⟩ | ⟨_, _, hfirst, -⟩
  · cases hfault.symm.trans hfirst
    exact hsecond
  · cases hfault.symm.trans hfirst

end SafeAlter.Dsn
