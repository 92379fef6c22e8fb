import SafeAlter.Configuration.Load
import SafeAlter.Proofs.Dsn.Credentials
import SafeAlter.Proofs.Dsn.Place
import SafeAlter.Proofs.Program.Course
import SafeAlter.Proofs.Program.Steady

/-! # Settings that the tools can use

Whatever a configuration file holds, the settings that come of it have a port that is one or is left
out, tools and a directory that are named, and nothing left to trim or to fill in; reading them again
changes nothing. A connection string that was accepted has a host. So the tools are told a host and a
port in any case: the settings' own, or those of the connection string, or the default ones.
-/
namespace SafeAlter
open SafeAlter.Text Program

/-- Whether a text has no blank character at either end. -/
def IsTrimmed (s : String) : Prop :=
  (∀ c ∈ s.toList.head?, isBlank c = false) ∧ ∀ c ∈ s.toList.getLast?, isBlank c = false

/-- Whether a text has blank characters only. -/
def IsBlankText (s : String) : Prop :=
  ∀ c ∈ s.toList, isBlank c = true

instance (s : String) : Decidable (IsBlankText s) :=
  decidable_of_iff (s.toList.all isBlank = true) List.all_eq_true

/-- Whether a text is the number of a port. -/
def IsPort (s : String) : Prop :=
  ∃ port, Dsn.readPort? s.toList = some port

theorem isTrimmed_trimmed (s : String) : IsTrimmed (trimmed s) := by
  rw [IsTrimmed, trimmed, String.toList_ofList]
  constructor
  · intro c hc
    rw [← trimStart_trimEnd, Option.mem_def, List.head?_eq_some_iff] at hc
    obtain ⟨t, ht⟩ := hc
    exact not_isBlank_of_trimStart ht
  · exact not_isBlank_of_getLast?_trimEnd

theorem trimmed_trimmed (s : String) : trimmed (trimmed s) = trimmed s := by
  rw [trimmed, trimmed, String.toList_ofList, trim_trim]

theorem isEmpty_trimmed_iff {s : String} : (trimmed s).isEmpty = true ↔ IsBlankText s := by
  rw [String.isEmpty_iff, ← String.toList_eq_nil_iff, trimmed, String.toList_ofList, trim_eq_nil_iff,
    IsBlankText]

namespace Config

/-- What holds of settings that the tools can use. -/
structure IsUsable (c : Config) : Prop where
  host : IsTrimmed c.host
  port : IsTrimmed c.port ∧ (c.port = "" ∨ IsPort c.port)
  paths : ∀ path ∈ [c.ptoscPath, c.mysqldumpPath, c.xtrabackupPath, c.backupDir], ¬IsBlankText path
  settled : ofRaw c = .ok c

section
variable {value fallback : String} {raw c : Config}

theorem orDefault_of_not_blank (h : ¬IsBlankText value) : orDefault value fallback = value :=
  if_neg (mt isEmpty_trimmed_iff.1 h)

theorem not_blank_orDefault (h : ¬IsBlankText fallback) (value : String) :
    ¬IsBlankText (orDefault value fallback) := by
  unfold orDefault
  split
  · exact h
  · next hvalue => exact mt isEmpty_trimmed_iff.2 hvalue

theorem normalized_paths (c : Config) :
    ∀ path ∈ [(normalized c).ptoscPath, (normalized c).mysqldumpPath, (normalized c).xtrabackupPath,
      (normalized c).backupDir], ¬IsBlankText path := by
  simp only [List.forall_mem_cons, normalized]
  exact ⟨not_blank_orDefault (by decide) _, not_blank_orDefault (by decide) _,
    not_blank_orDefault (by decide) _, not_blank_orDefault (by decide) _, nofun⟩

/-- Nothing is left to trim or to fill in. -/
theorem normalized_normalized (c : Config) : normalized (normalized c) = normalized c := by
  obtain ⟨hptosc, hdump, hcopy, hdir, -⟩ : _ ∧ _ ∧ _ ∧ _ ∧ _ := by
    simpa only [List.forall_mem_cons] using normalized_paths c
  rw [normalized.eq_def (normalized c), orDefault_of_not_blank hptosc, orDefault_of_not_blank hdump,
    orDefault_of_not_blank hcopy, orDefault_of_not_blank hdir]
  simp only [normalized, trimmed_trimmed]

theorem of_validated (h : validated raw = .ok c) : c = raw ∧ (raw.port = "" ∨ IsPort raw.port) := by
  unfold validated at h
  split at h
  · cases h
  · split at h
    · cases h
    · next hport =>
      refine ⟨(Except.ok.inj h).symm, ?_⟩
      by_cases hempty : raw.port = ""
      · exact .inl hempty
      · have hread : (Dsn.readPort? raw.port.toList).isNone ≠ true := by
          simpa [hempty] using hport
        exact .inr (Option.ne_none_iff_exists'.1 fun hnone => hread (Option.isNone_iff_eq_none.2 hnone))

/-- Settings that are accepted are usable. -/
theorem isUsable_of_ofRaw (h : ofRaw raw = .ok c) : c.IsUsable := by
  obtain ⟨rfl, hport⟩ := of_validated h
  refine ⟨isTrimmed_trimmed _, ⟨isTrimmed_trimmed _, hport⟩, normalized_paths raw, ?_⟩
  rw [ofRaw, normalized_normalized]
  exact h

/-- The default settings are accepted as they are. -/
theorem ofRaw_default : ofRaw default = .ok default := by
  have hbuffer : ¬(default.spaceBuffer < 0.0 || !Decimal.isFinite default.spaceBuffer) = true := by
    decide +kernel
  have hport : ¬(!default.port.isEmpty && (Dsn.readPort? default.port.toList).isNone) = true := by
    decide
  have hsettled : normalized default = default := rfl
  rw [ofRaw, hsettled, validated, if_neg hbuffer, if_neg hport]

theorem isUsable_default : default.IsUsable :=
  isUsable_of_ofRaw ofRaw_default

theorem isUsable_of_ofToml {text : String} (h : ofToml text = .ok c) : c.IsUsable := by
  unfold ofToml at h
  split at h
  · cases h
  · exact isUsable_of_ofRaw h

/-- Settings that are loaded are usable, be it that they were read or that there is no file. -/
theorem isUsable_of_load {path : String} {h : History} (hc : (load path).Course h (.ok c)) :
    c.IsUsable := by
  obtain ⟨there, g, k, -, hk, rfl⟩ := course_bind.1 hc
  cases there with
  | false =>
    obtain ⟨_, _, _, -, hdone, -⟩ := course_bind.1 hk
    cases (course_done.1 hdone).2
    exact isUsable_default
  | true =>
    obtain ⟨_, _, l, -, hl, -⟩ := course_bind.1 hk
    obtain ⟨answer, _, m, -, hm, -⟩ := course_bind.1 hl
    cases answer with
    | error reason => cases (course_done.1 hm).2
    | ok text => exact isUsable_of_ofToml (course_done.1 hm).2.symm

theorem isUsable_of_loadOrDefault {path : String} {h : History}
    (hc : (loadOrDefault path).Course h c) : c.IsUsable := by
  obtain ⟨loaded, g, k, hg, hk, rfl⟩ := course_bind.1 hc
  cases loaded with
  | ok loaded =>
    cases (course_done.1 hk).2
    exact isUsable_of_load hg
  | error e =>
    obtain ⟨_, _, _, -, hdone, -⟩ := course_bind.1 hk
    cases (course_done.1 hdone).2
    exact isUsable_default

end

end Config

/-! ## What the tools are told -/

theorem Dsn.host_ne_of_parse {text : String} {d : Dsn} (h : Dsn.parse text = .ok d) :
    d.host ≠ "" := by
  obtain ⟨credentials, place, hs, hplace⟩ := Dsn.eq_parts_of_ok h
  rw [Dsn.parse, hs, Dsn.ofChars_at hplace, Dsn.ofParts] at h
  cases hread : Dsn.readPlace (trimEnd place) with
  | error defect =>
    rw [hread] at h
    cases h
  | ok read =>
    obtain ⟨host, port, database⟩ := read
    rw [hread] at h
    cases h
    obtain ⟨_, _, -, -, hne, -⟩ := Dsn.readPlace_eq_ok_iff.1 hread
    simpa using hne

namespace Credentials

/-- Where a value comes from: the settings, the connection string or the defaults, in this order. -/
inductive IsFirstOf (configured : String) : Option String → String → String → Prop where
  | configured {told : Option String} {fallback : String} (h : configured ≠ "") :
      IsFirstOf configured told fallback configured
  | told {value fallback : String} (h : configured = "") :
      IsFirstOf configured (some value) fallback value
  | fallback {fallback : String} (h : configured = "") : IsFirstOf configured none fallback fallback

/-- What the tools are told: each value from where it is named first, a host and a port in any
case. -/
structure AreUsable (k : Credentials) (c : Config) (dsn : Option Dsn) : Prop where
  host : IsFirstOf c.host (dsn.map Dsn.host) Config.defaultHost k.host
  port : IsFirstOf c.port (dsn.map fun d => toString d.port.toNat) Config.defaultPort k.port
  user : IsFirstOf c.user (dsn.map Dsn.user) "" k.user
  password : IsFirstOf c.password (dsn.map Dsn.password) "" k.password
  host_ne : k.host ≠ ""
  isPort : IsPort k.port

theorem isFirstOf_firstOf {configured fallback : String} {told : Option String}
    (htold : ∀ value ∈ told, value = "" → fallback = "") :
    IsFirstOf configured told fallback (firstOf (firstOf configured (told.getD "")) fallback) := by
  by_cases hconfigured : configured = ""
  · subst hconfigured
    cases told with
    | none => exact .fallback rfl
    | some value =>
      by_cases hvalue : value = ""
      · rw [htold value rfl hvalue, hvalue]
        exact .told rfl
      · have hfirst : firstOf value fallback = value := if_neg (by simpa using hvalue)
        have htaken : firstOf "" value = value := rfl
        rw [Option.getD_some, htaken, hfirst]
        exact .told rfl
  · have hne : ¬configured.isEmpty = true := by simpa using hconfigured
    have hfirst : firstOf (firstOf configured (told.getD "")) fallback = configured := by
      simp only [firstOf, if_neg hne]
    rw [hfirst]
    exact .configured hconfigured

theorem firstOf_empty (value : String) : firstOf value "" = value := by
  by_cases hvalue : value = ""
  · subst hvalue
    rfl
  · exact if_neg (by simpa using hvalue)

theorem isFirstOf_getD (configured : String) (told : Option String) :
    IsFirstOf configured told "" (firstOf configured (told.getD "")) := by
  have hfirst : IsFirstOf configured told "" (firstOf (firstOf configured (told.getD "")) "") :=
    isFirstOf_firstOf fun _ _ _ => rfl
  rwa [firstOf_empty] at hfirst

/-- What holds of the value in the settings, of that in the connection string and of the default holds
of the value that is taken. -/
theorem IsFirstOf.elim {configured fallback value : String} {told : Option String}
    (h : IsFirstOf configured told fallback value) {P : String → Prop}
    (hconfigured : configured ≠ "" → P configured) (htold : ∀ value ∈ told, P value)
    (hfallback : P fallback) : P value := by
  cases h with
  | configured hne => exact hconfigured hne
  | told => exact htold value rfl
  | fallback => exact hfallback

theorem isPort_toString (port : UInt16) : IsPort (toString port.toNat) :=
  ⟨port, Dsn.readPort?_toString port⟩

theorem ne_of_isPort {s : String} (h : IsPort s) : s ≠ "" := by
  rintro rfl
  obtain ⟨port, hport⟩ := h
  cases hport

/-- With usable settings and a connection string that was accepted, or none, the tools are told a
host and a port. -/
theorem areUsable_resolve {c : Config} (hc : c.IsUsable) {dsn : Option Dsn}
    (hdsn : ∀ d ∈ dsn, ∃ text, Dsn.parse text = .ok d) : (resolve c dsn).AreUsable c dsn := by
  have hhost : ∀ value ∈ dsn.map Dsn.host, value ≠ "" := by
    intro value hvalue
    obtain ⟨d, hd, rfl⟩ := Option.map_eq_some_iff.1 hvalue
    obtain ⟨text, htext⟩ := hdsn d hd
    exact Dsn.host_ne_of_parse htext
  have hport : ∀ value ∈ dsn.map fun d => toString d.port.toNat, IsPort value := by
    intro value hvalue
    obtain ⟨d, -, rfl⟩ := Option.map_eq_some_iff.1 hvalue
    exact isPort_toString d.port
  have hfirstHost : IsFirstOf c.host (dsn.map Dsn.host) Config.defaultHost (resolve c dsn).host :=
    isFirstOf_firstOf fun value hvalue he => absurd he (hhost value hvalue)
  have hfirstPort : IsFirstOf c.port (dsn.map fun d => toString d.port.toNat) Config.defaultPort
      (resolve c dsn).port :=
    isFirstOf_firstOf fun value hvalue he => absurd he (ne_of_isPort (hport value hvalue))
  refine ⟨hfirstHost, hfirstPort, isFirstOf_getD .., isFirstOf_getD .., ?_, ?_⟩
  · exact hfirstHost.elim id hhost (by decide)
  · exact hfirstPort.elim (fun hne => hc.port.2.resolve_left hne) hport
      ⟨3306, by decide⟩

end Credentials

/-- Settings that are read, loaded or taken for want of a file are usable, whatever the file holds;
and the credentials that come of usable settings and of a connection string that was accepted, or of
none, name a server. -/
theorem server_always_named {σ : Type} (env : Surroundings σ) :
    (∀ raw c, Config.ofRaw raw = .ok c → c.IsUsable) ∧
      (∀ text c, Config.ofToml text = .ok c → c.IsUsable) ∧
        (∀ path s c, ((Config.load path).run env s).value = .ok c → c.IsUsable) ∧
          (∀ path s, ((Config.loadOrDefault path).run env s).value.IsUsable) ∧
            ∀ c dsn, Config.IsUsable c → (∀ d ∈ dsn, ∃ text, Dsn.parse text = .ok d) →
              (Credentials.resolve c dsn).AreUsable c dsn := by
  refine ⟨fun raw c => Config.isUsable_of_ofRaw, fun text c => Config.isUsable_of_ofToml, ?_, ?_, ?_⟩
  · intro path s c hc
    have hcourse := course_run env (Config.load path) s
    rw [hc] at hcourse
    exact Config.isUsable_of_load hcourse
  · intro path s
    exact Config.isUsable_of_loadOrDefault (course_run env _ s)
  · intro c dsn hc hdsn
    exact Credentials.areUsable_resolve hc hdsn

/-- Surroundings in which every file is there and holds the same text. -/
def Surroundings.holding (text : String) : Surroundings Unit :=
  .steady fun
    | .fileExists _ => true
    | .readText _ => .ok text
    | r => obligingAnswer r

/-- A file that names a host, with blank text around it, and leaves the rest out. -/
def hostOnly : String := "mysql_host = \" db \"\nmysql_port = \" \"\nptosc_path = \"\""

theorem server_always_named_fromBoth :
    ∃ c d, ((Config.load "agent.conf").run (.holding hostOnly) ()).value = .ok c ∧
      Dsn.parse "app:pw@tcp(replica:3307)/shop" = .ok d ∧ c.IsUsable ∧
        (Credentials.resolve c (some d)).AreUsable c (some d) ∧
          Credentials.resolve c (some d) = ⟨"db", "3307", "app", "pw"⟩ := by
  have hdsn : Dsn.parse "app:pw@tcp(replica:3307)/shop" =
      .ok ⟨"app", "pw", "replica", 3307, "shop"⟩ := by decide +kernel
  have htold : ((Config.load "agent.conf").run (.holding hostOnly) ()).value.toOption.map
      (fun c => Credentials.resolve c (some ⟨"app", "pw", "replica", 3307, "shop"⟩)) =
        some ⟨"db", "3307", "app", "pw"⟩ := by decide +kernel
  obtain ⟨-, -, hload, -, hresolve⟩ := server_always_named (.holding hostOnly)
  cases hvalue : ((Config.load "agent.conf").run (.holding hostOnly) ()).value with
  | error e =>
    rw [hvalue] at htold
    cases htold
  | ok c =>
    have hc : c.IsUsable := hload "agent.conf" () c hvalue
    have hd : ∀ d ∈ some (⟨"app", "pw", "replica", 3307, "shop"⟩ : Dsn),
        ∃ text, Dsn.parse text = .ok d := by
      rintro d ⟨⟩
      exact ⟨_, hdsn⟩
    rw [hvalue] at htold
    exact ⟨c, _, rfl, hdsn, hc, hresolve c _ hc hd, Option.some.inj htold⟩

end SafeAlter
