import SafeAlter.Configuration.Settings
import SafeAlter.Program
import SafeAlter.Toml.Document

/-! # Reading the configuration

The configuration file is shared with other programs. Only the settings known here are read from
it, each with a type of its own; all other keys are left alone. A file that is not there stands
for the default settings.
-/
namespace SafeAlter
open SafeAlter.Decimal

/-- The settings as a file gives them, before defaults are filled in. -/
abbrev RawConfig := Config

namespace RawConfig
open Toml

/-- A text, which is empty where the key is missing. -/
def text? (es : Entries) (key : String) : Option String :=
  match es.lookup key with
  | none => some ""
  | some (.scalar (.string s)) => some s
  | some _ => none

/-- A port, written as a text or as a number. -/
def port? (es : Entries) : Option String :=
  match es.lookup "mysql_port" with
  | some (.scalar (.integer n)) =>
    if fitsSigned 64 n then some (toString n) else none
  | _ => text? es "mysql_port"

/-- A number, which is zero where the key is missing. A whole number must fit a word. -/
def number? (es : Entries) (key : String) : Option Float :=
  match es.lookup key with
  | none => some 0.0
  | some (.scalar (.float x)) => some x
  | some (.scalar (.integer n)) =>
    if fitsSigned 64 n || fitsUnsigned 64 n then some (nearest (n < 0) n.natAbs 0) else none
  | some _ => none

def ofEntries? (es : Entries) : Option RawConfig := do
  return {
    host := ← text? es "mysql_host"
    port := ← port? es
    user := ← text? es "mysql_user"
    password := ← text? es "mysql_password"
    backupDir := ← text? es "backup_dir"
    ptoscPath := ← text? es "ptosc_path"
    mysqldumpPath := ← text? es "mysqldump_path"
    xtrabackupPath := ← text? es "xtrabackup_path"
    spaceBuffer := ← number? es "backup_space_buffer" }

end RawConfig

namespace Config

def ofRaw (c : RawConfig) : Except ConfigFault Config :=
  (normalized c).validated

def ofToml (text : String) : Except ConfigFault Config :=
  match (Toml.document? text.toList).bind RawConfig.ofEntries? with
  | none => .error (.malformed "not a configuration document")
  | some raw => ofRaw raw

def readFrom (path : String) : Program (Except ConfigFault Config) := do
  Act.note .info s!"Loading config {path}"
  match ← Act.request (.readText path) with
  | .error reason => return .error (.unreadable reason)
  | .ok text => return ofToml text

def load (path : String) : Program (Except ConfigFault Config) := do
  if ← Act.request (.fileExists path) then readFrom path
  else
    Act.note .info s!"Config file {path} not found, using defaults"
    return .ok default

/-- Reads a configuration file; one that cannot be used is replaced by the defaults. -/
def loadOrDefault (path : String) : Program Config := do
  match ← load path with
  | .ok c => return c
  | .error e =>
    Act.note .warn s!"Ignoring config file {path}: {e.message}"
    return default

end Config

end SafeAlter
