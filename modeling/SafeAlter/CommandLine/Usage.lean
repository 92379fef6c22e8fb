import SafeAlter.Backup.Method

/-! # What can stand on the command line

The items of the command line are options, which have a name, flags, which are options without a
value, and places, which are told by their order. An item may be given once, a list of statements
excepted. A draft holds what was given so far.
-/
namespace SafeAlter.CommandLine
open SafeAlter.Text

inductive OutputFormat where
  | text
  | json
  deriving DecidableEq, Repr

namespace OutputFormat

def name : OutputFormat → String
  | .text => "text"
  | .json => "json"

def ofName? (s : String) : Option OutputFormat :=
  [text, json].find? fun f => f.name == s

end OutputFormat

inductive Item where
  | help
  | version
  | config
  | dsn
  | file
  | format
  | debug
  | path
  | overwrite
  | statements
  | statement
  | backup
  | byTool
  deriving DecidableEq, Repr

namespace Item

def name : Item → String
  | .help => "--help"
  | .version => "--version"
  | .config => "--config"
  | .dsn => "--dsn"
  | .file => "--file"
  | .format => "--format"
  | .debug => "--debug"
  | .path => "--path"
  | .overwrite => "--force"
  | .statements => "[DDL]..."
  | .statement => "<SQL>"
  | .backup => "[BACKUP_METHOD]"
  | .byTool => "[USE_PTOSC]"

def isFlag : Item → Bool
  | .help | .version | .debug | .overwrite => true
  | _ => false

def repeats (i : Item) : Bool := i == .statements

end Item

/-- Why a command line is no order, or what it asks for instead. -/
inductive UsageFault where
  | helpWanted
  | versionWanted
  | nothingGiven
  | noCommand
  | unknownCommand (word : String)
  | unknownArgument (word : String)
  | repeated (item : Item)
  | missing (item : Item)
  | withoutValue (item : Item)
  | refusedValue (item : Item) (value : String)
  | noSwitch (item : Item) (value : String)
  | unneededValue (item : Item) (value : String)
  deriving DecidableEq, Repr

def UsageFault.message : UsageFault → String
  | .helpWanted | .versionWanted | .nothingGiven => ""
  | .noCommand => "a command is required but none was given"
  | .unknownCommand word => s!"unrecognized command '{word}'"
  | .unknownArgument word => s!"unexpected argument '{word}' found"
  | .repeated item => s!"the argument '{item.name}' cannot be used multiple times"
  | .missing item => s!"the required argument '{item.name}' was not provided"
  | .withoutValue item => s!"a value is required for '{item.name}' but none was supplied"
  | .refusedValue item value => s!"invalid value '{value}' for '{item.name}'"
  | .noSwitch item value => s!"invalid value '{value}' for '{item.name}': not a boolean"
  | .unneededValue item value => s!"unexpected value '{value}' for '{item.name}' found"

def onWords : List String := ["y", "yes", "t", "true", "on", "1"]

def offWords : List String := ["n", "no", "f", "false", "off", "0"]

def switch? (word : String) : Option Bool :=
  let w := String.ofList (lowerCase word.toList)
  if onWords.contains w then some true else if offWords.contains w then some false else none

structure Draft where
  config : Option String := none
  dsn : Option String := none
  file : Option String := none
  format : Option OutputFormat := none
  debug : Option Unit := none
  path : Option String := none
  overwrite : Option Unit := none
  statements : List String := []
  statement : Option String := none
  backup : Option BackupMethod := none
  byTool : Option Bool := none
  deriving DecidableEq, Repr

/-- Fills in what may be given once. That it is given again is said before anything about its
value is. -/
def once {α : Type} (item : Item) (old : Option α) (new : Except UsageFault α) :
    Except UsageFault (Option α) :=
  match old with
  | some _ => .error (.repeated item)
  | none => new.map some

def orRefuse {α : Type} (fault : UsageFault) (value : Option α) : Except UsageFault α :=
  match value with
  | some a => .ok a
  | none => .error fault

/-- Takes an item with its value down; a flag has none. -/
def Draft.set (d : Draft) (item : Item) (value : String) : Except UsageFault Draft :=
  match item with
  | .help => .error .helpWanted
  | .version => .error .versionWanted
  | .config => do return { d with config := ← once item d.config (.ok value) }
  | .dsn => do return { d with dsn := ← once item d.dsn (.ok value) }
  | .file => do return { d with file := ← once item d.file (.ok value) }
  | .format => do
    let read := orRefuse (.refusedValue item value) (OutputFormat.ofName? value)
    return { d with format := ← once item d.format read }
  | .debug => do return { d with debug := ← once item d.debug (.ok ()) }
  | .path => do return { d with path := ← once item d.path (.ok value) }
  | .overwrite => do return { d with overwrite := ← once item d.overwrite (.ok ()) }
  | .statements => .ok { d with statements := d.statements ++ [value] }
  | .statement => do return { d with statement := ← once item d.statement (.ok value) }
  | .backup => do
    let read := orRefuse (.refusedValue item value) (BackupMethod.ofName? value false)
    return { d with backup := ← once item d.backup read }
  | .byTool => do
    return { d with
      byTool := ← once item d.byTool (orRefuse (.noSwitch item value) (switch? value)) }

end SafeAlter.CommandLine
