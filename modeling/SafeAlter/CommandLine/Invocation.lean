import SafeAlter.CommandLine.Reading

/-! # Orders given on the command line

A command line names a command, with what belongs to it, and may say in front of the command or
behind it where the configuration is and how to reach the server. The command's own words win over
those in front of it, those over the environment, and the environment over the defaults.
-/
namespace SafeAlter.CommandLine

inductive CommandName where
  | validate
  | execute
  | initialise
  | help
  deriving DecidableEq, Repr

namespace CommandName

def all : List CommandName := [.validate, .execute, .initialise, .help]

def word : CommandName → String
  | .validate => "validate"
  | .execute => "execute"
  | .initialise => "init"
  | .help => "help"

def ofWord? (w : String) : Option CommandName :=
  all.find? fun c => c.word == w

def commonOptions : List (String × Item) :=
  [("config", .config), ("dsn", .dsn), ("help", .help)]

def vocabulary : CommandName → Vocabulary
  | .validate => ⟨[("file", .file), ("format", .format)] ++ commonOptions, [('h', .help)],
      [.statements]⟩
  | .execute => ⟨("debug", .debug) :: commonOptions, [('d', .debug), ('h', .help)],
      [.statement, .backup, .byTool]⟩
  | .initialise => ⟨[("path", .path), ("force", .overwrite)] ++ commonOptions, [('h', .help)], []⟩
  | .help => ⟨[], [], []⟩

end CommandName

def frontVocabulary : Vocabulary :=
  ⟨("version", .version) :: CommandName.commonOptions, [('h', .help), ('V', .version)], []⟩

/-- A command with what belongs to it. -/
inductive Order where
  | validate (statements : List String) (file : Option String) (format : OutputFormat)
  | execute (statement : String) (backup : BackupMethod) (byTool debug : Bool)
  | initialise (path : String) (overwrite : Bool)
  deriving DecidableEq, Repr

structure Invocation where
  config : String
  dsn : String
  order : Order
  deriving DecidableEq, Repr

/-- What the environment says, where a variable that is set may be empty. -/
structure Environment where
  config : Option String
  dsn : Option String
  deriving DecidableEq, Repr

def configVariable : String := "RELEEM_CONFIG"
def dsnVariable : String := "MYSQL_DSN"
def defaultConfig : String := "/opt/releem/releem.conf"
def defaultDsn : String := "user:password@tcp(localhost:3306)/testdb"
def defaultPath : String := "schema-guard.toml"

/-- Reads the words in front of the command, and tells the command with the words behind it. -/
def readFront (r : Reading) :
    List String → Except UsageFault (Reading × Option (CommandName × List String))
  | [] => .ok (r, none)
  | word :: rest =>
    match if r.awaitsValue then none else CommandName.ofWord? word with
    | some command => .ok (r, some (command, rest))
    | none =>
      if Word.ofString word = .divider then
        match rest with
        | [] => .ok (r, none)
        | next :: _ =>
          .error (if (CommandName.ofWord? next).isSome then .unknownArgument next
            else .unknownCommand next)
      else do
        match ← r.takeOption frontVocabulary word with
        | some r => readFront r rest
        | none => throw (.unknownCommand word)

def helpAnswer : List String → UsageFault
  | [] => .helpWanted
  | word :: rest =>
    if (CommandName.ofWord? word).isNone then .unknownCommand word
    else
      match rest with
      | [] => .helpWanted
      | next :: _ => .unknownCommand next

def Order.ofDraft (d : Draft) : CommandName → Except UsageFault Order
  | .validate => return .validate d.statements d.file (d.format.getD .text)
  | .execute => do
    let statement ← orRefuse (.missing .statement) d.statement
    return .execute statement (d.backup.getD .none) (d.byTool.getD false) d.debug.isSome
  | .initialise => return .initialise (d.path.getD defaultPath) d.overwrite.isSome
  | .help => .error .helpWanted

/-- Reads a command line, without the name of the program. Faults of a command's own words are
told before faults of the words in front of it. -/
def Invocation.ofWords (words : List String) (env : Environment) : Except UsageFault Invocation := do
  let (front, command) ← readFront .empty words
  match command with
  | none =>
    let d ← front.settled
    let silent := d.config.isNone && d.dsn.isNone && env.config.isNone && env.dsn.isNone
    throw (if silent then .nothingGiven else .noCommand)
  | some (.help, rest) => throw (helpAnswer rest)
  | some (command, rest) =>
    let own ← Reading.empty.takeWords command.vocabulary command.vocabulary.places rest
    let order ← Order.ofDraft own command
    let d ← front.settled
    return {
      config := (own.config <|> d.config <|> env.config).getD defaultConfig
      dsn := (own.dsn <|> d.dsn <|> env.dsn).getD defaultDsn
      order }

end SafeAlter.CommandLine
