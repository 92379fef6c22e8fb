import SafeAlter.Server.Query

/-! # Programs and their surroundings

A program asks its surroundings for one thing after another and goes on with the answer: the
server, the tools, the files, the clock. It leaves log records on the way. Run against a given
behaviour of the surroundings, a program yields its value and the history of what it asked, was
answered and recorded.
-/
namespace SafeAlter
open SafeAlter.Sql

structure Command where
  program : String
  arguments : List String
  deriving DecidableEq, Repr

/-- How a tool ended: without a code if it was killed. The output holds both of its streams. -/
structure ToolExit where
  code : Option Int
  output : String
  deriving DecidableEq, Repr

def ToolExit.succeeded (e : ToolExit) : Bool :=
  e.code == some 0

inductive Level where
  | error
  | warn
  | info
  | debug
  deriving DecidableEq, Repr

def Level.name : Level → String
  | .error => "ERROR"
  | .warn => "WARN"
  | .info => "INFO"
  | .debug => "DEBUG"

structure Record where
  level : Level
  text : String
  deriving DecidableEq, Repr

def Record.line (r : Record) : String :=
  r.level.name ++ " " ++ r.text

inductive Request where
  | ask (query : Query)
  | run (command : Command)
  /-- Makes a directory and those above it. -/
  | makeDirectory (path : String)
  /-- The bytes that are free where a directory is. -/
  | freeSpace (path : String)
  /-- The local time as twelve digits, year to second. -/
  | clock
  | fileExists (path : String)
  | readText (path : String)
  | writeText (path text : String)
  | connect (dsn : Dsn)
  | print (text : String)
  | complain (text : String)

/-- Where something can go wrong, the answer may be a reason in words. -/
abbrev Request.Answer : Request → Type
  | .ask q => Except Failure q.Answer
  | .run _ => Except String ToolExit
  | .makeDirectory _ | .writeText .. => Except String Unit
  | .freeSpace _ => Except String UInt64
  | .clock => String
  | .fileExists _ => Bool
  | .readText _ => Except String String
  | .connect _ => Except Failure Unit
  | .print _ | .complain _ => Unit

inductive Program (α : Type) where
  | done (value : α)
  | note (record : Record) (next : Program α)
  | request (request : Request) (next : request.Answer → Program α)

/-- What a program leaves behind, in order. -/
inductive Event where
  | noted (record : Record)
  | answered (request : Request) (answer : request.Answer)

/-- A behaviour of the surroundings, with a state of their own. -/
abbrev Surroundings (σ : Type) := (r : Request) → σ → r.Answer × σ

structure Run (σ α : Type) where
  value : α
  history : List Event
  world : σ

namespace Program
variable {α β σ : Type}

def bind : Program α → (α → Program β) → Program β
  | done a, f => f a
  | note r p, f => note r (p.bind f)
  | request r k, f => request r fun a => (k a).bind f

instance : Monad Program where
  pure := done
  bind := bind

def run (env : Surroundings σ) : Program α → σ → Run σ α
  | done a, s => ⟨a, [], s⟩
  | note r p, s =>
    let rest := p.run env s
    { rest with history := .noted r :: rest.history }
  | request r k, s =>
    let (a, s') := env r s
    let rest := (k a).run env s'
    { rest with history := .answered r a :: rest.history }

/-- Runs a program in another monad that can answer its requests. -/
def interpret {m : Type → Type} [Monad m] (record : Record → m Unit)
    (answer : (r : Request) → m r.Answer) : Program α → m α
  | done a => return a
  | note r p => do
    record r
    p.interpret record answer
  | request r k => do
    let a ← answer r
    (k a).interpret record answer

@[simp] theorem pure_eq (a : α) : (pure a : Program α) = done a := rfl

@[simp] theorem bind_eq (p : Program α) (f : α → Program β) : p >>= f = p.bind f := rfl

theorem bind_done (p : Program α) : p.bind done = p := by
  induction p with
  | done => rfl
  | note r p ih => simp [bind, ih]
  | request r k ih => simp [bind, ih]

theorem bind_assoc {γ : Type} (p : Program α) (f : α → Program β) (g : β → Program γ) :
    (p.bind f).bind g = p.bind fun a => (f a).bind g := by
  induction p with
  | done => rfl
  | note r p ih => simp [bind, ih]
  | request r k ih => simp [bind, ih]

instance : LawfulMonad Program :=
  LawfulMonad.mk' Program bind_done (fun _ _ => rfl) bind_assoc

theorem run_bind (env : Surroundings σ) (p : Program α) (f : α → Program β) (s : σ) :
    (p.bind f).run env s =
      let first := p.run env s
      let second := (f first.value).run env first.world
      ⟨second.value, first.history ++ second.history, second.world⟩ := by
  induction p generalizing s with
  | done => rfl
  | note r p ih => simp [bind, run, ih]
  | request r k ih => simp [bind, run, ih]

end Program

/-- A program that may end in a failure. -/
abbrev Act (α : Type) := ExceptT Failure Program α

namespace Act
variable {α : Type}

def note (level : Level) (text : String) : Program Unit :=
  .note ⟨level, text⟩ (.done ())

def request (r : Request) : Program r.Answer :=
  .request r .done

def ask (q : Query) : Act q.Answer :=
  ExceptT.mk (request (.ask q))

/-- The outcome of a program as a value, so that a failure ends nothing. -/
def observe (act : Act α) : Act (Except Failure α) :=
  ExceptT.lift act.run

/-- Asks for something about files, where every trouble is of one kind. -/
def ofAnswer (p : Program (Except String α)) : Act α :=
  ExceptT.mk do return (← p).mapError Failure.io

def makeDirectory (path : String) : Act Unit := ofAnswer (request (.makeDirectory path))

def freeSpace (path : String) : Act UInt64 := ofAnswer (request (.freeSpace path))

def readText (path : String) : Act String := ofAnswer (request (.readText path))

def clock : Act String := liftM (request .clock)

def ofExcept {ε : Type} (wrap : ε → Failure) (e : Except ε α) : Act α :=
  ExceptT.mk (.done (e.mapError wrap))

end Act

end SafeAlter
