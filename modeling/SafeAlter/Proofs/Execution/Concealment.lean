import SafeAlter.Proofs.Program.Alike
import SafeAlter.Proofs.Program.Steady
import SafeAlter.Proofs.Text.Occurrences
import SafeAlter.Execution.Execute

/-! # What does not tell one password from another

Two changes by the server whose options differ in the password only ask the same of their
surroundings, but for the one flag of a backup tool that holds the password. As long as they are
answered alike, and no tool says either password, they end alike and leave the same records. Of the
command line the records show the flag masked, and in what a tool says there is nothing to mask.
-/
namespace SafeAlter
open SafeAlter.Text SafeAlter.Sql Program History

/-! ## Masks -/

theorem maskOutput_of_not_occursIn {output secret : String}
    (h : occursIn secret.toList output.toList = false) : maskOutput output secret = output := by
  rw [maskOutput, replaceAll_of_not_occursIn h, String.ofList_toList]

theorem maskArgument_shortFlag {password : String} (h : password ≠ "") :
    maskArgument ("-p" ++ password) = "-p***" := by
  have hlong : "--password=".toList.isPrefixOf ('-' :: 'p' :: password.toList) = false := rfl
  have hlength : 0 < password.toList.length := by
    rw [List.length_pos_iff, ne_eq, String.toList_eq_nil_iff]
    exact h
  have hshort : ("-p".toList.isPrefixOf ('-' :: 'p' :: password.toList) &&
      ('-' :: 'p' :: password.toList).length > 2) = true := by
    simp only [Bool.and_eq_true, decide_eq_true_eq, List.length_cons]
    exact ⟨rfl, by omega⟩
  have hchars : ("-p" ++ password).toList = '-' :: 'p' :: password.toList := by
    rw [String.toList_append]
    rfl
  rw [maskArgument, hchars, maskArgumentChars, hlong, hshort]
  rfl

theorem maskArgument_longFlag (password : String) :
    maskArgument ("--password=" ++ password) = "--password=***" := by
  have hlong : "--password=".toList.isPrefixOf ("--password=".toList ++ password.toList) = true :=
    List.isPrefixOf_iff_prefix.2 (List.prefix_append ..)
  rw [maskArgument, String.toList_append, maskArgumentChars, hlong]
  rfl

/-! ## Calls and backups -/

namespace ToolCall
variable {differ : Command → Command → Prop} {plain : ToolExit → Prop}

/-- Two calls whose records and outcomes are the same after every plain end of their tools. -/
structure Alike (differ : Command → Command → Prop) (plain : ToolExit → Prop)
    (c c' : ToolCall) : Prop where
  label : c.label = c'.label
  program : c.program = c'.program
  debug : c.debug = c'.debug
  shown : c.arguments.map maskArgument = c'.arguments.map maskArgument
  output : ∀ exit, plain exit → maskOutput exit.output c.secret = maskOutput exit.output c'.secret
  command : differ c.command c'.command

theorem Alike.run_alike {c c' : ToolCall} (h : c.Alike differ plain c') :
    Program.Alike differ plain c.run.run c'.run.run := by
  have htrace : ∀ text, c.trace text = c'.trace text := fun text => by rw [trace, h.debug, trace]
  have houtcome : ∀ exit, plain exit → c.outcome exit = c'.outcome exit := by
    intro exit hexit
    simp only [outcome, h.label, h.output exit hexit]
  simp only [run, ExceptT.run_mk, htrace, h.label, h.program, h.shown]
  refine (Program.Alike.refl _).bind fun _ => (Program.Alike.refl _).bind fun _ =>
    .call h.command fun x hx => ?_
  cases x with
  | error reason => exact .refl _
  | ok exit =>
    have hexit := hx exit rfl
    simp only [Program.bind, h.output exit hexit, houtcome exit hexit]
    exact .refl _

theorem alike_forM {cs cs' : List ToolCall} (h : List.Forall₂ (Alike differ plain) cs cs') :
    Program.Alike differ plain (cs.forM fun c => discard c.run : Act Unit).run
      (cs'.forM fun c => discard c.run : Act Unit).run := by
  induction h with
  | nil => exact .refl _
  | cons hc _ ih => exact Act.alike_bind (Act.alike_discard hc.run_alike) fun _ => ih

end ToolCall

/-- Commands of the backup tools that are the same but for the flag that holds the password. -/
inductive SameButFlag (config : Config) (p p' : String) : Command → Command → Prop where
  | same (c : Command) : SameButFlag config p p' c c
  | dump (before after : List String) :
      SameButFlag config p p' ⟨config.mysqldumpPath, before ++ ("-p" ++ p) :: after⟩
        ⟨config.mysqldumpPath, before ++ ("-p" ++ p') :: after⟩
  | copy (before after : List String) :
      SameButFlag config p p' ⟨config.xtrabackupPath, before ++ ("--password=" ++ p) :: after⟩
        ⟨config.xtrabackupPath, before ++ ("--password=" ++ p') :: after⟩

/-- What a tool said holds neither of two passwords. -/
def SaysNeither (p p' : String) (exit : ToolExit) : Prop :=
  occursIn p.toList exit.output.toList = false ∧ occursIn p'.toList exit.output.toList = false

theorem SaysNeither.maskOutput_eq {p p' : String} {exit : ToolExit} (h : SaysNeither p p' exit) :
    maskOutput exit.output p = maskOutput exit.output p' := by
  rw [maskOutput_of_not_occursIn h.1, maskOutput_of_not_occursIn h.2]

namespace BackupRequest

/-- The same request with other passwords in the settings and in the credentials. -/
def withPasswords (r : BackupRequest) (q p : String) : BackupRequest :=
  { r with
    config := { r.config with password := q }
    credentials := { r.credentials with password := p } }

theorem passwordFlag_of_ne {flag p : String} (h : p ≠ "") : passwordFlag flag p = [flag ++ p] := by
  rw [passwordFlag, if_neg (by simpa using h)]

variable {r : BackupRequest} {q p : String}

/-- Calls that are the same but for a masked flag with the password. -/
theorem call_alike {program flag : String} {before after : List String} (label : String)
    (hmask : maskArgument (flag ++ r.credentials.password) = maskArgument (flag ++ p))
    (hcommand : SameButFlag r.config r.credentials.password p
      ⟨program, before ++ (flag ++ r.credentials.password) :: after⟩
      ⟨program, before ++ (flag ++ p) :: after⟩) :
    ToolCall.Alike (SameButFlag r.config r.credentials.password p)
      (SaysNeither r.credentials.password p)
      (r.call label program (before ++ (flag ++ r.credentials.password) :: after))
      ((r.withPasswords q p).call label program (before ++ (flag ++ p) :: after)) where
  label := rfl
  program := rfl
  debug := rfl
  shown := by simp only [call, List.map_append, List.map_cons, hmask]
  output _ h := h.maskOutput_eq
  command := hcommand

theorem dumpCall_alike (hp : r.credentials.password ≠ "") (hp' : p ≠ "") (path : String) :
    ToolCall.Alike (SameButFlag r.config r.credentials.password p)
      (SaysNeither r.credentials.password p) (r.dumpCall path)
      ((r.withPasswords q p).dumpCall path) := by
  have hmask : maskArgument ("-p" ++ r.credentials.password) = maskArgument ("-p" ++ p) := by
    rw [maskArgument_shortFlag hp, maskArgument_shortFlag hp']
  simp only [dumpCall, dumpArguments, withPasswords, passwordFlag_of_ne hp,
    passwordFlag_of_ne hp', List.append_assoc, List.singleton_append]
  exact call_alike "mysqldump" hmask (.dump ..)

theorem copyCall_alike (hp : r.credentials.password ≠ "") (hp' : p ≠ "") (target : String) :
    ToolCall.Alike (SameButFlag r.config r.credentials.password p)
      (SaysNeither r.credentials.password p) (r.copyCall target)
      ((r.withPasswords q p).copyCall target) := by
  have hmask : maskArgument ("--password=" ++ r.credentials.password) =
      maskArgument ("--password=" ++ p) := by
    rw [maskArgument_longFlag, maskArgument_longFlag]
  simp only [copyCall, copyArguments, withPasswords, passwordFlag_of_ne hp,
    passwordFlag_of_ne hp', List.append_assoc, List.singleton_append]
  exact call_alike "xtrabackup backup" hmask (.copy ..)

theorem prepareCall_alike (target : String) :
    ToolCall.Alike (SameButFlag r.config r.credentials.password p)
      (SaysNeither r.credentials.password p) (r.prepareCall target)
      ((r.withPasswords q p).prepareCall target) where
  label := rfl
  program := rfl
  debug := rfl
  shown := rfl
  output _ h := h.maskOutput_eq
  command := .same _

theorem plan_alike (hp : r.credentials.password ≠ "") (hp' : p ≠ "") (time : String) :
    (r.plan time = none ∧ (r.withPasswords q p).plan time = none) ∨
      ∃ path calls calls', r.plan time = some (path, calls) ∧
        (r.withPasswords q p).plan time = some (path, calls') ∧
        List.Forall₂ (ToolCall.Alike (SameButFlag r.config r.credentials.password p)
          (SaysNeither r.credentials.password p)) calls calls' := by
  have hmethod : (r.withPasswords q p).method = r.method := rfl
  unfold plan
  rw [hmethod]
  cases r.method with
  | none => exact .inl ⟨rfl, rfl⟩
  | logicalDump => exact .inr ⟨_, _, _, rfl, rfl, .cons (dumpCall_alike hp hp' _) .nil⟩
  | physicalCopy =>
    exact .inr ⟨_, _, _, rfl, rfl,
      .cons (copyCall_alike hp hp' _) (.cons (prepareCall_alike _) .nil)⟩

theorem perform_alike (r : BackupRequest) (q : String) (hp : r.credentials.password ≠ "")
    (hp' : p ≠ "") :
    Program.Alike (SameButFlag r.config r.credentials.password p)
      (SaysNeither r.credentials.password p) r.perform.run (r.withPasswords q p).perform.run := by
  refine Act.alike_bind (.refl _) fun estimate => ?_
  cases estimate with
  | none => exact .refl _
  | some estimate =>
    refine Act.alike_bind (.refl _) fun _ => Act.alike_bind (.refl _) fun available =>
      Act.alike_bind (.refl _) fun _ => Act.alike_bind (.refl _) fun time => ?_
    rcases plan_alike hp hp' time with ⟨hn, hn'⟩ | ⟨path, calls, calls', hc, hc', hcalls⟩
    · rw [hn, hn']
      exact .refl _
    · rw [hc, hc']
      exact Act.alike_bind (ToolCall.alike_forM hcalls) fun _ => .refl _

end BackupRequest

/-! ## Changes -/

def ChangeOptions.password (o : ChangeOptions) : String :=
  (Credentials.resolve o.config o.dsn).password

/-- Options that agree in all that a change is made with, except for the password. -/
structure ChangeOptions.AgreeButPassword (o o' : ChangeOptions) : Prop where
  statement : o'.statement = o.statement
  tableName : o'.tableName = o.tableName
  backup : o'.backup = o.backup
  byTool : o'.byTool = o.byTool
  debug : o'.debug = o.debug
  config : o'.config = { o.config with password := o'.config.password }
  credentials : Credentials.resolve o'.config o'.dsn =
    { Credentials.resolve o.config o.dsn with password := o'.password }

namespace Execution
variable {o o' : ChangeOptions} {name : TableName}

theorem backUp_alike (h : o.AgreeButPassword o') (hp : o.password ≠ "") (hp' : o'.password ≠ "") :
    Program.Alike (SameButFlag o.config o.password o'.password)
      (SaysNeither o.password o'.password) (backUp o name).run (backUp o' name).run := by
  have hrequest : ∀ (method : BackupMethod) (table : QualifiedTable),
      (⟨method, table, o'.config, Credentials.resolve o'.config o'.dsn, o'.debug⟩ : BackupRequest) =
        BackupRequest.withPasswords
          ⟨method, table, o.config, Credentials.resolve o.config o.dsn, o.debug⟩
          o'.config.password o'.password := by
    intro method table
    rw [h.credentials, h.debug, h.config]
    rfl
  unfold backUp
  rw [h.backup]
  split
  · exact .refl _
  · refine Act.alike_bind (.refl _) fun table => ?_
    rw [hrequest]
    exact BackupRequest.perform_alike
      ⟨o.backup, table, o.config, Credentials.resolve o.config o.dsn, o.debug⟩
      o'.config.password hp hp'

/-- Without the tool a change is tried in ways that know of no password. -/
theorem attempt_eq (h : o.AgreeButPassword o') (ht : o.byTool = false) {s : Strategy}
    (hs : s.applies o = true) : s.attempt o' name = s.attempt o name := by
  cases s with
  | onlineDdl => rw [Strategy.attempt, Strategy.attemptOnline, h.statement, h.debug]; rfl
  | lockingAlter => rw [Strategy.attempt, Strategy.attemptLocking, h.statement, h.debug]; rfl
  | externalTool => simp [Strategy.applies, ht] at hs

theorem tryEach_eq (h : o.AgreeButPassword o') (ht : o.byTool = false) (path : Option String)
    (ss : List Strategy) (ws es : List String) :
    tryEach o' name path ss ws es = tryEach o name path ss ws es := by
  induction ss generalizing ws es with
  | nil => rfl
  | cons s rest ih =>
    have happlies : s.applies o' = s.applies o := by
      cases s <;> simp only [Strategy.applies, h.byTool]
    unfold tryEach
    rw [happlies]
    split
    · next hs => simp only [attempt_eq h ht hs, ih]
    · exact ih ws es

theorem execute_alike (h : o.AgreeButPassword o') (ht : o.byTool = false) (hp : o.password ≠ "")
    (hp' : o'.password ≠ "") :
    Program.Alike (SameButFlag o.config o.password o'.password)
      (SaysNeither o.password o'.password) (execute o).run (execute o').run := by
  have hnamed : ∀ name, Program.Alike (SameButFlag o.config o.password o'.password)
      (SaysNeither o.password o'.password)
      (do
        let path ← backUp o name
        tryEach o name path strategies [] [] : Act Execution).run
      (do
        let path ← backUp o' name
        tryEach o' name path strategies [] [] : Act Execution).run := by
    intro name
    refine Act.alike_bind (backUp_alike h hp hp') fun path => ?_
    rw [tryEach_eq h ht]
    exact .refl _
  unfold execute
  rw [h.tableName, h.statement]
  cases o.tableName with
  | none => exact Act.alike_bind (.refl _) hnamed
  | some name => exact Act.alike_bind (.refl _) hnamed

end Execution

/-- Two runs that cannot be told apart but by the password flag of a backup tool: they end alike,
leave the same records and ask the server the same, and their tools differ in that flag only. -/
structure Concealed {σ σ' α : Type} (config : Config) (p p' : String) (run : Run σ α)
    (run' : Run σ' α) : Prop where
  value : run.value = run'.value
  records : records run.history = records run'.history
  asked : asked run.history = asked run'.history
  tools : List.Forall₂ (ToolRun.Alike (SameButFlag config p p')) (toolRuns run.history)
    (toolRuns run'.history)

/-- Changes by the server show nothing of their password, as long as they are answered alike and no
tool says it. -/
theorem password_concealed {σ σ' : Type} (o o' : ChangeOptions) (h : o.AgreeButPassword o')
    (ht : o.byTool = false) (hp : o.password ≠ "") (hp' : o'.password ≠ "")
    (env : Surroundings σ) (env' : Surroundings σ') (s : σ) (s' : σ')
    (ha : AnsweredAlike (SaysNeither o.password o'.password)
      ((execute o).run.run env s).history ((execute o').run.run env' s').history) :
    Concealed o.config o.password o'.password ((execute o).run.run env s)
      ((execute o').run.run env' s') := by
  obtain ⟨hvalue, hevents⟩ := (Execution.execute_alike h ht hp hp').run_alike ha
  exact ⟨hvalue, records_eq_of_alike hevents, asked_eq_of_alike hevents,
    toolRuns_alike .same hevents⟩

theorem answeredAlike_obliging {α : Type} {plain : ToolExit → Prop} (hplain : plain ⟨some 0, ""⟩)
    (p p' : Program α) :
    AnsweredAlike plain (p.run .obliging ()).history (p'.run .obliging ()).history where
  requests r x y hm := by
    have hx := Program.answer_of_mem_steady (mem_exchanges.1 (List.of_mem_zip hm).1)
    have hy := Program.answer_of_mem_steady (mem_exchanges.1 (List.of_mem_zip hm).2)
    rw [hx, hy]
  tools c c' x y hm := by
    have hx := Program.answer_of_mem_steady (mem_exchanges.1 (List.of_mem_zip hm).1)
    have hy := Program.answer_of_mem_steady (mem_exchanges.1 (List.of_mem_zip hm).2)
    rw [hx, hy]
    rfl
  ends c exit hm := by
    cases Program.answer_of_mem_steady (mem_exchanges.1 hm)
    exact hplain

/-- A change with a dump of the table before it, and with records of its calls. -/
def recordedChange (password : String) : ChangeOptions :=
  ⟨"ALTER TABLE shop.orders ADD c INT", none, none, .logicalDump, false,
    { Config.default with password := password }, true⟩

theorem password_concealed_dump :
    Concealed (recordedChange "secret").config "secret" "tr0ub4dor"
      ((execute (recordedChange "secret")).run.run .obliging ())
      ((execute (recordedChange "tr0ub4dor")).run.run .obliging ()) :=
  password_concealed (recordedChange "secret") (recordedChange "tr0ub4dor")
    ⟨rfl, rfl, rfl, rfl, rfl, rfl, rfl⟩ rfl (by decide) (by decide) .obliging .obliging () ()
    (answeredAlike_obliging ⟨rfl, rfl⟩ _ _)

end SafeAlter
