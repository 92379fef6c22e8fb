import SafeAlter.Proofs.Backup.Course

/-! # An account of a backup

A backup that is wanted measures: it asks for the size of what it saves, makes the directory, and
asks for the space that is free there; or it ends with the failure of the first of these steps that
fails. No tool is run before. With too little space the backup ends in a failure of its own. With
enough, a dump is one run; a copy is a run that copies and, if that succeeds, one that prepares the
copy. The path that comes of it is the one that all these runs were given, and it comes of it
exactly if they all succeeded; otherwise the failure is that of the last run.
-/
namespace SafeAlter
open SafeAlter.Sql History

namespace BackupRequest

/-- What a backup has to find out before it runs a tool. -/
structure Measured (r : BackupRequest) (h : History) (estimate : Float) (available : UInt64) :
    Prop where
  estimated : ∃ g, Capacity.Estimated r.table r.method g (.ok (some estimate)) ∧ g ⊆ h
  made : .answered (.makeDirectory r.config.backupDir) (.ok ()) ∈ h
  free : .answered (.freeSpace r.config.backupDir) (.ok available) ∈ h

/-- The exchanges of a backup that could not measure, up to the step that failed, and the failure
of that step. -/
inductive Unmeasured (r : BackupRequest) : History → Failure → Prop where
  | noEstimate {g : History} {e : Failure}
      (he : Capacity.Estimated r.table r.method g (.error e)) : Unmeasured r g e
  | noDirectory {g : History} {estimate : Float}
      (he : Capacity.Estimated r.table r.method g (.ok (some estimate))) (reason : String) :
      Unmeasured r (g ++ [.answered (.makeDirectory r.config.backupDir) (.error reason)])
        (.io reason)
  | noFreeSpace {g : History} {estimate : Float}
      (he : Capacity.Estimated r.table r.method g (.ok (some estimate))) (reason : String) :
      Unmeasured r (g ++ [.answered (.makeDirectory r.config.backupDir) (.ok ()),
          .answered (.freeSpace r.config.backupDir) (.error reason)])
        (.io reason)

/-- A command that dumps the table into a file. There is a password flag if there is a password. -/
structure Dumps (r : BackupRequest) (file : String) (c : Command) : Prop where
  program : c.program = r.config.mysqldumpPath
  arguments : c.arguments =
    ["-h", r.credentials.host, "-P", r.credentials.port, "-u", r.credentials.user] ++
      (if r.credentials.password = "" then [] else ["-p" ++ r.credentials.password]) ++
      [r.table.database, r.table.table, "--single-transaction", "--quick", "--lock-tables=false",
        "-r", file]

/-- A command that copies the files of the table into a directory. -/
structure Copies (r : BackupRequest) (target : String) (c : Command) : Prop where
  program : c.program = r.config.xtrabackupPath
  arguments : c.arguments =
    ["--backup", "--tables=" ++ r.table.text, "--target-dir=" ++ target,
        "--user=" ++ r.credentials.user] ++
      (if r.credentials.password = "" then [] else ["--password=" ++ r.credentials.password]) ++
      ["--host=" ++ r.credentials.host, "--port=" ++ r.credentials.port]

/-- A command that prepares a copy for import, which takes no server. -/
structure Prepares (r : BackupRequest) (target : String) (c : Command) : Prop where
  program : c.program = r.config.xtrabackupPath
  arguments : c.arguments = ["--prepare", "--export", "--target-dir=" ++ target]

/-- The runs of a backup that goes to a path, as far as they get. -/
inductive Attempted (r : BackupRequest) (path : String) : List ToolRun → Prop where
  | dump {x : ToolRun} (hm : r.method = .logicalDump) (hx : r.Dumps path x.command) :
      Attempted r path [x]
  | notCopied {x : ToolRun} (hm : r.method = .physicalCopy) (hx : r.Copies path x.command)
      (hs : x.succeeded = false) : Attempted r path [x]
  | copied {x y : ToolRun} (hm : r.method = .physicalCopy) (hx : r.Copies path x.command)
      (hs : x.succeeded = true) (hy : r.Prepares path y.command) : Attempted r path [x, y]

/-- The runs of a backup that stopped at a tool, and the failure that says what came of the last of
them. -/
inductive Stopped (r : BackupRequest) : List ToolRun → Failure → Prop where
  | notDumped {x : ToolRun} (hm : r.method = .logicalDump) (hs : x.succeeded = false) :
      Stopped r [x] (.tool "mysqldump" (x.fault r.credentials.password))
  | notCopied {x : ToolRun} (hm : r.method = .physicalCopy) (hs : x.succeeded = false) :
      Stopped r [x] (.tool "xtrabackup backup" (x.fault r.credentials.password))
  | notPrepared {x y : ToolRun} (hm : r.method = .physicalCopy) (hx : x.succeeded = true)
      (hs : y.succeeded = false) :
      Stopped r [x, y] (.tool "xtrabackup prepare" (y.fault r.credentials.password))

variable {r : BackupRequest} {g h h' : History} {estimate : Float} {available : UInt64}
  {out : Except Failure (Option String)} {path path' time : String} {calls : List ToolCall}
  {runs : List ToolRun} {ended : Except Failure Unit} {c : Command} {e : Failure}

/-! ## The commands -/

theorem passwordFlag_eq (flag password : String) :
    passwordFlag flag password = if password = "" then [] else [flag ++ password] := by
  simp only [passwordFlag, String.isEmpty_iff]

theorem dumps_dumpCall (r : BackupRequest) (file : String) :
    r.Dumps file (r.dumpCall file).command := by
  refine ⟨rfl, ?_⟩
  rw [← passwordFlag_eq]
  rfl

theorem copies_copyCall (r : BackupRequest) (target : String) :
    r.Copies target (r.copyCall target).command := by
  refine ⟨rfl, ?_⟩
  rw [← passwordFlag_eq]
  simp [copyCall, call, copyArguments, ToolCall.command, toString]

theorem prepares_prepareCall (r : BackupRequest) (target : String) :
    r.Prepares target (r.prepareCall target).command := by
  refine ⟨rfl, ?_⟩
  simp [prepareCall, call, prepareArguments, ToolCall.command, toString]

theorem Dumps.path_eq (h : r.Dumps path c) (h' : r.Dumps path' c) : path = path' := by
  have hsame := h.arguments.symm.trans h'.arguments
  simpa using hsame

theorem Copies.path_eq (h : r.Copies path c) (h' : r.Copies path' c) : path = path' := by
  have hsame := h.arguments.symm.trans h'.arguments
  simpa using hsame

/-- The runs of a backup tell where it goes. -/
theorem Attempted.path_eq (h : r.Attempted path runs) (h' : r.Attempted path' runs) :
    path = path' := by
  cases h with
  | dump hm hx =>
    cases h' with
    | dump hm' hx' => exact hx.path_eq hx'
    | notCopied hm' => exact absurd (hm.symm.trans hm') nofun
  | notCopied hm hx =>
    cases h' with
    | dump hm' => exact absurd (hm.symm.trans hm') nofun
    | notCopied hm' hx' => exact hx.path_eq hx'
  | copied hm hx =>
    cases h' with
    | copied hm' hx' => exact hx.path_eq hx'

/-- Calls that were made one after another for a backup are its runs, and succeed if all of these
do. -/
theorem attempted_of_plan (hplan : r.plan time = some (path, calls))
    (hs : ToolCall.Sequence calls runs ended) :
    r.Attempted path runs ∧ (Succeeds ended ↔ ∀ x ∈ runs, x.succeeded = true) := by
  rcases plan_cases hplan with ⟨hm, -, rfl⟩ | ⟨hm, -, rfl⟩
  · obtain ⟨x, out, rfl, hx, rfl⟩ := hs.of_single
    refine ⟨.dump hm (r.dumps_dumpCall path), ?_⟩
    rw [succeeds_map, hx.succeeds_iff, List.forall_mem_singleton]
  · rcases hs.of_pair with ⟨x, e, rfl, he, rfl⟩ | ⟨x, exit, y, out, rfl, hx, hy, rfl⟩
    · refine ⟨.notCopied hm (r.copies_copyCall path) he.not_succeeded, ?_⟩
      rw [List.forall_mem_singleton, he.not_succeeded]
      exact iff_of_false (not_succeeds_error e) Bool.false_ne_true
    · have hcopied := hx.succeeds_iff.1 (succeeds_ok exit)
      refine ⟨.copied hm (r.copies_copyCall path) hcopied (r.prepares_prepareCall path), ?_⟩
      rw [succeeds_map, hy.succeeds_iff, List.forall_mem_cons, List.forall_mem_singleton]
      exact (and_iff_right hcopied).symm

theorem Attempted.of_dump (h : r.Attempted path runs) (hm : r.method = .logicalDump) :
    ∃ x, runs = [x] ∧ r.Dumps path x.command := by
  cases h with
  | dump _ hx => exact ⟨_, rfl, hx⟩
  | notCopied hm' => exact absurd (hm.symm.trans hm') nofun
  | copied hm' => exact absurd (hm.symm.trans hm') nofun

theorem Attempted.of_copy (h : r.Attempted path runs) (hm : r.method = .physicalCopy)
    (hs : ∀ x ∈ runs, x.succeeded = true) :
    ∃ x y, runs = [x, y] ∧ r.Copies path x.command ∧ r.Prepares path y.command := by
  cases h with
  | dump hm' => exact absurd (hm.symm.trans hm') nofun
  | notCopied _ _ hfailed =>
    rw [hs _ List.mem_cons_self] at hfailed
    cases hfailed
  | copied _ hx _ hy => exact ⟨_, _, rfl, hx, hy⟩

/-- Calls of a backup that do not all succeed stop at the one whose failure they end with. -/
theorem stopped_of_plan (hplan : r.plan time = some (path, calls))
    (hs : ToolCall.Sequence calls runs (.error e)) : r.Stopped runs e := by
  rcases plan_cases hplan with ⟨hm, -, rfl⟩ | ⟨hm, -, rfl⟩
  · obtain ⟨x, out, rfl, hx, hout⟩ := hs.of_single
    cases out with
    | ok => cases hout
    | error =>
      cases hout
      rw [hx.eq_fault]
      exact .notDumped hm hx.not_succeeded
  · rcases hs.of_pair with ⟨x, e, rfl, he, hout⟩ | ⟨x, exit, y, out, rfl, hx, hy, hout⟩
    · cases hout
      rw [he.eq_fault]
      exact .notCopied hm he.not_succeeded
    · cases out with
      | ok => cases hout
      | error =>
        cases hout
        rw [hy.eq_fault]
        exact .notPrepared hm (hx.succeeds_iff.1 (succeeds_ok exit)) hy.not_succeeded

theorem Attempted.ne_nil (h : r.Attempted path runs) : runs ≠ [] := by
  cases h <;> exact List.cons_ne_nil _ _

/-! ## What was measured -/

theorem Measured.mono (h : r.Measured g estimate available) (hg : g ⊆ h') :
    r.Measured h' estimate available :=
  ⟨h.estimated.imp fun _ hx => hx.imp_right fun hsub _ he => hg (hsub he), hg h.made, hg h.free⟩

theorem Measured.events (h : r.Measured g estimate available) :
    (∃ e ∈ g, e.estimate? = some estimate) ∧ ∃ e ∈ g, e.available? = some available := by
  obtain ⟨⟨f, hf, hsub⟩, -, hfree⟩ := h
  obtain ⟨q, x, rfl, hx⟩ := hf.eq_singleton
  exact ⟨⟨_, hsub (List.mem_singleton_self _), hx⟩, _, hfree, rfl⟩

/-- Records are no measures. -/
theorem measured_exchanges :
    r.Measured (exchanges h) estimate available ↔ r.Measured h estimate available := by
  refine ⟨fun hm => hm.mono fun _ he => (List.mem_filter.1 he).1, fun hm => ?_⟩
  obtain ⟨⟨f, hf, hsub⟩, hmade, hfree⟩ := hm
  refine ⟨⟨f, hf, ?_⟩, mem_exchanges.2 hmade, mem_exchanges.2 hfree⟩
  obtain ⟨q, x, rfl, -⟩ := hf.eq_singleton
  rw [List.cons_subset] at hsub ⊢
  exact hsub.imp mem_exchanges.2 fun _ => List.nil_subset _

theorem not_measured (hg : ∀ e ∈ g, e.available? = none) : ¬r.Measured g estimate available := by
  intro hm
  obtain ⟨e, he, ha⟩ := hm.events.2
  rw [hg e he] at ha
  cases ha

/-- The measures of a history to which an estimate and an answer about the space have led. -/
theorem measured_iff {size : Float} {free : UInt64}
    (he : Capacity.Estimated r.table r.method g (.ok (some size)))
    (hk : ∀ e ∈ h, e.estimate? = none ∧ e.available? = none) :
    r.Measured (g ++ .answered (.makeDirectory r.config.backupDir) (.ok ()) ::
        .answered (.freeSpace r.config.backupDir) (.ok free) :: h) estimate available ↔
      estimate = size ∧ available = free := by
  constructor
  · intro hm
    obtain ⟨⟨e, hmem, hest⟩, f, hmem', hav⟩ := hm.events
    exact ⟨(he.measures_only hk hmem).1 _ hest, (he.measures_only hk hmem').2 _ hav⟩
  · rintro ⟨rfl, rfl⟩
    exact ⟨⟨g, he, fun _ hx => by simp [hx]⟩, by simp, by simp⟩

theorem Unmeasured.not_measured (h : r.Unmeasured g e) : ¬r.Measured g estimate available := by
  apply BackupRequest.not_measured
  cases h with
  | noEstimate he =>
    intro x hx
    exact (he.measures x hx).1
  | noDirectory he =>
    refine List.forall_mem_append.2 ⟨fun x hx => (he.measures x hx).1, ?_⟩
    simp [Event.available?]
  | noFreeSpace he =>
    refine List.forall_mem_append.2 ⟨fun x hx => (he.measures x hx).1, ?_⟩
    simp [Event.available?]

theorem Unmeasured.toolRuns_eq_nil (h : r.Unmeasured g e) : toolRuns g = [] := by
  cases h with
  | noEstimate he => exact he.toolRuns_eq_nil
  | noDirectory he => exact he.toolRuns_append _
  | noFreeSpace he => exact he.toolRuns_append _

/-- How a backup goes: it is not wanted, it cannot measure, it has measured too little space, or it
has measured enough and calls its tools. -/
inductive Accounted (r : BackupRequest) : History → Except Failure (Option String) → Prop where
  | notWanted (hm : r.method = .none) : Accounted r [] (.ok none)
  | unmeasured {g : History} {e : Failure} (hfailed : r.Unmeasured g e) : Accounted r g (.error e)
  | noRoom {g : History} {estimate : Float} {available : UInt64} (hruns : toolRuns g = [])
      (hmeasured : r.Measured g estimate available)
      (honly : ∀ e a, r.Measured g e a → e = estimate ∧ a = available)
      (hlt : available < Capacity.requiredBytes estimate r.config.bufferPercent) :
      Accounted r g (.error (.capacity
        (Capacity.megabytes (Capacity.requiredBytes estimate r.config.bufferPercent))
        (Capacity.megabytes available) r.config.bufferPercent))
  | called {g : History} {estimate : Float} {available : UInt64} {path : String}
      {runs : List ToolRun} {ended : Except Failure Unit} (hbefore : toolRuns g = [])
      (hmeasured : r.Measured g estimate available)
      (honly : ∀ e a, r.Measured (g ++ runs.map ToolRun.event) e a → e = estimate ∧ a = available)
      (hroom : Capacity.requiredBytes estimate r.config.bufferPercent ≤ available)
      (hruns : r.Attempted path runs)
      (hended : Succeeds ended ↔ ∀ x ∈ runs, x.succeeded = true)
      (hstopped : ∀ e, ended = .error e → r.Stopped runs e) :
      Accounted r (g ++ runs.map ToolRun.event) (ended.map fun _ => some path)

theorem Ends.accounted (h : r.Ends g out) : r.Accounted g out := by
  cases h with
  | notWanted hm => exact .notWanted hm
  | noEstimate he => exact .unmeasured (.noEstimate he)
  | noDirectory reason he => exact .unmeasured (.noDirectory he reason)
  | noFreeSpace reason he => exact .unmeasured (.noFreeSpace he reason)
  | noRoom he hp =>
    obtain ⟨hlt, rfl⟩ := Capacity.lt_of_checked_error hp
    exact .noRoom (he.toolRuns_append _)
      ((measured_iff he (List.forall_mem_nil _)).2 ⟨rfl, rfl⟩)
      (fun e a hm => (measured_iff he (List.forall_mem_nil _)).1 hm) hlt
  | @called g size free p time path calls runs ended he hp hplan hs =>
    obtain ⟨hruns, hended⟩ := attempted_of_plan hplan hs
    refine .called (he.toolRuns_append _)
      ((measured_iff he (Event.measures_nothing_of_called time [])).2 ⟨rfl, rfl⟩)
      (fun e a hm => ?_) (UInt64.not_lt.1 (Capacity.not_lt_of_checked hp)) hruns hended ?_
    · rw [List.append_assoc] at hm
      exact (measured_iff he (Event.measures_nothing_of_called time runs)).1 hm
    · rintro e rfl
      exact stopped_of_plan hplan hs

/-! ## The account -/

/-- A backup that is wanted has measured, or one of the steps for that has failed. -/
theorem Accounted.of_wanted (h : r.Accounted g out) (hm : r.method ≠ .none) :
    (∃ e, r.Unmeasured g e ∧ out = .error e) ∨
      ∃ estimate available, r.Measured g estimate available := by
  cases h with
  | notWanted hnone => exact absurd hnone hm
  | unmeasured hfailed => exact .inl ⟨_, hfailed, rfl⟩
  | noRoom _ hmeasured => exact .inr ⟨_, _, hmeasured⟩
  | called _ hmeasured => exact .inr ⟨_, _, hmeasured.mono (List.subset_append_left _ _)⟩

/-- Every run of a tool comes after the measures. -/
theorem Accounted.measured_before {before after : History} {x : ToolRun}
    (h : r.Accounted (before ++ x.event :: after) out) :
    ∃ estimate available, r.Measured before estimate available ∧
      Capacity.requiredBytes estimate r.config.bufferPercent ≤ available := by
  have hnil : ∀ {f g : History}, toolRuns (f ++ x.event :: g) ≠ [] := by
    intro f g
    rw [toolRuns_append]
    exact List.append_ne_nil_of_right_ne_nil _ (List.cons_ne_nil _ _)
  generalize hsplit : before ++ x.event :: after = h' at h
  cases h with
  | notWanted => simp at hsplit
  | unmeasured hfailed => exact absurd (hsplit ▸ hfailed.toolRuns_eq_nil) hnil
  | noRoom hruns => exact absurd (hsplit ▸ hruns) hnil
  | @called g estimate available path runs ended hbefore hmeasured _ hroom =>
    refine ⟨estimate, available, ?_, hroom⟩
    rcases List.append_eq_append_iff.1 hsplit with ⟨between, rfl, htail⟩ | ⟨between, rfl, -⟩
    · -- the run would stand in `between`, among what came before the tools
      cases between with
      | nil => simpa using hmeasured
      | cons e between =>
        cases htail
        exact absurd hbefore hnil
    · exact hmeasured.mono (List.subset_append_left g between)

theorem Accounted.of_shortage (h : r.Accounted g out) (hm : r.Measured g estimate available)
    (hlt : available < Capacity.requiredBytes estimate r.config.bufferPercent) :
    toolRuns g = [] ∧ out = .error (.capacity
      (Capacity.megabytes (Capacity.requiredBytes estimate r.config.bufferPercent))
      (Capacity.megabytes available) r.config.bufferPercent) := by
  cases h with
  | notWanted => exact absurd hm (not_measured (List.forall_mem_nil _))
  | unmeasured hfailed => exact absurd hm hfailed.not_measured
  | noRoom hruns _ honly =>
    obtain ⟨rfl, rfl⟩ := honly _ _ hm
    exact ⟨hruns, rfl⟩
  | called _ _ honly hroom =>
    obtain ⟨rfl, rfl⟩ := honly _ _ hm
    exact absurd hlt (UInt64.not_lt.2 hroom)

/-- With enough space the tools are run, and what they come to decides. -/
theorem Accounted.of_room (h : r.Accounted g out) (hm : r.Measured g estimate available)
    (hroom : Capacity.requiredBytes estimate r.config.bufferPercent ≤ available) :
    ∃ path, r.Attempted path (toolRuns g) ∧
      (out = .ok (some path) ∨ ∃ e, r.Stopped (toolRuns g) e ∧ out = .error e) := by
  cases h with
  | notWanted => exact absurd hm (not_measured (List.forall_mem_nil _))
  | unmeasured hfailed => exact absurd hm hfailed.not_measured
  | noRoom _ _ honly hlt =>
    obtain ⟨rfl, rfl⟩ := honly _ _ hm
    exact absurd hlt (UInt64.not_lt.2 hroom)
  | @called g _ _ path runs ended hbefore _ _ _ hruns _ hstopped =>
    rw [toolRuns_append, toolRuns_runs, hbefore, List.nil_append]
    refine ⟨path, hruns, ?_⟩
    cases ended with
    | ok => exact .inl rfl
    | error e => exact .inr ⟨e, hstopped e rfl, rfl⟩

theorem value_iff_of_no_run (hruns : toolRuns g = []) (hout : out ≠ .ok (some path)) :
    out = .ok (some path) ↔
      r.Attempted path (toolRuns g) ∧ ∀ x ∈ toolRuns g, x.succeeded = true := by
  rw [hruns]
  apply iff_of_false hout
  rintro ⟨ht, -⟩
  exact ht.ne_nil rfl

theorem Accounted.value_iff (h : r.Accounted g out) :
    out = .ok (some path) ↔
      r.Attempted path (toolRuns g) ∧ ∀ x ∈ toolRuns g, x.succeeded = true := by
  cases h with
  | notWanted => exact value_iff_of_no_run rfl nofun
  | unmeasured hfailed => exact value_iff_of_no_run hfailed.toolRuns_eq_nil nofun
  | noRoom hruns => exact value_iff_of_no_run hruns nofun
  | @called g _ _ path' runs ended hbefore _ _ _ hruns hended =>
    rw [toolRuns_append, toolRuns_runs, hbefore, List.nil_append, ← hended]
    cases ended with
    | error e => exact iff_of_false nofun fun ht => not_succeeds_error e ht.2
    | ok =>
      constructor
      · intro heq
        cases heq
        exact ⟨hruns, succeeds_ok _⟩
      · rintro ⟨ht, -⟩
        rw [ht.path_eq hruns]
        rfl

theorem run_of_not_wanted {σ : Type} (env : Surroundings σ) (s : σ) (hm : r.method = .none) :
    r.perform.run.run env s = ⟨.ok none, [], s⟩ := by
  unfold perform
  rw [hm]
  rfl

/-! ## Obliging answers -/

theorem Unmeasured.not_obliged (h : r.Unmeasured g e) : ¬Obliged g := by
  intro ho
  cases h with
  | noEstimate he => exact not_succeeds_error e (he.succeeds_of_obliged ho)
  | noDirectory _ reason =>
    cases (obliged_append.1 ho).2 (.makeDirectory r.config.backupDir) (.error reason) (by simp)
  | noFreeSpace _ reason =>
    cases (obliged_append.1 ho).2 (.freeSpace r.config.backupDir) (.error reason) (by simp)

theorem Measured.room_of_obliged (h : r.Measured g estimate available) (ho : Obliged g) :
    Capacity.requiredBytes estimate r.config.bufferPercent ≤ available := by
  cases ho _ _ h.free
  exact Capacity.requiredBytes_le_greatest _ _

/-- A backup that nothing stands in the way of runs at least one tool. -/
theorem Accounted.runs_of_obliged (h : r.Accounted g out) (hm : r.method ≠ .none)
    (ho : Obliged g) : toolRuns g ≠ [] := by
  rcases h.of_wanted hm with ⟨e, hfailed, -⟩ | ⟨estimate, available, hmeasured⟩
  · exact absurd ho hfailed.not_obliged
  · obtain ⟨path, hruns, -⟩ := h.of_room hmeasured (hmeasured.room_of_obliged ho)
    exact hruns.ne_nil

/-! ## Any surroundings -/

/-- A backup in any surroundings. Where none is wanted, nothing is done. Otherwise the size is
asked for, the directory made and its free space asked for, or the first of these steps that failed
is the end. A tool is run only behind all of them and with enough space. Too little space is a
failure; with enough the tools are run, and what comes of them is a path or the failure of the last
run. It is a path exactly if they all succeeded, and the one that they were given. -/
theorem perform_account {σ : Type} (r : BackupRequest) (env : Surroundings σ) (s : σ) :
    let run := r.perform.run.run env s
    (r.method = .none → run.history = [] ∧ run.value = .ok none) ∧
    (r.method ≠ .none →
      (∃ e, r.Unmeasured (exchanges run.history) e ∧ run.value = .error e) ∨
        ∃ estimate available, r.Measured run.history estimate available) ∧
    (∀ before (x : ToolRun) after, run.history = before ++ x.event :: after →
      ∃ estimate available, r.Measured before estimate available ∧
        Capacity.requiredBytes estimate r.config.bufferPercent ≤ available) ∧
    (∀ estimate available, r.Measured run.history estimate available →
      let required := Capacity.requiredBytes estimate r.config.bufferPercent
      (available < required → toolRuns run.history = [] ∧
        run.value = .error (.capacity (Capacity.megabytes required) (Capacity.megabytes available)
          r.config.bufferPercent)) ∧
      (required ≤ available → ∃ path, r.Attempted path (toolRuns run.history) ∧
        (run.value = .ok (some path) ∨
          ∃ e, r.Stopped (toolRuns run.history) e ∧ run.value = .error e))) ∧
    ∀ path, run.value = .ok (some path) ↔
      r.Attempted path (toolRuns run.history) ∧
        ∀ x ∈ toolRuns run.history, x.succeeded = true := by
  intro run
  have haccount : r.Accounted (exchanges run.history) run.value :=
    (course_perform (Program.course_run env r.perform.run s)).accounted
  refine ⟨fun hm => ?_, fun hm => ?_, fun before x after hsplit => ?_,
    fun estimate available hm => ?_, fun path => ?_⟩
  · rw [show run = ⟨.ok none, [], s⟩ from run_of_not_wanted env s hm]
    exact ⟨rfl, rfl⟩
  · rcases haccount.of_wanted hm with hfailed | ⟨estimate, available, hmeasured⟩
    · exact .inl hfailed
    · exact .inr ⟨estimate, available, measured_exchanges.1 hmeasured⟩
  · rw [hsplit, exchanges_append, ToolRun.event, exchanges_answered] at haccount
    obtain ⟨estimate, available, hm, hroom⟩ := haccount.measured_before
    exact ⟨estimate, available, measured_exchanges.1 hm, hroom⟩
  · rw [← toolRuns_exchanges]
    have hm := measured_exchanges.2 hm
    exact ⟨haccount.of_shortage hm, haccount.of_room hm⟩
  · rw [← toolRuns_exchanges]
    exact haccount.value_iff

/-- A backup of `shop.orders` for a user without a password. -/
def backupOfOrders (method : BackupMethod) : BackupRequest :=
  ⟨method, ⟨"shop", "orders"⟩, .default, ⟨"localhost", "3306", "root", ""⟩, false⟩

/-- Where all goes well, a dump is one run and a copy is two, and both come to a path. -/
theorem backupOfOrders_made :
    (let run := (backupOfOrders .logicalDump).perform.run.run .obliging ()
      ∃ path x, toolRuns run.history = [x] ∧
        (backupOfOrders .logicalDump).Dumps path x.command ∧ run.value = .ok (some path)) ∧
    let run := (backupOfOrders .physicalCopy).perform.run.run .obliging ()
    ∃ path x y, toolRuns run.history = [x, y] ∧
      (backupOfOrders .physicalCopy).Copies path x.command ∧
      (backupOfOrders .physicalCopy).Prepares path y.command ∧ run.value = .ok (some path) := by
  have hmade : ∀ method, method ≠ .none →
      let run := (backupOfOrders method).perform.run.run .obliging ()
      ∃ path, (backupOfOrders method).Attempted path (toolRuns run.history) ∧
        (∀ x ∈ toolRuns run.history, x.succeeded = true) ∧ run.value = .ok (some path) := by
    intro method hmethod run
    obtain ⟨-, hwanted, -, hmeasures, hvalue⟩ :=
      (backupOfOrders method).perform_account .obliging ()
    have ho : Obliged (exchanges run.history) := Program.obliged_run _
    have hs : ∀ x ∈ toolRuns run.history, x.succeeded = true := by
      intro x hx
      have hanswer : x.outcome = .ok ⟨some 0, ""⟩ :=
        Program.answer_of_mem_steady (mem_toolRuns.1 hx)
      rw [ToolRun.succeeded, hanswer]
      rfl
    rcases hwanted hmethod with ⟨e, hfailed, -⟩ | ⟨estimate, available, hm⟩
    · exact absurd ho hfailed.not_obliged
    · have hroom := (measured_exchanges.2 hm).room_of_obliged ho
      obtain ⟨path, hruns, -⟩ := (hmeasures _ _ hm).2 hroom
      exact ⟨path, hruns, hs, (hvalue path).2 ⟨hruns, hs⟩⟩
  constructor
  · obtain ⟨path, hruns, -, hvalue⟩ := hmade .logicalDump (by decide)
    obtain ⟨x, hx, hdumps⟩ := hruns.of_dump rfl
    exact ⟨path, x, hx, hdumps, hvalue⟩
  · obtain ⟨path, hruns, hs, hvalue⟩ := hmade .physicalCopy (by decide)
    obtain ⟨x, y, hxy, hcopies, hprepares⟩ := hruns.of_copy rfl hs
    exact ⟨path, x, y, hxy, hcopies, hprepares, hvalue⟩

end BackupRequest

end SafeAlter
