import CompiledScript.Proofs.Tool.Survival

/-!
# The account of a run

A run handles the files it is given one after another. It prints nothing on a file whose name has no
accepted ending. Any other file it announces, and before it turns to the next one it says whether
the file was processed or failed. The number of failures decides the exit status. All this holds for
every file system and whatever the tables of names are; a run only ends early where the value of an
option was dropped, or a zero character stands in a path that it has to use. No limit is set to the
number of directories that have to be made for one file, and every message can be printed.
-/

namespace CompiledScript.Tool

variable {σ : Type} [FileSystem σ] {settings : Settings} {outputDir path : String} {files : σ}

/-! ## The messages on a file -/

/-- The endings of the names of files that are processed. -/
def acceptedEndings : List String := [".ff", ".gsc", ".csc", ".gscc", ".cscc"]

/-- The name of the file has an accepted ending, in capital or small letters. -/
def IsAccepted (path : String) : Prop :=
  String.ofList ((Path.fileExtension path).toList.map Char.toLower) ∈ acceptedEndings

theorem inputOf?_eq_none_iff : inputOf? path = none ↔ ¬ IsAccepted path := by
  rw [inputOf?, List.lookup_eq_none_iff, IsAccepted]
  simp [inputs, acceptedEndings]

/-- What was printed on a file of a run, and whether the file failed. -/
structure Handling where
  path : String
  messages : List Message
  isFailed : Bool

/-- Nothing is printed on a file without an accepted ending. Any other one is announced, details
may follow, and the last message says what became of it. -/
inductive Handling.IsAccounted : Handling → Prop where
  | skipped {path : String} (hpath : ¬ IsAccepted path) : IsAccounted ⟨path, [], false⟩
  | succeeded {path : String} {details : List Message} (hpath : IsAccepted path)
      (hdetails : ∀ message ∈ details, message.isDetail = true) :
      IsAccounted ⟨path, .processing (Path.base path) :: details ++ [.succeeded (Path.base path)],
        false⟩
  | failed {path : String} {details : List Message} {fault : ScriptFault} (hpath : IsAccepted path)
      (hdetails : ∀ message ∈ details, message.isDetail = true) (hfault : fault.isFatal = false) :
      IsAccounted ⟨path,
        .processing (Path.base path) :: details ++ [.failed (Path.base path) fault], true⟩

/-- Every file is accounted for. -/
theorem exists_processFile_eq_ok (hdir : settings.outputDir = .text outputDir)
    (houtput : '\x00' ∉ outputDir.toList) (hpath : IsAccepted path → '\x00' ∉ path.toList)
    (files : σ) :
    ∃ (report : Report) (isFailed : Bool) (after : σ),
      (processFile settings path : StateM σ _) files = ((report, .ok isFailed), after) ∧
      Handling.IsAccounted ⟨path, report.messages, isFailed⟩ := by
  cases hinput : inputOf? path with
  | none =>
    rw [processFile_of_none hinput]
    exact ⟨_, _, _, rfl, .skipped (inputOf?_eq_none_iff.1 hinput)⟩
  | some input =>
    have haccepted : IsAccepted path := by
      by_contra h
      rw [inputOf?_eq_none_iff.2 h] at hinput
      cases hinput
    rw [processFile_of_some hinput]
    have hprocessed := processed_processInput settings path input files
    generalize (processInput settings path input : StateM σ Step) files = result at hprocessed ⊢
    have hdetail := hprocessed.isDetail
    have hsurvives := hprocessed.survives hdir houtput (hpath haccepted)
    obtain ⟨⟨report, outcome⟩, after⟩ := result
    cases outcome with
    | ok value => exact ⟨_, _, _, rfl, .succeeded haccepted hdetail⟩
    | error interruption =>
      have hinterruption := hsurvives interruption rfl
      cases interruption with
      | fault fault => exact ⟨_, _, _, rfl, .failed haccepted hdetail hinterruption⟩
      | abort cause => cases hinterruption

/-! ## One file after another -/

/-- The files are handled in order, each in the state that those before it left behind. -/
inductive Handles (settings : Settings) : σ → List Handling → σ → Prop where
  | nil (files : σ) : Handles settings files [] files
  | cons {files middle after : σ} {path : String} {report : Report} {isFailed : Bool}
      {rest : List Handling}
      (hfirst : (processFile settings path : StateM σ _) files = ((report, .ok isFailed), middle))
      (hrest : Handles settings middle rest after) :
      Handles settings files (⟨path, report.messages, isFailed⟩ :: rest) after

/-- The handlings account for all of some paths, in order. -/
structure Accounts (settings : Settings) (paths : List String) (files after : σ)
    (handlings : List Handling) : Prop where
  path_eq : handlings.map Handling.path = paths
  handles : Handles settings files handlings after
  isAccounted : ∀ handling ∈ handlings, handling.IsAccounted

def failureCount (handlings : List Handling) : Nat :=
  handlings.countP Handling.isFailed

theorem failureCount_cons (handling : Handling) (handlings : List Handling) :
    failureCount (handling :: handlings) =
      if handling.isFailed then failureCount handlings + 1 else failureCount handlings := by
  rw [failureCount, failureCount, List.countP_cons]
  split <;> rfl

theorem exists_processFiles_eq_ok {paths : List String}
    (hdir : settings.outputDir = .text outputDir) (houtput : '\x00' ∉ outputDir.toList)
    (hpaths : ∀ path ∈ paths, IsAccepted path → '\x00' ∉ path.toList) (files : σ) :
    ∃ (handlings : List Handling) (report : Report) (after : σ),
      (processFiles settings paths : StateM σ _) files =
        ((report, .ok (failureCount handlings)), after) ∧
      Accounts settings paths files after handlings ∧
      report.messages = handlings.flatMap Handling.messages := by
  induction paths generalizing files with
  | nil => exact ⟨[], {}, files, rfl, ⟨rfl, .nil files, nofun⟩, rfl⟩
  | cons path rest ih =>
    obtain ⟨hpath, hrest⟩ := List.forall_mem_cons.1 hpaths
    obtain ⟨first, isFailed, middle, hfirst, haccounted⟩ :=
      exists_processFile_eq_ok hdir houtput hpath files
    obtain ⟨handlings, others, after, hothers, haccounts, hmessages⟩ := ih hrest middle
    refine ⟨⟨path, first.messages, isFailed⟩ :: handlings, first ++ others, after, ?_,
      ⟨?_, .cons hfirst haccounts.handles,
        List.forall_mem_cons.2 ⟨haccounted, haccounts.isAccounted⟩⟩, ?_⟩
    · rw [processFiles, bind_apply, hfirst, failureCount_cons]
      dsimp only
      rw [bind_apply, hothers]
      rfl
    · rw [List.map_cons, haccounts.path_eq]
    · rw [List.flatMap_cons, ← hmessages]
      rfl

/-! ## Before the first file -/

theorem asks_loadTables (directory : String) (games : List Game) :
    Asks (σ := σ) (Names.loadTables directory games) := by
  induction games with
  | nil => exact asks_pure _
  | cons game rest ih =>
    have hpresent : Asks (σ := σ)
        (FileStore.isPresent (Path.join directory (Names.tableFile game))) := fun _ ↦ rfl
    have hread : Asks (σ := σ)
        (FileStore.read (Path.join directory (Names.tableFile game))) := fun _ ↦ rfl
    refine hpresent.bind fun isThere ↦ ?_
    cases isThere with
    | false => exact ih.bind fun _ ↦ asks_pure _
    | true =>
      refine hread.bind fun content ↦ ?_
      cases content with
      | error fault => exact asks_pure _
      | ok data =>
        dsimp only
        cases Names.readTable (Path.join directory (Names.tableFile game)) data with
        | error piece => exact asks_pure _
        | ok table => exact ih.bind fun _ ↦ asks_pure _

theorem asks_loadContext (asked environment : Option String) :
    Asks (σ := σ) (Names.loadContext asked environment) := by
  have hdirectory : Asks (σ := σ) (Names.directoryPath asked environment) := by
    cases asked with
    | some path => exact asks_pure _
    | none =>
      cases environment with
      | some path => exact asks_pure _
      | none => exact fun _ ↦ rfl
  exact hdirectory.bind fun directory ↦
    (asks_loadTables directory Game.all).bind fun _ ↦ asks_pure _

/-- Whatever is found in the directory of the tables, there are names to go on with, nothing is
printed, and the files stay as they are. -/
theorem exists_loadNames_eq (asked environment : Option String) (files : σ) :
    ∃ (records : List Record) (context : NameContext),
      (loadNames asked environment : StateM σ _) files = ((⟨[], records⟩, context), files) := by
  have hfiles := asks_loadContext asked environment files
  rw [loadNames, bind_apply]
  cases hloaded : (Names.loadContext asked environment : StateM σ _) files with
  | mk loaded after =>
    rw [hloaded] at hfiles
    obtain ⟨events, context⟩ := loaded
    obtain rfl : after = files := hfiles
    cases context with
    | ok context => exact ⟨_, _, rfl⟩
    | error fault => exact ⟨_, _, rfl⟩

/-! ## The whole run -/

theorem messages_closing (count : Nat) :
    (closing (.ok count)).messages = if count = 0 then [] else [.failures count] := by
  cases count with
  | zero => rfl
  | succ count => rfl

theorem exists_performWith_eq_ok (request : Request) (environment : Environment)
    (hashDir : Option String)
    (hdir : request.outputDir.getD (.text (environment.outputDir.getD defaultOutput)) =
      .text outputDir)
    (houtput : '\x00' ∉ outputDir.toList)
    (hpaths : ∀ path ∈ ((FileStore.collect request.paths : StateM σ _) files).1,
      IsAccepted path → '\x00' ∉ path.toList) :
    ∃ (context : NameContext) (handlings : List Handling) (report : Report) (after : σ),
      (performWith request environment hashDir : StateM σ _) files =
        ((report, .ok (failureCount handlings)), after) ∧
      Accounts (settingsFor request environment context)
        ((FileStore.collect request.paths : StateM σ _) files).1 files after handlings ∧
      report.messages = handlings.flatMap Handling.messages ++
        if failureCount handlings = 0 then [] else [.failures (failureCount handlings)] := by
  obtain ⟨records, context, hnames⟩ := exists_loadNames_eq hashDir environment.hashDir files
  have hcollect := FileStore.asks_collect request.paths files
  have hsettings : (settingsFor request environment context).outputDir = .text outputDir := hdir
  obtain ⟨handlings, report, after, hrun, haccounts, hmessages⟩ :=
    exists_processFiles_eq_ok hsettings houtput hpaths files
  refine ⟨context, handlings, ⟨[], records⟩ ++ report ++ closing (.ok (failureCount handlings)),
    after, ?_, haccounts, ?_⟩
  · rw [performWith, bind_apply, hnames]
    dsimp only
    rw [bind_apply, hcollect, bind_apply, hrun]
    rfl
  · rw [← messages_closing, ← hmessages]
    rfl

theorem exists_perform_eq (request : Request) (environment : Environment)
    (h : request.hashDir ≠ some .dropped) :
    ∃ hashDir, (perform request environment : StateM σ _) =
      performWith request environment hashDir := by
  unfold perform
  cases hvalue : request.hashDir with
  | none => exact ⟨none, rfl⟩
  | some value =>
    cases value with
    | text hashDir => exact ⟨some hashDir, rfl⟩
    | dropped => exact absurd hvalue h

theorem status_finished_eq_one_iff (report : Report) (handlings : List Handling) :
    (Outcome.finished report (failureCount handlings)).status = 1 ↔
      ∃ handling ∈ handlings, handling.isFailed = true := by
  rw [Outcome.status, ← List.countP_pos_iff, ← failureCount]
  split_ifs with hzero
  · simp [hzero]
  · simp [Nat.pos_of_ne_zero hzero]

/-- A run on paths comes to its end, whatever the files are and whatever the tables of names hold,
unless the value of an option was dropped or a zero character stands in the path of the output
directory or of a file with an accepted ending. It handles every file that the paths stand for,
once and in order; it prints on each what accounts for it, and behind that the number of failures if
there are any; and the exit status is one exactly if a file failed. -/
theorem run_accounts (environment : Environment) (arguments : List String) (request : Request)
    (outputDir : String) (files : σ) (hrequest : Request.ofArguments arguments = .ok request)
    (hhelp : request.isHelp = false) (hpaths : request.paths ≠ [])
    (hhashDir : request.hashDir ≠ some .dropped)
    (hdir : request.outputDir.getD (.text (environment.outputDir.getD defaultOutput)) =
      .text outputDir)
    (houtput : '\x00' ∉ outputDir.toList)
    (hzero : ∀ path ∈ ((FileStore.collect request.paths : StateM σ _) files).1,
      IsAccepted path → '\x00' ∉ path.toList) :
    ∃ (context : NameContext) (handlings : List Handling) (report : Report) (after : σ),
      (run environment arguments : StateM σ _) files =
        (.finished report (failureCount handlings), after) ∧
      Accounts (settingsFor request environment context)
        ((FileStore.collect request.paths : StateM σ _) files).1 files after handlings ∧
      report.messages = handlings.flatMap Handling.messages ++
        (if failureCount handlings = 0 then [] else [.failures (failureCount handlings)]) ∧
      ((Outcome.finished report (failureCount handlings)).status = 1 ↔
        ∃ handling ∈ handlings, handling.isFailed = true) := by
  obtain ⟨hashDir, hperform⟩ := exists_perform_eq (σ := σ) request environment hhashDir
  obtain ⟨context, handlings, report, after, hrun, haccounts, hmessages⟩ :=
    exists_performWith_eq_ok request environment hashDir hdir houtput hzero
  refine ⟨context, handlings, shown request.verbose report, after, ?_, haccounts, hmessages,
    status_finished_eq_one_iff _ handlings⟩
  have hasked : ¬ (request.isHelp ∨ request.paths.isEmpty) := by
    simp [hhelp, hpaths]
  rw [run, hrequest]
  dsimp only
  rw [if_neg hasked, bind_apply, hperform, hrun]
  rfl

/-- A directory with a script, a file of another kind, and a container that is none. -/
def accountedDisk : Disk where
  root := .directory [("good.gsc", .file Script.oneByteSample), ("notes.txt", .file ⟨#[]⟩),
    ("bad.ff", .file ⟨#[1, 2, 3]⟩)]
  home := []

/-- The paths of a run: those of the three files, and one of a file that is missing. -/
def accountedPaths : List String := ["good.gsc", "notes.txt", "missing.gsc", "bad.ff"]

theorem run_accountedDisk :
    (match ((run ⟨none, none⟩ accountedPaths : StateM Disk Outcome) accountedDisk).1 with
      | .finished _ failures => some failures
      | _ => none) = some 2 ∧
    ((FileStore.collect accountedPaths : StateM Disk _) accountedDisk).1 = accountedPaths := by
  decide +kernel

theorem ofArguments_accountedPaths :
    Request.ofArguments accountedPaths = .ok { run := some accountedPaths } := by
  rfl

/-- The run says of each file what became of it: of four files one is processed, one is passed over
and two fail. -/
theorem run_accounts_accountedDisk :
    ∃ (handlings : List Handling) (report : Report) (after : Disk),
      (run ⟨none, none⟩ accountedPaths : StateM Disk Outcome) accountedDisk =
        (.finished report 2, after) ∧
      handlings.map Handling.path = accountedPaths ∧
      (∀ handling ∈ handlings, handling.IsAccounted) ∧
      report.messages = handlings.flatMap Handling.messages ++ [.failures 2] ∧
      (Outcome.finished report 2).status = 1 := by
  obtain ⟨hfailures, hcollect⟩ := run_accountedDisk
  have hzero : ∀ path ∈ accountedPaths, '\x00' ∉ path.toList := by decide
  rw [Disk.fileStore_eq] at hfailures hcollect ⊢
  obtain ⟨context, handlings, report, after, hrun, haccounts, hmessages, hstatus⟩ :=
    run_accounts ⟨none, none⟩ accountedPaths { run := some accountedPaths } defaultOutput
      accountedDisk ofArguments_accountedPaths rfl (by decide) nofun rfl (by decide)
      fun path hpath _ ↦ hzero path (hcollect ▸ hpath)
  rw [hrun] at hfailures
  have hcount : failureCount handlings = 2 := Option.some.inj hfailures
  rw [hcount] at hrun hmessages hstatus
  exact ⟨handlings, report, after, hrun, haccounts.path_eq.trans hcollect, haccounts.isAccounted,
    hmessages, rfl⟩

/-- A run on a path can end before it prints anything, because the value of an option was dropped;
and it can end between two files, because of a zero character in the path of the first. -/
theorem exists_run_aborted :
    (∃ report cause, ((run ⟨none, none⟩ ["--hash-dir=--", "good.gsc"] : StateM Disk Outcome)
        accountedDisk).1 = .aborted report cause ∧ report.messages = []) ∧
      ∃ report cause, ((run ⟨none, none⟩ ["\x00.gsc", "good.gsc"] : StateM Disk Outcome)
        accountedDisk).1 = .aborted report cause ∧ report.messages = [.processing "\x00.gsc"] :=
  ⟨⟨_, _, rfl, rfl⟩, ⟨_, _, rfl, rfl⟩⟩

end CompiledScript.Tool
