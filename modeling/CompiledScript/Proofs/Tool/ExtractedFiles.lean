import CompiledScript.Proofs.Container.BlockChain
import CompiledScript.Proofs.Container.Packing
import CompiledScript.Proofs.Deflate.StoredStream
import CompiledScript.Proofs.Files.Trees
import CompiledScript.Proofs.Tool.Confinement

/-!
# The files of extracted scripts

The path of an extracted script is made from the plain names in the name of the script, so scripts
of different names may share a path. They are written in order, and a script that is written later
takes the place of an earlier one with the same path. Every script is found in its file after the
extraction exactly if scripts with the same path have the same bytes.

The files are those of a disk: a tree without links, in which two names are one only if all of their
characters are the same. So two paths below the output directory lead to one file only if they are
the same path.
-/

namespace CompiledScript.Tool

open Container (EmbeddedScript)

variable {settings : Settings} {outputDir path : String} {disk after : Disk}
  {script : EmbeddedScript} {scripts : List EmbeddedScript} {report : Report}

/-! ## Paths -/

theorem extractPath_eq_iff {first second : EmbeddedScript} :
    extractPath outputDir first = extractPath outputDir second ↔
      Path.plainNames first.name = Path.plainNames second.name := by
  have hplain (name : String) : ∀ plain ∈
      ["ExtractedScripts", containerGame.title, name].flatMap Path.plainNames,
      Path.IsFileName plain := by
    intro plain h
    obtain ⟨text, -, h⟩ := List.mem_flatMap.1 h
    exact Path.isFileName_of_mem_plainNames h
  rw [extractPath, extractPath, Path.below, Path.below, Path.foldl_join_inj (hplain _) (hplain _)]
  simp only [List.flatMap_cons, List.flatMap_nil, List.append_nil, List.append_cancel_left_eq]

/-- The last of some scripts that are extracted to a path. -/
def lastAt? (outputDir path : String) (scripts : List EmbeddedScript) : Option EmbeddedScript :=
  scripts.reverse.find? fun script ↦ extractPath outputDir script = path

theorem lastAt?_cons (path : String) :
    lastAt? outputDir path (script :: scripts) =
      (lastAt? outputDir path scripts).or
        (if extractPath outputDir script = path then some script else none) := by
  rw [lastAt?, List.reverse_cons, List.find?_append, ← lastAt?, List.find?_singleton]
  simp only [decide_eq_true_eq]

theorem extractPath_of_lastAt? (h : lastAt? outputDir path scripts = some script) :
    extractPath outputDir script = path := by
  rw [lastAt?] at h
  simpa using List.find?_some h

theorem mem_of_lastAt? (h : lastAt? outputDir path scripts = some script) : script ∈ scripts :=
  List.mem_reverse.1 (List.mem_of_find?_eq_some h)

/-! ## One script after another -/

/-- Writing scripts is writing the first of them and then the others. -/
theorem writeScripts_cons_eq_ok (hdir : settings.outputDir = .text outputDir)
    (h : (writeScripts settings (script :: scripts) : StateM Disk Step) disk =
      ((report, .ok ()), after)) :
    ∃ (middle : Disk) (others : Report),
      (FileStore.writeBelow (extractPath outputDir script) script.data : StateM Disk _) disk =
        (.ok (), middle) ∧
      (writeScripts settings scripts : StateM Disk Step) middle = ((others, .ok ()), after) ∧
      report.messages = .found (extractPath outputDir script) :: others.messages := by
  rw [writeScripts, bind_apply, writeOutput, hdir] at h
  dsimp only at h
  rw [bind_apply] at h
  cases hfirst : (FileStore.writeBelow (extractPath outputDir script) script.data :
    StateM Disk _) disk with
  | mk result middle =>
    rw [hfirst] at h
    cases result with
    | error fault => cases h
    | ok value =>
      cases hothers : (writeScripts settings scripts : StateM Disk Step) middle with
      | mk step last =>
        obtain ⟨others, outcome⟩ := step
        dsimp only [pure_apply] at h
        rw [bind_apply, hothers] at h
        cases h
        exact ⟨middle, others, rfl, hothers, rfl⟩

/-- After scripts were written, a path has the bytes of the last script that is extracted to it. If
there is none, it has the bytes it had before. -/
theorem read_of_writeScripts (hdir : settings.outputDir = .text outputDir)
    (h : (writeScripts settings scripts : StateM Disk Step) disk = ((report, .ok ()), after)) :
    report.messages = scripts.map (fun script ↦ .found (extractPath outputDir script)) ∧
      ∀ path, Path.IsBelow outputDir path →
        (∀ last, lastAt? outputDir path scripts = some last → after.read path = .ok last.data) ∧
        (lastAt? outputDir path scripts = none →
          ∀ bytes, disk.read path = .ok bytes → after.read path = .ok bytes) := by
  induction scripts generalizing disk report with
  | nil =>
    cases h
    refine ⟨rfl, fun path _ ↦ ⟨nofun, fun _ bytes hbytes ↦ hbytes⟩⟩
  | cons script scripts ih =>
    obtain ⟨middle, others, hfirst, hothers, hreport⟩ := writeScripts_cons_eq_ok hdir h
    obtain ⟨made, hmade, hwrite⟩ := Disk.write_of_writeBelow hfirst
    obtain ⟨hmessages, hrest⟩ := ih hothers
    refine ⟨by rw [hreport, hmessages, List.map_cons], fun path hpath ↦ ?_⟩
    rw [lastAt?_cons]
    obtain ⟨hlast, hnone⟩ := hrest path hpath
    cases hlater : lastAt? outputDir path scripts with
    | some later =>
      refine ⟨fun last h ↦ ?_, nofun⟩
      cases h
      exact hlast later hlater
    | none =>
      rw [Option.none_or]
      split_ifs with hsame
      · refine ⟨fun last h ↦ ?_, nofun⟩
        cases h
        exact hnone hlater _ (hsame ▸ Disk.read_of_write hwrite)
      · refine ⟨nofun, fun _ bytes hbytes ↦ hnone hlater _ ?_⟩
        exact Disk.read_of_write_of_ne (isBelow_extractPath outputDir script) hpath
          (Ne.symm hsame) hwrite (hmade path bytes hbytes)

/-! ## A container -/

/-- If a container is processed without an interruption, its scripts were extracted, and a message
tells the path of each. At a path there are then the bytes of the last script that has it. Scripts
have the same path exactly if their names have the same plain names in them, so every script is in
its file exactly if scripts with the same plain names have the same bytes. -/
theorem extracted_last_of_processContainer (context : NameContext) (outputDir : String)
    (disassemble : Bool) (path : String) (disk after : Disk) (report : Report)
    (h : (processContainer ⟨context, .text outputDir, disassemble⟩ path : StateM Disk Step) disk =
      ((report, .ok ()), after)) :
    ∃ data scripts, disk.read path = .ok data ∧
      (Container.scripts containerGame.tag data).2 = .ok scripts ∧
      report.messages = scripts.map (fun script ↦ .found (extractPath outputDir script)) ∧
      (∀ script ∈ scripts, ∃ last ∈ scripts,
        lastAt? outputDir (extractPath outputDir script) scripts = some last ∧
        after.read (extractPath outputDir script) = .ok last.data) ∧
      (∀ first ∈ scripts, ∀ second ∈ scripts,
        extractPath outputDir first = extractPath outputDir second ↔
          Path.plainNames first.name = Path.plainNames second.name) ∧
      ((∀ script ∈ scripts, after.read (extractPath outputDir script) = .ok script.data) ↔
        ∀ first ∈ scripts, ∀ second ∈ scripts,
          Path.plainNames first.name = Path.plainNames second.name → first.data = second.data) := by
  rw [Disk.fileStore_eq] at h
  have hprocessed := processed_container ⟨context, .text outputDir, disassemble⟩ path disk
  rw [h] at hprocessed
  obtain ⟨data, scripts, ⟨others, outcome⟩, hread, hscripts, hwrite, rfl, hreport⟩ :=
    hprocessed.exists_extracted rfl
  rw [← Disk.fileStore_eq] at hwrite
  obtain ⟨hmessages, hfiles⟩ := read_of_writeScripts rfl hwrite
  have hlast (script) (hscript : script ∈ scripts) : ∃ last ∈ scripts,
      lastAt? outputDir (extractPath outputDir script) scripts = some last ∧
      after.read (extractPath outputDir script) = .ok last.data := by
    have hsome : (lastAt? outputDir (extractPath outputDir script) scripts).isSome := by
      rw [lastAt?, List.find?_isSome]
      exact ⟨script, List.mem_reverse.2 hscript, decide_eq_true rfl⟩
    obtain ⟨last, hlast⟩ := Option.isSome_iff_exists.1 hsome
    exact ⟨last, mem_of_lastAt? hlast, hlast,
      (hfiles _ (isBelow_extractPath outputDir script)).1 last hlast⟩
  refine ⟨data, scripts, hread, hscripts, hreport.symm.trans hmessages, hlast,
    fun _ _ _ _ ↦ extractPath_eq_iff, fun hall ↦ ?_, fun hsame ↦ ?_⟩
  · intro first hfirst second hsecond hnames
    have hpath : extractPath outputDir first = extractPath outputDir second :=
      extractPath_eq_iff.2 hnames
    have hbytes := (hall first hfirst).symm.trans (hpath ▸ hall second hsecond)
    exact Except.ok.inj hbytes
  · intro script hscript
    obtain ⟨last, hmember, hlast, hbytes⟩ := hlast script hscript
    have hnames := extractPath_eq_iff.1 (extractPath_of_lastAt? hlast)
    rw [hbytes, hsame last hmember script hscript hnames]

/-! ## Two scripts with one path -/

/-- A payload with two scripts whose headers overlap. Their names are `s` and `/s`, and their
lengths one and two. -/
def sharedPayload : List UInt8 :=
  [0x80, 0x47, 0x53, 0x43, 0x0D, 0x0A, 0x00, 0x03, 0x80, 0x47, 0x53, 0x43, 0x0D, 0x0A, 0x00, 0x03,
    0, 0, 0, 0, 0, 0, 0, 0, 0, 0, 0, 0, 0, 0, 0, 0, 0, 0, 0, 0, 0, 0, 0, 0,
    1, 0, 0, 0, 0, 0, 0, 0, 2, 0, 0, 0, 63, 0, 0, 0, 0, 0, 0, 0, 54, 0, 0x2F, 0x73, 0]

def sharedContainer : ByteArray :=
  ⟨(Container.openingCode (fun _ ↦ 0) 65 ++ Container.headerCode ⟨70, 65, 70, 0x248⟩ ++
    Deflate.storedStream sharedPayload).toArray⟩

def sharedScripts : List EmbeddedScript := [⟨"s", ⟨#[0x80]⟩, 0⟩, ⟨"/s", ⟨#[0x80, 0x47]⟩, 8⟩]

def sharedPath : String := "Out/ExtractedScripts/Black Ops III/sc"

/-- A directory with one container. -/
def diskOf (container : ByteArray) : Disk where
  root := .directory [("zone.ff", .file container)]
  home := []

theorem read_diskOf (container : ByteArray) :
    FileSystem.read (diskOf container) "zone.ff" = .ok container := rfl

-- The bytes are compared as arrays: which comparison of byte arrays is found depends on imports.
instance : DecidableEq EmbeddedScript := fun first second ↦
  decidable_of_iff (first.path = second.path ∧ first.data.data = second.data.data ∧
    first.offset = second.offset) <| by
  rw [← ByteArray.ext_iff, EmbeddedScript.mk.injEq]

theorem run_sharedContainer :
    sharedScripts.map (extractPath "Out") = [sharedPath, sharedPath] ∧
      (Container.scripts containerGame.tag sharedContainer).2.toOption = some sharedScripts ∧
      ((writeScripts ⟨.empty, .text "Out", false⟩ sharedScripts : StateM Disk Step)
        (diskOf sharedContainer)).1.2.toOption = some () := by
  decide +kernel

theorem extractPath_sharedScripts :
    sharedScripts.map (extractPath "Out") = [sharedPath, sharedPath] :=
  run_sharedContainer.1

theorem scripts_sharedContainer :
    (Container.scripts containerGame.tag sharedContainer).2 = .ok sharedScripts :=
  toOption_eq_some_iff.1 run_sharedContainer.2.1

theorem lastAt?_sharedScripts :
    lastAt? "Out" sharedPath sharedScripts = some ⟨"/s", ⟨#[0x80, 0x47]⟩, 8⟩ := by
  have hlast := (List.cons.inj (List.cons.inj extractPath_sharedScripts).2).1
  rw [sharedScripts, lastAt?_cons, lastAt?_cons, if_pos hlast]
  rfl

theorem processContainer_sharedContainer :
    ∃ report after, (processContainer ⟨.empty, .text "Out", false⟩ "zone.ff" : StateM Disk Step)
        (diskOf sharedContainer) = ((report, .ok ()), after) ∧
      after.read sharedPath = .ok ⟨#[0x80, 0x47]⟩ := by
  have houtcome := toOption_eq_some_iff.1 run_sharedContainer.2.2
  cases hwrite : (writeScripts ⟨.empty, .text "Out", false⟩ sharedScripts : StateM Disk Step)
      (diskOf sharedContainer) with
  | mk step after =>
    obtain ⟨report, outcome⟩ := step
    rw [hwrite] at houtcome
    cases houtcome
    have hbelow : Path.IsBelow "Out" sharedPath :=
      (List.cons.inj extractPath_sharedScripts).1 ▸ isBelow_extractPath "Out" _
    have hread := ((read_of_writeScripts rfl hwrite).2 sharedPath hbelow).1 _ lastAt?_sharedScripts
    rw [Disk.fileStore_eq] at hwrite ⊢
    rw [processContainer_of_ok (read_diskOf sharedContainer) scripts_sharedContainer, hwrite]
    exact ⟨_, after, rfl, hread⟩

/-- The names of both scripts have the same plain names in them. Both scripts are reported under one
path, and not both can be found there. -/
theorem extracted_last_of_sharedContainer :
    ∃ report after, (processContainer ⟨.empty, .text "Out", false⟩ "zone.ff" : StateM Disk Step)
        (diskOf sharedContainer) = ((report, .ok ()), after) ∧
      report.messages = [.found sharedPath, .found sharedPath] ∧
      Path.plainNames "sc" = Path.plainNames "/sc" ∧
      ¬ ∀ script ∈ sharedScripts, after.read (extractPath "Out" script) = .ok script.data := by
  obtain ⟨report, after, hrun, -⟩ := processContainer_sharedContainer
  obtain ⟨data, scripts, hread, hscripts, hmessages, -, hpaths, hall⟩ :=
    extracted_last_of_processContainer .empty "Out" false "zone.ff" (diskOf sharedContainer) after
      report hrun
  cases (read_diskOf sharedContainer).symm.trans hread
  cases scripts_sharedContainer.symm.trans hscripts
  obtain ⟨hfirst, hsecond⟩ := List.cons.inj extractPath_sharedScripts
  have hlater : ⟨"/s", ⟨#[0x80, 0x47]⟩, 8⟩ ∈ sharedScripts :=
    List.mem_cons_of_mem _ List.mem_cons_self
  have hnames := (hpaths _ List.mem_cons_self _ hlater).1
    (hfirst.trans (List.cons.inj hsecond).1.symm)
  refine ⟨report, after, hrun, ?_, hnames, ?_⟩
  · calc
      report.messages = (sharedScripts.map (extractPath "Out")).map .found := by
        rw [hmessages, List.map_map]
        rfl
      _ = [.found sharedPath, .found sharedPath] := by
        rw [extractPath_sharedScripts]
        rfl
  · rw [hall]
    intro hsame
    exact nomatch hsame _ List.mem_cons_self _ hlater hnames

/-- A container can be processed without an interruption, and yet one of its scripts is in no
file. -/
theorem exists_extracted_script_lost :
    ∃ (disk after : Disk) (report : Report) (data : ByteArray) (scripts : List EmbeddedScript)
      (lost : EmbeddedScript),
      (processContainer ⟨.empty, .text "Out", false⟩ "zone.ff" : StateM Disk Step) disk =
        ((report, .ok ()), after) ∧
      disk.read "zone.ff" = .ok data ∧
      (Container.scripts containerGame.tag data).2 = .ok scripts ∧ lost ∈ scripts ∧
      after.read (extractPath "Out" lost) ≠ .ok lost.data := by
  obtain ⟨report, after, hrun, hread⟩ := processContainer_sharedContainer
  refine ⟨_, after, report, _, sharedScripts, ⟨"s", ⟨#[0x80]⟩, 0⟩, hrun,
    read_diskOf sharedContainer, scripts_sharedContainer, List.mem_cons_self, ?_⟩
  rw [(List.cons.inj extractPath_sharedScripts).1, hread]
  exact fun h ↦ nomatch h

end CompiledScript.Tool
