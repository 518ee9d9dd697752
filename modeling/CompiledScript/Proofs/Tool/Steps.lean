import CompiledScript.Proofs.Files.Systems
import CompiledScript.Tool.Run

/-!
# Processing one file

A file is read and decoded before anything is written, so each kind of input has few ways to be
processed: it cannot be read, its bytes cannot be decoded, or something is written for it. Only the
second way ends with a fault of the bytes, and it leaves the files alone. Between the first and the
last message on a file only details are printed.
-/

namespace CompiledScript.Tool

variable {σ : Type} [FileSystem σ] {settings : Settings} {path : String} {files : σ}

/-- Whether a message tells something about a file that is being processed. -/
def Message.isDetail : Message → Bool
  | .found _ | .summary _ _ _ _ => true
  | .processing _ | .failed _ _ | .succeeded _ | .failures _ => false

/-- Whether an interruption is by a fault of the bytes of a file. -/
def Interruption.isOfData : Interruption → Bool
  | .fault (.data _) => true
  | .fault (.file _) | .abort _ => false

theorem Interruption.isOfData_ofFile (fault : FileFault) :
    (Interruption.ofFile fault).isOfData = false := by
  unfold Interruption.ofFile
  split <;> rfl

/-! ## Writing -/

/-- The step prints details only, and no fault of bytes interrupts it. -/
structure WritesOnly (step : Step) : Prop where
  isDetail : ∀ message ∈ step.1.messages, message.isDetail = true
  isOfData : ∀ interruption, step.2 = .error interruption → interruption.isOfData = false

theorem yields_writeOutput (settings : Settings) (place : String → String) (data : ByteArray) :
    Yields (σ := σ) (fun result ↦ ∀ interruption,
      result = .error interruption → interruption.isOfData = false)
      (writeOutput settings place data) := by
  unfold writeOutput
  split
  · refine yields_pure fun interruption h ↦ ?_
    cases h
    rfl
  · refine (yields_any _).bind fun written _ ↦ ?_
    cases written with
    | error fault =>
      refine yields_pure fun interruption h ↦ ?_
      cases h
      exact Interruption.isOfData_ofFile fault
    | ok value => exact yields_pure fun interruption h ↦ nomatch h

theorem writesOnly_writeScripts (settings : Settings) (scripts : List Container.EmbeddedScript) :
    Yields (σ := σ) WritesOnly (writeScripts settings scripts) := by
  induction scripts with
  | nil => exact yields_pure ⟨List.forall_mem_nil _, fun _ h ↦ nomatch h⟩
  | cons script rest ih =>
    refine (yields_writeOutput settings _ _).bind fun result hresult ↦ ?_
    cases result with
    | error interruption =>
      refine yields_pure ⟨List.forall_mem_nil _, fun other h ↦ hresult other ?_⟩
      cases h
      rfl
    | ok path =>
      refine ih.bind fun step hstep ↦ yields_pure ⟨fun message hmessage ↦ ?_, hstep.isOfData⟩
      rcases List.mem_cons.1 hmessage with rfl | hmessage
      · rfl
      · exact hstep.isDetail message hmessage

/-! ## What becomes of a file -/

def loadReport (context : NameContext) (data : ByteArray) (script : Script String) : Report :=
  ⟨[summary script], (Script.load context none data).records⟩

/-- The ways in which a file is processed, with the files that each leaves behind. -/
inductive Processed (settings : Settings) (path : String) (files : σ) :
    Input → Step × σ → Prop where
  | unread {input : Input} {fault : FileFault} (hread : FileSystem.read files path = .error fault) :
      Processed settings path files input (({}, .error (.ofFile fault)), files)
  | badContainer {data : ByteArray} {fault : Fault}
      (hread : FileSystem.read files path = .ok data)
      (hscripts : (Container.scripts containerGame.tag data).2 = .error fault) :
      Processed settings path files .container
        ((⟨[], (Container.scripts containerGame.tag data).1⟩, .error (.ofData fault)), files)
  | extracted {data : ByteArray} {scripts : List Container.EmbeddedScript} {step : Step} {after : σ}
      (hread : FileSystem.read files path = .ok data)
      (hscripts : (Container.scripts containerGame.tag data).2 = .ok scripts)
      (hwrite : (writeScripts settings scripts : StateM σ Step) files = (step, after)) :
      Processed settings path files .container
        ((⟨[], (Container.scripts containerGame.tag data).1⟩ ++ step.1, step.2), after)
  | badScript {data : ByteArray} {fault : Fault}
      (hread : FileSystem.read files path = .ok data)
      (hload : (Script.load settings.context none data).result = .error fault) :
      Processed settings path files .script
        ((⟨[], (Script.load settings.context none data).records⟩, .error (.ofData fault)), files)
  | summarized {data : ByteArray} {script : Script String}
      (hread : FileSystem.read files path = .ok data)
      (hload : (Script.load settings.context none data).result = .ok script)
      (hsetting : settings.disassemble = false) :
      Processed settings path files .script
        ((loadReport settings.context data script, .ok ()), files)
  | listed {data : ByteArray} {script : Script String} {result : Except Interruption String}
      {after : σ} (hread : FileSystem.read files path = .ok data)
      (hload : (Script.load settings.context none data).result = .ok script)
      (hsetting : settings.disassemble = true)
      (hwrite : (writeOutput settings (listingPath · script path) (Listing.text script).toUTF8 :
        StateM σ _) files = (result, after)) :
      Processed settings path files .script
        ((loadReport settings.context data script, result.map fun _ ↦ ()), after)

theorem processContainer_of_ok {data : ByteArray} {scripts : List Container.EmbeddedScript}
    (hread : FileSystem.read files path = .ok data)
    (hscripts : (Container.scripts containerGame.tag data).2 = .ok scripts) :
    (processContainer settings path : StateM σ Step) files =
      ((⟨[], (Container.scripts containerGame.tag data).1⟩ ++
          ((writeScripts settings scripts : StateM σ Step) files).1.1,
        ((writeScripts settings scripts : StateM σ Step) files).1.2),
        ((writeScripts settings scripts : StateM σ Step) files).2) := by
  rw [processContainer, bind_apply, FileStore.read_apply, hread]
  dsimp only
  rw [hscripts]
  rfl

theorem processed_container (settings : Settings) (path : String) (files : σ) :
    Processed settings path files .container
      ((processContainer settings path : StateM σ Step) files) := by
  cases hread : FileSystem.read files path with
  | error fault =>
    rw [processContainer, bind_apply, FileStore.read_apply, hread]
    exact .unread hread
  | ok data =>
    cases hscripts : (Container.scripts containerGame.tag data).2 with
    | error fault =>
      rw [processContainer, bind_apply, FileStore.read_apply, hread]
      dsimp only
      rw [hscripts]
      exact .badContainer hread hscripts
    | ok scripts =>
      rw [processContainer_of_ok hread hscripts]
      exact .extracted hread hscripts rfl

theorem processed_script (settings : Settings) (path : String) (files : σ) :
    Processed settings path files .script
      ((processScript settings path : StateM σ Step) files) := by
  rw [processScript, bind_apply, FileStore.read_apply]
  cases hread : FileSystem.read files path with
  | error fault => exact .unread hread
  | ok data =>
    dsimp only
    cases hload : (Script.load settings.context none data).result with
    | error fault => exact .badScript hread hload
    | ok script =>
      cases hsetting : settings.disassemble with
      | false => exact .summarized hread hload hsetting
      | true =>
        dsimp only
        rw [if_pos rfl, bind_apply]
        cases hwrite : (writeOutput settings (listingPath · script path)
          (Listing.text script).toUTF8 : StateM σ _) files with
        | mk result after =>
          cases result with
          | error interruption => exact .listed hread hload hsetting hwrite
          | ok written => exact .listed hread hload hsetting hwrite

/-- Every file is processed in one of the ways that are listed. -/
theorem processed_processInput (settings : Settings) (path : String) (input : Input) (files : σ) :
    Processed settings path files input
      ((processInput settings path input : StateM σ Step) files) := by
  cases input with
  | container => exact processed_container settings path files
  | script => exact processed_script settings path files

namespace Processed

variable {input : Input} {result : Step × σ}

/-- Only details are printed while a file is processed. -/
theorem isDetail (h : Processed settings path files input result) :
    ∀ message ∈ result.1.1.messages, message.isDetail = true := by
  cases h with
  | unread | badContainer | badScript => exact List.forall_mem_nil _
  | @extracted data scripts step after hread hscripts hwrite =>
    have hstep := writesOnly_writeScripts settings scripts files
    rw [hwrite] at hstep
    exact hstep.isDetail
  | summarized | listed => simp [loadReport, summary, Message.isDetail]

/-- A fault of the bytes leaves the files as they were. -/
theorem files_eq_of_data {fault : Fault} (h : Processed settings path files input result)
    (hfault : result.1.2 = .error (.fault (.data fault))) : result.2 = files := by
  cases h with
  | unread | badContainer | badScript | summarized => rfl
  | @extracted data scripts step after hread hscripts hwrite =>
    have hstep := writesOnly_writeScripts settings scripts files
    rw [hwrite] at hstep
    cases hstep.isOfData _ hfault
  | @listed data script written after hread hload hsetting hwrite =>
    have hwritten := yields_writeOutput settings (listingPath · script path)
      (Listing.text script).toUTF8 files
    rw [hwrite] at hwritten
    cases written with
    | ok value => cases hfault
    | error interruption =>
      cases hfault
      cases hwritten _ rfl

/-- Where nothing interrupts the processing of a container, its scripts were written. -/
theorem exists_extracted (h : Processed settings path files .container result)
    (hresult : result.1.2 = .ok ()) :
    ∃ data scripts step, FileSystem.read files path = .ok data ∧
      (Container.scripts containerGame.tag data).2 = .ok scripts ∧
      (writeScripts settings scripts : StateM σ Step) files = (step, result.2) ∧
      step.2 = .ok () ∧ step.1.messages = result.1.1.messages := by
  cases h with
  | unread | badContainer => cases hresult
  | @extracted data scripts step after hread hscripts hwrite =>
    exact ⟨data, scripts, step, hread, hscripts, hwrite, hresult, rfl⟩

end Processed

/-! ## The conclusion -/

theorem processFile_of_none (h : inputOf? path = none) (files : σ) :
    (processFile settings path : StateM σ _) files =
      ((⟨[], [⟨.debug, "Skipping " ++ path⟩]⟩, .ok false), files) := by
  unfold processFile
  rw [h]
  rfl

theorem processFile_of_some {input : Input} (h : inputOf? path = some input) (files : σ) :
    (processFile settings path : StateM σ _) files =
      (concluded path ((processInput settings path input : StateM σ Step) files).1,
        ((processInput settings path input : StateM σ Step) files).2) := by
  unfold processFile
  rw [h]
  rfl

/-- Only a fault of the step is reported as the failure of a file. -/
theorem eq_error_of_failed_mem {step : Step} {name : String} {fault : ScriptFault}
    (hdetail : ∀ message ∈ step.1.messages, message.isDetail = true)
    (h : .failed name fault ∈ (concluded path step).1.messages) :
    step.2 = .error (.fault fault) := by
  have hother : .failed name fault ∉ step.1.messages := fun hmember ↦ nomatch hdetail _ hmember
  obtain ⟨report, result⟩ := step
  cases result with
  | ok value =>
    have h : .failed name fault ∈ .processing (Path.base path) :: report.messages ++
      [.succeeded (Path.base path)] := h
    simp [hother] at h
  | error interruption =>
    cases interruption with
    | fault cause =>
      have h : .failed name fault ∈ .processing (Path.base path) :: report.messages ++
        [.failed (Path.base path) cause] := h
      have hcause : name = Path.base path ∧ fault = cause := by simpa [hother] using h
      rw [hcause.2]
    | abort cause =>
      have h : .failed name fault ∈ .processing (Path.base path) :: report.messages := h
      simp [hother] at h

end CompiledScript.Tool
