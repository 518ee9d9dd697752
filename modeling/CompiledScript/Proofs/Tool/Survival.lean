import CompiledScript.Proofs.Container.ExtractedScripts
import CompiledScript.Proofs.FaultKinds
import CompiledScript.Proofs.Reader.StoredTexts
import CompiledScript.Proofs.Script.Isolation
import CompiledScript.Proofs.Script.Retained
import CompiledScript.Proofs.Tool.Steps

/-!
# What the tool survives

A run goes on after everything that can befall a file: bytes that cannot be decoded, and files that
cannot be read or written. What would end it is a path with a zero character. The bytes of a file do
not lead to one, since the paths of scripts are texts that a zero byte ends. So it takes a zero
character in the path of the file itself or of the output directory.
-/

namespace CompiledScript

/-! ## Paths from bytes -/

theorem Script.zero_not_mem_path {context : NameContext} {tag : Option String} {data : ByteArray}
    {script : Script String} (h : (Script.load context tag data).result = .ok script) :
    '\x00' ∉ script.path.toList :=
  Reader.zero_not_mem_of_storedText? (Script.header_of_load_result_eq_ok h).2.1

theorem Container.zero_not_mem_name {data : ByteArray} {scripts : List EmbeddedScript}
    (h : (Container.scripts Game.blackOps3.tag data).2 = .ok scripts) {script : EmbeddedScript}
    (hscript : script ∈ scripts) : '\x00' ∉ script.name.toList := by
  unfold Container.scripts at h
  cases hunpack : (unpack data).2 with
  | error fault =>
    simp only [hunpack] at h
    cases h
  | ok payload =>
    simp only [hunpack] at h
    have hcut := cutOut_of_mem (cutOut_of_extract_eq_ok h) hscript
    have hpath := Reader.zero_not_mem_of_storedText? hcut.path_eq
    rw [EmbeddedScript.name, String.toList_append, List.mem_append]
    exact fun hzero ↦ hzero.elim hpath (by decide)

theorem Container.isFatal_of_scripts_eq_error {tag : String} {data : ByteArray} {fault : Fault}
    (h : (Container.scripts tag data).2 = .error fault) : fault.isFatal = false :=
  Fault.isFatal_of_kind_mem (Container.extractionFault_of_scripts h).kind_mem (by decide)
    (by decide)

namespace Tool

variable {σ : Type} [FileSystem σ] {settings : Settings} {outputDir path : String} {files : σ}

theorem zero_not_mem_below {texts : List String} (houtput : '\x00' ∉ outputDir.toList)
    (htexts : ∀ text ∈ texts, '\x00' ∉ text.toList) :
    '\x00' ∉ (Path.below outputDir texts).toList := by
  intro h
  rcases Path.mem_of_mem_below (by decide) h with h | ⟨text, htext, h⟩
  · exact houtput h
  · exact htexts text htext h

theorem zero_not_mem_extractPath {script : Container.EmbeddedScript}
    (houtput : '\x00' ∉ outputDir.toList) (hname : '\x00' ∉ script.name.toList) :
    '\x00' ∉ (extractPath outputDir script).toList := by
  apply zero_not_mem_below houtput
  exact List.forall_mem_cons.2 ⟨by decide,
    List.forall_mem_cons.2 ⟨by decide, List.forall_mem_singleton.2 hname⟩⟩

theorem zero_not_mem_listingPath {script : Script String} (hgame : script.game = .blackOps3)
    (houtput : '\x00' ∉ outputDir.toList) (hscript : '\x00' ∉ script.path.toList)
    (hpath : '\x00' ∉ path.toList) : '\x00' ∉ (listingPath outputDir script path).toList := by
  have hextension {path : String} (hpath : '\x00' ∉ path.toList) :
      '\x00' ∉ (Path.fileExtension path).toList := fun h ↦
    hpath (Path.front_append_lastName path.toList ▸
      List.mem_append_right _ (Path.mem_of_mem_fileExtension h))
  have hending : '\x00' ∉ (listingEnding script path).toList := by
    rw [listingEnding, String.toList_append, List.mem_append]
    refine fun h ↦ h.elim (by decide) ?_
    split
    · exact hextension hpath
    · exact hextension hscript
  rw [listingPath, String.toList_append, List.mem_append]
  refine fun h ↦ h.elim (zero_not_mem_below houtput ?_) hending
  exact List.forall_mem_cons.2 ⟨by rw [hgame]; decide, List.forall_mem_singleton.2 hscript⟩

/-! ## Interruptions -/

/-- The interruption is by a fault that lies with a file or its bytes. -/
def Interruption.IsOfInput : Interruption → Prop
  | .fault cause => cause.isFatal = false
  | .abort _ => False

theorem Interruption.isOfInput_ofFile {fault : FileFault} (h : fault.isFatal = false) :
    (Interruption.ofFile fault).IsOfInput := by
  rw [Interruption.ofFile, h]
  exact h

theorem Interruption.isOfInput_ofData {fault : Fault} (h : fault.isFatal = false) :
    (Interruption.ofData fault).IsOfInput := by
  rw [Interruption.ofData, h]
  exact h

/-- Nothing but a fault of a file or its bytes interrupts a step. -/
def Survives {α : Type} (result : Except Interruption α) : Prop :=
  ∀ interruption, result = .error interruption → interruption.IsOfInput

theorem yields_writeOutput_survives (place : String → String) (data : ByteArray)
    (hdir : settings.outputDir = .text outputDir) (hplace : '\x00' ∉ (place outputDir).toList) :
    Yields (σ := σ) Survives (writeOutput settings place data) := by
  unfold writeOutput
  rw [hdir]
  refine (FileStore.yields_writeBelow hplace).bind fun written hwritten ↦ ?_
  cases written with
  | ok value => exact yields_pure nofun
  | error fault =>
    refine yields_pure fun interruption h ↦ ?_
    cases h
    exact Interruption.isOfInput_ofFile (hwritten fault rfl)

theorem yields_writeScripts_survives {scripts : List Container.EmbeddedScript}
    (hdir : settings.outputDir = .text outputDir) (houtput : '\x00' ∉ outputDir.toList)
    (hnames : ∀ script ∈ scripts, '\x00' ∉ script.name.toList) :
    Yields (σ := σ) (fun step ↦ Survives step.2) (writeScripts settings scripts) := by
  induction scripts with
  | nil => exact yields_pure nofun
  | cons script rest ih =>
    obtain ⟨hname, hrest⟩ := List.forall_mem_cons.1 hnames
    have hplace := zero_not_mem_extractPath houtput hname
    refine (yields_writeOutput_survives (extractPath · script) script.data hdir hplace).bind
      fun result hresult ↦ ?_
    cases result with
    | error interruption =>
      refine yields_pure fun other h ↦ hresult other ?_
      cases h
      rfl
    | ok path => exact (ih hrest).bind fun step hstep ↦ yields_pure hstep

/-- Only faults of the file or its bytes interrupt the processing of a file, if no zero character
stands in its path or in that of the output directory. -/
theorem Processed.survives {input : Input} {result : Step × σ}
    (h : Processed settings path files input result) (hdir : settings.outputDir = .text outputDir)
    (houtput : '\x00' ∉ outputDir.toList) (hpath : '\x00' ∉ path.toList) :
    Survives result.1.2 := by
  intro interruption hresult
  cases h with
  | unread hread =>
    cases hresult
    exact Interruption.isOfInput_ofFile
      (Bool.eq_false_iff.2 fun hfatal ↦ hpath (FileSystem.zero_of_read hread hfatal))
  | badContainer hread hscripts =>
    cases hresult
    exact Interruption.isOfInput_ofData (Container.isFatal_of_scripts_eq_error hscripts)
  | @extracted data scripts step after hread hscripts hwrite =>
    have hstep := yields_writeScripts_survives hdir houtput
      (fun script ↦ Container.zero_not_mem_name hscripts) files
    rw [hwrite] at hstep
    exact hstep interruption hresult
  | badScript hread hload =>
    cases hresult
    exact Interruption.isOfInput_ofData (Script.isFatal_of_load_result_eq_error hload)
  | summarized => cases hresult
  | @listed data script written after hread hload hsetting hwrite =>
    have hplace := zero_not_mem_listingPath (Script.game_of_load_result_eq_ok hload) houtput
      (Script.zero_not_mem_path hload) hpath
    have hwritten := yields_writeOutput_survives (listingPath · script path)
      (Listing.text script).toUTF8 hdir hplace files
    rw [hwrite] at hwritten
    cases written with
    | ok value => cases hresult
    | error cause =>
      cases hresult
      exact hwritten _ rfl

end Tool
end CompiledScript
