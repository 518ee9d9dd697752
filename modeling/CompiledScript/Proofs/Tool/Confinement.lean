import CompiledScript.Proofs.Script.LoadFaults
import CompiledScript.Proofs.Script.Retained
import CompiledScript.Proofs.Tool.Steps

/-!
# Everything is written below the output directory

The names of extracted scripts and the paths of listings are taken from data that nobody has
checked. Whatever they are, the tool asks a file system only for files below the output directory
and for directories in which such files lie, and it asks for nothing where the bytes of a file
cannot be decoded. The statement is about the journal of a run, so it covers changes that fail as
well as those that come about.
-/

namespace CompiledScript

/-- The change writes a file below the root, or makes a directory in which such a file lies. -/
def Change.StaysBelow (root : String) : Change → Prop
  | .write path _ => Path.IsBelow root path
  | .makeDirectory directory => ∃ path, Path.IsBelow root path ∧ Path.LiesIn path directory

theorem FileStore.notes_writeBelow_of_isBelow {σ : Type} [FileSystem σ] {root path : String}
    {content : ByteArray} (h : Path.IsBelow root path) :
    Notes (σ := σ) (Change.StaysBelow root) (writeBelow path content)
      (writeBelow path content) := by
  obtain ⟨base, name, hname, rfl⟩ := h.exists_join
  exact notes_writeBelow hname h fun directory hdirectory ↦ ⟨_, h, hdirectory⟩

namespace Tool

variable {σ : Type} [FileSystem σ] {settings : Settings} {outputDir : String}

/-! ## Paths of extracted scripts and of listings -/

theorem isBelow_extractPath (outputDir : String) (script : Container.EmbeddedScript) :
    Path.IsBelow outputDir (extractPath outputDir script) := by
  apply Path.isBelow_below
  have hfirst : Path.plainNames "ExtractedScripts" = ["ExtractedScripts"] := rfl
  rw [List.flatMap_cons, hfirst]
  exact List.cons_ne_nil _ _

theorem slash_not_mem_listingEnding (script : Script String) (path : String) :
    '/' ∉ (listingEnding script path).toList := by
  have hextension (path : String) : '/' ∉ (Path.fileExtension path).toList :=
    fun h ↦ Path.slash_not_mem_lastName (Path.mem_of_mem_fileExtension h)
  unfold listingEnding
  rw [String.toList_append, List.mem_append]
  rintro (h | h)
  · revert h
    decide
  · split at h
    · exact hextension _ h
    · exact hextension _ h

theorem isBelow_listingPath {script : Script String} (hgame : script.game = .blackOps3)
    (outputDir path : String) : Path.IsBelow outputDir (listingPath outputDir script path) := by
  have hbelow : Path.IsBelow outputDir (Path.below outputDir [script.game.title, script.path]) := by
    apply Path.isBelow_below
    have hfirst : Path.plainNames script.game.title = ["Black Ops III"] := by
      rw [hgame]
      rfl
    rw [List.flatMap_cons, hfirst]
    exact List.cons_ne_nil _ _
  refine hbelow.append (slash_not_mem_listingEnding script path) ?_
  rw [listingEnding, String.toList_append, List.length_append]
  exact Nat.le_add_right_of_le (by decide)

/-! ## The journal of a run -/

theorem notes_writeOutput (hdir : settings.outputDir = .text outputDir) {place : String → String}
    {data : ByteArray} (h : Path.IsBelow outputDir (place outputDir)) :
    Notes (σ := σ) (Change.StaysBelow outputDir) (writeOutput settings place data)
      (writeOutput settings place data) := by
  unfold writeOutput
  rw [hdir]
  refine (FileStore.notes_writeBelow_of_isBelow h).bind fun written ↦ ?_
  cases written with
  | error fault => exact notes_pure _
  | ok value => exact notes_pure _

theorem notes_writeScripts (hdir : settings.outputDir = .text outputDir)
    (scripts : List Container.EmbeddedScript) :
    Notes (σ := σ) (Change.StaysBelow outputDir) (writeScripts settings scripts)
      (writeScripts settings scripts) := by
  induction scripts with
  | nil => exact notes_pure _
  | cons script rest ih =>
    refine (notes_writeOutput hdir (isBelow_extractPath outputDir script)).bind fun result ↦ ?_
    cases result with
    | error interruption => exact notes_pure _
    | ok path => exact ih.bind fun step ↦ notes_pure _

theorem notes_processContainer (hdir : settings.outputDir = .text outputDir) (path : String) :
    Notes (σ := σ) (Change.StaysBelow outputDir) (processContainer settings path)
      (processContainer settings path) := by
  refine (notes_answer fun files ↦ FileSystem.read files path).bind fun content ↦ ?_
  cases content with
  | error fault => exact notes_pure _
  | ok data =>
    dsimp only
    cases (Container.scripts containerGame.tag data).2 with
    | error fault => exact notes_pure _
    | ok scripts => exact (notes_writeScripts hdir scripts).bind fun step ↦ notes_pure _

theorem notes_processScript (hdir : settings.outputDir = .text outputDir) (path : String) :
    Notes (σ := σ) (Change.StaysBelow outputDir) (processScript settings path)
      (processScript settings path) := by
  refine (notes_answer fun files ↦ FileSystem.read files path).bind fun content ↦ ?_
  cases content with
  | error fault => exact notes_pure _
  | ok data =>
    dsimp only
    cases hload : (Script.load settings.context none data).result with
    | error fault => exact notes_pure _
    | ok script =>
      dsimp only
      split
      · have hgame : script.game = .blackOps3 := Script.game_of_load_result_eq_ok hload
        refine (notes_writeOutput hdir (isBelow_listingPath hgame outputDir path)).bind
          fun result ↦ ?_
        cases result with
        | error interruption => exact notes_pure _
        | ok written => exact notes_pure _
      · exact notes_pure _

theorem notes_processFile (hdir : settings.outputDir = .text outputDir) (path : String) :
    Notes (σ := σ) (Change.StaysBelow outputDir) (processFile settings path)
      (processFile settings path) := by
  unfold processFile
  split
  · exact notes_pure _
  · rename_i input hinput
    cases input with
    | container => exact (notes_processContainer hdir path).bind fun step ↦ notes_pure _
    | script => exact (notes_processScript hdir path).bind fun step ↦ notes_pure _

/-- A file that fails over its bytes leaves the files as they were. -/
theorem files_eq_of_failed_data {path name : String} {fault : Fault} {files : σ}
    (h : .failed name (.data fault) ∈
      ((processFile settings path : StateM σ _) files).1.1.messages) :
    ((processFile settings path : StateM σ _) files).2 = files := by
  cases hinput : inputOf? path with
  | none => rw [processFile_of_none hinput]
  | some input =>
    rw [processFile_of_some hinput] at h ⊢
    have hprocessed := processed_processInput settings path input files
    exact hprocessed.files_eq_of_data (eq_error_of_failed_mem hprocessed.isDetail h)

/-- Whatever the file system, the file and its bytes, the names that are known and the output
directory: with a journal the tool does what it does without one. The journal accounts for
everything that becomes of the files. It asks for files below the output directory, behind which
stand only names that lead inwards, and for directories in which such files lie. If the bytes of the
file are faulty, it is empty. -/
theorem processFile_confined (context : NameContext) (outputDir : String) (disassemble : Bool)
    (path : String) (files : σ) :
    ∃ (outcome : Report × Except Abort Bool) (after : σ) (changes : List Change),
      (processFile ⟨context, .text outputDir, disassemble⟩ path : StateM σ _) files =
        (outcome, after) ∧
      (processFile ⟨context, .text outputDir, disassemble⟩ path : StateM (Journaled σ) _)
        ⟨files, []⟩ = (outcome, ⟨after, changes⟩) ∧
      after = FileSystem.after files changes ∧
      (∀ file content, .write file content ∈ changes → Path.IsBelow outputDir file) ∧
      (∀ directory, .makeDirectory directory ∈ changes →
        ∃ file, Path.IsBelow outputDir file ∧ Path.LiesIn file directory) ∧
      ∀ name fault, .failed name (.data fault) ∈ outcome.1.messages →
        changes = [] ∧ after = files := by
  generalize hsettings : (⟨context, .text outputDir, disassemble⟩ : Settings) = settings
  have hdir : settings.outputDir = .text outputDir := by rw [← hsettings]
  obtain ⟨changes, hallowed, hafter, hrun⟩ := notes_processFile hdir path files []
  cases hplain : (processFile settings path : StateM σ _) files with
  | mk outcome after =>
    rw [hplain] at hafter hrun
    refine ⟨outcome, after, changes, rfl, hrun, hafter, ?_, ?_, ?_⟩
    · exact fun file content h ↦ hallowed _ h
    · exact fun directory h ↦ hallowed _ h
    · intro name fault hfailed
      have hunchanged : ((processFile settings path : StateM (Journaled σ) _) ⟨files, []⟩).2 =
          ⟨files, []⟩ := files_eq_of_failed_data (by rw [hrun]; exact hfailed)
      rw [hrun] at hunchanged
      exact ⟨congrArg Journaled.changes hunchanged, congrArg Journaled.files hunchanged⟩

end Tool
end CompiledScript
