import CompiledScript.Proofs.Files.Systems
import CompiledScript.Proofs.Script.ExportSoundness
import CompiledScript.Proofs.Script.LoadFaults
import CompiledScript.Script.Batch
import Mathlib.Data.List.Forall2

/-!
# The files of a batch do not affect each other

A batch goes on after a file that cannot be read or decoded, so what becomes of a file is what would
become of it alone, and the failures that the batch notes are those of its files in their order.
This rests on what decoding can fail with: bytes give rise only to faults that a batch survives.
-/

namespace CompiledScript

theorem Fault.isFatal_of_kind_mem {fault : Fault} {kinds : List Fault.Kind}
    (h : fault.kind ∈ kinds) (hclosed : .closed ∉ kinds) (hzero : .zeroBoundary ∉ kinds) :
    fault.isFatal = false := by
  unfold Fault.isFatal
  rw [Bool.or_eq_false_iff, decide_eq_false_iff_not, decide_eq_false_iff_not]
  exact ⟨fun hkind ↦ hclosed (hkind ▸ h), fun hkind ↦ hzero (hkind ▸ h)⟩

/-- Bytes never make the reader fail in a way that is not theirs. -/
theorem Script.isFatal_of_load_result_eq_error {context : NameContext} {tag : Option String}
    {data : ByteArray} {fault : Fault} (h : (Script.load context tag data).result = .error fault) :
    fault.isFatal = false :=
  Fault.isFatal_of_kind_mem (Script.kind_of_load_result_eq_error h).1 (by decide) (by decide)

namespace Batch

variable {σ : Type} [FileSystem σ] {files : σ} {path : String}

/-- What becomes of a file whose content is given. -/
def outcomeOf (context : NameContext) (tag : Option String) :
    Except FileFault ByteArray → Except ScriptFault (Script String)
  | .error fault => .error (.file fault)
  | .ok data => (Script.load context tag data).result.mapError .data

/-- The failure that a result adds to those of a batch, if it is one. -/
def failure? (result : LoadResult) : Option (String × ScriptFault) :=
  match result.outcome with
  | .ok _ => none
  | .error fault => some (Path.base result.path, fault)

theorem note_eq (batch : Batch) (result : LoadResult) :
    batch.note result = { batch with failures := batch.failures ++ (failure? result).toList } := by
  unfold note failure?
  cases result.outcome with
  | ok script => simp
  | error fault => rfl

theorem loadScript_apply (context : NameContext) (tag : Option String) (path : String) (files : σ) :
    (loadScript context tag path : StateM σ _) files =
      (outcomeOf context tag (FileSystem.read files path), files) := by
  rw [loadScript, bind_apply, FileStore.read_apply]
  cases FileSystem.read files path <;> rfl

theorem isFatal_of_outcomeOf {context : NameContext} {tag : Option String}
    {content : Except FileFault ByteArray} {fault : ScriptFault}
    (hcontent : ∀ cause, content = .error cause → cause.isFatal = false)
    (h : outcomeOf context tag content = .error fault) : fault.isFatal = false := by
  cases content with
  | error cause =>
    cases h
    exact hcontent cause rfl
  | ok data =>
    cases hload : (Script.load context tag data).result with
    | ok script =>
      rw [outcomeOf, hload] at h
      cases h
    | error cause =>
      rw [outcomeOf, hload] at h
      cases h
      exact Script.isFatal_of_load_result_eq_error hload

theorem fatal?_outcomeOf {context : NameContext} {tag : Option String}
    {content : Except FileFault ByteArray}
    (hcontent : ∀ cause, content = .error cause → cause.isFatal = false) :
    fatal? (outcomeOf context tag content) = none := by
  cases houtcome : outcomeOf context tag content with
  | ok script => rfl
  | error fault =>
    have hfault := isFatal_of_outcomeOf hcontent houtcome
    simp [fatal?, hfault]

/-- What becomes of a file of a batch. -/
def resultOf (files : σ) (batch : Batch) (path : String) : LoadResult :=
  ⟨path, outcomeOf batch.context batch.tag (FileSystem.read files path)⟩

/-- A file is loaded as the batch is set, and noted if it fails. -/
theorem loadFile_apply (batch : Batch)
    (hpath : ∀ fault, FileSystem.read files path = .error fault → fault.isFatal = false) :
    (batch.loadFile path : StateM σ _) files =
      (.ok (resultOf files batch path, batch.note (resultOf files batch path)), files) := by
  rw [loadFile, bind_apply, loadScript_apply]
  dsimp only
  rw [fatal?_outcomeOf hpath]
  rfl

/-- The files are loaded one after another. What the batch has noted before does not matter to
them. -/
theorem loadFiles_apply (batch : Batch) {paths : List String}
    (hpaths : ∀ path ∈ paths, ∀ fault,
      FileSystem.read files path = .error fault → fault.isFatal = false) :
    (batch.loadFiles paths : StateM σ _) files =
      (.ok (paths.map (resultOf files batch), { batch with
        failures := batch.failures ++ (paths.map (resultOf files batch)).filterMap failure? }),
        files) := by
  induction paths generalizing batch with
  | nil =>
    simp only [List.map_nil, List.filterMap_nil, List.append_nil]
    rfl
  | cons path rest ih =>
    obtain ⟨hpath, hrest⟩ := List.forall_mem_cons.1 hpaths
    have hothers := ih (batch.note (resultOf files batch path)) hrest
    rw [loadFiles, bind_apply, loadFile_apply batch hpath]
    dsimp only
    rw [bind_apply, hothers, note_eq]
    simp only [pure_apply, Except.map, List.map_cons, List.append_assoc]
    congr 4
    cases hfailure : failure? (resultOf files batch path) with
    | none => rw [List.filterMap_cons_none hfailure]; rfl
    | some failure => rw [List.filterMap_cons_some hfailure]; rfl

theorem forall₂_resultOf (batch : Batch) {paths : List String}
    (hpaths : ∀ path ∈ paths, ∀ fault,
      FileSystem.read files path = .error fault → fault.isFatal = false) :
    List.Forall₂ (fun path result ↦ result.path = path ∧
        ((⟨batch.context, batch.tag, []⟩ : Batch).loadFile path : StateM σ _) files =
          (.ok (result, ⟨batch.context, batch.tag, (failure? result).toList⟩), files))
      paths (paths.map (resultOf files batch)) := by
  rw [List.forall₂_map_right_iff, List.forall₂_same]
  intro path hpath
  have halone := loadFile_apply ⟨batch.context, batch.tag, []⟩ (hpaths path hpath)
  rw [note_eq] at halone
  exact ⟨rfl, halone⟩

/-- Where each path has bytes or an ordinary fault, a batch comes to its end. It yields one result
for each path, in order, which is the one that a batch of the same setting without a history has for
this path alone. To its failures it adds those of the results. The faults all lie with a file or its
bytes. -/
theorem loadFiles_isolated (files : σ) (batch : Batch) (paths : List String)
    (hpaths : ∀ path ∈ paths, ∀ fault,
      FileSystem.read files path = .error fault → fault.isFatal = false) :
    ∃ results : List LoadResult,
      (batch.loadFiles paths : StateM σ _) files =
        (.ok (results, { batch with
          failures := batch.failures ++ results.filterMap failure? }), files) ∧
      List.Forall₂ (fun path result ↦ result.path = path ∧
          ((⟨batch.context, batch.tag, []⟩ : Batch).loadFile path : StateM σ _) files =
            (.ok (result, ⟨batch.context, batch.tag, (failure? result).toList⟩), files))
        paths results ∧
      ∀ result ∈ results, ∀ fault, result.outcome = .error fault → fault.isFatal = false := by
  refine ⟨paths.map (resultOf files batch), loadFiles_apply batch hpaths,
    forall₂_resultOf batch hpaths, ?_⟩
  intro result hresult fault hfault
  obtain ⟨path, hpath, rfl⟩ := List.mem_map.1 hresult
  exact isFatal_of_outcomeOf (hpaths path hpath) hfault

/-- A directory with a script, and with a file of the same kind that is none. -/
def sampleFiles : Disk where
  root := .directory [("good.gsc", .file Script.oneByteSample), ("bad.gsc", .file ⟨#[1, 2, 3]⟩)]
  home := []

/-- A batch that has failed once. -/
def sampleBatch : Batch where
  context := .empty
  tag := none
  failures := [("first.gsc", .file ⟨.notFound, "first.gsc"⟩)]

/-- Between a file that is missing and one that cannot be decoded, a script is loaded. -/
theorem loadFiles_isolated_sample :
    ∃ results : List LoadResult,
      (sampleBatch.loadFiles ["none.gsc", "good.gsc", "bad.gsc"] : StateM Disk _) sampleFiles =
        (.ok (results, { sampleBatch with
          failures := sampleBatch.failures ++ results.filterMap failure? }), sampleFiles) ∧
      results.map LoadResult.path = ["none.gsc", "good.gsc", "bad.gsc"] ∧
      results.map (fun result ↦ result.outcome.isOk) = [false, true, false] ∧
      (results.filterMap failure?).map Prod.fst = ["none.gsc", "bad.gsc"] := by
  have hzero : ∀ path ∈ ["none.gsc", "good.gsc", "bad.gsc"], '\x00' ∉ path.toList := by
    decide
  have hvalues : ((sampleBatch.loadFiles ["none.gsc", "good.gsc", "bad.gsc"] : StateM Disk _)
      sampleFiles).1.toOption.map (fun loaded ↦ (loaded.1.map LoadResult.path,
        loaded.1.map (fun result ↦ result.outcome.isOk),
        (loaded.1.filterMap failure?).map Prod.fst)) =
      some (["none.gsc", "good.gsc", "bad.gsc"], [false, true, false],
        ["none.gsc", "bad.gsc"]) := by
    decide +kernel
  rw [Disk.fileStore_eq] at hvalues ⊢
  obtain ⟨results, hrun, -⟩ := loadFiles_isolated sampleFiles sampleBatch
    ["none.gsc", "good.gsc", "bad.gsc"] fun path hpath fault hread ↦
      Bool.eq_false_iff.2 fun hfatal ↦ hzero path hpath (FileSystem.zero_of_read hread hfatal)
  rw [hrun] at hvalues
  exact ⟨results, hrun, by simpa [Except.toOption] using hvalues⟩

end Batch
end CompiledScript
