import CompiledScript.Files.Tree
import CompiledScript.Proofs.Files.Paths

/-!
# File systems and their journals

The operations on files are asked of a file system, which is known only by its answers: questions
leave it as it is, and a change either comes about or fails. A journal next to the files notes every
change that is asked for, in order, whether or not it comes about. Whoever works on journaled files
does to the files what they would do without the journal, and the files end up as the noted changes
leave them, so a journal tells everything that was done to the files.
-/

namespace CompiledScript

/-- A change that is asked of files. -/
inductive Change where
  | write (path : String) (content : ByteArray)
  | makeDirectory (path : String)

def Change.path : Change → String
  | .write path _ => path
  | .makeDirectory path => path

/-- Files whose states are of type `σ`. A change leaves some state behind also when it fails. Only a
path with a zero character causes a fatal fault. -/
class FileSystem (σ : Type) where
  workingDirectory : σ → String
  isPresent : σ → String → Bool
  isDirectory : σ → String → Bool
  read : σ → String → Except FileFault ByteArray
  list : σ → String → Except FileFault (List FileEntry)
  change : Change → σ → Except FileFault Unit × σ
  zero_of_read {files : σ} {path : String} {fault : FileFault} :
    read files path = .error fault → fault.isFatal = true → '\x00' ∈ path.toList
  zero_of_change {asked : Change} {files : σ} {fault : FileFault} :
    (change asked files).1 = .error fault → fault.isFatal = true → '\x00' ∈ asked.path.toList

/-- The operations on the files of a file system. -/
instance (priority := low) {σ : Type} [FileSystem σ] : FileStore (StateM σ) where
  workingDirectory := fun files ↦ (FileSystem.workingDirectory files, files)
  isPresent path := fun files ↦ (FileSystem.isPresent files path, files)
  isDirectory path := fun files ↦ (FileSystem.isDirectory files path, files)
  read path := fun files ↦ (FileSystem.read files path, files)
  write path content := FileSystem.change (.write path content)
  makeDirectory path := FileSystem.change (.makeDirectory path)
  list path := fun files ↦ (FileSystem.list files path, files)

section Runs

variable {σ α β : Type}

theorem bind_apply (action : StateM σ α) (next : α → StateM σ β) (files : σ) :
    (action >>= next) files = next (action files).1 (action files).2 := rfl

theorem pure_apply (value : α) (files : σ) : (pure value : StateM σ α) files = (value, files) := rfl

theorem FileStore.read_apply [FileSystem σ] (path : String) (files : σ) :
    (FileStore.read path : StateM σ _) files = (FileSystem.read files path, files) := rfl

end Runs

/-! ## Trees of files -/

namespace Disk

variable {disk : Disk} {path : String} {cause : FileCause} {fault : FileFault}

theorem ne_zeroInPath_of_follow {root : Node} {here names : List String}
    (h : follow root here names = .error cause) : cause ≠ .zeroInPath := by
  induction names generalizing here with
  | nil =>
    rw [follow] at h
    split at h <;> cases h
    exact nofun
  | cons name rest ih =>
    rw [follow] at h
    split at h
    · cases h
      exact nofun
    · cases h
      exact nofun
    · split_ifs at h
      -- Three names are followed further; the fourth is too long, or leads nowhere.
      · exact ih h
      · exact ih h
      · exact ih h
      · cases h
        exact nofun
      · cases h
        exact nofun

theorem zero_of_locate (h : disk.locate path = .error .zeroInPath) : '\x00' ∈ path.toList := by
  unfold locate at h
  split at h
  · assumption
  · split at h
    · cases h
    · split at h
      · cases h
      · exact absurd rfl (ne_zeroInPath_of_follow h)

theorem zero_of_fault {path other : String} (hlocate : disk.locate path = .error cause)
    (hfatal : (⟨cause, other⟩ : FileFault).isFatal = true) : '\x00' ∈ path.toList := by
  have hcause : cause = .zeroInPath := of_decide_eq_true hfatal
  exact zero_of_locate (hcause ▸ hlocate)

theorem zero_of_read (h : disk.read path = .error fault) (hfatal : fault.isFatal = true) :
    '\x00' ∈ path.toList := by
  unfold read at h
  split at h
  · cases h
  · cases h
    cases hfatal
  · cases h
    cases hfatal
  · rename_i hlocate
    cases h
    exact zero_of_fault hlocate hfatal

theorem zero_of_write {content : ByteArray} (h : disk.write path content = .error fault)
    (hfatal : fault.isFatal = true) : '\x00' ∈ path.toList := by
  unfold write at h
  split at h
  · cases h
  · cases h
    cases hfatal
  · cases h
  · rename_i hlocate
    cases h
    exact zero_of_fault hlocate hfatal

theorem zero_of_makeDirectory (h : disk.makeDirectory path = .error fault)
    (hfatal : fault.isFatal = true) : '\x00' ∈ path.toList := by
  unfold makeDirectory at h
  split at h
  · cases h
    cases hfatal
  · cases h
  · rename_i hlocate
    cases h
    have hzero := zero_of_fault hlocate hfatal
    rw [String.toList_ofList] at hzero
    exact Path.dropSlashes_isPrefix.subset hzero

/-- A change of a tree of files. -/
def change : Change → Disk → Except FileFault Unit × Disk
  | .write path content => attempt (·.write path content)
  | .makeDirectory path => attempt (·.makeDirectory path)

theorem attempt_fst_eq_error (action : Disk → Except FileFault Disk)
    (h : (attempt action disk).1 = .error fault) : action disk = .error fault := by
  unfold attempt at h
  split at h
  · cases h
  · rename_i hchange
    cases h
    exact hchange

theorem zero_of_change {asked : Change} (h : (change asked disk).1 = .error fault)
    (hfatal : fault.isFatal = true) : '\x00' ∈ asked.path.toList := by
  cases asked with
  | write path content =>
    rw [change] at h
    have hwrite := attempt_fst_eq_error _ h
    exact zero_of_write hwrite hfatal
  | makeDirectory path =>
    rw [change] at h
    have hmake := attempt_fst_eq_error _ h
    exact zero_of_makeDirectory hmake hfatal

instance : FileSystem Disk where
  workingDirectory := homePath
  isPresent := isPresent
  isDirectory := isDirectory
  read := read
  list := list
  change := change
  zero_of_read := zero_of_read
  zero_of_change := zero_of_change

/-- The operations on a tree of files are those that it has as a file system. -/
theorem fileStore_eq :
    instFileStoreStateMDisk = (instFileStoreStateMOfFileSystem : FileStore (StateM Disk)) := by
  have hwrite : (fun path content ↦ attempt (·.write path content)) =
      fun path content ↦ change (.write path content) := by
    funext path content
    rw [change]
  have hmake : (fun path ↦ attempt (·.makeDirectory path)) =
      fun path ↦ change (.makeDirectory path) := by
    funext path
    rw [change]
  unfold instFileStoreStateMDisk instFileStoreStateMOfFileSystem
  rw [hwrite, hmake]
  rfl

end Disk

/-! ## Journals -/

/-- Files with the changes that have been asked of them. -/
structure Journaled (σ : Type) where
  files : σ
  changes : List Change

instance {σ : Type} [FileSystem σ] : FileSystem (Journaled σ) where
  workingDirectory state := FileSystem.workingDirectory state.files
  isPresent state := FileSystem.isPresent state.files
  isDirectory state := FileSystem.isDirectory state.files
  read state := FileSystem.read state.files
  list state := FileSystem.list state.files
  change asked state :=
    ((FileSystem.change asked state.files).1,
      ⟨(FileSystem.change asked state.files).2, state.changes ++ [asked]⟩)
  zero_of_read := FileSystem.zero_of_read
  zero_of_change := FileSystem.zero_of_change

variable {σ α β : Type}

section Changes

variable [FileSystem σ]

/-- The files after some changes were asked of them. -/
def FileSystem.after (files : σ) (changes : List Change) : σ :=
  changes.foldl (fun files asked ↦ (FileSystem.change asked files).2) files

theorem FileSystem.after_append (files : σ) (first second : List Change) :
    FileSystem.after files (first ++ second) =
      FileSystem.after (FileSystem.after files first) second :=
  List.foldl_append

/-- On journaled files the second action does what the first one does without a journal. The changes
that it notes are allowed ones, and account for what became of the files. -/
def Notes (allowed : Change → Prop) (plain : StateM σ α) (journaled : StateM (Journaled σ) α) :
    Prop :=
  ∀ (files : σ) (earlier : List Change), ∃ changes : List Change,
    (∀ asked ∈ changes, allowed asked) ∧
    (plain files).2 = FileSystem.after files changes ∧
    journaled ⟨files, earlier⟩ = ((plain files).1, ⟨(plain files).2, earlier ++ changes⟩)

section Notes

variable {allowed : Change → Prop}

/-- What only asks questions notes nothing. -/
theorem notes_answer (answer : σ → α) :
    Notes allowed (fun files ↦ (answer files, files))
      (fun state ↦ (answer state.files, state)) := by
  intro files earlier
  exact ⟨[], by simp, rfl, by rw [List.append_nil]⟩

theorem notes_pure (value : α) : Notes (σ := σ) allowed (pure value) (pure value) :=
  notes_answer fun _ ↦ value

theorem notes_change {asked : Change} (h : allowed asked) :
    Notes (σ := σ) allowed (FileSystem.change asked) (FileSystem.change asked) := by
  intro files earlier
  exact ⟨[asked], by simpa using h, rfl, rfl⟩

theorem Notes.bind {plain : StateM σ α} {journaled : StateM (Journaled σ) α}
    {next : α → StateM σ β} {next' : α → StateM (Journaled σ) β} (h : Notes allowed plain journaled)
    (hnext : ∀ value, Notes allowed (next value) (next' value)) :
    Notes allowed (plain >>= next) (journaled >>= next') := by
  intro files earlier
  obtain ⟨first, hfirst, hstate, hrun⟩ := h files earlier
  obtain ⟨second, hsecond, hstate', hrun'⟩ :=
    hnext (plain files).1 (plain files).2 (earlier ++ first)
  refine ⟨first ++ second, ?_, ?_, ?_⟩
  · intro asked hasked
    exact (List.mem_append.1 hasked).elim (hfirst asked) (hsecond asked)
  · rw [FileSystem.after_append, ← hstate]
    exact hstate'
  · change (next' (journaled ⟨files, earlier⟩).1) (journaled ⟨files, earlier⟩).2 = _
    rw [hrun]
    exact hrun'.trans (by rw [List.append_assoc]; rfl)

end Notes
end Changes

/-! ## What an action yields -/

/-- Whatever the files are, the action yields a value with the property. -/
def Yields (property : α → Prop) (action : StateM σ α) : Prop :=
  ∀ files : σ, property (action files).1

section Yields

variable {property : α → Prop} {property' : β → Prop}

theorem yields_pure {value : α} (h : property value) : Yields (σ := σ) property (pure value) :=
  fun _ ↦ h

theorem Yields.bind {action : StateM σ α} {next : α → StateM σ β} (h : Yields property action)
    (hnext : ∀ value, property value → Yields property' (next value)) :
    Yields property' (action >>= next) :=
  fun files ↦ hnext (action files).1 (h files) (action files).2

theorem yields_any (action : StateM σ α) : Yields (fun _ ↦ True) action :=
  fun _ ↦ trivial

end Yields

/-- The action leaves the files as they are. -/
def Asks (action : StateM σ α) : Prop :=
  ∀ files : σ, (action files).2 = files

section Asks

theorem asks_pure (value : α) : Asks (σ := σ) (pure value) :=
  fun _ ↦ rfl

theorem Asks.bind {action : StateM σ α} {next : α → StateM σ β} (h : Asks action)
    (hnext : ∀ value, Asks (next value)) : Asks (action >>= next) :=
  fun files ↦ (hnext (action files).1 (action files).2).trans (h files)

theorem asks_mapM {action : α → StateM σ β} (values : List α) (h : ∀ value, Asks (action value)) :
    Asks (values.mapM action) := by
  induction values with
  | nil => exact asks_pure _
  | cons value values ih =>
    rw [List.mapM_cons]
    exact (h value).bind fun _ ↦ ih.bind fun _ ↦ asks_pure _

end Asks

/-! ## Making directories and writing files -/

namespace FileStore

variable [FileSystem σ] {allowed : Change → Prop}

theorem notes_ensureDirectory {path : String} (h : allowed (.makeDirectory path)) :
    Notes (σ := σ) allowed (ensureDirectory path) (ensureDirectory path) := by
  refine (notes_change h).bind fun made ↦ ?_
  cases made with
  | ok value => exact notes_pure _
  | error fault =>
    refine (notes_answer fun files ↦ FileSystem.isDirectory files path).bind fun isThere ↦ ?_
    cases isThere with
    | false => exact notes_pure _
    | true => exact notes_pure _

theorem notes_ensureChain {directories : List (List Char)}
    (h : ∀ directory ∈ directories, allowed (.makeDirectory (String.ofList directory))) :
    Notes (σ := σ) allowed (ensureChain directories) (ensureChain directories) := by
  induction directories with
  | nil => exact notes_pure _
  | cons path outer ih =>
    obtain ⟨hpath, houter⟩ := List.forall_mem_cons.1 h
    cases outer with
    | nil => exact notes_ensureDirectory hpath
    | cons outside rest =>
      refine (notes_answer fun files ↦ FileSystem.isPresent files (String.ofList outside)).bind
        fun isThere ↦ ?_
      cases isThere with
      | true => exact notes_ensureDirectory hpath
      | false =>
        refine (ih houter).bind fun made ↦ ?_
        split
        · exact notes_pure _
        · split
          · exact notes_pure _
          · exact notes_ensureDirectory hpath

theorem notes_ensureDirectories {path : String}
    (h : ∀ directory ∈ Path.chain path.toList, allowed (.makeDirectory (String.ofList directory))) :
    Notes (σ := σ) allowed (ensureDirectories path) (ensureDirectories path) :=
  notes_ensureChain h

/-- Writing a file below directories asks for the file itself and for directories that it lies
in. -/
theorem notes_writeBelow {base name : String} {content : ByteArray} (hname : Path.IsFileName name)
    (hwrite : allowed (.write (Path.join base name) content))
    (hmake : ∀ directory, Path.LiesIn (Path.join base name) directory →
      allowed (.makeDirectory directory)) :
    Notes (σ := σ) allowed (writeBelow (Path.join base name) content)
      (writeBelow (Path.join base name) content) := by
  refine (notes_ensureDirectories fun directory hdirectory ↦
    hmake _ (Path.liesIn_of_mem_chain hname hdirectory)).bind fun made ↦ ?_
  cases made with
  | error fault => exact notes_pure _
  | ok value => exact notes_change hwrite

theorem asks_filesBelow (levels : Nat) (path : String) :
    Asks (σ := σ) (filesBelow levels path) := by
  induction levels generalizing path with
  | zero => exact asks_pure _
  | succ levels ih =>
    have hlist : Asks (σ := σ) (list path) := fun _ ↦ rfl
    refine hlist.bind fun listed ↦ ?_
    cases listed with
    | error fault => exact asks_pure _
    | ok entries => exact (asks_mapM _ fun name ↦ ih (Path.join path name)).bind fun _ ↦ asks_pure _

theorem asks_collect (paths : List String) : Asks (σ := σ) (collect paths) := by
  induction paths with
  | nil => exact asks_pure _
  | cons path rest ih =>
    have hrest (found : List String) : Asks (σ := σ) (do return found ++ (← collect rest)) :=
      ih.bind fun _ ↦ asks_pure _
    have hasked : Asks (σ := σ) (isDirectory path) := fun _ ↦ rfl
    refine hasked.bind fun isThere ↦ ?_
    cases isThere with
    | false => exact (asks_pure _).bind hrest
    | true => exact (asks_filesBelow maxLevels path).bind hrest

/-! ## Fatal faults -/

/-- The result is not a fatal fault. -/
def IsOrdinary (result : Except FileFault Unit) : Prop :=
  ∀ fault, result = .error fault → fault.isFatal = false

theorem yields_change {asked : Change} (h : '\x00' ∉ asked.path.toList) :
    Yields (σ := σ) IsOrdinary (FileSystem.change asked) :=
  fun _ _ hfault ↦ Bool.eq_false_iff.2 fun hfatal ↦ h (FileSystem.zero_of_change hfault hfatal)

theorem yields_ensureDirectory {path : String} (h : '\x00' ∉ path.toList) :
    Yields (σ := σ) IsOrdinary (ensureDirectory path) := by
  have hmake : Yields (σ := σ) IsOrdinary (FileSystem.change (.makeDirectory path)) :=
    yields_change h
  refine hmake.bind fun made hmade ↦ ?_
  cases made with
  | ok value => exact yields_pure nofun
  | error fault =>
    refine (yields_any _).bind fun isThere _ ↦ ?_
    cases isThere with
    | false => exact yields_pure hmade
    | true => exact yields_pure nofun

theorem yields_ensureChain {directories : List (List Char)}
    (h : ∀ directory ∈ directories, '\x00' ∉ directory) :
    Yields (σ := σ) IsOrdinary (ensureChain directories) := by
  induction directories with
  | nil => exact yields_pure nofun
  | cons path outer ih =>
    obtain ⟨hpath, houter⟩ := List.forall_mem_cons.1 h
    have hmake : Yields (σ := σ) IsOrdinary (ensureDirectory (String.ofList path)) :=
      yields_ensureDirectory (by rwa [String.toList_ofList])
    cases outer with
    | nil => exact hmake
    | cons outside rest =>
      refine (yields_any _).bind fun isThere _ ↦ ?_
      split
      · exact hmake
      · refine (ih houter).bind fun made hmade ↦ ?_
        split
        · exact yields_pure hmade
        · split
          · exact yields_pure nofun
          · exact hmake

/-- Where no zero character stands in the path of a file, writing it below directories ends with no
fatal fault. -/
theorem yields_writeBelow {path : String} {content : ByteArray} (h : '\x00' ∉ path.toList) :
    Yields (σ := σ) IsOrdinary (writeBelow path content) := by
  have hdirectories : Yields (σ := σ) IsOrdinary (ensureDirectories
      (if (Path.parent path).isEmpty then "." else Path.parent path)) :=
    yields_ensureChain fun directory hdirectory hzero ↦
      h (Path.mem_of_mem_chain_parent (by decide) hdirectory hzero)
  refine hdirectories.bind fun made hmade ↦ ?_
  cases made with
  | error fault => exact yields_pure hmade
  | ok value => exact yields_change h

end FileStore
end CompiledScript
