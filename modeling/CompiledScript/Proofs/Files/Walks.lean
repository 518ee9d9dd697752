import CompiledScript.Proofs.Files.Listings
import Mathlib.Logic.Relation

/-!
# Walking through a tree of files

A walk visits one directory after another and keeps those that are still to be visited in a list.
Each visit lists a directory, sorts what was listed, collects the files, and puts the directories in
front of the list. What the walk has collected together with what the listed directories have below
them is the same before and after every visit, so the walk ends with the files below the directory
that it started from, in the order of their routes.
-/

namespace CompiledScript

/-- A directory that is to be visited. -/
structure Visit where
  path : String
  entries : List (String × Node)

def Visit.files (visit : Visit) : List String :=
  Node.filesBelow visit.path (.directory visit.entries)

/-- The paths that were collected and the directories that are still to be visited. -/
structure Walk where
  collected : List String
  pending : List Visit

namespace Walk

def start (path : String) (entries : List (String × Node)) : Walk :=
  ⟨[], [⟨path, entries⟩]⟩

/-- The directories of a directory, as they are visited. -/
def visits (path : String) (folders : List (String × List (String × Node))) : List Visit :=
  folders.map fun folder ↦ ⟨Path.join path folder.1, folder.2⟩

/-- The next directory is visited. It may list its entries in any order, since its files and its
directories are sorted before they are used. If its path is too long, it lists nothing. -/
inductive Step : Walk → Walk → Prop where
  | list {collected files : List String} {path : String} {entries : List (String × Node)}
      {folders : List (String × List (String × Node))} {rest : List Visit}
      (hpath : path.utf8ByteSize ≤ Disk.maxPath) (hsorted : Node.IsSorted entries files folders) :
      Step ⟨collected, ⟨path, entries⟩ :: rest⟩
        ⟨collected ++ files.map (Path.join path), visits path folders ++ rest⟩
  | skip {collected : List String} {path : String} {entries : List (String × Node)}
      {rest : List Visit} (hpath : Disk.maxPath < path.utf8ByteSize) :
      Step ⟨collected, ⟨path, entries⟩ :: rest⟩ ⟨collected, rest⟩

/-- Some visits one after another. -/
abbrev Run : Walk → Walk → Prop := Relation.ReflTransGen Step

/-- The files that a walk collects up to its end. -/
def outcome (walk : Walk) : List String :=
  walk.collected ++ walk.pending.flatMap Visit.files

/-- The directories that are still to be visited are those of a tree that a disk can have. -/
def IsProper (walk : Walk) : Prop :=
  ∀ visit ∈ walk.pending, (Node.directory visit.entries).IsProper

variable {walk walk' : Walk} {path : String} {entries : List (String × Node)}

/-- What lies below a directory is what its files and its directories add up to. -/
theorem files_of_isSorted {files : List String} {folders : List (String × List (String × Node))}
    (hpath : path.utf8ByteSize ≤ Disk.maxPath) (hproper : (Node.directory entries).IsProper)
    (hsorted : Node.IsSorted entries files folders) :
    Visit.files ⟨path, entries⟩ =
      files.map (Path.join path) ++ (visits path folders).flatMap Visit.files := by
  cases hproper with
  | directory hnames hdistinct hentries =>
    rw [visits, List.flatMap_map]
    exact Node.filesBelow_of_isSorted hpath hdistinct hsorted

theorem files_of_long (hpath : Disk.maxPath < path.utf8ByteSize) :
    Visit.files ⟨path, entries⟩ = [] :=
  Node.filesBelow_of_long hpath

theorem Step.isProper (h : Step walk walk') (hproper : walk.IsProper) : walk'.IsProper := by
  cases h with
  | list hpath hsorted =>
    obtain ⟨hfirst, hrest⟩ := List.forall_mem_cons.1 hproper
    refine List.forall_mem_append.2 ⟨fun visit hvisit ↦ ?_, hrest⟩
    obtain ⟨folder, hfolder, rfl⟩ := List.mem_map.1 hvisit
    cases hfirst with
    | directory hnames hdistinct hentries => exact hentries _ (hsorted.mem_folders.1 hfolder)
  | skip hpath => exact (List.forall_mem_cons.1 hproper).2

/-- A visit neither adds to the files that a walk collects, nor loses one, nor moves one. -/
theorem Step.outcome_eq (h : Step walk walk') (hproper : walk.IsProper) :
    walk'.outcome = walk.outcome := by
  cases h with
  | list hpath hsorted =>
    have hfiles := files_of_isSorted hpath (hproper _ List.mem_cons_self) hsorted
    rw [outcome, outcome, List.flatMap_append, List.flatMap_cons, hfiles]
    simp only [List.append_assoc]
  | skip hpath => rw [outcome, outcome, List.flatMap_cons, files_of_long hpath, List.nil_append]

theorem outcome_eq_of_run (h : Run walk walk') (hproper : walk.IsProper) :
    walk'.IsProper ∧ walk'.outcome = walk.outcome := by
  induction h with
  | refl => exact ⟨hproper, rfl⟩
  | tail _ hstep ih =>
    obtain ⟨hmiddle, houtcome⟩ := ih
    exact ⟨hstep.isProper hmiddle, (hstep.outcome_eq hmiddle).trans houtcome⟩

/-- A walk comes to the end of a list of directories if it comes to the end of each of them. -/
theorem run_append {visits rest : List Visit}
    (h : ∀ visit ∈ visits, ∀ collected rest,
      Run ⟨collected, visit :: rest⟩ ⟨collected ++ visit.files, rest⟩) (collected : List String) :
    Run ⟨collected, visits ++ rest⟩ ⟨collected ++ visits.flatMap Visit.files, rest⟩ := by
  induction visits generalizing collected with
  | nil =>
    rw [List.flatMap_nil, List.append_nil]
    exact .refl
  | cons visit visits ih =>
    obtain ⟨hvisit, hvisits⟩ := List.forall_mem_cons.1 h
    rw [List.flatMap_cons, ← List.append_assoc]
    exact (hvisit collected (visits ++ rest)).trans (ih hvisits (collected ++ visit.files))

/-- A walk comes to the end of a directory, by induction on the tree below it. -/
theorem run_visit (hproper : (Node.directory entries).IsProper) (path : String)
    (collected : List String) (rest : List Visit) :
    Run ⟨collected, ⟨path, entries⟩ :: rest⟩ ⟨collected ++ Visit.files ⟨path, entries⟩, rest⟩ := by
  generalize hnode : Node.directory entries = node at hproper
  induction hproper generalizing path entries collected rest with
  | file => cases hnode
  | @directory entries hnames hdistinct hentries ih =>
    cases hnode
    by_cases hpath : path.utf8ByteSize ≤ Disk.maxPath
    · have hsorted := Node.isSorted_byName entries
      generalize (Node.byName entries).filterMap Node.fileName? = files at hsorted
      generalize (Node.byName entries).filterMap Node.folder? = folders at hsorted
      have hinner : ∀ visit ∈ visits path folders, ∀ collected rest,
          Run ⟨collected, visit :: rest⟩ ⟨collected ++ visit.files, rest⟩ := by
        intro visit hvisit collected rest
        obtain ⟨folder, hfolder, rfl⟩ := List.mem_map.1 hvisit
        exact ih _ (hsorted.mem_folders.1 hfolder) _ collected rest rfl
      rw [files_of_isSorted hpath (.directory hnames hdistinct hentries) hsorted,
        ← List.append_assoc]
      exact .head (.list hpath hsorted)
        (run_append hinner (collected ++ files.map (Path.join path)))
    · have hlong := Nat.lt_of_not_le hpath
      rw [files_of_long hlong, List.append_nil]
      exact .single (.skip hlong)

/-- A walk from a directory ends, and it ends with the files below the directory. -/
theorem run_start_iff (hproper : (Node.directory entries).IsProper) (path : String)
    (files : List String) :
    Run (start path entries) ⟨files, []⟩ ↔ files = Node.filesBelow path (.directory entries) := by
  constructor
  · intro hrun
    have hstart : (start path entries).IsProper := List.forall_mem_singleton.2 hproper
    have houtcome := (outcome_eq_of_run hrun hstart).2
    simpa [outcome, start, Visit.files] using houtcome
  · rintro rfl
    exact run_visit hproper path [] []

end Walk

namespace Disk

variable {disk : Disk} {path : String}

theorem isDirectory_iff :
    disk.isDirectory path = true ↔
      ∃ names entries, disk.locate path = .ok (.taken names (.directory entries)) := by
  unfold isDirectory
  constructor
  · intro h
    split at h
    · rename_i names entries hlocate
      exact ⟨names, entries, hlocate⟩
    · cases h
  · rintro ⟨names, entries, hlocate⟩
    rw [hlocate]

theorem mapM_apply {α β : Type} {action : α → StateM Disk β} {result : α → β} {values : List α}
    (h : ∀ value ∈ values, action value disk = (result value, disk)) :
    (values.mapM action) disk = (values.map result, disk) := by
  induction values with
  | nil => rfl
  | cons value values ih =>
    obtain ⟨hvalue, hvalues⟩ := List.forall_mem_cons.1 h
    rw [List.mapM_cons, bind_apply, hvalue, bind_apply, ih hvalues]
    rfl

theorem list_of_locate {names : List String} {entries : List (String × Node)}
    (h : disk.locate path = .ok (.taken names (.directory entries))) :
    disk.list path = .ok (Node.listed entries) := by
  rw [list, h]

/-- Nothing is found below a path that is too long. -/
theorem filesBelow_of_long (hpath : maxPath < path.utf8ByteSize) (levels : Nat) :
    (FileStore.filesBelow levels path : StateM Disk _) disk = ([], disk) := by
  have hlist : ∃ fault, disk.list path = .error fault := by
    cases hlocate : disk.locate path with
    | ok place => exact absurd (locate_eq_ok_iff.1 hlocate).1.2.2 (Nat.not_le_of_lt hpath)
    | error cause => exact ⟨⟨cause, path⟩, by rw [list, hlocate]⟩
  obtain ⟨fault, hlist⟩ := hlist
  cases levels with
  | zero => rfl
  | succ levels =>
    have hasked : (FileStore.list path : StateM Disk _) disk = (disk.list path, disk) := rfl
    rw [FileStore.filesBelow, bind_apply, hasked, hlist]
    rfl

/-- A walk finds the files below a directory, if it goes through enough levels: every name makes a
path longer, and no directory whose path is too long is listed. -/
theorem filesBelow_of_locate (hproper : disk.root.IsProper) {levels : Nat} {path : String}
    {names : List String} {entries : List (String × Node)}
    (hlocate : disk.locate path = .ok (.taken names (.directory entries)))
    (hlevels : maxPath < path.utf8ByteSize + levels) :
    (FileStore.filesBelow levels path : StateM Disk _) disk =
      (Node.filesBelow path (.directory entries), disk) := by
  induction levels generalizing path names entries with
  | zero => exact absurd (locate_eq_ok_iff.1 hlocate).1.2.2 (Nat.not_le_of_lt hlevels)
  | succ levels ih =>
    have hpath := (locate_eq_ok_iff.1 hlocate).1.2.2
    have hasked : (FileStore.list path : StateM Disk _) disk = (disk.list path, disk) := rfl
    cases (hproper.find? (isIn_of_locate hlocate)).1 with
    | directory hnames hdistinct hentries =>
      obtain ⟨folders, hsorted, hfolders⟩ := Node.exists_isSorted_sortedNames entries
      have hinner : ∀ folder ∈ folders,
          (FileStore.filesBelow levels (Path.join path folder.1) : StateM Disk _) disk =
            (Node.filesBelow (Path.join path folder.1) (.directory folder.2), disk) := by
        intro folder hfolder
        have hmem := hsorted.mem_folders.1 hfolder
        have hname := hnames _ hmem
        have hlonger : path.utf8ByteSize < (Path.join path folder.1).utf8ByteSize :=
          Node.size_lt_join hname.toIsFileName path
        by_cases hlong : (Path.join path folder.1).utf8ByteSize ≤ maxPath
        · have hchild := (Node.lookup_eq_some_iff_mem hdistinct).2 hmem
          exact ih (locate_join hlocate hname.toIsFileName hname.no_zero hchild hlong) (by omega)
        · rw [filesBelow_of_long (Nat.lt_of_not_le hlong),
            Node.filesBelow_of_long (Nat.lt_of_not_le hlong)]
      have hbelow : ((folders.map Prod.fst).mapM fun name ↦
          (FileStore.filesBelow levels (Path.join path name) : StateM Disk _)) disk =
          (folders.map fun folder ↦ Node.filesBelow (Path.join path folder.1) (.directory folder.2),
            disk) := by
        rw [List.mapM_map]
        exact mapM_apply hinner
      rw [FileStore.filesBelow, bind_apply, hasked, list_of_locate hlocate]
      dsimp only
      rw [bind_apply, hfolders, hbelow, Node.filesBelow_of_isSorted hpath hdistinct hsorted,
        List.flatMap_def]
      rfl

/-- What a path among the inputs stands for. -/
def inputsAt (disk : Disk) (path : String) : List String :=
  match disk.locate path with
  | .ok (.taken _ (.directory entries)) => Node.filesBelow path (.directory entries)
  | _ => [path]

theorem inputsAt_of_locate {names : List String} {entries : List (String × Node)}
    (h : disk.locate path = .ok (.taken names (.directory entries))) :
    disk.inputsAt path = Node.filesBelow path (.directory entries) := by
  rw [inputsAt, h]

theorem inputsAt_of_isDirectory_eq_false (h : disk.isDirectory path = false) :
    disk.inputsAt path = [path] := by
  unfold inputsAt
  split
  · rename_i names entries hlocate
    rw [isDirectory_iff.2 ⟨names, entries, hlocate⟩] at h
    cases h
  · rfl

/-- The inputs are collected path by path, and nothing is changed. -/
theorem collect_eq_flatMap (hproper : disk.root.IsProper) (paths : List String) :
    (FileStore.collect paths : StateM Disk (List String)) disk =
      (paths.flatMap disk.inputsAt, disk) := by
  induction paths with
  | nil => rfl
  | cons path rest ih =>
    have hfirst : (FileStore.collect (path :: rest) : StateM Disk (List String)) disk =
        (disk.inputsAt path ++ ((FileStore.collect rest : StateM Disk (List String)) disk).1,
          ((FileStore.collect rest : StateM Disk (List String)) disk).2) := by
      have hasked : (FileStore.isDirectory path : StateM Disk Bool) disk =
          (disk.isDirectory path, disk) := rfl
      rw [FileStore.collect, bind_apply, hasked]
      cases hthere : disk.isDirectory path with
      | false =>
        rw [inputsAt_of_isDirectory_eq_false hthere]
        rfl
      | true =>
        obtain ⟨names, entries, hlocate⟩ := isDirectory_iff.1 hthere
        have hlevels : maxPath < path.utf8ByteSize + FileStore.maxLevels :=
          Nat.lt_add_left path.utf8ByteSize (by decide)
        dsimp only
        rw [if_pos rfl, bind_apply, filesBelow_of_locate hproper hlocate hlevels,
          inputsAt_of_locate hlocate]
        rfl
    rw [hfirst, ih, List.flatMap_cons]

/-- The inputs are the paths in their order. A directory stands for the files below it as far as the
paths of directories are not too long, each of them once and in the order of their routes. A walk
that visits the directories one by one finds the same. -/
theorem collect_lists_routes (disk : Disk) (hproper : disk.root.IsProper) (paths : List String) :
    ∃ listing : String → List String,
      (FileStore.collect paths : StateM Disk (List String)) disk =
        (paths.flatMap listing, disk) ∧
      ∀ path,
        (disk.isDirectory path = false → listing path = [path]) ∧
        ∀ names entries, disk.locate path = .ok (.taken names (.directory entries)) →
          (∃ routes, (∀ other, Node.IsListing path (.directory entries) other ↔ other = routes) ∧
            listing path = routes.map (·.foldl Path.join path)) ∧
          (listing path).Nodup ∧
          ∀ files, Walk.Run (Walk.start path entries) ⟨files, []⟩ ↔ files = listing path := by
  refine ⟨disk.inputsAt, collect_eq_flatMap hproper paths,
    fun path ↦ ⟨inputsAt_of_isDirectory_eq_false, fun names entries hlocate ↦ ?_⟩⟩
  have hentries : (Node.directory entries).IsProper :=
    (hproper.find? (isIn_of_locate hlocate)).1
  obtain ⟨routes, hlisting, hpaths⟩ := hentries.exists_isListing path
  rw [inputsAt_of_locate hlocate]
  refine ⟨⟨routes, fun other ↦ ⟨fun hother ↦ hother.unique hlisting, ?_⟩, hpaths⟩, ?_, ?_⟩
  · rintro rfl
    exact hlisting
  · rw [hpaths]
    exact hlisting.nodup_paths hentries
  · exact Walk.run_start_iff hentries path

/-- The entries of a directory, out of order, with directories of similar names and an empty one. -/
def mixedEntries : List (String × Node) :=
  [("c.d", .directory [("y", .file .empty)]), ("b", .file .empty),
    ("c", .directory [("x", .file .empty), ("e", .directory [])]), ("a", .file .empty)]

def mixedDisk : Disk :=
  ⟨.directory [("d", .directory mixedEntries), ("g", .file .empty)], []⟩

theorem isProper_mixedDisk : mixedDisk.root.IsProper := by
  have hfile : (Node.file .empty).IsProper := .file
  have hempty : (Node.directory []).IsProper := .directory (by decide) (by decide) (by simp)
  have hc : (Node.directory [("x", .file .empty), ("e", .directory [])]).IsProper :=
    .directory (by decide) (by decide) (by simp [hfile, hempty])
  have hcd : (Node.directory [("y", .file .empty)]).IsProper :=
    .directory (by decide) (by decide) (by simp [hfile])
  have hmixed : (Node.directory mixedEntries).IsProper :=
    .directory (by decide) (by decide) (by simp [mixedEntries, hfile, hc, hcd])
  exact .directory (by decide) (by decide) (by simp [hfile, hmixed])

theorem run_mixedEntries :
    Walk.Run (Walk.start "d" mixedEntries) ⟨["d/a", "d/b", "d/c/x", "d/c.d/y"], []⟩ := by
  have hmixed : Node.IsSorted mixedEntries ["a", "b"]
      [("c", [("x", .file .empty), ("e", .directory [])]), ("c.d", [("y", .file .empty)])] :=
    ⟨List.Perm.swap _ _ _, by decide, List.Perm.swap _ _ _, by decide⟩
  have hc : Node.IsSorted [("x", .file .empty), ("e", .directory [])] ["x"] [("e", [])] :=
    ⟨List.Perm.refl _, by decide, List.Perm.refl _, by decide⟩
  have hempty : Node.IsSorted [] [] [] :=
    ⟨List.Perm.refl _, by decide, List.Perm.refl _, by decide⟩
  have hcd : Node.IsSorted [("y", .file .empty)] ["y"] [] :=
    ⟨List.Perm.refl _, by decide, List.Perm.refl _, by decide⟩
  exact .head (.list (by decide) hmixed) <| .head (.list (by decide) hc) <|
    .head (.list (by decide) hempty) <| .head (.list (by decide) hcd) .refl

theorem collect_mixedDisk :
    mixedDisk.root.IsProper ∧
      (FileStore.collect ["g", "d", "h"] : StateM Disk (List String)) mixedDisk =
        (["g", "d/a", "d/b", "d/c/x", "d/c.d/y", "h"], mixedDisk) := by
  obtain ⟨listing, hcollect, hlisting⟩ :=
    collect_lists_routes mixedDisk isProper_mixedDisk ["g", "d", "h"]
  have hg : listing "g" = ["g"] := (hlisting "g").1 (by decide)
  have hd : ["d/a", "d/b", "d/c/x", "d/c.d/y"] = listing "d" :=
    (((hlisting "d").2 ["d"] mixedEntries rfl).2.2 _).1 run_mixedEntries
  have hh : listing "h" = ["h"] := (hlisting "h").1 (by decide)
  refine ⟨isProper_mixedDisk, hcollect.trans ?_⟩
  rw [List.flatMap_cons, List.flatMap_cons, List.flatMap_cons, List.flatMap_nil, hg, ← hd, hh]
  rfl

/-! ## Paths that are too long -/

def nestedEntries : List (String × Node) :=
  [("e", .directory [("f", .file .empty)])]

def nestedDisk : Disk :=
  ⟨.directory [("d", .directory nestedEntries)], []⟩

/-- A path to the directory `d` that ends with a number of slashes. -/
def slashed (count : Nat) : String :=
  String.ofList (['d'] ++ List.replicate count '/')

theorem utf8ByteSize_slashed (count : Nat) : (slashed count).utf8ByteSize = count + 1 := by
  rw [slashed, String.ofList_append, String.utf8ByteSize_append, Nat.add_comm]
  congr 1
  induction count with
  | zero => rfl
  | succ count ih =>
    rw [List.replicate_succ', String.ofList_append, String.utf8ByteSize_append, ih]
    rfl

theorem locate_slashed {count : Nat} (hcount : 0 < count) (hle : count < maxPath) :
    nestedDisk.locate (slashed count) = .ok (.taken ["d"] (.directory nestedEntries)) := by
  have htext : (slashed count).toList = ['d'] ++ List.replicate count '/' := String.toList_ofList
  have hlast : (slashed count).toList.getLast? = some '/' := by
    have hne : List.replicate count '/' ≠ [] := by simp [hcount.ne']
    rw [htext, List.getLast?_append_of_ne_nil _ hne, List.getLast?_replicate, if_neg hcount.ne']
  have hnames : Path.namesAlong (slashed count).toList = [['d']] := by
    rw [htext, Path.namesAlong_append_slashes (by simp)]
    rfl
  have hsteps : Path.steps (slashed count) = ["d", "."] := by
    rw [Path.steps, if_pos hlast]
    change (Path.namesAlong _ ++ _).map String.ofList = _
    rw [hnames]
    rfl
  have hrelative : Path.isAbsolute (slashed count) = false := by
    rw [Path.isAbsolute, htext]
    rfl
  rw [locate_eq_ok_iff, hsteps, start, hrelative, utf8ByteSize_slashed]
  refine ⟨⟨?_, ?_, hle⟩, rfl⟩
  · simp [htext]
  · simp [slashed]

/-- A file is not found if the path of the directory that it lies in is too long. -/
theorem collect_slashed :
    nestedDisk.root.IsProper ∧
      nestedDisk.locate (slashed 4094) = .ok (.taken ["d"] (.directory nestedEntries)) ∧
      (Node.directory nestedEntries).find? ["e", "f"] = some (.file .empty) ∧
      (FileStore.collect [slashed 4094] : StateM Disk (List String)) nestedDisk =
        ([], nestedDisk) := by
  have hlocate : nestedDisk.locate (slashed 4094) = .ok (.taken ["d"] (.directory nestedEntries)) :=
    locate_slashed (by decide) (by decide)
  have hsorted : Node.IsSorted nestedEntries [] [("e", [("f", .file .empty)])] :=
    ⟨List.Perm.refl _, by decide, List.Perm.refl _, by decide⟩
  have hlong : maxPath < (Path.join (slashed 4094) "e").utf8ByteSize := by
    refine Nat.lt_of_lt_of_le ?_ (Node.size_add_le_join (by decide) (slashed 4094))
    rw [utf8ByteSize_slashed]
    decide
  have hfiles : Node.filesBelow (slashed 4094) (.directory nestedEntries) = [] := by
    rw [Node.filesBelow_of_isSorted (by rw [utf8ByteSize_slashed]; decide) (by decide) hsorted,
      List.map_nil, List.nil_append, List.flatMap_singleton, Node.filesBelow_of_long hlong]
  have hproper : nestedDisk.root.IsProper := by
    have hfile : (Node.file .empty).IsProper := .file
    have he : (Node.directory [("f", .file .empty)]).IsProper :=
      .directory (by decide) (by decide) (by simp [hfile])
    have hd : (Node.directory nestedEntries).IsProper :=
      .directory (by decide) (by decide) (by simp [nestedEntries, he])
    exact .directory (by decide) (by decide) (by simp [hd])
  refine ⟨hproper, hlocate, rfl, ?_⟩
  rw [collect_eq_flatMap hproper, List.flatMap_singleton, inputsAt_of_locate hlocate, hfiles]

end Disk
end CompiledScript
