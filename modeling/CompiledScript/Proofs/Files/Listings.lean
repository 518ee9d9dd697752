import CompiledScript.Proofs.Files.Trees
import Mathlib.Data.List.Nodup

/-!
# Listing the files below a directory

A file below a directory is known by its route: the names that lead to it. Routes are put in order
level by level. The files of a directory come first, by their names, and then what lies below its
directories, by the names of these. A directory tells its entries in no order of its own, so the
order of a listing comes from sorting alone.
-/

namespace CompiledScript

/-! ## The order of routes -/

/-- The first route comes in front of the second one in a listing. Names are compared by their
code points. -/
inductive Precedes : List String → List String → Prop where
  | files {name other : String} (h : name < other) : Precedes [name] [other]
  | fileFirst {name other next : String} {rest : List String} :
      Precedes [name] (other :: next :: rest)
  | directories {name other next next' : String} {rest rest' : List String} (h : name < other) :
      Precedes (name :: next :: rest) (other :: next' :: rest')
  | inside {name : String} {first second : List String} (h : Precedes first second) :
      Precedes (name :: first) (name :: second)

namespace Precedes

variable {first second : List String}

theorem asymm (h : Precedes first second) : ¬ Precedes second first := by
  induction h with
  | files h =>
    intro hback
    cases hback with
    | files hback => exact String.lt_asymm h hback
    | inside hback => cases hback
  | fileFirst =>
    intro hback
    cases hback with
    | inside hback => cases hback
  | directories h =>
    intro hback
    cases hback with
    | directories hback => exact String.lt_asymm h hback
    | inside hback => exact String.lt_irrefl _ h
  | inside h ih =>
    intro hback
    cases hback with
    | files hback => exact String.lt_irrefl _ hback
    | fileFirst => cases h
    | directories hback => exact String.lt_irrefl _ hback
    | inside hback => exact ih hback

instance : Std.Irrefl Precedes where
  irrefl _ h := h.asymm h

end Precedes

namespace Node

variable {entries : List (String × Node)} {base name : String} {names rest : List String}

/-! ## Trees that a disk can have -/

/-- A text that can be the name of an entry of a directory. -/
structure IsEntryName (name : String) : Prop extends Path.IsFileName name where
  no_zero : '\x00' ∉ name.toList

instance (name : String) : Decidable (IsEntryName name) :=
  decidable_of_iff (Path.IsFileName name ∧ '\x00' ∉ name.toList)
    ⟨fun ⟨hname, hzero⟩ ↦ ⟨hname, hzero⟩, fun h ↦ ⟨h.toIsFileName, h.no_zero⟩⟩

/-- The names in each directory are different and can be names of entries. -/
inductive IsProper : Node → Prop where
  | file {content : ByteArray} : IsProper (.file content)
  | directory {entries : List (String × Node)} (hnames : ∀ entry ∈ entries, IsEntryName entry.1)
      (hdistinct : (entries.map Prod.fst).Nodup) (hentries : ∀ entry ∈ entries, IsProper entry.2) :
      IsProper (.directory entries)

theorem lookup_eq_some_iff_mem {node : Node} (hdistinct : (entries.map Prod.fst).Nodup) :
    entries.lookup name = some node ↔ (name, node) ∈ entries := by
  induction entries with
  | nil => simp
  | cons entry entries ih =>
    obtain ⟨other, child⟩ := entry
    rw [List.map_cons, List.nodup_cons] at hdistinct
    rw [List.lookup_cons, List.mem_cons]
    by_cases hname : name = other
    · subst hname
      have hfree : (name, node) ∉ entries := fun hmem ↦
        hdistinct.1 (List.mem_map.2 ⟨_, hmem, rfl⟩)
      simp [hfree, eq_comm]
    · rw [beq_false_of_ne hname, ih hdistinct.2]
      simp [hname]

theorem IsProper.find? {node found : Node} (h : node.IsProper)
    (hfind : node.find? names = some found) :
    found.IsProper ∧ ∀ name ∈ names, Path.IsFileName name := by
  induction names generalizing node with
  | nil =>
    cases hfind
    exact ⟨h, nofun⟩
  | cons name rest ih =>
    cases h with
    | file => cases hfind
    | directory hnames hdistinct hentries =>
      rw [Node.find?] at hfind
      split at hfind
      · rename_i child hchild
        have hmem := (lookup_eq_some_iff_mem hdistinct).1 hchild
        obtain ⟨hfound, hrest⟩ := ih (hentries _ hmem) hfind
        exact ⟨hfound, List.forall_mem_cons.2 ⟨(hnames _ hmem).toIsFileName, hrest⟩⟩
      · cases hfind

/-! ## What a directory lists -/

/-- The name of an entry that is a file. -/
def fileName? : String × Node → Option String
  | (name, .file _) => some name
  | (_, .directory _) => none

/-- The name of an entry that is a directory, with what is in it. -/
def folder? : String × Node → Option (String × List (String × Node))
  | (_, .file _) => none
  | (name, .directory inner) => some (name, inner)

theorem fileName?_eq_some {entry : String × Node} :
    fileName? entry = some name ↔ ∃ content, entry = (name, .file content) := by
  obtain ⟨other, node⟩ := entry
  cases node <;> simp [fileName?]

theorem folder?_eq_some {entry : String × Node} {folder : String × List (String × Node)} :
    folder? entry = some folder ↔ entry = (folder.1, .directory folder.2) := by
  obtain ⟨other, node⟩ := entry
  cases node <;> simp [folder?, Prod.ext_iff]

/-- What holds of the names of entries, two by two, holds of the names of those that are picked. -/
theorem pairwise_filterMap {β : Type} {pick : String × Node → Option β} {R : String → String → Prop}
    (key : β → String) (hpick : ∀ entry value, pick entry = some value → key value = entry.1)
    (h : entries.Pairwise fun a b ↦ R a.1 b.1) :
    (entries.filterMap pick).Pairwise fun a b ↦ R (key a) (key b) := by
  refine h.filterMap pick fun a b hab first hfirst second hsecond ↦ ?_
  rw [hpick a first hfirst, hpick b second hsecond]
  exact hab

theorem name_of_fileName? (entry : String × Node) (name : String)
    (h : fileName? entry = some name) : name = entry.1 := by
  obtain ⟨content, rfl⟩ := fileName?_eq_some.1 h
  rfl

theorem name_of_folder? (entry : String × Node) (folder : String × List (String × Node))
    (h : folder? entry = some folder) : folder.1 = entry.1 := by
  rw [folder?_eq_some.1 h]

/-- The files and the directories among some entries, both in the order of their names. -/
structure IsSorted (entries : List (String × Node)) (files : List String)
    (folders : List (String × List (String × Node))) : Prop where
  files_perm : files.Perm (entries.filterMap fileName?)
  files_sorted : files.Pairwise (· ≤ ·)
  folders_perm : folders.Perm (entries.filterMap folder?)
  folders_sorted : folders.Pairwise (·.1 ≤ ·.1)

namespace IsSorted

variable {files files' : List String} {folders folders' : List (String × List (String × Node))}
  {folder : String × List (String × Node)}

theorem mem_files (h : IsSorted entries files folders) :
    name ∈ files ↔ ∃ content, (name, .file content) ∈ entries := by
  simp only [h.files_perm.mem_iff, List.mem_filterMap, fileName?_eq_some]
  constructor
  · rintro ⟨entry, hmem, content, rfl⟩
    exact ⟨content, hmem⟩
  · rintro ⟨content, hmem⟩
    exact ⟨_, hmem, content, rfl⟩

theorem mem_folders (h : IsSorted entries files folders) :
    folder ∈ folders ↔ (folder.1, .directory folder.2) ∈ entries := by
  simp [h.folders_perm.mem_iff, List.mem_filterMap, folder?_eq_some]

theorem files_strict (h : IsSorted entries files folders)
    (hdistinct : (entries.map Prod.fst).Nodup) : files.Pairwise (· < ·) := by
  have hnodup : (entries.filterMap fileName?).Nodup :=
    pairwise_filterMap id name_of_fileName? (List.pairwise_map.1 hdistinct)
  refine (h.files_sorted.and (h.files_perm.nodup_iff.2 hnodup)).imp ?_
  rintro first second ⟨hle, hne⟩
  exact String.not_le.1 fun hback ↦ hne (String.le_antisymm hle hback)

theorem folders_strict (h : IsSorted entries files folders)
    (hdistinct : (entries.map Prod.fst).Nodup) : folders.Pairwise (·.1 < ·.1) := by
  have hdiffer : (entries.filterMap folder?).Pairwise (·.1 ≠ ·.1) :=
    pairwise_filterMap Prod.fst name_of_folder? (List.pairwise_map.1 hdistinct)
  have hdiffer' : folders.Pairwise (·.1 ≠ ·.1) :=
    h.folders_perm.symm.pairwise hdiffer fun hne ↦ hne.symm
  refine (h.folders_sorted.and hdiffer').imp ?_
  rintro first second ⟨hle, hne⟩
  exact String.not_le.1 fun hback ↦ hne (String.le_antisymm hle hback)

/-- There is only one way to sort the entries of a directory. -/
theorem unique (h : IsSorted entries files folders) (h' : IsSorted entries files' folders')
    (hdistinct : (entries.map Prod.fst).Nodup) : files = files' ∧ folders = folders' := by
  constructor
  · exact (h.files_perm.trans h'.files_perm.symm).eq_of_pairwise
      (fun _ _ _ _ ↦ String.le_antisymm) h.files_sorted h'.files_sorted
  · refine (h.folders_perm.trans h'.folders_perm.symm).eq_of_pairwise
      (fun first second hfirst hsecond hle hback ↦ ?_) h.folders_sorted h'.folders_sorted
    have hname : first.1 = second.1 := String.le_antisymm hle hback
    have hlookup := (lookup_eq_some_iff_mem hdistinct).2 (h.mem_folders.1 hfirst)
    have hlookup' := (lookup_eq_some_iff_mem hdistinct).2 (h'.mem_folders.1 hsecond)
    rw [hname, hlookup', Option.some_inj, Node.directory.injEq] at hlookup
    exact Prod.ext hname hlookup.symm

end IsSorted

/-- Entries in the order of their names. -/
def byName (entries : List (String × Node)) : List (String × Node) :=
  entries.mergeSort fun a b ↦ a.1 ≤ b.1

theorem pairwise_byName (entries : List (String × Node)) :
    (byName entries).Pairwise fun a b ↦ a.1 ≤ b.1 := by
  have hsorted : (byName entries).Pairwise fun a b ↦ decide (a.1 ≤ b.1) = true := by
    refine List.pairwise_mergeSort (fun a b c hab hbc ↦ ?_) (fun a b ↦ ?_) entries
    · exact decide_eq_true (String.le_trans (of_decide_eq_true hab) (of_decide_eq_true hbc))
    · simpa using String.le_total a.1 b.1
  exact hsorted.imp of_decide_eq_true

theorem isSorted_byName (entries : List (String × Node)) :
    IsSorted entries ((byName entries).filterMap fileName?)
      ((byName entries).filterMap folder?) where
  files_perm := (List.mergeSort_perm entries _).filterMap fileName?
  files_sorted := pairwise_filterMap id name_of_fileName? (pairwise_byName entries)
  folders_perm := (List.mergeSort_perm entries _).filterMap folder?
  folders_sorted := pairwise_filterMap Prod.fst name_of_folder? (pairwise_byName entries)

theorem filter_listed_file (entries : List (String × Node)) :
    ((listed entries).filter (·.isDirectory = false)).map FileEntry.name =
      entries.filterMap fileName? := by
  induction entries with
  | nil => rfl
  | cons entry entries ih =>
    obtain ⟨name, node⟩ := entry
    cases node <;> simpa [listed, isDirectory, fileName?, List.filterMap_cons] using ih

theorem filter_listed_directory (entries : List (String × Node)) :
    ((listed entries).filter (·.isDirectory = true)).map FileEntry.name =
      (entries.filterMap folder?).map Prod.fst := by
  induction entries with
  | nil => rfl
  | cons entry entries ih =>
    obtain ⟨name, node⟩ := entry
    cases node <;> simpa [listed, isDirectory, folder?, List.filterMap_cons] using ih

theorem pairwise_sortedNames (isDirectory : Bool) (entries : List FileEntry) :
    (FileStore.sortedNames isDirectory entries).Pairwise (· ≤ ·) := by
  refine (List.pairwise_mergeSort (fun a b c hab hbc ↦ ?_) (fun a b ↦ ?_) _).imp of_decide_eq_true
  · exact decide_eq_true (String.le_trans (of_decide_eq_true hab) (of_decide_eq_true hbc))
  · simpa using String.le_total a b

/-- The names that a walk goes through are those of the sorted files and directories. -/
theorem exists_isSorted_sortedNames (entries : List (String × Node)) :
    ∃ folders, IsSorted entries (FileStore.sortedNames false (listed entries)) folders ∧
      FileStore.sortedNames true (listed entries) = folders.map Prod.fst := by
  have hsorted := isSorted_byName entries
  have hperm (isDirectory : Bool) := List.mergeSort_perm
    (((listed entries).filter (·.isDirectory = isDirectory)).map FileEntry.name) (· ≤ ·)
  refine ⟨_, ⟨?_, pairwise_sortedNames _ _, hsorted.folders_perm, hsorted.folders_sorted⟩, ?_⟩
  · exact (hperm false).trans (.of_eq (filter_listed_file entries))
  · have hnames : (FileStore.sortedNames true (listed entries)).Perm
        (((byName entries).filterMap folder?).map Prod.fst) := by
      refine (hperm true).trans ?_
      rw [filter_listed_directory]
      exact (hsorted.folders_perm.map Prod.fst).symm
    exact hnames.eq_of_pairwise (fun _ _ _ _ ↦ String.le_antisymm) (pairwise_sortedNames _ _)
      (List.pairwise_map.2 hsorted.folders_sorted)

/-! ## The files below a directory -/

/-- What lies below an entry of a directory: nothing more for a file, the paths of files for a
directory. -/
inductive Below where
  | file
  | directory (paths : List String)

/-- The paths of the files below a directory at the path `base`, from what lies below its
entries. -/
def arrange (base : String) (entries : List (String × Below)) : List String :=
  let sorted := entries.mergeSort fun a b ↦ a.1 ≤ b.1
  let own := sorted.filterMap fun
    | (name, .file) => some (Path.join base name)
    | (_, .directory _) => none
  own ++ sorted.flatMap fun
    | (_, .file) => []
    | (_, .directory paths) => paths

mutual

/-- The paths of the files below a node at the path `base`. A directory whose path is too long
cannot be listed, and is passed over. -/
def filesBelow (base : String) : Node → List String
  | .file _ => []
  | .directory entries =>
    if Disk.maxPath < base.utf8ByteSize then [] else arrange base (entriesBelow base entries)

/-- What lies below each of some entries of a directory at the path `base`. -/
def entriesBelow (base : String) : List (String × Node) → List (String × Below)
  | [] => []
  | (name, .file _) :: rest => (name, .file) :: entriesBelow base rest
  | (name, .directory entries) :: rest =>
    (name, .directory (filesBelow (Path.join base name) (.directory entries)))
      :: entriesBelow base rest

end

/-- What lies below an entry of the directory at the path `base`. -/
def entryBelow (base : String) : String × Node → String × Below
  | (name, .file _) => (name, .file)
  | (name, .directory inner) =>
    (name, .directory (filesBelow (Path.join base name) (.directory inner)))

theorem entryBelow_fst (base : String) (entry : String × Node) :
    (entryBelow base entry).1 = entry.1 := by
  obtain ⟨name, node⟩ := entry
  cases node <;> rfl

theorem entriesBelow_eq_map (base : String) (entries : List (String × Node)) :
    entriesBelow base entries = entries.map (entryBelow base) := by
  induction entries with
  | nil => rw [entriesBelow, List.map_nil]
  | cons entry entries ih =>
    obtain ⟨name, node⟩ := entry
    cases node <;> rw [entriesBelow, ih, List.map_cons, entryBelow]

theorem arrange_entriesBelow (base : String) (entries : List (String × Node)) :
    arrange base (entriesBelow base entries) =
      ((byName entries).filterMap fileName?).map (Path.join base) ++
        ((byName entries).filterMap folder?).flatMap fun folder ↦
          filesBelow (Path.join base folder.1) (.directory folder.2) := by
  have hsorted : (entries.map (entryBelow base)).mergeSort (fun a b ↦ a.1 ≤ b.1) =
      (byName entries).map (entryBelow base) := by
    refine (List.map_mergeSort fun a _ b _ ↦ ?_).symm
    rw [entryBelow_fst, entryBelow_fst]
  rw [arrange, entriesBelow_eq_map, hsorted]
  congr 1
  · induction byName entries with
    | nil => rfl
    | cons entry rest ih =>
      obtain ⟨name, node⟩ := entry
      cases node <;> simp [entryBelow, fileName?, ih, List.filterMap_cons]
  · induction byName entries with
    | nil => rfl
    | cons entry rest ih =>
      obtain ⟨name, node⟩ := entry
      cases node <;> simp [entryBelow, folder?, ih, List.filterMap_cons]

/-- The files below a directory are its own files, and then those below its directories, by name. -/
theorem filesBelow_of_isSorted {files : List String}
    {folders : List (String × List (String × Node))} (hbase : base.utf8ByteSize ≤ Disk.maxPath)
    (hdistinct : (entries.map Prod.fst).Nodup) (h : IsSorted entries files folders) :
    filesBelow base (.directory entries) = files.map (Path.join base) ++
      folders.flatMap fun folder ↦ filesBelow (Path.join base folder.1) (.directory folder.2) := by
  obtain ⟨rfl, rfl⟩ := h.unique (isSorted_byName entries) hdistinct
  rw [filesBelow, if_neg (Nat.not_lt_of_le hbase), arrange_entriesBelow]

theorem filesBelow_of_long (hbase : Disk.maxPath < base.utf8ByteSize) :
    filesBelow base (.directory entries) = [] := by
  rw [filesBelow, if_pos hbase]

/-! ## Routes -/

/-- The names lead from the directory at the path `base` to a file below it, and the path of the
directory that the file lies in is not too long. -/
structure IsRoute (base : String) (directory : Node) (names : List String) : Prop where
  exists_file : ∃ content, directory.find? names = some (.file content)
  listable : (names.dropLast.foldl Path.join base).utf8ByteSize ≤ Disk.maxPath

theorem not_isRoute_nil : ¬ IsRoute base (.directory entries) [] := by
  rintro ⟨⟨content, hfile⟩, -⟩
  cases hfile

theorem isRoute_singleton :
    IsRoute base (.directory entries) [name] ↔
      base.utf8ByteSize ≤ Disk.maxPath ∧ ∃ content, entries.lookup name = some (.file content) := by
  have hfind : (Node.directory entries).find? [name] = entries.lookup name := by
    rw [Node.find?]
    cases entries.lookup name <;> rfl
  constructor
  · rintro ⟨hfile, hlistable⟩
    exact ⟨hlistable, hfind ▸ hfile⟩
  · rintro ⟨hlistable, hfile⟩
    exact ⟨hfind.symm ▸ hfile, hlistable⟩

/-- A longer route goes on inside one of the directories. -/
theorem isRoute_cons (hrest : rest ≠ []) :
    IsRoute base (.directory entries) (name :: rest) ↔ ∃ inner,
      entries.lookup name = some (.directory inner) ∧
        IsRoute (Path.join base name) (.directory inner) rest := by
  obtain ⟨next, rest, rfl⟩ := List.exists_cons_of_ne_nil hrest
  constructor
  · rintro ⟨⟨content, hfile⟩, hlistable⟩
    rw [Node.find?] at hfile
    split at hfile
    · rename_i child hchild
      cases child with
      | file content => cases hfile
      | directory inner => exact ⟨inner, hchild, ⟨content, hfile⟩, hlistable⟩
    · cases hfile
  · rintro ⟨inner, hinner, ⟨content, hfile⟩, hlistable⟩
    refine ⟨⟨content, ?_⟩, hlistable⟩
    rw [Node.find?, hinner]
    exact hfile

/-- Joining the name of a file makes a path longer. -/
theorem size_add_le_join (hname : Path.IsFileName name) (base : String) :
    base.utf8ByteSize + name.utf8ByteSize ≤ (Path.join base name).utf8ByteSize := by
  rw [Path.join, hname.not_isAbsolute]
  split
  · contradiction
  · split <;> simp only [String.utf8ByteSize_append] <;> omega

theorem size_lt_join (hname : Path.IsFileName name) (base : String) :
    base.utf8ByteSize < (Path.join base name).utf8ByteSize := by
  have hpositive : name.utf8ByteSize ≠ 0 := fun hzero ↦
    hname.ne_empty (String.utf8ByteSize_eq_zero_iff.1 hzero)
  exact Nat.lt_of_lt_of_le (Nat.lt_add_of_pos_right (Nat.pos_of_ne_zero hpositive))
    (size_add_le_join hname base)

theorem size_le_foldl_join (hnames : ∀ name ∈ names, Path.IsFileName name) (base : String) :
    base.utf8ByteSize ≤ (names.foldl Path.join base).utf8ByteSize := by
  induction names generalizing base with
  | nil => exact Nat.le_refl _
  | cons name names ih =>
    obtain ⟨hname, hnames⟩ := List.forall_mem_cons.1 hnames
    calc
      base.utf8ByteSize ≤ (Path.join base name).utf8ByteSize :=
        Nat.le_of_lt (size_lt_join hname base)
      _ ≤ (names.foldl Path.join (Path.join base name)).utf8ByteSize := ih hnames _

theorem IsRoute.base_le (h : IsRoute base (.directory entries) names)
    (hproper : (Node.directory entries).IsProper) : base.utf8ByteSize ≤ Disk.maxPath := by
  obtain ⟨content, hfile⟩ := h.exists_file
  have hnames := (hproper.find? hfile).2
  exact Nat.le_trans
    (size_le_foldl_join (fun name hname ↦ hnames name (List.mem_of_mem_dropLast hname)) base)
    h.listable

/-- The routes to the files below a directory, each of them once and in order. -/
structure IsListing (base : String) (directory : Node) (routes : List (List String)) : Prop where
  mem_iff : ∀ names, names ∈ routes ↔ IsRoute base directory names
  ordered : routes.Pairwise Precedes

namespace IsListing

variable {directory : Node} {routes routes' : List (List String)}

theorem nodup (h : IsListing base directory routes) : routes.Nodup :=
  h.ordered.nodup

/-- What lies below a directory determines its listing. -/
theorem unique (h : IsListing base directory routes) (h' : IsListing base directory routes') :
    routes = routes' := by
  have hperm : routes.Perm routes' := by
    rw [List.perm_ext_iff_of_nodup h.nodup h'.nodup]
    intro names
    rw [h.mem_iff, h'.mem_iff]
  exact hperm.eq_of_pairwise (fun _ _ _ _ hfirst hback ↦ absurd hback hfirst.asymm)
    h.ordered h'.ordered

theorem ne_nil (h : IsListing base (.directory entries) routes) : ∀ names ∈ routes, names ≠ [] := by
  rintro names hnames rfl
  exact not_isRoute_nil ((h.mem_iff []).1 hnames)

/-- Different files below a directory have different paths. -/
theorem nodup_paths (h : IsListing base directory routes) (hproper : directory.IsProper) :
    (routes.map (·.foldl Path.join base)).Nodup := by
  have hnames (names : List String) (hmem : names ∈ routes) :
      ∀ name ∈ names, Path.IsFileName name := by
    obtain ⟨content, hfile⟩ := ((h.mem_iff names).1 hmem).exists_file
    exact (hproper.find? hfile).2
  refine List.Nodup.map_on (fun first hfirst second hsecond heq ↦ ?_) h.nodup
  exact (Path.foldl_join_inj (hnames first hfirst) (hnames second hsecond)).1 heq

/-- A listing is put together from the files of a directory and the listings of its directories. -/
theorem of_isSorted {files : List String} {folders : List (String × List (String × Node))}
    {inner : String × List (String × Node) → List (List String)}
    (hbase : base.utf8ByteSize ≤ Disk.maxPath) (hdistinct : (entries.map Prod.fst).Nodup)
    (hsorted : IsSorted entries files folders)
    (hinner : ∀ folder ∈ folders,
      IsListing (Path.join base folder.1) (.directory folder.2) (inner folder)) :
    IsListing base (.directory entries) (files.map ([·]) ++
      folders.flatMap fun folder ↦ (inner folder).map (folder.1 :: ·)) where
  mem_iff names := by
    rw [List.mem_append, List.mem_map, List.mem_flatMap]
    match names with
    | [] => simp [not_isRoute_nil]
    | [name] =>
      have hdeep : ¬ ∃ folder ∈ folders, [name] ∈ (inner folder).map (folder.1 :: ·) := by
        rintro ⟨folder, hfolder, hmem⟩
        obtain ⟨rest, hrest, heq⟩ := List.mem_map.1 hmem
        exact (hinner folder hfolder).ne_nil rest hrest (List.cons.inj heq).2
      rw [isRoute_singleton, or_iff_left hdeep, and_iff_right hbase]
      simp [hsorted.mem_files, lookup_eq_some_iff_mem hdistinct]
    | name :: next :: rest =>
      have hfile : ¬ ∃ file ∈ files, [file] = name :: next :: rest := by simp
      rw [or_iff_right hfile, isRoute_cons (List.cons_ne_nil next rest)]
      constructor
      · rintro ⟨folder, hfolder, hmem⟩
        obtain ⟨route, hroute, heq⟩ := List.mem_map.1 hmem
        obtain ⟨rfl, rfl⟩ := List.cons.inj heq
        refine ⟨folder.2, ?_, ((hinner folder hfolder).mem_iff _).1 hroute⟩
        exact (lookup_eq_some_iff_mem hdistinct).2 (hsorted.mem_folders.1 hfolder)
      · rintro ⟨inside, hlookup, hroute⟩
        have hfolder : (name, inside) ∈ folders :=
          hsorted.mem_folders.2 ((lookup_eq_some_iff_mem hdistinct).1 hlookup)
        exact ⟨_, hfolder, List.mem_map_of_mem (((hinner _ hfolder).mem_iff _).2 hroute)⟩
  ordered := by
    have hlong (folder : String × List (String × Node)) (hfolder : folder ∈ folders)
        (route : List String) (hroute : route ∈ (inner folder).map (folder.1 :: ·)) :
        ∃ next rest, route = folder.1 :: next :: rest := by
      obtain ⟨inside, hinside, rfl⟩ := List.mem_map.1 hroute
      obtain ⟨next, rest, rfl⟩ :=
        List.exists_cons_of_ne_nil ((hinner folder hfolder).ne_nil inside hinside)
      exact ⟨next, rest, rfl⟩
    rw [List.pairwise_append, List.pairwise_map, List.pairwise_flatMap]
    refine ⟨(hsorted.files_strict hdistinct).imp .files, ⟨fun folder hfolder ↦ ?_, ?_⟩, ?_⟩
    · exact List.pairwise_map.2 ((hinner folder hfolder).ordered.imp .inside)
    · refine (hsorted.folders_strict hdistinct).imp_of_mem ?_
      intro folder folder' hfolder hfolder' hlt route hroute route' hroute'
      obtain ⟨next, rest, rfl⟩ := hlong folder hfolder route hroute
      obtain ⟨next', rest', rfl⟩ := hlong folder' hfolder' route' hroute'
      exact .directories hlt
    · intro file hfile route hroute
      obtain ⟨name, -, rfl⟩ := List.mem_map.1 hfile
      obtain ⟨folder, hfolder, hroute⟩ := List.mem_flatMap.1 hroute
      obtain ⟨next, rest, rfl⟩ := hlong folder hfolder route hroute
      exact .fileFirst

end IsListing

/-- The files below a directory are found along its listing. -/
theorem IsProper.exists_isListing (h : (Node.directory entries).IsProper) (base : String) :
    ∃ routes, IsListing base (.directory entries) routes ∧
      filesBelow base (.directory entries) = routes.map (·.foldl Path.join base) := by
  generalize hnode : Node.directory entries = node at h
  induction h generalizing base entries with
  | file => cases hnode
  | @directory entries hnames hdistinct hentries ih =>
    cases hnode
    by_cases hbase : base.utf8ByteSize ≤ Disk.maxPath
    · have hsorted := isSorted_byName entries
      generalize (byName entries).filterMap fileName? = files at hsorted
      generalize (byName entries).filterMap folder? = folders at hsorted
      have hinner (folder : String × List (String × Node)) (hfolder : folder ∈ folders) :=
        ih (folder.1, .directory folder.2) (hsorted.mem_folders.1 hfolder)
          (Path.join base folder.1) rfl
      choose! inner hlisting hpaths using hinner
      refine ⟨_, .of_isSorted hbase hdistinct hsorted hlisting, ?_⟩
      rw [filesBelow_of_isSorted hbase hdistinct hsorted, List.map_append, List.map_map,
        List.map_flatMap]
      congr 1
      refine List.flatMap_congr fun folder hfolder ↦ ?_
      rw [hpaths folder hfolder, List.map_map]
      rfl
    · refine ⟨[], ⟨fun names ↦ ?_, List.Pairwise.nil⟩, filesBelow_of_long (Nat.lt_of_not_le hbase)⟩
      simp only [List.not_mem_nil, false_iff]
      exact fun hroute ↦ hbase (hroute.base_le (.directory hnames hdistinct hentries))

end Node
end CompiledScript
