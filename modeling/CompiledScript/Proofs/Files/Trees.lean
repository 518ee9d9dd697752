import CompiledScript.Proofs.Files.Systems

/-!
# What changes to a tree of files leave alone

A change puts a node where there was a file, or where a name was free. It does not turn a directory
into something else, so every path still leads where it led before. A file can be read after it was
written, and writing it changes no other file. Paths below a common root lead to different places if
their names differ.
-/

namespace CompiledScript

namespace Node

variable {entries : List (String × Node)} {name other : String} {names rest target : List String}
  {node new root child : Node}

theorem lookup_putEntry_self : (putEntry name node entries).lookup name = some node := by
  fun_induction putEntry name node entries with
  | case1 => simp
  | case2 => simp
  | case3 other child rest hne ih => rw [List.lookup_cons, beq_false_of_ne (Ne.symm hne), ih]

theorem lookup_putEntry_of_ne (h : other ≠ name) :
    (putEntry name node entries).lookup other = entries.lookup other := by
  fun_induction putEntry name node entries with
  | case1 => rw [List.lookup_cons, beq_false_of_ne h]
  | case2 child rest => rw [List.lookup_cons, List.lookup_cons, beq_false_of_ne h]
  | case3 taken child rest hne ih => rw [List.lookup_cons, List.lookup_cons, ih]

theorem find?_append (first second : List String) (root : Node) :
    root.find? (first ++ second) = (root.find? first).bind (find? second) := by
  induction first generalizing root with
  | nil => rfl
  | cons name first ih =>
    cases root with
    | file content => rfl
    | directory entries =>
      rw [List.cons_append, find?, find?]
      cases entries.lookup name with
      | none => rfl
      | some child => exact ih child

/-- The entry with a name in the directory that some names lead to. -/
theorem find?_concat (h : root.find? names = some (.directory entries)) :
    root.find? (names ++ [name]) = entries.lookup name := by
  rw [find?_append, h, Option.bind_some, find?]
  cases entries.lookup name <;> rfl

/-- The new node may be put where the names lead to from a root: it is a file in the place of a
file, or an entry of a directory under a name that is free. -/
inductive Fits (new : Node) : List String → Node → Prop where
  | replace {content : ByteArray} (hnew : new.isDirectory = false) : Fits new [] (.file content)
  | add {name : String} {entries : List (String × Node)} (hfree : entries.lookup name = none) :
      Fits new [name] (.directory entries)
  | inside {name : String} {rest : List String} {entries : List (String × Node)} {child : Node}
      (hchild : entries.lookup name = some child) (hrest : Fits new rest child) :
      Fits new (name :: rest) (.directory entries)

theorem fits_of_find?_eq_file {content : ByteArray} (hnew : new.isDirectory = false)
    (h : root.find? names = some (.file content)) : Fits new names root := by
  induction names generalizing root with
  | nil =>
    cases h
    exact .replace hnew
  | cons name rest ih =>
    cases root with
    | file content => cases h
    | directory entries =>
      rw [find?] at h
      cases hchild : entries.lookup name with
      | none =>
        rw [hchild] at h
        cases h
      | some child =>
        rw [hchild] at h
        exact .inside hchild (ih h)

theorem fits_concat (h : root.find? names = some (.directory entries))
    (hfree : entries.lookup name = none) : Fits new (names ++ [name]) root := by
  induction names generalizing root with
  | nil =>
    cases h
    exact .add hfree
  | cons first rest ih =>
    cases root with
    | file content => cases h
    | directory others =>
      rw [find?] at h
      cases hchild : others.lookup first with
      | none =>
        rw [hchild] at h
        cases h
      | some child =>
        rw [hchild] at h
        exact .inside hchild (ih h)

theorem Fits.find?_put (h : Fits new target root) :
    (put new target root).find? target = some new := by
  induction h with
  | replace => rfl
  | add hfree => rw [put, find?, lookup_putEntry_self]; rfl
  | inside hchild hrest ih =>
    rw [put, find?, lookup_putEntry_self, hchild]
    exact ih

/-- What lies in a tree is still there after a node was put into it: directories are directories and
files are files, and only the file whose place was taken is another one. -/
theorem Fits.exists_find?_put (h : Fits new target root) (hnode : root.find? names = some node) :
    ∃ node', (put new target root).find? names = some node' ∧
      node'.isDirectory = node.isDirectory ∧
      (names ≠ target → node.isDirectory = false → node' = node) := by
  induction h generalizing names with
  | replace hnew =>
    cases names with
    | nil =>
      cases hnode
      exact ⟨new, rfl, hnew, fun hne ↦ absurd rfl hne⟩
    | cons name rest => cases hnode
  | @add name entries hfree =>
    cases names with
    | nil =>
      cases hnode
      exact ⟨_, rfl, rfl, fun _ hfile ↦ nomatch hfile⟩
    | cons first rest =>
      rw [find?] at hnode
      have hne : first ≠ name := by
        rintro rfl
        rw [hfree] at hnode
        cases hnode
      refine ⟨node, ?_, rfl, fun _ _ ↦ rfl⟩
      rw [put, find?, lookup_putEntry_of_ne hne]
      exact hnode
  | @inside name rest entries child hchild hrest ih =>
    cases names with
    | nil =>
      cases hnode
      exact ⟨_, rfl, rfl, fun _ hfile ↦ nomatch hfile⟩
    | cons first others =>
      rw [find?] at hnode
      rw [put, find?]
      by_cases hne : first = name
      · subst hne
        rw [hchild] at hnode
        rw [lookup_putEntry_self, hchild]
        obtain ⟨node', hfind, hkind, hsame⟩ := ih hnode
        exact ⟨node', hfind, hkind, fun hnames ↦ hsame fun h ↦ hnames (by rw [h])⟩
      · rw [lookup_putEntry_of_ne hne]
        exact ⟨node, hnode, rfl, fun _ _ ↦ rfl⟩

/-- Where there is a node in the old tree, there is one of the same kind in the new one. -/
def Keeps (old new : Node) : Prop :=
  ∀ names node, old.find? names = some node →
    ∃ node', new.find? names = some node' ∧ node'.isDirectory = node.isDirectory

theorem Fits.keeps (h : Fits new target root) : Keeps root (put new target root) := by
  intro names node hnode
  obtain ⟨node', hfind, hkind, -⟩ := h.exists_find?_put hnode
  exact ⟨node', hfind, hkind⟩

theorem Keeps.exists_directory {old new : Node} (h : Keeps old new)
    (hold : old.find? names = some (.directory entries)) :
    ∃ entries', new.find? names = some (.directory entries') := by
  obtain ⟨node, hfind, hkind⟩ := h names _ hold
  cases node with
  | file content => cases hkind
  | directory entries' => exact ⟨entries', hfind⟩

end Node

/-- The change is about a directory and not about a file. -/
def Change.IsOfDirectory : Change → Prop
  | .write _ _ => False
  | .makeDirectory _ => True

namespace Disk

def Place.names : Place → List String
  | .taken names _ => names
  | .free directory name => directory ++ [name]

/-- The place is one of the tree: a node of it, or a name that is free in a directory of it. -/
def Place.IsIn (root : Node) : Place → Prop
  | .taken names node => root.find? names = some node
  | .free directory name =>
    ∃ entries, root.find? directory = some (.directory entries) ∧ entries.lookup name = none

variable {disk after : Disk} {path : String} {root : Node} {here names first : List String}
  {place : Place}

theorem isIn_of_follow (h : follow root here names = .ok place) : place.IsIn root := by
  induction names generalizing here with
  | nil =>
    rw [follow] at h
    split at h
    · cases h
      assumption
    · cases h
  | cons name rest ih =>
    rw [follow] at h
    split at h
    · cases h
    · cases h
    · rename_i entries hentries
      split_ifs at h with hhere houtside hthere hlong hrest
      · exact ih h
      · exact ih h
      · exact ih h
      · cases h
        exact ⟨entries, hentries, Option.not_isSome_iff_eq_none.1 hthere⟩

/-- Names lead to the same place as before. -/
theorem follow_of_keeps {new : Node} {node : Node} (hkeeps : root.Keeps new)
    (h : follow root here names = .ok place) (hnode : new.find? place.names = some node) :
    follow new here names = .ok (.taken place.names node) := by
  induction names generalizing here with
  | nil =>
    rw [follow] at h
    split at h
    · cases h
      rw [Place.names] at hnode ⊢
      rw [follow, hnode]
    · cases h
  | cons name rest ih =>
    rw [follow] at h
    split at h
    · cases h
    · cases h
    · rename_i entries hentries
      obtain ⟨entries', hentries'⟩ := hkeeps.exists_directory hentries
      rw [follow, hentries']
      dsimp only
      split_ifs at h with hhere houtside hthere hlong hrest
      · rw [if_pos hhere]
        exact ih h
      · rw [if_neg hhere, if_pos houtside]
        exact ih h
      · obtain ⟨child, hchild⟩ := Option.isSome_iff_exists.1 hthere
        obtain ⟨child', hchild', -⟩ := hkeeps _ child ((Node.find?_concat hentries).trans hchild)
        rw [Node.find?_concat hentries'] at hchild'
        rw [if_neg hhere, if_neg houtside, if_pos (by rw [hchild']; rfl)]
        exact ih h
      · cases h
        rw [Place.names, Node.find?_concat hentries'] at hnode
        rw [if_neg hhere, if_neg houtside, if_pos (by rw [hnode]; rfl),
          List.isEmpty_iff.1 hrest, follow, Node.find?_concat hentries', hnode]
        rfl

/-- Where following the names of a path starts. -/
def start (disk : Disk) (path : String) : List String :=
  if Path.isAbsolute path then [] else disk.home

theorem locate_eq_ok_iff : disk.locate path = .ok place ↔
    ('\x00' ∉ path.toList ∧ path.isEmpty = false ∧ path.utf8ByteSize ≤ maxPath) ∧
      follow disk.root (disk.start path) (Path.steps path) = .ok place := by
  rw [locate, ← start]
  split_ifs with hzero hempty hlong
  · simp [hzero]
  · simp [hempty]
  · simp [Nat.not_le_of_lt hlong]
  · simp [hzero, hempty, Nat.le_of_not_lt hlong]

theorem isIn_of_locate (h : disk.locate path = .ok place) : place.IsIn disk.root :=
  isIn_of_follow (locate_eq_ok_iff.1 h).2

/-- A path leads to the same place as before. -/
theorem locate_put {target : List String} {new node : Node} (hfits : new.Fits target disk.root)
    (h : disk.locate path = .ok place)
    (hnode : (disk.put target new).root.find? place.names = some node) :
    (disk.put target new).locate path = .ok (.taken place.names node) := by
  obtain ⟨hpath, hfollow⟩ := locate_eq_ok_iff.1 h
  exact locate_eq_ok_iff.2 ⟨hpath, follow_of_keeps hfits.keeps hfollow hnode⟩

theorem read_eq_ok_iff {content : ByteArray} :
    disk.read path = .ok content ↔
      ∃ names, disk.locate path = .ok (.taken names (.file content)) := by
  unfold read
  constructor
  · intro h
    split at h <;> cases h
    rename_i names hlocate
    exact ⟨names, hlocate⟩
  · rintro ⟨names, hlocate⟩
    rw [hlocate]

/-- A file can be read as before after a node was put somewhere else. -/
theorem read_put_of_ne {target : List String} {new : Node} {content : ByteArray}
    (hfits : new.Fits target disk.root)
    (h : disk.locate path = .ok (.taken names (.file content))) (hne : names ≠ target) :
    (disk.put target new).read path = .ok content := by
  obtain ⟨node, hfind, -, hsame⟩ := hfits.exists_find?_put (isIn_of_locate h)
  rw [hsame hne rfl] at hfind
  exact read_eq_ok_iff.2 ⟨names, locate_put hfits h hfind⟩

/-! ## Writing -/

/-- Writing puts a file at the place to which the path leads. -/
theorem write_eq_ok {content : ByteArray} (h : disk.write path content = .ok after) :
    ∃ place, disk.locate path = .ok place ∧ (Node.file content).Fits place.names disk.root ∧
      after = disk.put place.names (.file content) := by
  unfold write at h
  split at h
  · rename_i names old hlocate
    cases h
    exact ⟨_, hlocate, Node.fits_of_find?_eq_file rfl (isIn_of_locate hlocate), rfl⟩
  · cases h
  · rename_i directory name hlocate
    cases h
    obtain ⟨entries, hentries, hfree⟩ := isIn_of_locate hlocate
    exact ⟨_, hlocate, Node.fits_concat hentries hfree, rfl⟩
  · cases h

theorem read_of_write {content : ByteArray} (h : disk.write path content = .ok after) :
    after.read path = .ok content := by
  obtain ⟨place, hlocate, hfits, rfl⟩ := write_eq_ok h
  exact read_eq_ok_iff.2 ⟨place.names, locate_put hfits hlocate hfits.find?_put⟩

/-- Making a directory changes no file. -/
theorem read_of_makeDirectory {directory : String} {content : ByteArray}
    (hmake : disk.makeDirectory directory = .ok after) (h : disk.read path = .ok content) :
    after.read path = .ok content := by
  unfold makeDirectory at hmake
  split at hmake
  · cases hmake
  · rename_i parent name hlocate
    cases hmake
    obtain ⟨entries, hentries, hfree⟩ := isIn_of_locate hlocate
    obtain ⟨names, hpath⟩ := read_eq_ok_iff.1 h
    refine read_put_of_ne (Node.fits_concat hentries hfree) hpath ?_
    rintro rfl
    have hfile : disk.root.find? (parent ++ [name]) = some (.file content) := isIn_of_locate hpath
    rw [Node.find?_concat hentries, hfree] at hfile
    cases hfile
  · cases hmake

/-! ## Paths below a root -/

/-- Names of files lead inwards. -/
theorem names_of_follow (hnames : ∀ name ∈ names, Path.IsFileName name)
    (h : follow root here names = .ok place) : place.names = here ++ names := by
  induction names generalizing here with
  | nil =>
    rw [follow] at h
    split at h
    · cases h
      exact (List.append_nil here).symm
    · cases h
  | cons name rest ih =>
    obtain ⟨hname, hrest⟩ := List.forall_mem_cons.1 hnames
    rw [follow] at h
    split at h
    · cases h
    · cases h
    · split_ifs at h with hhere houtside hthere hlong hend
      · exact absurd hhere hname.ne_here
      · exact absurd houtside hname.ne_outside
      · rw [ih hrest h, List.append_assoc, List.singleton_append]
      · cases h
        rw [Place.names, List.isEmpty_iff.1 hend]

/-- Further names lead from the place to which the names in front of them lead. -/
theorem exists_follow_of_append (hne : rest ≠ [])
    (h : follow root here (first ++ rest) = .ok place) :
    ∃ middle node, follow root here first = .ok (.taken middle node) ∧
      follow root middle rest = .ok place := by
  induction first generalizing here with
  | nil =>
    obtain ⟨name, rest, rfl⟩ := List.exists_cons_of_ne_nil hne
    cases hhere : root.find? here with
    | none =>
      rw [List.nil_append, follow, hhere] at h
      cases h
    | some node =>
      refine ⟨here, node, ?_, h⟩
      rw [follow, hhere]
  | cons name first ih =>
    rw [List.cons_append, follow] at h
    rw [follow]
    split at h
    · cases h
    · cases h
    · split_ifs at h with hhere houtside hthere hlong hend
      · rw [if_pos hhere]
        exact ih h
      · rw [if_neg hhere, if_pos houtside]
        exact ih h
      · rw [if_neg hhere, if_neg houtside, if_pos hthere]
        exact ih h
      · exact absurd (List.append_eq_nil_iff.1 (List.isEmpty_iff.1 hend)).2 hne

theorem follow_append {middle : List String} {node : Node}
    (h : follow root here first = .ok (.taken middle node)) (rest : List String) :
    follow root here (first ++ rest) = follow root middle rest := by
  induction first generalizing here with
  | nil =>
    rw [follow] at h
    split at h
    · cases h
      rfl
    · cases h
  | cons name first ih =>
    rw [follow] at h
    rw [List.cons_append, follow]
    split at h
    · cases h
    · cases h
    · split_ifs at h with hhere houtside hthere hlong hend
      · rw [if_pos hhere]
        exact ih h
      · rw [if_neg hhere, if_pos houtside]
        exact ih h
      · rw [if_neg hhere, if_neg houtside, if_pos hthere]
        exact ih h
      · cases h

/-- Paths below the same root lead to different places, unless their names are the same. -/
theorem names_ne_of_locate {base : String} {others : List String} {place' : Place}
    (hne : names ≠ []) (hnames : ∀ name ∈ names, Path.IsFileName name)
    (hne' : others ≠ []) (hothers : ∀ name ∈ others, Path.IsFileName name)
    (h : disk.locate (names.foldl Path.join base) = .ok place)
    (h' : disk.locate (others.foldl Path.join base) = .ok place') (hdiffer : names ≠ others) :
    place.names ≠ place'.names := by
  have hfollow := (locate_eq_ok_iff.1 h).2
  have hfollow' := (locate_eq_ok_iff.1 h').2
  rw [start, Path.isAbsolute_foldl_join hnames, Path.steps_foldl_join hne hnames] at hfollow
  rw [start, Path.isAbsolute_foldl_join hothers, Path.steps_foldl_join hne' hothers] at hfollow'
  obtain ⟨middle, node, hmiddle, hplace⟩ := exists_follow_of_append hne hfollow
  obtain ⟨middle', node', hmiddle', hplace'⟩ := exists_follow_of_append hne' hfollow'
  rw [hmiddle] at hmiddle'
  cases hmiddle'
  rw [names_of_follow hnames hplace, names_of_follow hothers hplace']
  exact fun heq ↦ hdiffer (List.append_cancel_left heq)

/-- The slash at the end of a path does not matter where the path leads to a directory. -/
theorem follow_namesAlong {entries : List (String × Node)}
    (h : follow root here (Path.steps path) = .ok (.taken names (.directory entries))) :
    follow root here ((Path.namesAlong path.toList).map String.ofList) =
      .ok (.taken names (.directory entries)) := by
  rw [Path.steps, List.map_append] at h
  split at h
  · obtain ⟨middle, node, hfirst, hlast⟩ := exists_follow_of_append (by simp) h
    have hnode : root.find? middle = some node := isIn_of_follow hfirst
    change follow root middle ["."] = _ at hlast
    rw [follow, hnode] at hlast
    cases node with
    | file content => cases hlast
    | directory inner =>
      dsimp only at hlast
      rw [if_pos rfl, follow, hnode] at hlast
      cases hlast
      exact hfirst
  · rw [List.map_nil, List.append_nil] at h
    exact h

/-- The name of an entry behind the path of a directory leads to the entry. -/
theorem locate_join {entries : List (String × Node)} {name : String} {child : Node}
    (hlocate : disk.locate path = .ok (.taken names (.directory entries)))
    (hname : Path.IsFileName name) (hzero : '\x00' ∉ name.toList)
    (hchild : entries.lookup name = some child)
    (hsize : (Path.join path name).utf8ByteSize ≤ maxPath) :
    disk.locate (Path.join path name) = .ok (.taken (names ++ [name]) child) := by
  obtain ⟨⟨hpath, -, -⟩, hfollow⟩ := locate_eq_ok_iff.1 hlocate
  have hdirectory : disk.root.find? names = some (.directory entries) := isIn_of_locate hlocate
  have hstart : disk.start (Path.join path name) = disk.start path := by
    rw [start, start, hname.isAbsolute_join]
  rw [locate_eq_ok_iff, hstart, Path.steps_join hname]
  refine ⟨⟨fun hmem ↦ ?_, ?_, hsize⟩, ?_⟩
  · exact (Path.mem_of_mem_join (by decide) hmem).elim hpath hzero
  · simp [← String.toList_eq_nil_iff, hname.toList_join, hname.toList_ne_nil]
  · rw [follow_append (follow_namesAlong hfollow), follow, hdirectory]
    dsimp only
    rw [if_neg hname.ne_here, if_neg hname.ne_outside, if_pos (by rw [hchild]; rfl), follow,
      Node.find?_concat hdirectory, hchild]

/-- Writing a file below a root changes no other file below it. -/
theorem read_of_write_of_ne {base other : String} {content bytes : ByteArray}
    (hpath : Path.IsBelow base path) (hother : Path.IsBelow base other) (hne : other ≠ path)
    (hwrite : disk.write path content = .ok after) (h : disk.read other = .ok bytes) :
    after.read other = .ok bytes := by
  obtain ⟨names, hnames_ne, hnames, rfl⟩ := hpath
  obtain ⟨others, hothers_ne, hothers, rfl⟩ := hother
  obtain ⟨place, hlocate, hfits, rfl⟩ := write_eq_ok hwrite
  obtain ⟨found, hfound⟩ := read_eq_ok_iff.1 h
  have hdiffer : others ≠ names := fun heq ↦ hne (by rw [heq])
  exact read_put_of_ne hfits hfound
    (names_ne_of_locate hothers_ne hothers hnames_ne hnames hfound hlocate hdiffer)

/-! ## Writing below directories -/

theorem attempt_eq_ok {action : Disk → Except FileFault Disk}
    (h : attempt action disk = (.ok (), after)) : action disk = .ok after := by
  unfold attempt at h
  split at h
  · rename_i changed haction
    cases h
    exact haction
  · cases h

/-- Asking for directories changes no file, whether or not they come about. -/
theorem read_after {changes : List Change} {content : ByteArray}
    (hchanges : ∀ asked ∈ changes, asked.IsOfDirectory) (h : disk.read path = .ok content) :
    (FileSystem.after disk changes).read path = .ok content := by
  induction changes generalizing disk with
  | nil => exact h
  | cons asked rest ih =>
    obtain ⟨hasked, hrest⟩ := List.forall_mem_cons.1 hchanges
    refine ih hrest ?_
    cases asked with
    | write path content => cases hasked
    | makeDirectory directory =>
      change (change (.makeDirectory directory) disk).2.read path = .ok content
      rw [change, attempt]
      cases hmake : disk.makeDirectory directory with
      | error fault => exact h
      | ok changed => exact read_of_makeDirectory hmake h

theorem read_of_ensureDirectories {content : ByteArray} (directory : String)
    (h : disk.read path = .ok content) :
    ((FileStore.ensureDirectories directory : StateM Disk _) disk).2.read path = .ok content := by
  have hallowed : ∀ inner ∈ Path.chain directory.toList,
      Change.IsOfDirectory (.makeDirectory (String.ofList inner)) := fun _ _ ↦ trivial
  obtain ⟨changes, hchanges, hafter, -⟩ :=
    FileStore.notes_ensureDirectories (σ := Disk) hallowed disk []
  rw [fileStore_eq, hafter]
  exact read_after hchanges h

/-- A file that is written below directories is written after the directories were made, which
changed no file. -/
theorem write_of_writeBelow {content : ByteArray}
    (h : (FileStore.writeBelow path content : StateM Disk _) disk = (.ok (), after)) :
    ∃ middle : Disk, (∀ other bytes, disk.read other = .ok bytes → middle.read other = .ok bytes) ∧
      middle.write path content = .ok after := by
  rw [FileStore.writeBelow, bind_apply] at h
  generalize (if (Path.parent path).isEmpty then "." else Path.parent path) = directory at h
  refine ⟨((FileStore.ensureDirectories directory : StateM Disk _) disk).2,
    fun other bytes ↦ read_of_ensureDirectories directory, ?_⟩
  cases hmade : ((FileStore.ensureDirectories directory : StateM Disk _) disk).1 with
  | error fault =>
    rw [hmade] at h
    cases h
  | ok value =>
    rw [hmade] at h
    exact attempt_eq_ok h

end Disk
end CompiledScript
