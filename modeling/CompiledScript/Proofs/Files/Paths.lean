import CompiledScript.Files.Path
import Mathlib.Data.List.Infix
import Mathlib.Data.List.TakeWhile

/-!
# Paths below a directory

A path is made of the names between its slashes. Joining names behind a root adds these names and
nothing else, so a path that was made from names of files leads from the root inwards, whatever the
texts are that the names were taken from. The directories in which such a path lies are those along
which it leads.
-/

namespace CompiledScript.Path

/-! ## Parts between separators -/

section Parts

variable {isSeparator : Char → Bool} {text part : List Char} {c : Char}

theorem splitAt_ne_nil : splitAt isSeparator text ≠ [] := by
  cases text with
  | nil => simp [splitAt]
  | cons c rest =>
    rw [splitAt]
    split
    · simp
    · split <;> simp

theorem splitAt_append_separator {rest : List Char} (hc : isSeparator c = true) :
    splitAt isSeparator (text ++ c :: rest) =
      splitAt isSeparator text ++ splitAt isSeparator rest := by
  induction text with
  | nil => simp [splitAt, hc]
  | cons d text ih =>
    rw [List.cons_append, splitAt, splitAt, ih]
    split
    · rfl
    · cases hparts : splitAt isSeparator text with
      | nil => exact absurd hparts splitAt_ne_nil
      | cons first others => rfl

theorem splitAt_of_no_separator (h : ∀ c ∈ text, isSeparator c = false) :
    splitAt isSeparator text = [text] := by
  induction text with
  | nil => rfl
  | cons c text ih =>
    obtain ⟨hc, htext⟩ := List.forall_mem_cons.1 h
    rw [splitAt, ih htext, hc]
    rfl

/-- The characters of a part are characters of the text, and none of them is a separator. -/
theorem mem_of_mem_splitAt (hpart : part ∈ splitAt isSeparator text) (hc : c ∈ part) :
    c ∈ text ∧ isSeparator c = false := by
  induction text generalizing part with
  | nil =>
    rw [splitAt, List.mem_singleton] at hpart
    simp [hpart] at hc
  | cons d text ih =>
    rw [splitAt] at hpart
    split at hpart
    · rcases List.mem_cons.1 hpart with rfl | hpart
      · cases hc
      · exact (ih hpart hc).imp_left (List.mem_cons_of_mem d)
    · rename_i hseparator
      split at hpart
      · rename_i hparts
        exact absurd hparts splitAt_ne_nil
      · rename_i first others hparts
        rcases List.mem_cons.1 hpart with rfl | hpart
        · rcases List.mem_cons.1 hc with rfl | hc
          · exact ⟨List.mem_cons_self, by simpa using hseparator⟩
          · exact (ih (hparts ▸ List.mem_cons_self) hc).imp_left (List.mem_cons_of_mem d)
        · exact (ih (hparts ▸ List.mem_cons_of_mem _ hpart) hc).imp_left (List.mem_cons_of_mem d)

end Parts

/-! ## The names along a path -/

/-- The names between the slashes of a path. -/
def namesAlong (path : List Char) : List (List Char) :=
  (splitAt (· = '/') path).filter (· ≠ [])

section Names

variable {path name rest : List Char}

@[simp]
theorem namesAlong_nil : namesAlong [] = [] := rfl

theorem namesAlong_append_slash (first rest : List Char) :
    namesAlong (first ++ '/' :: rest) = namesAlong first ++ namesAlong rest := by
  rw [namesAlong, splitAt_append_separator (by simp), List.filter_append]
  rfl

theorem namesAlong_of_name (hname : name ≠ []) (hslash : '/' ∉ name) :
    namesAlong name = [name] := by
  have hparts : splitAt (· = '/') name = [name] :=
    splitAt_of_no_separator fun c hc ↦ decide_eq_false fun h ↦ hslash (h ▸ hc)
  simp [namesAlong, hparts, hname]

theorem namesAlong_append_slashes {slashes : List Char} (h : ∀ c ∈ slashes, c = '/') :
    namesAlong (path ++ slashes) = namesAlong path := by
  induction slashes generalizing path with
  | nil => rw [List.append_nil]
  | cons c slashes ih =>
    obtain ⟨rfl, hslashes⟩ := List.forall_mem_cons.1 h
    have hempty : namesAlong slashes = [] := @ih [] hslashes
    rw [namesAlong_append_slash, hempty, List.append_nil]

/-- A path without the slashes at its end leads along the same names. -/
theorem namesAlong_dropSlashes : namesAlong (dropSlashes path) = namesAlong path := by
  unfold dropSlashes
  split
  · rfl
  · have hslashes : ∀ c ∈ (path.reverse.takeWhile (· = '/')).reverse, c = '/' := by
      intro c hc
      simpa using List.mem_takeWhile_imp (List.mem_reverse.1 hc)
    calc
      namesAlong (path.reverse.dropWhile (· = '/')).reverse
      _ = namesAlong ((path.reverse.dropWhile (· = '/')).reverse
            ++ (path.reverse.takeWhile (· = '/')).reverse) :=
          (namesAlong_append_slashes hslashes).symm
      _ = namesAlong path := by
          rw [← List.reverse_append, List.takeWhile_append_dropWhile, List.reverse_reverse]

theorem front_append_lastName (path : List Char) : front path ++ lastName path = path := by
  rw [front, lastName, ← List.reverse_append, List.takeWhile_append_dropWhile, List.reverse_reverse]

theorem slash_not_mem_lastName : '/' ∉ lastName path := by
  intro h
  have := List.mem_takeWhile_imp (List.mem_reverse.1 h)
  simp at this

/-- What stands in front of the last name is nothing, or ends with a slash. -/
theorem front_eq_nil_or_append_slash (path : List Char) :
    front path = [] ∨ ∃ outer, front path = outer ++ ['/'] := by
  unfold front
  cases hrest : path.reverse.dropWhile (· ≠ '/') with
  | nil => exact Or.inl rfl
  | cons c rest =>
    have hc : c = '/' := by
      have := List.head?_dropWhile_not (· ≠ '/') path.reverse
      rw [hrest] at this
      simpa using this
    exact Or.inr ⟨rest.reverse, by rw [List.reverse_cons, hc]⟩

theorem namesAlong_front_append_lastName (path : List Char) :
    namesAlong path = namesAlong (front path) ++ namesAlong (lastName path) := by
  conv_lhs => rw [← front_append_lastName path]
  rcases front_eq_nil_or_append_slash path with hfront | ⟨outer, hfront⟩
  · rw [hfront, namesAlong_nil, List.nil_append, List.nil_append]
  · rw [hfront, namesAlong_append_slash, List.append_assoc, List.singleton_append,
      namesAlong_append_slash, namesAlong_nil, List.append_nil]

theorem front_append_of_name (hslash : '/' ∉ name)
    (hpath : path = [] ∨ ∃ outer, path = outer ++ ['/']) :
    front (path ++ name) = path ∧ lastName (path ++ name) = name := by
  have hname : ∀ c ∈ name.reverse, decide (c ≠ '/') = true := fun c hc ↦
    decide_eq_true fun h ↦ hslash (h ▸ List.mem_reverse.1 hc)
  unfold front lastName
  rw [List.reverse_append, List.dropWhile_append_of_pos hname, List.takeWhile_append_of_pos hname]
  rcases hpath with rfl | ⟨outer, rfl⟩ <;> simp

end Names

/-! ## Joining a name -/

/-- A text that can be the name of a file in a directory. -/
structure IsFileName (name : String) : Prop where
  ne_empty : name ≠ ""
  no_slash : '/' ∉ name.toList
  ne_here : name ≠ "."
  ne_outside : name ≠ ".."

instance (name : String) : Decidable (IsFileName name) :=
  decidable_of_iff (name ≠ "" ∧ '/' ∉ name.toList ∧ name ≠ "." ∧ name ≠ "..")
    ⟨fun ⟨hempty, hslash, hhere, houtside⟩ ↦ ⟨hempty, hslash, hhere, houtside⟩,
      fun h ↦ ⟨h.ne_empty, h.no_slash, h.ne_here, h.ne_outside⟩⟩

/-- A path as it stands in front of a name that is joined to it. -/
def opened (path : List Char) : List Char :=
  if path = [] ∨ path.getLast? = some '/' then path else path ++ ['/']

theorem opened_eq_nil_or_append_slash (path : List Char) :
    opened path = [] ∨ ∃ outer, opened path = outer ++ ['/'] := by
  unfold opened
  split
  · rename_i h
    exact h.imp_right fun hlast ↦ List.getLast?_eq_some_iff.1 hlast
  · exact Or.inr ⟨path, rfl⟩

theorem namesAlong_opened (path : List Char) : namesAlong (opened path) = namesAlong path := by
  unfold opened
  split
  · rfl
  · exact namesAlong_append_slashes (by simp)

section Join

variable {base name : String}

namespace IsFileName

theorem toList_ne_nil (hname : IsFileName name) : name.toList ≠ [] :=
  fun h ↦ hname.ne_empty (String.toList_eq_nil_iff.1 h)

theorem not_isAbsolute (hname : IsFileName name) : isAbsolute name = false :=
  decide_eq_false fun h ↦ hname.no_slash (List.mem_of_mem_head? (by rw [h]; rfl))

theorem toList_join (hname : IsFileName name) (base : String) :
    (join base name).toList = opened base.toList ++ name.toList := by
  unfold join opened
  rw [hname.not_isAbsolute, if_neg (by simp)]
  by_cases hbase : base.isEmpty ∨ base.toList.getLast? = some '/'
  · rw [if_pos hbase, if_pos (by simpa using hbase), String.toList_append]
  · rw [if_neg hbase, if_neg (by simpa using hbase), String.toList_append, String.toList_append]
    rfl

theorem front_join (hname : IsFileName name) (base : String) :
    front (join base name).toList = opened base.toList := by
  rw [hname.toList_join]
  exact (front_append_of_name hname.no_slash (opened_eq_nil_or_append_slash _)).1

theorem lastName_join (hname : IsFileName name) (base : String) :
    lastName (join base name).toList = name.toList := by
  rw [hname.toList_join]
  exact (front_append_of_name hname.no_slash (opened_eq_nil_or_append_slash _)).2

theorem namesAlong_join (hname : IsFileName name) (base : String) :
    namesAlong (join base name).toList = namesAlong base.toList ++ [name.toList] := by
  rw [namesAlong_front_append_lastName, hname.front_join, hname.lastName_join, namesAlong_opened,
    namesAlong_of_name hname.toList_ne_nil hname.no_slash]

theorem isAbsolute_join (hname : IsFileName name) (base : String) :
    isAbsolute (join base name) = isAbsolute base := by
  have hhead : name.toList.head? ≠ some '/' := of_decide_eq_false hname.not_isAbsolute
  unfold isAbsolute
  rw [hname.toList_join, opened]
  cases hbase : base.toList with
  | nil => simpa using hhead
  | cons c rest => split <;> simp

end IsFileName
end Join

/-! ## The directories of a path -/

/-- The path lies in the directory: the names along the directory are the first names along the
path, and not all of them. What does not start at the root lies in the directory `.` as well. -/
def LiesIn (path directory : String) : Prop :=
  (isAbsolute path = false ∧ directory = ".") ∨
    (isAbsolute directory = isAbsolute path ∧
      namesAlong directory.toList <+: namesAlong path.toList ∧
      namesAlong directory.toList ≠ namesAlong path.toList)

section Directories

variable {path directory : List Char}

theorem dropSlashes_isPrefix : dropSlashes path <+: path := by
  unfold dropSlashes
  split
  · exact List.prefix_rfl
  · rw [← List.reverse_suffix, List.reverse_reverse]
    exact List.dropWhile_suffix _

theorem front_isPrefix : front path <+: path :=
  ⟨lastName path, front_append_lastName path⟩

theorem dropSlashes_eq_nil (h : dropSlashes path = []) : path = [] := by
  unfold dropSlashes at h
  split at h
  · exact h
  · rename_i hall
    rw [List.reverse_eq_nil_iff, List.dropWhile_eq_nil_iff] at h
    exact absurd (by simpa using h) hall

theorem head?_eq_of_prefix (hstart : directory <+: path) (hne : directory ≠ []) :
    directory.head? = path.head? := by
  obtain ⟨rest, rfl⟩ := hstart
  rw [List.head?_append_of_ne_nil _ hne]

/-- The directories that a path lies in are beginnings of it, and lead along its first names. -/
theorem prefix_of_mem_chain (hne : path ≠ []) (h : directory ∈ chain path) :
    directory ≠ [] ∧ directory <+: path ∧ namesAlong directory <+: namesAlong path := by
  fun_induction chain path with
  | case1 path outer hshorter houter =>
    rw [List.mem_singleton.1 h]
    exact ⟨hne, List.prefix_rfl, List.prefix_rfl⟩
  | case2 path outer hshorter houter ih =>
    rcases List.mem_cons.1 h with rfl | h
    · exact ⟨hne, List.prefix_rfl, List.prefix_rfl⟩
    · obtain ⟨hdirectory, hstart, hnames⟩ := ih houter h
      refine ⟨hdirectory, hstart.trans (dropSlashes_isPrefix.trans front_isPrefix), hnames.trans ?_⟩
      rw [namesAlong_dropSlashes, namesAlong_front_append_lastName path]
      exact List.prefix_append _ _
  | case3 path outer hshorter =>
    rw [List.mem_singleton.1 h]
    exact ⟨hne, List.prefix_rfl, List.prefix_rfl⟩

/-- All directories that are made for a file are directories that it lies in. -/
theorem liesIn_of_mem_chain {base name : String} (hname : IsFileName name)
    (h : directory ∈ chain
      (if (parent (join base name)).isEmpty then "." else parent (join base name)).toList) :
    LiesIn (join base name) (String.ofList directory) := by
  have hparent : (parent (join base name)).toList = dropSlashes (opened base.toList) := by
    rw [parent, hname.front_join, String.toList_ofList]
  by_cases hempty : (parent (join base name)).isEmpty
  · -- A name alone lies in the directory `.`, outside of which there is nothing to make.
    have hopened : opened base.toList = [] :=
      dropSlashes_eq_nil (hparent.symm.trans (by simpa using hempty))
    rw [if_pos hempty] at h
    have hhere : chain ".".toList = [['.']] := by
      unfold chain
      rfl
    rw [hhere, List.mem_singleton] at h
    refine Or.inl ⟨?_, by rw [h]⟩
    rw [isAbsolute, hname.toList_join, hopened, List.nil_append]
    exact hname.not_isAbsolute
  · rw [if_neg hempty, hparent] at h
    have hne : dropSlashes (opened base.toList) ≠ [] := fun hnil ↦
      hempty (by simpa using hparent.trans hnil)
    obtain ⟨hdirectory, hstart, hnames⟩ := prefix_of_mem_chain hne h
    rw [namesAlong_dropSlashes, namesAlong_opened] at hnames
    have hsame : directory <+: (join base name).toList := by
      rw [hname.toList_join]
      exact hstart.trans (dropSlashes_isPrefix.trans (List.prefix_append _ _))
    refine Or.inr ⟨?_, ?_, ?_⟩
    · rw [isAbsolute, isAbsolute, String.toList_ofList, head?_eq_of_prefix hsame hdirectory]
    · rw [String.toList_ofList, hname.namesAlong_join]
      exact hnames.trans (List.prefix_append _ _)
    · rw [String.toList_ofList, hname.namesAlong_join]
      intro heq
      have hlength := hnames.length_le
      rw [heq, List.length_append, List.length_singleton] at hlength
      omega

end Directories

/-! ## Paths below a root -/

/-- The path leads from the root along names of files and directories, of which there is at least
one. -/
def IsBelow (root path : String) : Prop :=
  ∃ names : List String,
    names ≠ [] ∧ (∀ name ∈ names, IsFileName name) ∧ path = names.foldl join root

section Below

variable {root path : String} {names others : List String}

theorem namesAlong_foldl_join (hnames : ∀ name ∈ names, IsFileName name) :
    namesAlong (names.foldl join root).toList =
      namesAlong root.toList ++ names.map String.toList := by
  induction names generalizing root with
  | nil => simp
  | cons name names ih =>
    obtain ⟨hname, hnames⟩ := List.forall_mem_cons.1 hnames
    rw [List.foldl_cons, ih hnames, hname.namesAlong_join, List.map_cons, List.append_assoc,
      List.singleton_append]

theorem isAbsolute_foldl_join (hnames : ∀ name ∈ names, IsFileName name) :
    isAbsolute (names.foldl join root) = isAbsolute root := by
  induction names generalizing root with
  | nil => rfl
  | cons name names ih =>
    obtain ⟨hname, hnames⟩ := List.forall_mem_cons.1 hnames
    rw [List.foldl_cons, ih hnames, hname.isAbsolute_join]

/-- A path that ends with the name of a file asks for no directory. -/
theorem steps_foldl_join (hne : names ≠ []) (hnames : ∀ name ∈ names, IsFileName name) :
    steps (names.foldl join root) = (namesAlong root.toList).map String.ofList ++ names := by
  have hlast := hnames _ (List.getLast_mem hne)
  have hend : (names.foldl join root).toList.getLast? ≠ some '/' := by
    rw [← List.dropLast_append_getLast hne, List.foldl_append, List.foldl_cons, List.foldl_nil,
      hlast.toList_join, List.getLast?_append_of_ne_nil _ hlast.toList_ne_nil]
    exact fun h ↦ hlast.no_slash (List.mem_of_getLast? h)
  have hsame : (names.map String.toList).map String.ofList = names := by simp
  rw [steps, if_neg hend, List.append_nil]
  change (namesAlong _).map String.ofList = _
  rw [namesAlong_foldl_join hnames, List.map_append, hsame]

theorem steps_join {base name : String} (hname : IsFileName name) :
    steps (join base name) = (namesAlong base.toList).map String.ofList ++ [name] := by
  rw [show join base name = [name].foldl join base from rfl]
  exact steps_foldl_join (List.cons_ne_nil name []) (List.forall_mem_singleton.2 hname)

/-- Different names make different paths. -/
theorem foldl_join_inj (hnames : ∀ name ∈ names, IsFileName name)
    (hothers : ∀ name ∈ others, IsFileName name) :
    names.foldl join root = others.foldl join root ↔ names = others := by
  refine ⟨fun h ↦ ?_, fun h ↦ by rw [h]⟩
  have hsame := congrArg (fun path : String ↦ namesAlong path.toList) h
  simp only [namesAlong_foldl_join hnames, namesAlong_foldl_join hothers] at hsame
  exact List.map_injective_iff.2 (fun _ _ ↦ String.toList_inj.1) (List.append_cancel_left hsame)

/-- A path below a root ends with the name of a file. -/
theorem IsBelow.exists_join (h : IsBelow root path) :
    ∃ base name, IsFileName name ∧ path = join base name := by
  obtain ⟨names, hne, hnames, rfl⟩ := h
  refine ⟨names.dropLast.foldl join root, names.getLast hne, hnames _ (List.getLast_mem hne), ?_⟩
  conv_lhs => rw [← List.dropLast_append_getLast hne]
  rw [List.foldl_append, List.foldl_cons, List.foldl_nil]

theorem isFileName_of_mem_plainNames {text name : String} (h : name ∈ plainNames text) :
    IsFileName name := by
  obtain ⟨part, hpart, rfl⟩ := List.mem_map.1 h
  obtain ⟨hpart, hplain⟩ := List.mem_filter.1 hpart
  simp only [isPlainName, Bool.and_eq_true, decide_eq_true_eq] at hplain
  obtain ⟨⟨hempty, hhere⟩, houtside⟩ := hplain
  refine ⟨?_, ?_, ?_, ?_⟩
  · exact fun h ↦ hempty (String.ofList_injective h)
  · rw [String.toList_ofList]
    exact fun hslash ↦ by simpa using (mem_of_mem_splitAt hpart hslash).2
  · exact fun h ↦ hhere (String.ofList_injective h)
  · exact fun h ↦ houtside (String.ofList_injective h)

/-- Whatever the texts hold, the path that is made from them lies below the root, if only one of
them has a name in it. -/
theorem isBelow_below {texts : List String} (hne : texts.flatMap plainNames ≠ []) :
    IsBelow root (below root texts) := by
  refine ⟨_, hne, fun name hname ↦ ?_, rfl⟩
  obtain ⟨text, _, hname⟩ := List.mem_flatMap.1 hname
  exact isFileName_of_mem_plainNames hname

/-- An ending without slashes makes a longer last name. -/
theorem IsBelow.append {ending : String} (h : IsBelow root path) (hslash : '/' ∉ ending.toList)
    (hlength : 2 ≤ ending.toList.length) : IsBelow root (path ++ ending) := by
  obtain ⟨names, hne, hnames, rfl⟩ := h
  have hlast := hnames _ (List.getLast_mem hne)
  generalize hname : names.getLast hne = name at hlast
  have hlong : 2 < (name ++ ending).toList.length := by
    have := List.length_pos_of_ne_nil hlast.toList_ne_nil
    rw [String.toList_append, List.length_append]
    omega
  have hshort (other : String) (hother : other.toList.length ≤ 2) : name ++ ending ≠ other := by
    rintro rfl
    omega
  have hextended : IsFileName (name ++ ending) := by
    refine ⟨hshort "" (by decide), ?_, hshort "." (by decide), hshort ".." (by decide)⟩
    rw [String.toList_append, List.mem_append]
    exact fun h ↦ h.elim hlast.no_slash hslash
  refine ⟨names.dropLast ++ [name ++ ending], by simp, ?_, ?_⟩
  · intro other hother
    rcases List.mem_append.1 hother with hother | hother
    · exact hnames other (List.mem_of_mem_dropLast hother)
    · rw [List.mem_singleton.1 hother]
      exact hextended
  · conv_lhs => rw [← List.dropLast_append_getLast hne, hname]
    rw [List.foldl_append, List.foldl_append]
    apply String.toList_inj.1
    simp only [List.foldl_cons, List.foldl_nil, String.toList_append, hlast.toList_join,
      hextended.toList_join, List.append_assoc]

end Below

/-! ## Characters -/

section Characters

variable {c : Char}

theorem mem_of_mem_fileExtension {path : String} (h : c ∈ (fileExtension path).toList) :
    c ∈ lastName path.toList := by
  unfold fileExtension at h
  dsimp only at h
  split at h
  · simp at h
  · rename_i dot stem hdrop
    split at h
    · simp at h
    · rw [String.toList_ofList, List.mem_cons, List.mem_reverse] at h
      apply List.mem_reverse.1
      rcases h with rfl | h
      · exact List.mem_of_mem_drop (hdrop ▸ List.mem_cons_self)
      · exact (List.takeWhile_subset _) h

theorem mem_of_mem_join {base path : String} (hc : c ≠ '/') (h : c ∈ (join base path).toList) :
    c ∈ base.toList ∨ c ∈ path.toList := by
  unfold join at h
  split at h
  · exact Or.inr h
  · split at h
    · rwa [String.toList_append, List.mem_append] at h
    · rw [String.toList_append, String.toList_append, List.mem_append, List.mem_append] at h
      refine h.imp_left fun h ↦ h.resolve_right fun hslash ↦ hc ?_
      simpa using hslash

/-- Apart from the dot that stands for an empty path, the directories that a path lies in have the
characters of the path. -/
theorem mem_of_mem_chain_parent {path : String} {directory : List Char} (hc : c ≠ '.')
    (hdirectory : directory ∈ chain (if (parent path).isEmpty then "." else parent path).toList)
    (h : c ∈ directory) : c ∈ path.toList := by
  split_ifs at hdirectory with hempty
  · have hmem := (prefix_of_mem_chain (by decide) hdirectory).2.1.subset h
    exact absurd (by simpa using hmem) hc
  · have hne : (parent path).toList ≠ [] := fun hnil ↦ hempty (by simpa using hnil)
    have hmem := (prefix_of_mem_chain hne hdirectory).2.1.subset h
    rw [parent, String.toList_ofList] at hmem
    exact (dropSlashes_isPrefix.trans front_isPrefix).subset hmem

/-- Apart from slashes, a path below a root has the characters of the root and of the texts. -/
theorem mem_of_mem_below {root : String} {texts : List String} (hc : c ≠ '/')
    (h : c ∈ (below root texts).toList) : c ∈ root.toList ∨ ∃ text ∈ texts, c ∈ text.toList := by
  have hfold (names : List String) (root : String) (h : c ∈ (names.foldl join root).toList) :
      c ∈ root.toList ∨ ∃ name ∈ names, c ∈ name.toList := by
    induction names generalizing root with
    | nil => exact Or.inl h
    | cons name names ih =>
      rcases ih _ h with h | ⟨other, hother, h⟩
      · exact (mem_of_mem_join hc h).imp_right fun h ↦ ⟨name, List.mem_cons_self, h⟩
      · exact Or.inr ⟨other, List.mem_cons_of_mem _ hother, h⟩
  refine (hfold _ _ h).imp_right fun ⟨name, hname, h⟩ ↦ ?_
  obtain ⟨text, htext, hname⟩ := List.mem_flatMap.1 hname
  obtain ⟨part, hpart, rfl⟩ := List.mem_map.1 hname
  rw [String.toList_ofList] at h
  exact ⟨text, htext, (mem_of_mem_splitAt (List.mem_filter.1 hpart).1 h).1⟩

end Characters

end CompiledScript.Path
