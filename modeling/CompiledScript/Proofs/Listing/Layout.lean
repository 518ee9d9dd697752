import CompiledScript.Proofs.Listing.Feeds
import CompiledScript.Proofs.Script.Renaming
import CompiledScript.Proofs.Script.Retained
import Mathlib.Data.List.Forall2

/-!
# The layout of a listing

A listing is split into rows at its line feeds. It has three rows for the script, a row for each
include with a blank one behind them, and for each function three rows for a banner, a row for each
instruction, and a blank one; the row of an instruction starts with its address and its name. The
texts that a listing shows as they are stand in the bytes of the script and may hold line feeds
themselves, and each of these adds a row. So the layout is the one with a row for each instruction
if and only if no text that is shown holds a feed.
-/

namespace CompiledScript.Listing

open Text

/-! ## Splitting at line feeds -/

/-- The rows of a text: what stands between its line feeds. -/
def rowsOf (text : String) : List (List Char) :=
  text.toList.splitOn '\n'

theorem rowsOf_of_feeds_eq_zero {text : String} (h : feeds text = 0) :
    rowsOf text = [text.toList] :=
  List.splitOn_eq_singleton (feeds_eq_zero_iff.1 h)

theorem length_rowsOf (text : String) : (rowsOf text).length = 1 + feeds text := by
  unfold rowsOf feeds
  induction text.toList with
  | nil => rfl
  | cons c rest ih =>
    rw [List.splitOn_cons_eq_if_modifyHead, List.count_cons]
    split
    · rw [List.length_cons, ih, Nat.add_assoc]
    · rw [List.length_modifyHead, ih, Nat.add_zero]

theorem splitOn_append_of_not_mem {start : List Char} (h : '\n' ∉ start) (rest : List Char) :
    (start ++ rest).splitOn '\n' = (rest.splitOn '\n').modifyHead (start ++ ·) := by
  induction start with
  | nil => cases hrest : rest.splitOn '\n' <;> simp [hrest]
  | cons c others ih =>
    rw [List.mem_cons, not_or] at h
    rw [List.cons_append, List.splitOn_cons_eq_if_modifyHead, if_neg (by simpa using Ne.symm h.1),
      ih h.2, List.modifyHead_modifyHead]
    rfl

/-- Joined lines are split into the rows of each line. -/
theorem rowsOf_intercalate {lines : List String} (h : lines ≠ []) :
    rowsOf ("\n".intercalate lines) = lines.flatMap rowsOf := by
  induction lines with
  | nil => contradiction
  | cons line rest ih =>
    cases rest with
    | nil => simp [rowsOf]
    | cons next others =>
      rw [List.flatMap_cons, ← ih (List.cons_ne_nil next others)]
      unfold rowsOf
      rw [String.toList_intercalate, String.toList_intercalate, List.map_cons, List.map_cons,
        List.intercalate_cons_cons]
      simp [List.splitOn_append_cons_self]

/-! ## Layouts -/

/-- Rows that start with a text, and go on for some more rows. -/
def Block (start : String) (more : Nat) (rows : List (List Char)) : Prop :=
  ∃ first others, rows = first :: others ∧ start.toList <+: first ∧ others.length = more

/-- The rows of the included scripts: a block for each, and a blank row if there are any. -/
def IncludeRows (extra : String → Nat) (paths : List String) (rows : List (List Char)) : Prop :=
  ∃ blocks, rows = (if paths = [] then [] else blocks.flatten ++ [[]]) ∧
    List.Forall₂ (fun path block ↦ Block "#using " (extra path) block) paths blocks

/-- The rows of a function: three for the banner, a block for each instruction, and a blank row. -/
def FunctionRows (extra : String → Nat) (function : Export String) (rows : List (List Char)) :
    Prop :=
  ∃ banner blocks, rows = banner ++ blocks.flatten ++ [[]] ∧ banner.length = 3 ∧
    List.Forall₂ (fun found block ↦ Block (opening found) (total extra (shownTexts found)) block)
      function.instructions.toList blocks

/-- The rows of a script, if each text that is shown takes the given number of extra rows. -/
def Layout (extra : String → Nat) (script : Script String) (rows : List (List Char)) : Prop :=
  ∃ heading includes functions, rows = heading ++ includes ++ functions.flatten ∧
    heading.length = 3 + extra script.path ∧
    IncludeRows extra script.includes includes ∧
    List.Forall₂ (FunctionRows extra) script.exports.toList functions

/-- The texts that the listing of a function shows as they are. -/
def shownByFunction (function : Export String) : List String :=
  function.instructions.toList.flatMap shownTexts

/-- The texts that the listing of a script shows as they are. -/
def shownByScript (script : Script String) : List String :=
  script.path :: script.includes ++ script.exports.toList.flatMap shownByFunction

/-! ## The parts of a listing -/

/-- The lines in front of the instructions of a function. -/
def banner (function : Export String) : List String :=
  (Listing.function function).take 3

theorem function_eq (function : Export String) :
    Listing.function function =
      banner function ++ function.instructions.toList.map instruction ++ [""] :=
  rfl

/-- The lines in front of the includes of a script. -/
def heading (script : Script String) : List String :=
  (lines script).take 3

theorem lines_eq (script : Script String) :
    lines script = heading script ++ includes script.includes ++
      script.exports.toList.flatMap Listing.function :=
  rfl

/-! ## The number of rows -/

section Length

variable {extra : String → Nat} {rows : List (List Char)}

theorem Block.length_eq {start : String} {more : Nat} (h : Block start more rows) :
    rows.length = 1 + more := by
  obtain ⟨first, others, rfl, _, rfl⟩ := h
  rw [List.length_cons, Nat.add_comm]

/-- If each block has the lines of its item and the extra rows of its texts, then so do all. -/
theorem length_flatten_of_forall₂ {α : Type} (lines texts : α → List String) {items : List α}
    {blocks : List (List (List Char))}
    (h : List.Forall₂ (fun item block ↦
      block.length = (lines item).length + total extra (texts item)) items blocks) :
    blocks.flatten.length = (items.flatMap lines).length + total extra (items.flatMap texts) := by
  induction h with
  | nil => rfl
  | cons hblock _ ih =>
    simp only [List.flatten_cons, List.flatMap_cons, List.length_append, total_append, hblock, ih]
    omega

theorem IncludeRows.length_eq {paths : List String} (h : IncludeRows extra paths rows) :
    rows.length = (includes paths).length + total extra paths := by
  obtain ⟨blocks, rfl, hblocks⟩ := h
  by_cases hnone : paths = []
  · simp [hnone, includes]
  · have hlength := length_flatten_of_forall₂ ([·]) ([·]) (hblocks.imp fun _ _ h ↦ h.length_eq)
    simp only [includes, hnone, hlength, if_false, List.isEmpty_iff, List.length_append,
      List.length_map, List.length_singleton, List.flatMap_singleton']
    omega

theorem FunctionRows.length_eq {function : Export String} (h : FunctionRows extra function rows) :
    rows.length = (Listing.function function).length + total extra (shownByFunction function) := by
  obtain ⟨first, blocks, rfl, hfirst, hblocks⟩ := h
  have hlength := length_flatten_of_forall₂ (fun found ↦ [instruction found]) shownTexts
    (hblocks.imp fun _ _ h ↦ h.length_eq)
  have hbanner : (banner function).length = 3 := rfl
  simp only [function_eq, shownByFunction, hfirst, hlength, hbanner, List.length_append,
    List.length_singleton, List.map_eq_flatMap]
  omega

/-- A layout has a row for each line and the extra rows of the texts that are shown. -/
theorem Layout.length_eq {script : Script String} (h : Layout extra script rows) :
    rows.length = (lines script).length + total extra (shownByScript script) := by
  obtain ⟨first, paths, functions, rfl, hfirst, hpaths, hfunctions⟩ := h
  have hlength := length_flatten_of_forall₂ Listing.function shownByFunction
    (hfunctions.imp fun _ _ h ↦ h.length_eq)
  have hheading : (heading script).length = 3 := rfl
  simp only [lines_eq, shownByScript, hfirst, hpaths.length_eq, hlength, hheading,
    List.length_append, List.cons_append, total_cons, total_append]
  omega

end Length

/-! ## The rows of a listing -/

section Rows

variable {extra : String → Nat}

/-- A line that starts with a text without a feed is a block. -/
theorem block_rowsOf {start rest : String} (h : feeds start = 0) :
    Block start (feeds rest) (rowsOf (start ++ rest)) := by
  have hlength := length_rowsOf rest
  unfold rowsOf at hlength ⊢
  rw [String.toList_append, splitOn_append_of_not_mem (feeds_eq_zero_iff.1 h)]
  cases hrest : rest.toList.splitOn '\n' with
  | nil => exact absurd hrest (List.splitOn_ne_nil _ _)
  | cons first others =>
    rw [hrest, List.length_cons] at hlength
    exact ⟨_, others, rfl, List.prefix_append _ _, by omega⟩

theorem rowsOf_empty : rowsOf "" = [[]] :=
  rowsOf_of_feeds_eq_zero rfl

theorem includeRows_rowsOf {paths : List String} (h : ∀ path ∈ paths, extra path = feeds path) :
    IncludeRows extra paths ((includes paths).flatMap rowsOf) := by
  refine ⟨paths.map fun path ↦ rowsOf ("#using " ++ (path ++ ";")), ?_, ?_⟩
  · by_cases hnone : paths = []
    · simp [includes, hnone]
    · simp [includes, hnone, rowsOf_empty, List.flatMap_def, String.append_assoc, Function.comp_def]
  · refine List.forall₂_map_right_iff.2 (List.forall₂_same.2 fun path hpath ↦ ?_)
    have hfeeds : feeds (path ++ ";") = extra path := by
      rw [h path hpath, feeds_append]
      rfl
    rw [← hfeeds]
    exact block_rowsOf rfl

theorem exists_instruction_eq_opening_append (found : Instruction String) :
    ∃ rest, instruction found = opening found ++ rest := by
  by_cases hcases : casesOf found.operands = []
  · by_cases hnone : found.operands = []
    · exact ⟨_, (instruction_of_no_operands hnone).trans String.append_assoc⟩
    · exact ⟨_, (instruction_of_operands hcases hnone).trans String.append_assoc⟩
  · refine ⟨" [" ++ (", ".intercalate ((casesOf found.operands).map switchCase) ++ "]"), ?_⟩
    rw [instruction_of_cases hcases, String.append_assoc, String.append_assoc]

/-- The listing of a function has line feeds in the texts that it shows, and nowhere else. -/
structure FeedsInTexts (function : Export String) : Prop where
  module : feeds function.module = 0
  name : feeds function.name = 0
  instructions : ∀ found ∈ function.instructions,
    feeds (instruction found) = total feeds (shownTexts found)

theorem block_instruction {found : Instruction String}
    (h : feeds (instruction found) = total feeds (shownTexts found))
    (hextra : ∀ text ∈ shownTexts found, extra text = feeds text) :
    Block (opening found) (total extra (shownTexts found)) (rowsOf (instruction found)) := by
  obtain ⟨rest, hrest⟩ := exists_instruction_eq_opening_append found
  have hfeeds : feeds rest = total extra (shownTexts found) := calc
    feeds rest = feeds (opening found ++ rest) := by simp
    _ = total feeds (shownTexts found) := by rw [← hrest, h]
    _ = total extra (shownTexts found) := (total_congr hextra).symm
  rw [hrest, ← hfeeds]
  exact block_rowsOf (feeds_opening found)

theorem feeds_of_mem_banner {function : Export String} (h : FeedsInTexts function) :
    ∀ line ∈ banner function, feeds line = 0 := by
  simp only [banner, Listing.function, List.cons_append, List.take_succ_cons, List.forall_mem_cons]
  refine ⟨?_, ?_, ?_, by simp⟩
  · rw [feeds_append, h.module]
    rfl
  · simp only [feeds_append, feeds_checksum, feeds_offset]
    rfl
  · simp only [feeds_append, h.name, feeds_toString_nat]
    rfl

theorem flatMap_rowsOf_of_feeds {lines : List String} (h : ∀ line ∈ lines, feeds line = 0) :
    lines.flatMap rowsOf = lines.map String.toList := by
  induction lines with
  | nil => rfl
  | cons line rest ih =>
    rw [List.forall_mem_cons] at h
    rw [List.flatMap_cons, rowsOf_of_feeds_eq_zero h.1, ih h.2]
    rfl

theorem functionRows_rowsOf {function : Export String} (h : FeedsInTexts function)
    (hextra : ∀ text ∈ shownByFunction function, extra text = feeds text) :
    FunctionRows extra function ((Listing.function function).flatMap rowsOf) := by
  refine ⟨(banner function).map String.toList,
    function.instructions.toList.map fun found ↦ rowsOf (instruction found), ?_, rfl, ?_⟩
  · rw [function_eq, List.flatMap_append, List.flatMap_append,
      flatMap_rowsOf_of_feeds (feeds_of_mem_banner h), List.flatMap_map, List.flatMap_singleton,
      rowsOf_empty, List.flatMap_def]
  · refine List.forall₂_map_right_iff.2 (List.forall₂_same.2 fun found hfound ↦ ?_)
    refine block_instruction (h.instructions found (Array.mem_toList_iff.1 hfound)) ?_
    exact fun text htext ↦ hextra text (List.mem_flatMap.2 ⟨found, hfound, htext⟩)

theorem length_heading_rows {script : Script String} (htitle : feeds script.game.title = 0) :
    ((heading script).flatMap rowsOf).length = 3 + feeds script.path := by
  have hwords : feeds "// " = 0 ∧ feeds " script " = 0 ∧ feeds "// Source checksum " = 0 :=
    ⟨rfl, rfl, rfl⟩
  simp only [heading, lines, List.cons_append, List.take_succ_cons, List.take_zero,
    List.flatMap_cons, List.flatMap_nil, List.length_append, List.length_nil, length_rowsOf,
    feeds_append, feeds_checksum, htitle, hwords]
  have hblank : feeds "" = 0 := rfl
  omega

theorem layout_rowsOf_text {script : Script String} (htitle : feeds script.game.title = 0)
    (h : ∀ function ∈ script.exports, FeedsInTexts function)
    (hextra : ∀ text ∈ shownByScript script, extra text = feeds text) :
    Layout extra script (rowsOf (text script)) := by
  refine ⟨(heading script).flatMap rowsOf, (includes script.includes).flatMap rowsOf,
    script.exports.toList.map fun function ↦ (Listing.function function).flatMap rowsOf,
    ?_, ?_, ?_, ?_⟩
  · have hlines : lines script ≠ [] := List.cons_ne_nil _ _
    rw [text, rowsOf_intercalate hlines, lines_eq, List.flatMap_append, List.flatMap_append,
      List.flatMap_assoc, ← List.flatMap_def]
  · rw [length_heading_rows htitle, hextra script.path List.mem_cons_self]
  · exact includeRows_rowsOf fun path hpath ↦ hextra path (by simp [shownByScript, hpath])
  · refine List.forall₂_map_right_iff.2 (List.forall₂_same.2 fun function hfunction ↦ ?_)
    refine functionRows_rowsOf (h function (Array.mem_toList_iff.1 hfunction)) fun text htext ↦ ?_
    refine hextra text (List.mem_append_right _ ?_)
    exact List.mem_flatMap.2 ⟨function, hfunction, htext⟩

/-- Each instruction has a row of its own if and only if no text that is shown holds a feed. -/
theorem layout_zero_iff {script : Script String} (htitle : feeds script.game.title = 0)
    (h : ∀ function ∈ script.exports, FeedsInTexts function) :
    Layout (fun _ ↦ 0) script (rowsOf (text script)) ↔
      ∀ shown ∈ shownByScript script, '\n' ∉ shown.toList := by
  constructor
  · intro hlayout shown hshown
    have hplain := hlayout.length_eq
    have hfull := (layout_rowsOf_text htitle h fun _ _ ↦ rfl).length_eq
    have hnone : total (fun _ ↦ 0) (shownByScript script) = 0 :=
      (total_eq_zero_iff _).2 fun _ _ ↦ rfl
    have hfeeds : total feeds (shownByScript script) = 0 := by omega
    exact feeds_eq_zero_iff.1 ((total_eq_zero_iff feeds).1 hfeeds shown hshown)
  · intro hplain
    exact layout_rowsOf_text htitle h fun shown hshown ↦
      (feeds_eq_zero_iff.2 (hplain shown hshown)).symm

end Rows

/-! ## Listings of loaded scripts -/

theorem feedsInTexts_map {nameOf : Symbol → String} (h : ∀ symbol, feeds (nameOf symbol) = 0)
    (function : Export Symbol) : FeedsInTexts (function.map nameOf) where
  module := h function.module
  name := h function.name
  instructions := by
    intro found hfound
    obtain ⟨decoded, _, rfl⟩ := Array.mem_map.1 hfound
    exact feeds_instruction h decoded

theorem feeds_title_of_gameOf {tag : Option String} {data : ByteArray} {game : Game}
    (h : Script.gameOf tag data = .ok game) : feeds game.title = 0 := by
  have hmember : game ∈ Game.all := Script.mem_all_of_gameOf_eq_ok h
  obtain rfl := List.mem_singleton.1 hmember
  rfl

theorem feedsInTexts_of_load {context : NameContext} (hcontext : NamesAreRead context)
    {tag : Option String} {data : ByteArray} {script : Script String}
    (h : (Script.load context tag data).result = .ok script) :
    feeds script.game.title = 0 ∧ ∀ function ∈ script.exports, FeedsInTexts function := by
  obtain ⟨game, s, hgame, hload, rfl⟩ := Script.load_result_eq_ok_map.1 h
  constructor
  · change feeds s.script.game.title = 0
    rw [Session.game_of_load_eq_ok hload]
    exact feeds_title_of_gameOf hgame
  · intro function hfunction
    obtain ⟨decoded, _, rfl⟩ := Array.mem_map.1 hfunction
    exact feedsInTexts_map (feeds_nameOf hcontext game.tag) decoded

/-- In the listing of a loaded script, an instruction takes one row, which starts with its address
and its name, and one more for each line feed in the texts that it shows; the other parts take the
rows that a layout gives them. So the layout has a row for each instruction and no others but those
of the parts if and only if no text that is shown holds a feed. -/
theorem layout_of_load (context : NameContext) (hcontext : NamesAreRead context)
    (tag : Option String) (data : ByteArray) (script : Script String)
    (h : (Script.load context tag data).result = .ok script) :
    Layout feeds script (rowsOf (text script)) ∧
      (Layout (fun _ ↦ 0) script (rowsOf (text script)) ↔
        ∀ shown ∈ shownByScript script, '\n' ∉ shown.toList) := by
  obtain ⟨htitle, hfunctions⟩ := feedsInTexts_of_load hcontext h
  exact ⟨layout_rowsOf_text htitle hfunctions fun _ _ ↦ rfl, layout_zero_iff htitle hfunctions⟩

theorem namesAreRead_singleton (tag source text : String) :
    NamesAreRead ⟨[(tag, (Names.parseTable source text).2)]⟩ := by
  intro other hash name hname
  by_cases hother : other = tag
  · refine ⟨source, text, ?_⟩
    simpa [NameContext.tableFor, hother] using hname
  · have hlookup : (other == tag) = false := by simpa using hother
    simp [NameContext.tableFor, List.lookup_cons, hlookup] at hname

/-- A script with one function, whose code is one instruction with an animation. The path of the
animation has a line feed between two letters. -/
def twoRowSample : ByteArray :=
  ⟨#[0x80, 0x47, 0x53, 0x43, 0x0D, 0x0A, 0x00, 0x03,
    0, 0, 0, 0,  0, 0, 0, 0,  0, 0, 0, 0,  0, 0, 0, 0,  0, 0, 0, 0,  0, 0, 0, 0,
    84, 0, 0, 0,  0, 0, 0, 0,  0, 0, 0, 0,  0, 0, 0, 0,  0, 0, 0, 0,
    72, 0,  0, 0,  1, 0,  0, 0,  0, 0,  0, 0,  0, 0,  0, 0,  0, 0, 0, 0,
    0x73, 0,  0x61, 0x0A, 0x62, 0,  19, 0,  74, 0, 0, 0,
    0xCF, 0x69, 0x29, 0xC0,  78, 0, 0, 0,  1, 0, 0, 0,  2, 0, 0, 0,  0, 0, 0, 0]⟩

/-- Names for the function and the module of the sample. -/
def sampleContext : NameContext :=
  ⟨[("BlackOps3", (Names.parseTable "names" "1,main\n2,scripts\n").2)]⟩

theorem run_twoRowSample :
    (Script.load sampleContext none twoRowSample).result.toOption.map shownByScript =
      some ["s", "a\nb"] := by
  decide +kernel

theorem run_oneByteSample :
    (Script.load sampleContext none Script.oneByteSample).result.toOption.map shownByScript =
      some ["s"] := by
  decide +kernel

/-- Of two scripts, the one whose texts hold no line feed has a row for each instruction. -/
theorem layout_samples :
    (∃ script, (Script.load sampleContext none Script.oneByteSample).result = .ok script ∧
      shownByScript script = ["s"] ∧ Layout (fun _ ↦ 0) script (rowsOf (text script))) ∧
    (∃ script, (Script.load sampleContext none twoRowSample).result = .ok script ∧
      shownByScript script = ["s", "a\nb"] ∧ Layout feeds script (rowsOf (text script))) := by
  have hcontext : NamesAreRead sampleContext := namesAreRead_singleton _ _ _
  obtain ⟨plain, hplain, hshown⟩ := Option.map_eq_some_iff.1 run_oneByteSample
  obtain ⟨torn, htorn, htexts⟩ := Option.map_eq_some_iff.1 run_twoRowSample
  rw [toOption_eq_some_iff] at hplain htorn
  refine ⟨⟨plain, hplain, hshown, ?_⟩, torn, htorn, htexts, ?_⟩
  · refine (layout_of_load sampleContext hcontext none _ plain hplain).2.2 ?_
    rw [hshown]
    decide
  · exact (layout_of_load sampleContext hcontext none _ torn htorn).1

/-- There are scripts whose listing has more rows than one for each instruction. -/
theorem exists_listing_without_plain_layout :
    ∃ (data : ByteArray) (script : Script String),
      (Script.load sampleContext none data).result = .ok script ∧
        ¬ Layout (fun _ ↦ 0) script (rowsOf (text script)) := by
  obtain ⟨script, hload, hshown⟩ := Option.map_eq_some_iff.1 run_twoRowSample
  rw [toOption_eq_some_iff] at hload
  obtain ⟨htitle, hfunctions⟩ := feedsInTexts_of_load (namesAreRead_singleton _ _ _) hload
  refine ⟨twoRowSample, script, hload, fun hlayout ↦ ?_⟩
  have hplain := (layout_zero_iff htitle hfunctions).1 hlayout
  rw [hshown] at hplain
  exact absurd (hplain "a\nb" (by simp)) (by decide)

end CompiledScript.Listing
