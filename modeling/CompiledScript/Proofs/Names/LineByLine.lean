import CompiledScript.Proofs.Names.GrammarReading
import CompiledScript.Proofs.Outcomes
import Mathlib.Data.List.Induction
import Mathlib.Data.List.Forall2

/-!
# Name tables line by line

If the lines of a text end with line feeds, with or without carriage returns, and have no other
break, then each of them is read on its own: the table of the text has the entries of its lines, a
later line goes before an earlier one, and the malformed lines are reported one by one. This holds
whether the text fits the grammar as a whole or not, so it makes no difference which of the two ways
of reading the table comes from.
-/

namespace CompiledScript.Names

/-! ## Entries of lines -/

/-- The entry of a line that holds one. -/
def ownEntries (line : List Char) : List Entry :=
  match parseLine line with
  | .ok entry => entry.toList
  | .error _ => []

/-- Whether an event is reported as a warning. -/
def TableEvent.isWarning (event : TableEvent) : Bool :=
  event.record.level = .warning

/-- The event of leaving out a line, given with its number. -/
def Skips (source : String) (numbered : List Char × Nat) (event : TableEvent) : Prop :=
  ∃ column, parseLine numbered.1 = .error column ∧ event = .skipped source numbered.2 column

theorem lineEntries_snd (source : String) (number : Nat) (ls : List (List Char)) :
    (lineEntries source number ls).2 = ls.flatMap ownEntries := by
  induction ls generalizing number with
  | nil => rfl
  | cons line rest ih =>
    rw [lineEntries, List.flatMap_cons, ownEntries, ← ih (number + 1)]
    cases parseLine line <;> rfl

/-- The malformed lines are left out one by one, in order. -/
theorem forall₂_skips (source : String) (number : Nat) (ls : List (List Char)) :
    List.Forall₂ (Skips source)
      ((ls.zipIdx number).filter fun numbered ↦ (parseLine numbered.1).toOption.isNone)
      (lineEntries source number ls).1 := by
  induction ls generalizing number with
  | nil => exact .nil
  | cons line rest ih =>
    rw [lineEntries, List.zipIdx_cons]
    cases hline : parseLine line with
    | ok entry =>
      rw [List.filter_cons_of_neg (by simp [hline, Except.toOption])]
      exact ih (number + 1)
    | error column =>
      rw [List.filter_cons_of_pos (by simp [hline, Except.toOption])]
      exact .cons ⟨column, hline, rfl⟩ (ih (number + 1))

theorem filter_isWarning_of_skips {source : String} {numbered : List (List Char × Nat)}
    {events : List TableEvent} (h : List.Forall₂ (Skips source) numbered events) :
    events.filter TableEvent.isWarning = events := by
  induction h with
  | nil => rfl
  | cons hfirst _ ih =>
    obtain ⟨column, _, rfl⟩ := hfirst
    rw [List.filter_cons_of_pos rfl, ih]

theorem parseLine_of_wholeLine?_eq_some {line : List Char} {entry : Option Entry}
    (h : wholeLine? line = some entry) : parseLine (dropReturn line) = .ok entry := by
  unfold wholeLine? at h
  split at h
  · cases h
  · exact toOption_eq_some_iff.1 h

theorem exists_of_wholeEntries_cons_eq_ok {number : Nat} {line : List Char}
    {ls : List (List Char)} {entries : List Entry}
    (h : wholeEntries number (line :: ls) = .ok entries) :
    ∃ entry others, wholeLine? line = some entry ∧ wholeEntries (number + 1) ls = .ok others ∧
      entries = entry.toList ++ others := by
  rw [wholeEntries] at h
  split at h
  · cases h
  · rename_i entry hline
    cases hrest : wholeEntries (number + 1) ls with
    | error other =>
      rw [hrest] at h
      cases h
    | ok others =>
      rw [hrest] at h
      exact ⟨entry, others, hline, rfl, (Except.ok.inj h).symm⟩

/-- If the text fits the grammar as a whole, then so does each line. -/
theorem lineEntries_of_wholeEntries {number : Nat} {ls : List (List Char)} {entries : List Entry}
    (source : String) (h : wholeEntries number ls = .ok entries) :
    lineEntries source number (ls.map dropReturn) = ([], entries) := by
  induction ls generalizing number entries with
  | nil =>
    cases h
    rfl
  | cons line rest ih =>
    obtain ⟨entry, others, hline, hrest, rfl⟩ := exists_of_wholeEntries_cons_eq_ok h
    rw [List.map_cons, lineEntries, parseLine_of_wholeLine?_eq_some hline, ih hrest]

/-! ## Merging tables -/

theorem union_empty (table : NameTable) : table ∪ ∅ = table := by
  refine Std.ExtTreeMap.ext_getElem? fun hash ↦ ?_
  rw [Std.ExtTreeMap.getElem?_union]
  simp

theorem tableOf_append (first second : List Entry) :
    tableOf (first ++ second) = tableOf first ∪ tableOf second := by
  induction second using List.reverseRecOn with
  | nil => rw [List.append_nil, tableOf, tableOf, List.foldl_nil, union_empty]
  | append_singleton second entry ih =>
    have hsnoc (entries : List Entry) :
        tableOf (entries ++ [entry]) = (tableOf entries).insert entry.hash entry.name := by
      rw [tableOf, List.foldl_append]
      rfl
    rw [← List.append_assoc, hsnoc, hsnoc, ih]
    exact (Std.ExtTreeMap.union_insert_right_eq_insert_union (p := ⟨_, _⟩)).symm

/-- The table of the entries of all lines merges the tables of the lines. -/
theorem tableOf_flatMap (ls : List (List Char)) (entriesOf : List Char → List Entry) :
    tableOf (ls.flatMap entriesOf) =
      (ls.map fun line ↦ tableOf (entriesOf line)).foldl (· ∪ ·) ∅ := by
  induction ls using List.reverseRecOn with
  | nil => rfl
  | append_singleton ls line ih =>
    rw [List.flatMap_append, List.flatMap_singleton, tableOf_append, ih, List.map_append,
      List.foldl_append]
    rfl

/-! ## Texts whose only breaks are feeds -/

section OnlyFeeds

variable {c : Char} {body text : List Char}

theorem dropReturn_cons (hc : c ≠ '\r') : dropReturn (c :: body) = c :: dropReturn body := by
  cases body with
  | nil => exact if_neg fun h ↦ hc (Option.some.inj h)
  | cons d rest =>
    unfold dropReturn
    rw [List.getLast?_cons_cons]
    split <;> rfl

/-- Up to carriage returns at the ends of lines, both ways of cutting see the same lines. -/
theorem lines_eq_map_dropReturn (h : Text.onlyFeeds text = true) :
    Text.lines text = (Text.feedLines text).map dropReturn := by
  fun_induction Text.onlyFeeds text with
  | case1 => rfl
  | case2 rest ih =>
    rw [Text.lines_return_feed, ih h]
    rfl
  | case3 c rest hpair ih =>
    rw [Bool.and_eq_true] at h
    have hreturn := Text.ne_return_of_onlyFeeds h.1
    rw [Text.lines_cons (absurd · hreturn), Text.feedLines_cons, ih h.2]
    by_cases hc : c = '\n'
    · subst hc
      rfl
    · have hnone : Text.isBreak c = false := by simpa [hc] using h.1
      rw [if_neg hc, hnone]
      cases Text.feedLines rest with
      | nil => simp [Text.extendFirst, dropReturn, hreturn]
      | cons first others => simp [Text.extendFirst, dropReturn_cons hreturn]

/-- A feed that is missing at the end makes no difference to what the lines hold. -/
theorem lineEntries_lines_terminated (source : String) (h : Text.onlyFeeds text = true) :
    lineEntries source 1 (Text.lines (Text.terminated text)) =
      lineEntries source 1 (Text.lines text) := by
  by_cases hempty : text = []
  · subst hempty
    rfl
  · rw [Text.lines_terminated h hempty]

/-- A text with no break but feeds is read line by line, in one way or the other. -/
theorem parseTable_of_onlyFeeds (source : String) {text : String}
    (h : Text.onlyFeeds text.toList = true) :
    (parseTable source text).2 = tableOf ((Text.lines text.toList).flatMap ownEntries) ∧
      (parseTable source text).1.filter TableEvent.isWarning =
        (lineEntries source 1 (Text.lines text.toList)).1 := by
  rw [← lineEntries_snd source 1, ← lineEntries_lines_terminated source h]
  unfold parseTable
  dsimp only
  split
  · rename_i entries hwhole
    rw [lines_eq_map_dropReturn (Text.onlyFeeds_terminated h),
      lineEntries_of_wholeEntries source hwhole]
    exact ⟨rfl, rfl⟩
  · refine ⟨rfl, ?_⟩
    rw [List.filter_cons_of_neg Bool.false_ne_true]
    exact filter_isWarning_of_skips (forall₂_skips source 1 _)

end OnlyFeeds

/-- The table of a line on its own. -/
theorem parseTable_of_no_break (source : String) {line : List Char}
    (h : ∀ c ∈ line, Text.isBreak c = false) :
    (parseTable source (String.ofList line)).2 = tableOf (ownEntries line) := by
  have hfeeds : Text.onlyFeeds (String.ofList line).toList = true := by
    rw [String.toList_ofList]
    exact Text.onlyFeeds_of_no_break h
  rw [(parseTable_of_onlyFeeds source hfeeds).1, String.toList_ofList]
  by_cases hempty : line = []
  · subst hempty
    rfl
  · rw [Text.lines_of_no_break h hempty, List.flatMap_singleton]

/-- The entries between all breaks of a text, as a table that merges the tables of the lines. -/
theorem tableOf_lines (source : String) (text : List Char) :
    tableOf ((Text.lines text).flatMap ownEntries) =
      ((Text.lines text).map fun line ↦
        (parseTable source (String.ofList line)).2).foldl (· ∪ ·) ∅ := by
  have hown (line : List Char) (hline : line ∈ Text.lines text) :=
    parseTable_of_no_break source (Text.not_isBreak_of_mem_lines line hline)
  rw [tableOf_flatMap, List.map_congr_left hown]

theorem inLine_of_not_isBreak {c : Char} (h : Text.isBreak c = false) :
    Grammar.inLine c = true := by
  simp [Grammar.inLine, Text.ne_return_of_not_isBreak h, Text.ne_feed_of_not_isBreak h]

/-- A line without breaks is malformed if the grammar of a line rejects it. -/
theorem isNone_read_line {line : List Char} (h : ∀ c ∈ line, Text.isBreak c = false) :
    (Grammar.read .line .start line).isNone = (parseLine line).toOption.isNone := by
  rw [Grammar.read_line fun c hc ↦ inLine_of_not_isBreak (h c hc), Option.isNone_map]

theorem filter_isNone_read_line (text : List Char) (number : Nat) :
    (((Text.lines text).zipIdx number).filter fun numbered ↦
        (Grammar.read .line .start numbered.1).isNone) =
      ((Text.lines text).zipIdx number).filter fun numbered ↦
        (parseLine numbered.1).toOption.isNone := by
  refine List.filter_congr fun numbered hmem ↦ isNone_read_line ?_
  exact Text.not_isBreak_of_mem_lines _ (List.fst_mem_of_mem_zipIdx hmem)

/-- In a text with no break but feeds, each line is read as if it were the whole text: the table
merges the tables of the lines, where a later name for a hash replaces an earlier one, and there is
one warning for each line that the grammar rejects, with the number of the line. -/
theorem parseTable_eq_merge_of_lines (source text : String)
    (h : Text.onlyFeeds text.toList = true) :
    (parseTable source text).2 =
        ((Text.lines text.toList).map fun line ↦
          (parseTable source (String.ofList line)).2).foldl (· ∪ ·) ∅ ∧
      List.Forall₂ (Skips source)
        (((Text.lines text.toList).zipIdx 1).filter fun numbered ↦
          (Grammar.read .line .start numbered.1).isNone)
        ((parseTable source text).1.filter TableEvent.isWarning) := by
  obtain ⟨htable, hwarnings⟩ := parseTable_of_onlyFeeds source h
  constructor
  · rw [htable, tableOf_lines source]
  · rw [hwarnings, filter_isNone_read_line]
    exact forall₂_skips source 1 _

/-- Two names for a hash, with a malformed line between them. -/
def mixedSample : String :=
  "10,a\r\nzz\n10,b"

theorem run_mixedSample :
    Text.onlyFeeds mixedSample.toList = true ∧
      Text.lines mixedSample.toList = ["10,a".toList, "zz".toList, "10,b".toList] ∧
      ((Text.lines mixedSample.toList).zipIdx 1).filter (fun numbered ↦
        (parseLine numbered.1).toOption.isNone) = [("zz".toList, 2)] ∧
      (parseTable "names" mixedSample).2[(0x10 : Int)]? = some "b" := by
  decide +kernel

/-- The malformed line is reported as the second one, and the later name is kept. -/
theorem parseTable_mixedSample :
    Text.onlyFeeds mixedSample.toList = true ∧
      (parseTable "names" mixedSample).2 =
        (["10,a", "zz", "10,b"].map fun line ↦ (parseTable "names" line).2).foldl (· ∪ ·) ∅ ∧
      List.Forall₂ (Skips "names") [("zz".toList, 2)]
        ((parseTable "names" mixedSample).1.filter TableEvent.isWarning) ∧
      (parseTable "names" mixedSample).2[(0x10 : Int)]? = some "b" := by
  obtain ⟨hfeeds, hlines, hmalformed, hname⟩ := run_mixedSample
  obtain ⟨htable, hwarnings⟩ := parseTable_eq_merge_of_lines "names" mixedSample hfeeds
  rw [filter_isNone_read_line, hmalformed] at hwarnings
  rw [hlines] at htable
  refine ⟨hfeeds, ?_, hwarnings, hname⟩
  simpa only [List.map_cons, List.map_nil, String.ofList_toList] using htable

end CompiledScript.Names
