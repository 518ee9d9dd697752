import CompiledScript.Proofs.Names.LineByLine

/-!
# A malformed line behind a table

A malformed line at the end of a text makes the whole text be read line by line, which cuts it at
more characters than the grammar does. The entries in front of the malformed line are then those of
the lines between all breaks. They are the entries of the table without the malformed line if that
has no other breaks than its feeds, and need not be if it has.
-/

namespace CompiledScript.Names

variable {line : List Char} {ls : List (List Char)} {entries : List Entry}

/-! ## Texts that are rejected -/

/-- A line that does not fit makes the whole text be rejected. -/
theorem wholeEntries_of_mem (number : Nat) (hmem : line ∈ ls) (h : wholeLine? line = none) :
    ∃ other, wholeEntries number ls = .error other := by
  induction ls generalizing number with
  | nil => cases hmem
  | cons first rest ih =>
    rw [wholeEntries]
    rcases List.mem_cons.1 hmem with rfl | hmem
    · rw [h]
      exact ⟨number, rfl⟩
    · obtain ⟨other, hother⟩ := ih (number + 1) hmem
      rw [hother]
      cases wholeLine? first with
      | none => exact ⟨number, rfl⟩
      | some entry => exact ⟨other, rfl⟩

theorem terminated_append_of_no_break (text : List Char) (h : ∀ c ∈ line, Text.isBreak c = false)
    (hne : line ≠ []) : Text.terminated (text ++ line) = text ++ (line ++ ['\n']) := by
  rw [Text.terminated, if_neg, List.append_assoc]
  intro hlast
  rw [List.getLast?_append_of_ne_nil text hne] at hlast
  exact Text.ne_feed_of_not_isBreak (h _ (List.mem_of_getLast? hlast)) rfl

/-- With a malformed line behind it, a text has the entries between all its breaks. -/
theorem parseTable_append_of_error (source : String) {text line : String}
    (hends : Text.EndsLines text.toList) (hline : ∀ c ∈ line.toList, Text.isBreak c = false)
    (h : (parseLine line.toList).toOption = none) :
    (parseTable source (text ++ line)).2 =
      tableOf ((Text.lines text.toList).flatMap ownEntries) := by
  have hne : line.toList ≠ [] := by
    intro hempty
    rw [hempty] at h
    cases h
  have hinside : ∀ c ∈ line.toList, Grammar.inLine c = true :=
    fun c hc ↦ inLine_of_not_isBreak (hline c hc)
  have hreturn : '\r' ∉ line.toList := Grammar.not_mem_of_inLine hinside rfl
  have hfeed : '\n' ∉ line.toList := Grammar.not_mem_of_inLine hinside rfl
  have hwhole : Text.terminated (text ++ line).toList =
      text.toList ++ (line.toList ++ ['\n']) := by
    rw [String.toList_append, terminated_append_of_no_break _ hline hne]
  have hmem : line.toList ∈ Text.feedLines (text.toList ++ (line.toList ++ ['\n'])) := by
    rw [Text.feedLines_append hends, Text.feedLines_append_feed hfeed]
    simp
  have hrejected : wholeLine? line.toList = none := by
    rw [Grammar.wholeLine?_of_inLine hinside (Grammar.dropReturn_of_not_mem hreturn), h]
  have hown : ownEntries line.toList = [] := by
    unfold ownEntries
    split
    · rename_i entry hparsed
      rw [hparsed] at h
      cases h
    · rfl
  obtain ⟨other, hother⟩ := wholeEntries_of_mem 1 hmem hrejected
  calc
    _ = tableOf (lineEntries source 1 (Text.lines (text.toList ++ (line.toList ++ ['\n'])))).2 := by
      simp only [parseTable, hwhole, hother]
    _ = _ := by
      rw [lineEntries_snd, Text.lines_append hends, Text.lines_append_feed_of_no_break hline,
        List.flatMap_append, List.flatMap_singleton, hown, List.append_nil]

/-! ## Texts that fit the grammar -/

theorem wholeEntries_of_read_table {text : List Char} (hends : Text.EndsLines text)
    (h : Grammar.read .table .start text = some entries) :
    wholeEntries 1 (Text.feedLines text) = .ok entries := by
  rw [Grammar.read_table 1 text hends] at h
  exact toOption_eq_some_iff.1 h

theorem return_not_mem_of_wholeEntries {number : Nat} (h : wholeEntries number ls = .ok entries) :
    ∀ line ∈ ls, '\r' ∉ dropReturn line := by
  intro line hmem hreturn
  obtain ⟨other, hother⟩ := wholeEntries_of_mem number hmem (if_pos hreturn)
  rw [hother] at h
  cases h

theorem return_not_mem_tail {c : Char} {text : List Char} (hc : c ≠ '\r')
    (h : ∀ line ∈ Text.feedLines (c :: text), '\r' ∉ dropReturn line) :
    ∀ line ∈ Text.feedLines text, '\r' ∉ dropReturn line := by
  rw [Text.feedLines_cons] at h
  split at h
  · exact (List.forall_mem_cons.1 h).2
  · cases hlines : Text.feedLines text with
    | nil => simp
    | cons first others =>
      rw [hlines, Text.extendFirst, List.forall_mem_cons, dropReturn_cons hc] at h
      exact List.forall_mem_cons.2 ⟨fun hmem ↦ h.1 (List.mem_cons_of_mem c hmem), h.2⟩

/-- A text that fits the grammar has no lone carriage return, so its breaks are its feeds if none of
the other characters that break a line is in it. -/
theorem onlyFeeds_of_return_not_mem {text : List Char} (hends : Text.EndsLines text)
    (hreturn : ∀ line ∈ Text.feedLines text, '\r' ∉ dropReturn line)
    (hbreaks : ∀ c ∈ text, Text.isBreak c = true → c = '\r' ∨ c = '\n') :
    Text.onlyFeeds text = true := by
  fun_induction Text.onlyFeeds text with
  | case1 => rfl
  | case2 rest ih =>
    refine ih hends.tail.tail (fun line hline ↦ hreturn line ?_) fun c hc ↦ hbreaks c ?_
    · exact List.mem_cons_of_mem _ hline
    · exact List.mem_cons_of_mem _ (List.mem_cons_of_mem _ hc)
  | case3 c rest hpair ih =>
    have hc : c ≠ '\r' := by
      rintro rfl
      cases rest with
      | nil => cases hends '\r' rfl
      | cons d more =>
        have hd : d ≠ '\n' := fun hd ↦ hpair more rfl (congrArg (· :: more) hd)
        obtain ⟨first, others, hmore⟩ := Text.exists_feedLines_cons more hd
        have hlines : Text.feedLines ('\r' :: d :: more) = ('\r' :: d :: first) :: others := by
          rw [Text.feedLines_cons, if_neg (by decide), hmore]
          rfl
        refine hreturn ('\r' :: d :: first) ?_ ?_
        · rw [hlines]
          exact List.mem_cons_self
        · exact Grammar.return_mem_dropReturn [] (List.cons_ne_nil d first)
    have hrest := ih hends.tail (return_not_mem_tail hc hreturn)
      fun d hd ↦ hbreaks d (List.mem_cons_of_mem c hd)
    have hfirst := hbreaks c List.mem_cons_self
    cases hbreak : Text.isBreak c with
    | true =>
      rw [(hfirst hbreak).resolve_left hc, hrest]
      rfl
    | false => simp [hrest]

/-- A malformed line behind a text that fits the grammar makes the text be cut at all its breaks.
It changes no other entry if these are the feeds that end the lines of the grammar. -/
theorem parseTable_append_malformed (source : String) {text line : String}
    (hends : text.toList.getLast? = some '\n')
    (haccepted : Grammar.read .table .start text.toList = some entries)
    (hline : ∀ c ∈ line.toList, Text.isBreak c = false)
    (hrejected : Grammar.read .line .start line.toList = none) :
    (parseTable source text).2 = tableOf entries ∧
      (parseTable source (text ++ line)).2 =
        ((Text.lines text.toList).map fun line ↦
          (parseTable source (String.ofList line)).2).foldl (· ∪ ·) ∅ ∧
      ((∀ c ∈ text.toList, Text.isBreak c = true → c = '\r' ∨ c = '\n') →
        (parseTable source (text ++ line)).2 = (parseTable source text).2) := by
  have hlast := Text.endsLines_of_getLast? hends
  have hwhole := wholeEntries_of_read_table hlast haccepted
  have herror : (parseLine line.toList).toOption = none := by
    rw [← Option.isNone_iff_eq_none, ← isNone_read_line hline, hrejected]
    rfl
  have happended := parseTable_append_of_error source hlast hline herror
  refine ⟨?_, happended.trans (tableOf_lines source _), fun hbreaks ↦ ?_⟩
  · simp only [parseTable, Text.terminated, if_pos hends, hwhole]
  · have hfeeds := onlyFeeds_of_return_not_mem hlast (return_not_mem_of_wholeEntries hwhole) hbreaks
    rw [happended, (parseTable_of_onlyFeeds source hfeeds).1]

/-- A table with two lines, which end in the two ways of the grammar. -/
def feedsSample : String :=
  "1,a\r\n2,b\n"

/-- A name with a line separator in it, which is no break for the grammar. -/
def separatorSample : String :=
  "1,a\u2028b\n"

theorem run_feedsSample :
    feedsSample.toList.getLast? = some '\n' ∧
      (wholeEntries 1 (Text.feedLines feedsSample.toList)).toOption =
        some [⟨1, "a"⟩, ⟨2, "b"⟩] ∧
      feedsSample.toList.all (fun c ↦ !Text.isBreak c || c = '\r' || c = '\n') = true := by
  decide +kernel

theorem run_separatorSample :
    separatorSample.toList.getLast? = some '\n' ∧
      (wholeEntries 1 (Text.feedLines separatorSample.toList)).toOption =
        some [⟨1, "a\u2028b"⟩] ∧
      Text.lines separatorSample.toList = ["1,a".toList, "b".toList] ∧
      (parseTable "names" separatorSample).2[(1 : Int)]? = some "a\u2028b" ∧
      (parseTable "names" (separatorSample ++ "zz")).2[(1 : Int)]? = some "a" := by
  decide +kernel

theorem run_zz :
    "zz".toList.all (fun c ↦ !Text.isBreak c) = true ∧ (parseLine "zz".toList).toOption = none := by
  decide +kernel

theorem read_feedsSample :
    Grammar.read .table .start feedsSample.toList = some [⟨1, "a"⟩, ⟨2, "b"⟩] := by
  obtain ⟨hlast, hwhole, _⟩ := run_feedsSample
  rw [Grammar.read_table 1 _ (Text.endsLines_of_getLast? hlast), hwhole]

theorem read_separatorSample :
    Grammar.read .table .start separatorSample.toList = some [⟨1, "a\u2028b"⟩] := by
  obtain ⟨hlast, hwhole, _⟩ := run_separatorSample
  rw [Grammar.read_table 1 _ (Text.endsLines_of_getLast? hlast), hwhole]

theorem not_isBreak_zz : ∀ c ∈ "zz".toList, Text.isBreak c = false := by
  intro c hc
  simpa using List.all_eq_true.1 run_zz.1 c hc

theorem read_line_zz : Grammar.read .line .start "zz".toList = none := by
  rw [Grammar.read_line fun c hc ↦ inLine_of_not_isBreak (not_isBreak_zz c hc), run_zz.2]
  rfl

/-- A malformed line leaves the table with two lines as it is, and cuts the name with the line
separator. -/
theorem parseTable_append_samples :
    ((parseTable "names" feedsSample).2 = tableOf [⟨1, "a"⟩, ⟨2, "b"⟩] ∧
      (parseTable "names" (feedsSample ++ "zz")).2 = (parseTable "names" feedsSample).2) ∧
    (parseTable "names" separatorSample).2 = tableOf [⟨1, "a\u2028b"⟩] ∧
      (parseTable "names" (separatorSample ++ "zz")).2 =
        (["1,a", "b"].map fun line ↦ (parseTable "names" line).2).foldl (· ∪ ·) ∅ := by
  obtain ⟨hlast, _, hall⟩ := run_feedsSample
  obtain ⟨hlast', _, hlines, _⟩ := run_separatorSample
  obtain ⟨hfeeds, _, hsame⟩ := parseTable_append_malformed "names" hlast read_feedsSample
    not_isBreak_zz read_line_zz
  obtain ⟨hseparator, hmerged, _⟩ := parseTable_append_malformed "names" hlast'
    read_separatorSample not_isBreak_zz read_line_zz
  rw [hlines] at hmerged
  refine ⟨⟨hfeeds, hsame fun c hc hbreak ↦ ?_⟩, hseparator, ?_⟩
  · simpa [hbreak] using List.all_eq_true.1 hall c hc
  · simpa only [List.map_cons, List.map_nil, String.ofList_toList] using hmerged

/-- A malformed line can change the entries in front of it. -/
theorem exists_parseTable_append_ne :
    ∃ (source text line : String) (entries : List Entry), text.toList.getLast? = some '\n' ∧
      Grammar.read .table .start text.toList = some entries ∧
      (∀ c ∈ line.toList, Text.isBreak c = false) ∧
      Grammar.read .line .start line.toList = none ∧
      (parseTable source (text ++ line)).2 ≠ (parseTable source text).2 := by
  obtain ⟨hlast, _, _, hwhole, happended⟩ := run_separatorSample
  refine ⟨"names", separatorSample, "zz", _, hlast, read_separatorSample, not_isBreak_zz,
    read_line_zz, fun hsame ↦ ?_⟩
  rw [hsame, hwhole] at happended
  exact absurd happended (by decide)

end CompiledScript.Names
