import CompiledScript.Proofs.Names.LineByLine
import CompiledScript.Proofs.Text.Numerals
import Mathlib.Data.List.DropRight

/-!
# Writing out a name table

The entries of a table that was read are normal: a hash has 32 bits, and a name has neither commas
nor line ends in it and no white space around it. Such an entry is read back from the line that
shows its hash in hexadecimal and its name behind a comma. So a table can be written out, in any
order of its entries, and the grammar accepts what was written and gives the same table again.
-/

namespace CompiledScript.Names

/-! ## Normal entries -/

/-- An entry as a line of a table gives it. -/
structure Entry.IsNormal (entry : Entry) : Prop where
  hash_lt : entry.hash < Nat.pow 2 32
  inName : ∀ c ∈ entry.name.toList, Grammar.inName c = true
  trimmed : Text.trim entry.name.toList = entry.name.toList

theorem hashValue_lt (digits : List Char) : hashValue digits < Nat.pow 2 32 := by
  induction digits using List.reverseRecOn with
  | nil => decide
  | append_singleton digits digit _ =>
    rw [hashValue, List.foldl_append]
    exact Nat.mod_lt _ (by decide)

theorem trim_eq_rdropWhile (text : List Char) :
    Text.trim text = (text.dropWhile Text.isBlank).rdropWhile Text.isBlank :=
  rfl

theorem trim_subset (text : List Char) : Text.trim text ⊆ text :=
  List.Subset.trans (List.rdropWhile_prefix _ _).subset (List.dropWhile_suffix _).subset

/-- The start of a text that was trimmed is that of the text behind its white space. -/
theorem trim_trim (text : List Char) : Text.trim (Text.trim text) = Text.trim text := by
  have hstart : (Text.trim text).dropWhile Text.isBlank = Text.trim text := by
    have hprefix := List.rdropWhile_prefix Text.isBlank (text.dropWhile Text.isBlank)
    rw [← trim_eq_rdropWhile] at hprefix
    cases htrim : Text.trim text with
    | nil => rfl
    | cons c rest =>
      rw [htrim] at hprefix
      obtain ⟨more, hmore⟩ := hprefix
      have hhead := List.head?_dropWhile_not Text.isBlank text
      rw [← hmore] at hhead
      exact List.dropWhile_cons_of_neg (Bool.eq_false_iff.1 hhead)
  calc
    _ = (Text.trim text).rdropWhile Text.isBlank := by
      rw [trim_eq_rdropWhile (Text.trim text), hstart]
    _ = Text.trim text := List.rdropWhile_idempotent _ _

/-- What stands in front of a comma in a line is a name when it is trimmed. -/
theorem inName_of_mem_trim {fields : List Char} (h : ∀ c ∈ fields, Grammar.inLine c = true) :
    ∀ c ∈ Text.trim (fields.takeWhile (· ≠ ',')), Grammar.inName c = true := by
  intro c hc
  have hname := trim_subset _ hc
  have hcomma : c ≠ ',' := by simpa using List.mem_takeWhile_imp hname
  simp [Grammar.inName, hcomma, h c ((List.takeWhile_prefix _).subset hname)]

theorem hash_lt_of_takeHash?_eq_some {text rest : List Char} {hash : Nat}
    (h : takeHash? text = some (hash, rest)) : hash < Nat.pow 2 32 := by
  unfold takeHash? at h
  dsimp only at h
  split at h <;> cases h
  exact hashValue_lt _

theorem isNormal_of_parseLine {line : List Char} {entry : Entry}
    (hline : ∀ c ∈ line, Grammar.inLine c = true) (h : parseLine line = .ok (some entry)) :
    entry.IsNormal := by
  unfold parseLine at h
  split at h
  · cases h
  · split at h
    · cases h
    · rename_i hash rest hhash
      split at h
      · cases h
      · rename_i fields hfields
        cases h
        have hinside : ∀ c ∈ fields, Grammar.inLine c = true := by
          intro c hc
          have hrest := (Grammar.ignore_suffix rest).mem (hfields ▸ List.mem_cons_of_mem _ hc)
          have hstart := (Grammar.takeHash?_suffix hhash).mem hrest
          exact hline c ((Grammar.ignore_suffix line).mem hstart)
        refine ⟨hash_lt_of_takeHash?_eq_some hhash, ?_, ?_⟩
        · rw [String.toList_ofList]
          exact inName_of_mem_trim hinside
        · rw [String.toList_ofList]
          exact trim_trim _
      · cases h

/-! ## Entries of a table that was read -/

section Parsed

variable {line : List Char} {ls : List (List Char)} {entries : List Entry} {entry : Entry}

theorem dropReturn_subset (line : List Char) : dropReturn line ⊆ line := by
  unfold dropReturn
  split
  · exact (List.dropLast_prefix line).subset
  · exact fun c hc ↦ hc

theorem inLine_of_wholeLine?_eq_some {content : Option Entry} (hfeed : '\n' ∉ line)
    (h : wholeLine? line = some content) : ∀ c ∈ dropReturn line, Grammar.inLine c = true := by
  have hreturn : '\r' ∉ dropReturn line := by
    intro hmem
    rw [wholeLine?, if_pos hmem] at h
    cases h
  intro c hc
  have hne : c ≠ '\n' := fun heq ↦ hfeed (dropReturn_subset line (heq ▸ hc))
  have hne' : c ≠ '\r' := fun heq ↦ hreturn (heq ▸ hc)
  simp [Grammar.inLine, hne, hne']

theorem isNormal_of_wholeEntries {number : Nat} (hfeed : ∀ line ∈ ls, '\n' ∉ line)
    (h : wholeEntries number ls = .ok entries) : ∀ entry ∈ entries, entry.IsNormal := by
  induction ls generalizing number entries with
  | nil =>
    cases h
    simp
  | cons line rest ih =>
    obtain ⟨content, others, hline, hrest, rfl⟩ := exists_of_wholeEntries_cons_eq_ok h
    rw [List.forall_mem_cons] at hfeed
    intro entry hentry
    rcases List.mem_append.1 hentry with hfirst | hlater
    · rw [Option.mem_toList] at hfirst
      subst hfirst
      exact isNormal_of_parseLine (inLine_of_wholeLine?_eq_some hfeed.1 hline)
        (parseLine_of_wholeLine?_eq_some hline)
    · exact ih hfeed.2 hrest entry hlater

theorem isNormal_of_mem_ownEntries (hline : ∀ c ∈ line, Text.isBreak c = false)
    (h : entry ∈ ownEntries line) : entry.IsNormal := by
  unfold ownEntries at h
  split at h
  · rename_i content hcontent
    rw [Option.mem_toList] at h
    subst h
    exact isNormal_of_parseLine (fun c hc ↦ inLine_of_not_isBreak (hline c hc)) hcontent
  · cases h

/-- Whichever way a text is read, its table is made of normal entries. -/
theorem exists_isNormal_parseTable (source text : String) :
    ∃ entries, (∀ entry ∈ entries, entry.IsNormal) ∧
      (parseTable source text).2 = tableOf entries := by
  unfold parseTable
  dsimp only
  split
  · rename_i entries hwhole
    exact ⟨entries, isNormal_of_wholeEntries Text.feed_not_mem_of_mem_feedLines hwhole, rfl⟩
  · refine ⟨_, fun entry hentry ↦ ?_, rfl⟩
    rw [lineEntries_snd] at hentry
    obtain ⟨line, hline, hown⟩ := List.mem_flatMap.1 hentry
    exact isNormal_of_mem_ownEntries (Text.not_isBreak_of_mem_lines line hline) hown

end Parsed

/-! ## Tables and their entries -/

/-- The pair that an entry puts into a table. -/
def Entry.pair (entry : Entry) : Int × String :=
  (entry.hash, entry.name)

theorem tableOf_eq_ofList (entries : List Entry) :
    tableOf entries = Std.ExtTreeMap.ofList (entries.map Entry.pair) := by
  rw [Std.ExtTreeMap.ofList_eq_foldl, List.foldl_map]
  rfl

theorem mem_pairs_of_getElem? {entries : List Entry} {hash : Int} {name : String}
    (h : (tableOf entries)[hash]? = some name) : (hash, name) ∈ entries.map Entry.pair := by
  induction entries using List.reverseRecOn with
  | nil => cases h
  | append_singleton entries entry ih =>
    rw [tableOf, List.foldl_append] at h
    change ((tableOf entries).insert (entry.hash : Int) entry.name)[hash]? = some name at h
    rw [Std.ExtTreeMap.getElem?_insert] at h
    rw [List.map_append]
    split at h
    · rename_i hsame
      have hhash : (entry.hash : Int) = hash := Std.LawfulEqCmp.eq_of_compare hsame
      refine List.mem_append_right _ (List.mem_singleton.2 ?_)
      rw [Entry.pair, hhash, Option.some.inj h]
    · exact List.mem_append_left _ (ih h)

/-- A table is made of its own pairs, in whatever order they are inserted. -/
theorem tableOf_of_perm {entries : List Entry} {table : NameTable}
    (h : (entries.map Entry.pair).Perm table.toList) : tableOf entries = table := by
  have hdistinct : (entries.map Entry.pair).Pairwise fun a b ↦ ¬ compare a.1 b.1 = .eq :=
    (h.pairwise_iff fun hne heq ↦ hne (Std.OrientedCmp.eq_symm heq)).2
      Std.ExtTreeMap.distinct_keys_toList
  refine Std.ExtTreeMap.ext_getElem? fun hash ↦ Option.ext fun name ↦ ?_
  constructor
  · intro hfound
    exact Std.ExtTreeMap.mem_toList_iff_getElem?_eq_some.1 (h.subset (mem_pairs_of_getElem? hfound))
  · intro hfound
    rw [tableOf_eq_ofList]
    refine Std.ExtTreeMap.getElem?_ofList_of_mem Std.ReflCmp.compare_self hdistinct ?_
    exact h.mem_iff.2 (Std.ExtTreeMap.mem_toList_iff_getElem?_eq_some.2 hfound)

/-- The pairs of a table that was read are those of normal entries. -/
theorem exists_isNormal_of_mem {source text : String} {pair : Int × String}
    (h : pair ∈ (parseTable source text).2.toList) :
    ∃ entry : Entry, entry.IsNormal ∧ entry.pair = pair := by
  obtain ⟨entries, hnormal, htable⟩ := exists_isNormal_parseTable source text
  have hfound : (tableOf entries)[pair.1]? = some pair.2 := by
    rw [← htable]
    exact Std.ExtTreeMap.mem_toList_iff_getElem?_eq_some.1 h
  obtain ⟨entry, hentry, hpair⟩ := List.mem_map.1 (mem_pairs_of_getElem? hfound)
  exact ⟨entry, hnormal entry hentry, hpair⟩

/-! ## Writing -/

def writtenLine (hash : Int) (name : String) : String :=
  Text.Hex.numeral .lower hash ++ "," ++ name

/-- A line for each pair, in order. -/
def writtenTable (pairs : List (Int × String)) : String :=
  String.join (pairs.map fun pair ↦ writtenLine pair.1 pair.2 ++ "\n")

section Written

variable {entry : Entry} {entries : List Entry}

theorem toList_writtenLine (entry : Entry) :
    (writtenLine entry.hash entry.name).toList =
      Nat.toDigits 16 entry.hash ++ ',' :: entry.name.toList := by
  have hnonneg : ¬ (entry.hash : Int) < 0 := by omega
  simp [writtenLine, Text.Hex.numeral, Text.Hex.padded, Text.Hex.fill, Text.Hex.digits, hnonneg]

theorem toList_writtenTable_cons (entry : Entry) (entries : List Entry) :
    (writtenTable ((entry :: entries).map Entry.pair)).toList =
      (writtenLine entry.hash entry.name).toList ++
        '\n' :: (writtenTable (entries.map Entry.pair)).toList := by
  simp [writtenTable, Entry.pair, String.join_cons]

theorem isHexDigit_of_mem_toDigits (value : Nat) :
    ∀ c ∈ Nat.toDigits 16 value, isHexDigit c = true :=
  Text.isHexDigit_of_mem_digits .lower value

/-- Digits in front of a comma are not taken for the mark of a number. -/
theorem dropMark_digits {digits rest : List Char} (h : ∀ c ∈ digits, isHexDigit c = true) :
    dropMark (digits ++ ',' :: rest) = digits ++ ',' :: rest := by
  refine Grammar.dropMark_eq_self fun x digit more hshape hx ↦ ?_
  have hsecond : x = ',' ∨ isHexDigit x = true := by
    match digits with
    | [] => cases hshape
    | [_] => exact .inl (List.cons.inj (List.cons.inj hshape).2).1.symm
    | _ :: second :: _ =>
      rw [← (List.cons.inj (List.cons.inj hshape).2).1]
      exact .inr (h second (by simp))
  rcases hx with rfl | rfl <;> rcases hsecond with hcomma | hdigit <;> contradiction

theorem takeHash?_digits {digits : List Char} (rest : List Char) (hne : digits ≠ [])
    (h : ∀ c ∈ digits, isHexDigit c = true) :
    takeHash? (digits ++ ',' :: rest) = some (hashValue digits, ',' :: rest) := by
  unfold takeHash?
  rw [dropMark_digits h, List.takeWhile_append_of_pos h, List.dropWhile_append_of_pos h,
    List.takeWhile_cons_of_neg (by decide), List.dropWhile_cons_of_neg (by decide), List.append_nil]
  simp [hne]

theorem ignore_digits {c : Char} {rest : List Char} (h : isHexDigit c = true) :
    ignore (c :: rest) = c :: rest := by
  have hspace : ¬ (c = ' ' ∨ c = '\t') := by
    rintro (rfl | rfl) <;> cases h
  have hcomment : c ≠ '#' := by
    rintro rfl
    cases h
  rw [ignore, if_neg hspace, if_neg hcomment]

/-- A normal entry is what its line holds. -/
theorem parseLine_writtenLine (h : entry.IsNormal) :
    parseLine (writtenLine entry.hash entry.name).toList = .ok (some entry) := by
  have hdigits := isHexDigit_of_mem_toDigits entry.hash
  have hvalue : hashValue (Nat.toDigits 16 entry.hash) = entry.hash := by
    rw [Text.hashValue_toDigits, Nat.mod_eq_of_lt h.hash_lt]
  have hname : entry.name.toList.takeWhile (· ≠ ',') = entry.name.toList := by
    refine List.takeWhile_eq_self_iff.2 fun c hc ↦ ?_
    have hc' := h.inName c hc
    simp only [Grammar.inName, Bool.and_eq_true] at hc'
    exact hc'.1
  have hhash := takeHash?_digits entry.name.toList Nat.toDigits_ne_nil hdigits
  rw [toList_writtenLine]
  cases hshape : Nat.toDigits 16 entry.hash with
  | nil => exact absurd hshape Nat.toDigits_ne_nil
  | cons first rest =>
    rw [hshape] at hdigits hhash hvalue
    have hstart : ignore (first :: rest ++ ',' :: entry.name.toList) =
        first :: (rest ++ ',' :: entry.name.toList) := ignore_digits (hdigits first (by simp))
    have hcomma : ignore (',' :: entry.name.toList) = ',' :: entry.name.toList := by
      rw [ignore, if_neg (by decide), if_neg (by decide)]
    rw [List.cons_append] at hhash
    simp only [parseLine, hstart, hhash, hcomma, hvalue, hname, h.trimmed, String.ofList_toList]

theorem inLine_of_mem_writtenLine (h : entry.IsNormal) :
    ∀ c ∈ (writtenLine entry.hash entry.name).toList, Grammar.inLine c = true := by
  intro c hc
  rw [toList_writtenLine, List.mem_append, List.mem_cons] at hc
  rcases hc with hdigit | rfl | hname
  · exact Grammar.inLine_of_isHexDigit (isHexDigit_of_mem_toDigits _ c hdigit)
  · rfl
  · exact Grammar.inLine_of_inName (h.inName c hname)

theorem endsLines_writtenTable (entries : List Entry) :
    Text.EndsLines (writtenTable (entries.map Entry.pair)).toList := by
  induction entries with
  | nil => simp [writtenTable, Text.EndsLines]
  | cons entry rest ih =>
    rw [toList_writtenTable_cons]
    intro c hc
    rw [List.getLast?_append, List.getLast?_cons] at hc
    cases hlast : (writtenTable (rest.map Entry.pair)).toList.getLast? with
    | none => simpa [hlast] using hc.symm
    | some last =>
      obtain rfl : last = c := by simpa [hlast] using hc
      exact ih last hlast

/-- Each line of a table that was written holds its entry. -/
theorem wholeEntries_writtenTable (number : Nat) (h : ∀ entry ∈ entries, entry.IsNormal) :
    wholeEntries number (Text.feedLines (writtenTable (entries.map Entry.pair)).toList) =
      .ok entries := by
  induction entries generalizing number with
  | nil => rfl
  | cons entry rest ih =>
    rw [List.forall_mem_cons] at h
    have hline := inLine_of_mem_writtenLine h.1
    have hfeed := Grammar.not_mem_of_inLine (c := '\n') hline rfl
    have hreturn := Grammar.not_mem_of_inLine (c := '\r') hline rfl
    rw [toList_writtenTable_cons, Text.feedLines_append_feed hfeed, wholeEntries,
      Grammar.wholeLine?_of_inLine hline (Grammar.dropReturn_of_not_mem hreturn),
      parseLine_writtenLine h.1, ih (number + 1) h.2]
    rfl

theorem wholeEntries_terminated {text : List Char} (hends : Text.EndsLines text)
    (h : wholeEntries 1 (Text.feedLines text) = .ok entries) :
    wholeEntries 1 (Text.feedLines (Text.terminated text)) = .ok entries := by
  cases hlast : text.getLast? with
  | none =>
    rw [List.getLast?_eq_none_iff] at hlast
    subst hlast
    exact h
  | some c =>
    rw [hends c hlast] at hlast
    rwa [Text.terminated, if_pos hlast]

/-- Normal entries that are written out are read as a whole, without an event. -/
theorem parseTable_writtenTable_of_isNormal (source : String)
    (h : ∀ entry ∈ entries, entry.IsNormal) :
    Grammar.read .table .start (writtenTable (entries.map Entry.pair)).toList = some entries ∧
      parseTable source (writtenTable (entries.map Entry.pair)) = ([], tableOf entries) := by
  have hends := endsLines_writtenTable entries
  have hwhole := wholeEntries_writtenTable 1 h
  constructor
  · rw [Grammar.read_table 1 _ hends, hwhole]
    rfl
  · simp only [parseTable, wholeEntries_terminated hends hwhole]

end Written

/-- The pairs of a table that was read come from a list of normal entries, in any order. -/
theorem exists_entries_of_perm {source text : String} {pairs : List (Int × String)}
    (h : pairs.Perm (parseTable source text).2.toList) :
    ∃ entries : List Entry, (∀ entry ∈ entries, entry.IsNormal) ∧
      entries.map Entry.pair = pairs := by
  have hpairs : ∀ pair ∈ pairs, ∃ entry : Entry, entry.IsNormal ∧ entry.pair = pair :=
    fun pair hpair ↦ exists_isNormal_of_mem (h.subset hpair)
  clear h
  induction pairs with
  | nil => exact ⟨[], by simp, rfl⟩
  | cons pair rest ih =>
    rw [List.forall_mem_cons] at hpairs
    obtain ⟨⟨entry, hnormal, rfl⟩, hrest⟩ := hpairs
    obtain ⟨entries, hentries, rfl⟩ := ih hrest
    exact ⟨entry :: entries, List.forall_mem_cons.2 ⟨hnormal, hentries⟩, rfl⟩

/-- The hashes of a table that was read have 32 bits. If the table is written out, in any order,
then the grammar accepts the text, and reading it gives back the table without an event. -/
theorem parseTable_writtenTable (source text : String) :
    (∀ hash ∈ (parseTable source text).2, 0 ≤ hash ∧ hash < 0x100000000) ∧
      ∀ (other : String) (pairs : List (Int × String)),
        pairs.Perm (parseTable source text).2.toList →
          (Grammar.read .table .start (writtenTable pairs).toList).isSome ∧
            parseTable other (writtenTable pairs) = ([], (parseTable source text).2) := by
  constructor
  · intro hash hmem
    have hpair := Std.ExtTreeMap.mem_toList_iff_getElem?_eq_some.2
      (Std.ExtTreeMap.getElem?_eq_some_getElem hmem)
    obtain ⟨entry, hnormal, hentry⟩ := exists_isNormal_of_mem hpair
    have hlt : entry.hash < 0x100000000 := hnormal.hash_lt
    have hhash : (entry.hash : Int) = hash := congrArg Prod.fst hentry
    omega
  · intro other pairs hperm
    obtain ⟨entries, hnormal, rfl⟩ := exists_entries_of_perm hperm
    obtain ⟨hread, hparsed⟩ := parseTable_writtenTable_of_isNormal other hnormal
    rw [hread, hparsed, tableOf_of_perm hperm]
    exact ⟨rfl, rfl⟩

/-- A hash of more than 32 bits, a malformed line, and an empty name with another field behind
it. -/
def looseSample : String :=
  "0x1DEADBEEF,\u3000# a b\t\nzz\n7 ,,x\r\n"

theorem run_looseSample :
    (parseTable "names" looseSample).2.toList = [(7, ""), (0xDEADBEEF, "# a b")] ∧
      (parseTable "names" looseSample).1.length = 2 ∧
      writtenTable [(0xDEADBEEF, "# a b"), (7, "")] = "deadbeef,# a b\n7,\n" := by
  decide +kernel

/-- The table of the sample, whose text was read line by line, is written out in reverse order. -/
theorem parseTable_writtenTable_looseSample :
    [(0xDEADBEEF, "# a b"), (7, "")].Perm (parseTable "names" looseSample).2.toList ∧
      (Grammar.read .table .start "deadbeef,# a b\n7,\n".toList).isSome ∧
      parseTable "copy" "deadbeef,# a b\n7,\n" = ([], (parseTable "names" looseSample).2) := by
  obtain ⟨hpairs, _, hwritten⟩ := run_looseSample
  have hperm : [(0xDEADBEEF, "# a b"), (7, "")].Perm (parseTable "names" looseSample).2.toList := by
    rw [hpairs]
    exact List.Perm.swap _ _ []
  obtain ⟨hread, hparsed⟩ := (parseTable_writtenTable "names" looseSample).2 "copy" _ hperm
  rw [hwritten] at hread hparsed
  exact ⟨hperm, hread, hparsed⟩

end CompiledScript.Names
