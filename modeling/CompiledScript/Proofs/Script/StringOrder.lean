import CompiledScript.Proofs.Script.CitedTexts
import CompiledScript.Proofs.Script.LoadedHeader
import CompiledScript.Proofs.Script.Retained
import CompiledScript.Proofs.Script.TableLoading

/-!
# Looking up strings by the places that cite them

A session looks up the string for a place in its index. The index stands for a search through the
string table: the answer is the first entry that cites the place, with its offset and all of its
references, however often and by however many entries the place is cited, and there is none if no
entry does. The entries of a loaded script are those of the string table, in the order in which they
are read, and behind them those of the debug string table; nothing that is loaded later changes them
or the index.
-/

namespace CompiledScript.Session

open Reader

variable {ν : Type} {s s' : Session ν} {reference : Int}

/-- The entry cites the place, and none in front of it does. -/
def IsFirstCiting (entries : List StringEntry) (reference : Int) (entry : StringEntry) : Prop :=
  ∃ earlier later, entries = earlier ++ entry :: later ∧ reference ∈ entry.references ∧
    ∀ other ∈ earlier, reference ∉ other.references

/-- The session answers for every place like a search through its entries. -/
def Searches (s : Session ν) : Prop :=
  ∀ reference : Int,
    (∀ entry, s.string? reference = some entry ↔
      IsFirstCiting s.script.strings.toList reference entry) ∧
    (s.string? reference = none ↔ ∀ entry ∈ s.script.strings, reference ∉ entry.references)

theorem entryCiting?_eq_some {entries : Array StringEntry} {entry : StringEntry} :
    entryCiting? entries reference = some entry ↔
      IsFirstCiting entries.toList reference entry := by
  unfold entryCiting?
  rw [← Array.find?_toList, List.find?_eq_some_iff_append]
  constructor
  · rintro ⟨hcites, earlier, later, hentries, hnone⟩
    refine ⟨earlier, later, hentries, of_decide_eq_true hcites, fun other hother hcited ↦ ?_⟩
    simpa [hcited] using hnone other hother
  · rintro ⟨earlier, later, hentries, hcites, hnone⟩
    exact ⟨decide_eq_true hcites, earlier, later, hentries,
      fun other hother ↦ by simpa using hnone other hother⟩

theorem entryCiting?_eq_none {entries : Array StringEntry} :
    entryCiting? entries reference = none ↔
      ∀ entry ∈ entries, reference ∉ entry.references := by
  simp [entryCiting?, Array.find?_eq_none]

theorem searches_of_indexed (h : s.index = indexOf s.script.strings) : s.Searches := by
  intro reference
  have hfound : s.string? reference = entryCiting? s.script.strings reference := by
    rw [string?, h, getElem?_indexOf]
  rw [hfound]
  exact ⟨fun _ ↦ entryCiting?_eq_some, entryCiting?_eq_none⟩

/-! ## The order of the entries -/

section Order

variable {value : Unit}

theorem loadString_eq_ok {action : Reader.Action StringEntry} :
    loadString action s = .ok value s' ↔ ∃ entry r, action s.reader = .ok entry r ∧
      s' = { s with
        reader := r
        script := { s.script with strings := s.script.strings.push entry } } := by
  constructor
  · intro h
    obtain ⟨entry, middle, hread, hstore⟩ := bind_eq_ok.1 h
    obtain ⟨r, haction, rfl⟩ := reading_eq_ok.1 hread
    exact ⟨entry, r, haction, update_eq_ok.1 hstore⟩
  · rintro ⟨entry, r, haction, rfl⟩
    exact bind_eq_ok.2 ⟨entry, _, reading_eq_ok.2 ⟨r, haction, rfl⟩, update_eq_ok.2 rfl⟩

/-- Entries that are loaded one after another are read one after another, and stored in that order
behind those that are there. -/
theorem exists_entries_of_times_eq_ok {action : Reader.Action StringEntry} {count : Nat}
    (h : times count (loadString action) s = .ok value s') :
    ∃ entries r, repeated count action s.reader = .ok entries r ∧
      s' = { s with
        reader := r
        script := { s.script with strings := s.script.strings ++ entries.toArray } } := by
  induction count generalizing s with
  | zero =>
    cases h
    refine ⟨[], _, rfl, ?_⟩
    simp
  | succ count ih =>
    obtain ⟨_, middle, hfirst, hrest⟩ := bind_eq_ok.1 h
    obtain ⟨entry, r, haction, rfl⟩ := loadString_eq_ok.1 hfirst
    obtain ⟨entries, last, hentries, rfl⟩ := ih hrest
    refine ⟨entry :: entries, last, ?_, ?_⟩
    · exact bind_eq_ok.2 ⟨entry, r, haction, bind_eq_ok.2 ⟨entries, last, hentries, rfl⟩⟩
    · simp

/-- The string table and the debug string table are both read from where the header says, and stored
in this order. -/
theorem exists_tables_of_loadStrings_eq_ok (h : loadStrings s = .ok value s') :
    ∃ live debug r r',
      repeated s.script.header.stringCount readString
        { s.reader with position := s.script.header.stringTable } = .ok live r ∧
      repeated s.script.header.debugStringCount readDebugString
        { s.reader with position := s.script.header.debugStringTable } = .ok debug r' ∧
      s'.script.strings.toList = live ++ debug := by
  obtain ⟨_, cleared, hclear, hload⟩ := bind_eq_ok.1 h
  obtain rfl := update_eq_ok.1 hclear
  obtain ⟨header, _, hheader, hload⟩ := bind_eq_ok.1 hload
  obtain ⟨rfl, rfl⟩ := header_eq_ok.1 hheader
  obtain ⟨_, _, hmove, hload⟩ := bind_eq_ok.1 hload
  obtain ⟨r₁, hseek, rfl⟩ := reading_eq_ok.1 hmove
  obtain ⟨_, _, _, _, rfl⟩ := seek_eq_ok.1 hseek
  obtain ⟨_, _, hlive, hload⟩ := bind_eq_ok.1 hload
  obtain ⟨live, r₂, hread, rfl⟩ := exists_entries_of_times_eq_ok hlive
  obtain ⟨_, _, hmove, hload⟩ := bind_eq_ok.1 hload
  obtain ⟨r₃, hseek', rfl⟩ := reading_eq_ok.1 hmove
  obtain ⟨_, _, _, _, rfl⟩ := seek_eq_ok.1 hseek'
  obtain ⟨debug, r₄, hread', rfl⟩ := exists_entries_of_times_eq_ok hload
  -- Reading the first table has moved the reader, and changed nothing else.
  have hkept := (composed_repeated _ composed_readString).retains.of_eq_ok hread
  have hsource : r₂.source = s.reader.source := hkept
  refine ⟨live, debug, r₂, r₄, hread, ?_, ?_⟩
  · rw [← moved_eq_of_source hsource]
    exact hread'
  · simp

end Order

/-! ## Loaded scripts -/

variable [ToString ν]

theorem retains_texts_loadExports : Retains (texts (ν := ν)) loadExports :=
  (retains_modify fun _ ↦ by rfl).bind fun _ ↦ retains_header.bind fun _ ↦
    (retains_texts_reading _).bind fun _ ↦ retains_times retains_texts_loadExport _

/-- What is loaded behind the texts leaves them, their index and the header alone. -/
theorem exists_loadStrings_of_load_eq_ok {value : Unit} (h : load s = .ok value s') :
    ∃ before after : Session ν, before.reader.source = s.reader.source ∧
      loadStrings before = .ok () after ∧
      s'.script.header = before.script.header ∧
      s'.script.strings = after.script.strings ∧
      s'.index = indexOf s'.script.strings := by
  obtain ⟨_, s₁, hheader, h⟩ := bind_eq_ok.1 h
  obtain ⟨_, s₂, hincludes, h⟩ := bind_eq_ok.1 h
  obtain ⟨_, s₃, hstrings, h⟩ := bind_eq_ok.1 h
  obtain ⟨_, s₄, hindex, h⟩ := bind_eq_ok.1 h
  obtain ⟨_, s₅, himports, h⟩ := bind_eq_ok.1 h
  obtain ⟨_, s₆, hexports, h⟩ := bind_eq_ok.1 h
  obtain ⟨_, _, hget, h⟩ := bind_eq_ok.1 h
  cases hget
  obtain rfl := report_eq_ok.1 h
  have hsource : s₂.source = s.source :=
    (retains_loadIncludes.of_eq_ok hincludes).trans (retains_loadHeader.of_eq_ok hheader)
  have hheaded : Headed s₂.script.header s₂.script.path s₆ := by
    have hheaded₃ := keepsHeader_loadStrings.keeps _ _ _ ⟨rfl, rfl⟩ hstrings
    have hheaded₄ := keepsHeader_indexStrings.keeps _ _ _ hheaded₃ hindex
    have hheaded₅ := keepsHeader_loadImports.keeps _ _ _ hheaded₄ himports
    exact keepsHeader_loadExports.keeps _ _ _ hheaded₅ hexports
  have htexts : s₆.texts = s₄.texts :=
    (retains_texts_loadExports.of_eq_ok hexports).trans
      (retains_texts_loadImports.of_eq_ok himports)
  cases hindex
  obtain ⟨hindexed, hkept⟩ := Prod.mk.inj htexts
  refine ⟨s₂, s₃, congrArg (fun source ↦ (source.1, source.2.1)) hsource, hstrings, hheaded.1,
    hkept, ?_⟩
  rw [hindexed, hkept]

/-- The string for a place is the first entry that cites it, and there is none if and only if no
entry cites it. This holds whenever the entries of a session have been indexed, and of every script
that was loaded, in a new session or in any other; its entries are those of the string table and
then those of the debug string table, in the order in which they are read. -/
theorem string_found_iff_first_citing {ν : Type} [ToString ν] :
    (∀ s : Session ν, ∃ s', indexStrings s = .ok () s' ∧ s'.script = s.script ∧ s'.Searches) ∧
    ∀ s s' : Session ν, load s = .ok () s' →
      s'.Searches ∧ ∃ live debug r r',
        repeated s'.script.header.stringCount readString
          { s.reader with position := s'.script.header.stringTable } = .ok live r ∧
        repeated s'.script.header.debugStringCount readDebugString
          { s.reader with position := s'.script.header.debugStringTable } = .ok debug r' ∧
        s'.script.strings.toList = live ++ debug := by
  constructor
  · intro s
    exact ⟨_, rfl, rfl, searches_of_indexed rfl⟩
  · intro s s' h
    obtain ⟨before, after, hsource, hstrings, hheader, hkept, hindexed⟩ :=
      exists_loadStrings_of_load_eq_ok h
    obtain ⟨live, debug, r, r', hlive, hdebug, hentries⟩ :=
      exists_tables_of_loadStrings_eq_ok hstrings
    refine ⟨searches_of_indexed hindexed, live, debug, r, r', ?_, ?_, ?_⟩
    · rw [hheader, ← moved_eq_of_source hsource]
      exact hlive
    · rw [hheader, ← moved_eq_of_source hsource]
      exact hdebug
    · rw [hkept, hentries]

/-- Two texts and two debug strings, with a place that is cited twice by one entry, places that are
cited by two entries, and a negative one. The debug strings have the same text. -/
def citedSample : Stored.Tables where
  header := {
    stringTable := 76, debugStringTable := 104, exportTable := 72, importTable := 72
    includeTable := 72, nameOffset := 72, stringCount := 2, debugStringCount := 2 }
  path := ⟨"x", by decide⟩
  includes := []
  strings := [⟨72, ⟨"x", by decide⟩, ⟨0, [7, 7, -3], by decide⟩⟩,
    ⟨74, ⟨"y", by decide⟩, ⟨0, [7, 9], by decide⟩⟩]
  debugStrings := [⟨-1, 0, [9, -3, 11], by decide⟩, ⟨-2, 0, [11, 13], by decide⟩]
  imports := []
  exports := []

def citedSampleBuffer : ByteArray :=
  ⟨[[0x80, 0x47, 0x53, 0x43, 0x0D, 0x0A, 0x00, 0x03], Stored.headerCode citedSample.header,
    [0x78, 0, 0x79, 0], citedSample.strings.flatMap Stored.LiveString.code,
    citedSample.debugStrings.flatMap Stored.DebugString.code].flatten.toArray⟩

theorem storedIn_citedSample : citedSample.StoredIn citedSampleBuffer where
  signature := by decide +kernel
  headerFits := by constructor <;> decide
  header := by decide +kernel
  path := by decide +kernel
  includeCount := rfl
  includes := by decide +kernel
  includePaths := nofun
  stringCount := rfl
  strings := by decide +kernel
  texts := by decide +kernel
  debugStringCount := rfl
  debugStrings := by decide +kernel
  importCount := rfl
  imports := by decide +kernel
  exportCount := rfl
  exports := by decide +kernel
  code := nofun

theorem string_found_citedSample :
    ∃ s, load (ofBytes id .blackOps3 citedSampleBuffer) = .ok () s ∧
      s.string? 7 = some ⟨72, "x", [7, 7, -3]⟩ ∧ s.string? (-3) = some ⟨72, "x", [7, 7, -3]⟩ ∧
      s.string? 9 = some ⟨74, "y", [7, 9]⟩ ∧ s.string? 11 = some ⟨-1, debugText, [9, -3, 11]⟩ ∧
      s.string? 13 = some ⟨-2, debugText, [11, 13]⟩ ∧ s.string? 8 = none := by
  obtain ⟨s, hload, hs⟩ := storedIn_citedSample.carries_load
    (ofBytes id .blackOps3 citedSampleBuffer) ⟨rfl, rfl, rfl, rfl⟩
  have hsearches := (string_found_iff_first_citing.2 _ s hload).1
  unfold Searches at hsearches
  rw [hs.script] at hsearches
  refine ⟨s, hload, ?_, ?_, ?_, ?_, ?_, ?_⟩
  · exact ((hsearches 7).1 _).2 ⟨[], _, rfl, by decide, nofun⟩
  · exact ((hsearches (-3)).1 _).2 ⟨[], _, rfl, by decide, nofun⟩
  · exact ((hsearches 9).1 _).2 ⟨[_], _, rfl, by decide, by decide⟩
  · exact ((hsearches 11).1 _).2 ⟨[_, _], _, rfl, by decide, by decide⟩
  · exact ((hsearches 13).1 _).2 ⟨[_, _, _], [], rfl, by decide, by decide⟩
  · exact (hsearches 8).2.2 (by decide)

end CompiledScript.Session
