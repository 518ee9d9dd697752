import CompiledScript.Proofs.Reader.Slices
import CompiledScript.Proofs.Script.SessionSteps

/-!
# The header of a loaded script

A script that was loaded has the header that stands behind the signature of its bytes, and the path
to which the header points. Both are loaded first, and no later step of the session touches them.
-/

namespace CompiledScript

open Reader

/-- The header that the bytes of a script hold behind the signature. -/
def Header.storedIn (data : ByteArray) : Header where
  sourceChecksum := unsignedAt data 4 0x08
  includeTable := signedAt data 4 0x0C
  animTreeTable := signedAt data 4 0x10
  byteCode := signedAt data 4 0x14
  stringTable := signedAt data 4 0x18
  debugStringTable := signedAt data 4 0x1C
  exportTable := signedAt data 4 0x20
  importTable := signedAt data 4 0x24
  fixupTable := signedAt data 4 0x28
  profileTable := signedAt data 4 0x2C
  byteCodeSize := signedAt data 4 0x30
  nameOffset := unsignedAt data 2 0x34
  stringCount := unsignedAt data 2 0x36
  exportCount := unsignedAt data 2 0x38
  importCount := unsignedAt data 2 0x3A
  fixupCount := unsignedAt data 2 0x3C
  profileCount := unsignedAt data 2 0x3E
  debugStringCount := unsignedAt data 2 0x40
  includeCount := unsignedAt data 1 0x42
  animTreeCount := unsignedAt data 1 0x43
  flags := unsignedAt data 4 0x44

namespace Session

variable {ν : Type} {data : ByteArray}

theorem readHeader_readerAt_eq_ok {position : Int} {header : Header} {r : Reader}
    (h : readHeader (readerAt data position) = .ok header r) :
    header = Header.storedIn data ∧ headerSize ≤ data.size ∧ r = readerAt data headerSize := by
  obtain ⟨_, _, hseek, h⟩ := bind_eq_ok.1 h
  obtain ⟨_, _, _, _, rfl⟩ := seek_eq_ok.1 hseek
  obtain ⟨_, _, hfield, h⟩ := bind_eq_ok.1 h
  obtain ⟨rfl, _, _, rfl⟩ := unsigned_readerAt_eq_ok hfield
  iterate 10
    obtain ⟨_, _, hfield, h⟩ := bind_eq_ok.1 h
    obtain ⟨rfl, _, _, rfl⟩ := signed_readerAt_eq_ok hfield
  iterate 9
    obtain ⟨_, _, hfield, h⟩ := bind_eq_ok.1 h
    obtain ⟨rfl, _, _, rfl⟩ := unsigned_readerAt_eq_ok hfield
  obtain ⟨_, _, hflags, h⟩ := bind_eq_ok.1 h
  obtain ⟨rfl, _, hinside, rfl⟩ := unsigned_readerAt_eq_ok hflags
  cases h
  exact ⟨rfl, hinside, rfl⟩

/-! ## What later steps leave alone -/

section Headed

variable {header : Header} {path : String}

/-- The session has the given header and path. -/
def Headed (header : Header) (path : String) (s : Session ν) : Prop :=
  s.script.header = header ∧ s.script.path = path

/-- The step leaves the header and the path alone; how it can fail does not matter. -/
abbrev KeepsHeader {α : Type} (header : Header) (path : String) (step : Action ν α) :
    Prop :=
  Confined (Headed header path) (fun _ ↦ True) step

theorem keepsHeader_reading {α : Type} (action : Reader.Action α) :
    KeepsHeader (ν := ν) header path (reading action) where
  keeps := by
    intro s value s' hs h
    obtain ⟨r, _, rfl⟩ := reading_eq_ok.1 h
    exact hs
  fault := fun _ _ _ _ _ ↦ trivial

theorem keepsHeader_update {change : Script ν → Script ν}
    (hheader : ∀ script, (change script).header = script.header)
    (hpath : ∀ script, (change script).path = script.path) :
    KeepsHeader header path (update change) :=
  confined_modify fun s hs ↦ ⟨(hheader s.script).trans hs.1, (hpath s.script).trans hs.2⟩

theorem keepsHeader_report (event : ScriptEvent ν) :
    KeepsHeader header path (report event) :=
  confined_modify fun _ hs ↦ hs

theorem keepsHeader_header : KeepsHeader (ν := ν) header path Session.header :=
  confined_get.bind fun _ ↦ confined_pure _

theorem keepsHeader_loadIncludes : KeepsHeader (ν := ν) header path loadIncludes :=
  keepsHeader_header.bind fun _ ↦ (keepsHeader_reading _).bind fun _ ↦
    (keepsHeader_reading _).bind fun _ ↦ keepsHeader_update (fun _ ↦ by rfl) fun _ ↦ by rfl

theorem keepsHeader_loadString (action : Reader.Action StringEntry) :
    KeepsHeader (ν := ν) header path (loadString action) :=
  (keepsHeader_reading _).bind fun _ ↦ keepsHeader_update (fun _ ↦ by rfl) fun _ ↦ by rfl

theorem keepsHeader_loadStrings : KeepsHeader (ν := ν) header path loadStrings :=
  (keepsHeader_update (fun _ ↦ by rfl) fun _ ↦ by rfl).bind fun _ ↦ keepsHeader_header.bind fun _ ↦
    (keepsHeader_reading _).bind fun _ ↦
      (confined_times (keepsHeader_loadString _) _).bind fun _ ↦
        (keepsHeader_reading _).bind fun _ ↦ confined_times (keepsHeader_loadString _) _

theorem keepsHeader_indexStrings : KeepsHeader (ν := ν) header path indexStrings :=
  confined_modify fun _ hs ↦ hs

theorem keepsHeader_loadImport : KeepsHeader (ν := ν) header path loadImport :=
  confined_get.bind fun _ ↦ (keepsHeader_reading _).bind fun _ ↦
    keepsHeader_update (fun _ ↦ by rfl) fun _ ↦ by rfl

theorem keepsHeader_loadImports : KeepsHeader (ν := ν) header path loadImports :=
  (keepsHeader_update (fun _ ↦ by rfl) fun _ ↦ by rfl).bind fun _ ↦ keepsHeader_header.bind fun _ ↦
    (keepsHeader_reading _).bind fun _ ↦ confined_times keepsHeader_loadImport _

variable [ToString ν]

theorem keepsHeader_loadExport : KeepsHeader (ν := ν) header path loadExport :=
  confined_get.bind fun _ ↦ (keepsHeader_reading _).bind fun _ ↦ confined_get.bind fun _ ↦
    (keepsHeader_reading _).bind fun _ ↦ confined_get.bind fun _ ↦
      (keepsHeader_reading _).bind fun _ ↦ (keepsHeader_report _).bind fun _ ↦
        (keepsHeader_reading _).bind fun _ ↦ keepsHeader_update (fun _ ↦ by rfl) fun _ ↦ by rfl

theorem keepsHeader_loadExports : KeepsHeader (ν := ν) header path loadExports :=
  (keepsHeader_update (fun _ ↦ by rfl) fun _ ↦ by rfl).bind fun _ ↦ keepsHeader_header.bind fun _ ↦
    (keepsHeader_reading _).bind fun _ ↦ confined_times keepsHeader_loadExport _

end Headed

/-- The first step loads the header and the path from the bytes. -/
theorem headed_of_loadHeader_eq_ok {names : Symbol → ν} {game : Game} {value : Unit}
    {s : Session ν} (h : loadHeader (ofBytes names game data) = .ok value s) :
    headerSize ≤ data.size ∧
      storedText? data (Header.storedIn data).nameOffset = some s.script.path ∧
      s.script.header = Header.storedIn data := by
  obtain ⟨header, _, hheader, h⟩ := bind_eq_ok.1 h
  obtain ⟨r, hread, rfl⟩ := reading_eq_ok.1 hheader
  obtain ⟨rfl, hinside, rfl⟩ := readHeader_readerAt_eq_ok hread
  obtain ⟨_, _, hstored, h⟩ := bind_eq_ok.1 h
  obtain rfl := update_eq_ok.1 hstored
  obtain ⟨path, _, hpath, h⟩ := bind_eq_ok.1 h
  obtain ⟨_, hpeek, rfl⟩ := reading_eq_ok.1 hpath
  obtain ⟨_, hsame, htext, rfl⟩ := peekText_eq_ok.1 hpeek
  cases hsame
  obtain ⟨_, _, hstored, h⟩ := bind_eq_ok.1 h
  obtain rfl := update_eq_ok.1 hstored
  obtain ⟨_, _, rfl⟩ := reading_eq_ok.1 h
  exact ⟨hinside, htext, rfl⟩

theorem headed_of_load_eq_ok [ToString ν] {names : Symbol → ν} {game : Game} {value : Unit}
    {s : Session ν} (h : load (ofBytes names game data) = .ok value s) :
    headerSize ≤ data.size ∧
      storedText? data (Header.storedIn data).nameOffset = some s.script.path ∧
      s.script.header = Header.storedIn data := by
  obtain ⟨_, first, hfirst, hrest⟩ := bind_eq_ok.1 h
  obtain ⟨hinside, hpath, hheader⟩ := headed_of_loadHeader_eq_ok hfirst
  have hlater : KeepsHeader (ν := ν) (Header.storedIn data) first.script.path
      (loadIncludes >>= fun _ ↦ loadStrings >>= fun _ ↦ indexStrings >>= fun _ ↦
        loadImports >>= fun _ ↦ loadExports >>= fun _ ↦ get >>= fun s ↦
          report (.loaded s.script.path s.script.exports.size s.script.imports.size
            s.script.strings.size)) :=
    keepsHeader_loadIncludes.bind fun _ ↦ keepsHeader_loadStrings.bind fun _ ↦
      keepsHeader_indexStrings.bind fun _ ↦ keepsHeader_loadImports.bind fun _ ↦
        keepsHeader_loadExports.bind fun _ ↦ confined_get.bind fun _ ↦ keepsHeader_report _
  obtain ⟨hkept, hsame⟩ := hlater.keeps _ _ _ ⟨hheader, rfl⟩ hrest
  rw [hsame]
  exact ⟨hinside, hpath, hkept⟩

end Session

/-- A loaded script has the header of its bytes and the path to which the header points. -/
theorem Script.header_of_load_result_eq_ok {context : NameContext} {tag : Option String}
    {data : ByteArray} {script : Script String}
    (h : (Script.load context tag data).result = .ok script) :
    Session.headerSize ≤ data.size ∧
      storedText? data (Header.storedIn data).nameOffset = some script.path ∧
      script.header = Header.storedIn data := by
  obtain ⟨game, s, _, hload, rfl⟩ := load_result_eq_ok.1 h
  exact Session.headed_of_load_eq_ok hload

end CompiledScript
