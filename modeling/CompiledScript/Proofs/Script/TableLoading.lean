import CompiledScript.Proofs.Script.AssemblyDecoding
import CompiledScript.Proofs.Script.CitedTexts
import CompiledScript.Proofs.Script.ExportSoundness
import CompiledScript.Proofs.Script.SessionRuns
import CompiledScript.Proofs.Script.StoredTables

/-!
# Loading a stored script

A buffer that holds the stored form of a script is loaded into that script. Each record is read
where it stands, a table is loaded record by record, and the tables are loaded one after another.
Loading a function leaves the table for the code; it comes back to the place behind the record, so
the next record is found wherever the code is.
-/

namespace CompiledScript.Stored

open Bytes Number Reader Session

variable {data : ByteArray} {offset : Int}

/-! ## Records -/

theorem peekText_eq_content {text : Text} {pointer : Int} (h : Holds data pointer text.code) :
    peekText pointer (readerAt data offset) = .ok text.content (readerAt data offset) := by
  rw [peekText_of_holds (Text.Utf8.zero_not_mem_encode text.unbroken) h,
    Text.Utf8.decodeLenient_encode]

theorem readHeader_eq_ok {header : Header} (hfits : HeaderFits header)
    (h : Holds data 8 (headerCode header)) :
    readHeader (readerAt data offset) = .ok header (readerAt data headerSize) := by
  have hseek : seek 8 (readerAt data offset) = .ok () (readerAt data 8) := seek_of_holds h
  apply bind_eq_ok.2
  refine ⟨(), readerAt data 8, hseek, ?_⟩
  have hlength : (headerSize : Int) = 8 + (headerCode header).length := rfl
  rw [hlength]
  revert h
  change Reads data _ 8 (headerCode header) header
  unfold headerCode
  simp only [List.flatten_cons, List.flatten_nil]
  refine (reads_unsigned hfits.sourceChecksum).bind ((reads_signed hfits.includeTable).bind ?_)
  refine (reads_signed hfits.animTreeTable).bind ((reads_signed hfits.byteCode).bind ?_)
  refine (reads_signed hfits.stringTable).bind ((reads_signed hfits.debugStringTable).bind ?_)
  refine (reads_signed hfits.exportTable).bind ((reads_signed hfits.importTable).bind ?_)
  refine (reads_signed hfits.fixupTable).bind ((reads_signed hfits.profileTable).bind ?_)
  refine (reads_signed hfits.byteCodeSize).bind ((reads_unsigned hfits.nameOffset).bind ?_)
  refine (reads_unsigned hfits.stringCount).bind ((reads_unsigned hfits.exportCount).bind ?_)
  refine (reads_unsigned hfits.importCount).bind ((reads_unsigned hfits.fixupCount).bind ?_)
  refine (reads_unsigned hfits.profileCount).bind ((reads_unsigned hfits.debugStringCount).bind ?_)
  refine (reads_unsigned hfits.includeCount).bind ((reads_unsigned hfits.animTreeCount).bind ?_)
  exact (reads_unsigned hfits.flags).bind (reads_pure header)

theorem reads_places (references : List Int32) :
    Reads data (repeated references.length i32) offset (places references)
      (references.map Int32.toInt) := by
  have hread : Reads data (repeated references.length i32) offset
      (joined (fun reference _ ↦ toLittleEndian 4 reference.toInt) references offset)
      (references.map Int32.toInt) :=
    reads_repeated _ Int32.toInt fun reference _ _ ↦ reads_signed (fitsSigned_int32 reference)
  rwa [joined_const] at hread

theorem reads_references (references : References) :
    Reads data readReferences offset references.code references.decoded := by
  have hcount : FitsUnsigned 1 references.list.length := by
    have hshort := references.short
    change references.list.length < 256
    omega
  unfold References.code
  simp only [List.flatten_cons, List.flatten_nil, List.append_nil]
  apply (reads_unsigned hcount).bind
  apply (reads_skip rfl).bind
  exact reads_places references.list

theorem reads_liveString {record : LiveString}
    (htext : Holds data record.offset.toNat record.text.code) :
    Reads data readString offset record.code record.decoded := by
  unfold LiveString.code
  simp only [List.flatten_cons, List.flatten_nil]
  apply (reads_unsigned (fitsUnsigned_uint16 record.offset)).bind
  apply (reads_references record.references).bind
  refine Reads.after ?_ (peekText_eq_content htext)
  exact reads_pure record.decoded

theorem reads_debugString (record : DebugString) :
    Reads data readDebugString offset record.code record.decoded := by
  unfold DebugString.code
  simp only [List.flatten_cons, List.flatten_nil]
  apply (reads_signed (fitsSigned_int16 record.offset)).bind
  apply (reads_references record.references).bind
  exact reads_pure record.decoded

theorem reads_import (record : Import) :
    Reads data (readImport id) offset record.code record.decoded := by
  have hcount : FitsSigned 2 record.references.length := by
    have hshort := record.short
    change -65536 ≤ 2 * (record.references.length : Int) ∧
      2 * (record.references.length : Int) < 65536
    omega
  unfold Import.code
  simp only [List.flatten_cons, List.flatten_nil]
  apply (reads_unsigned (fitsUnsigned_uint32 record.name)).bind
  apply (reads_unsigned (fitsUnsigned_uint32 record.module)).bind
  apply (reads_signed hcount).bind
  apply (reads_unsigned (fitsUnsigned_uint8 record.parameterCount)).bind
  apply (reads_skip rfl).bind
  apply (reads_places record.references).bind
  exact reads_pure record.decoded

/-- A record of a function is read without its code. -/
theorem reads_export (record : Export) :
    Reads data (readExport id) offset record.code
      { record.decoded with size := -1, instructions := #[] } := by
  unfold Export.code
  simp only [List.flatten_cons, List.flatten_nil]
  apply (reads_unsigned (fitsUnsigned_uint32 record.checksum)).bind
  apply (reads_signed (fitsSigned_int32 record.offset)).bind
  apply (reads_unsigned (fitsUnsigned_uint32 record.name)).bind
  apply (reads_unsigned (fitsUnsigned_uint32 record.module)).bind
  apply (reads_unsigned (fitsUnsigned_uint8 record.parameterCount)).bind
  apply (reads_unsigned (fitsUnsigned_uint8 record.flags)).bind
  apply (reads_skip rfl).bind
  exact reads_pure _

/-! ## Tables -/

variable {index : StringIndex} {tables : Tables} {script : Script Symbol}

theorem Export.HasCode.offset_nonneg {record : Export} (h : record.HasCode data index) :
    0 ≤ record.offset.toInt := by
  obtain ⟨position, last, hcode⟩ := h.decoded
  have hsize := h.shortest.nonempty
  obtain ⟨hnonneg, _⟩ := Script.tiles_of_functionCode_eq_ok rfl (by omega) hcode
  exact hnonneg

variable (offset) in
theorem Export.HasCode.readCodeSize_eq_ok {record : Export} (h : record.HasCode data index) :
    readCodeSize { record.decoded with size := -1, instructions := #[] } (readerAt data offset) =
      .ok (record.size : Int) (readerAt data offset) := by
  have hstart : ((record.offset.toInt.toNat : Nat) : Int) = record.offset.toInt :=
    Int.toNat_of_nonneg h.offset_nonneg
  have hsize := Script.codeSize_eq_ok_iff.2 ⟨record.size, rfl, h.shortest⟩
  rw [hstart] at hsize
  exact Session.readCodeSize_eq_ok.2 ⟨rfl, data, rfl, hsize⟩

variable (offset) in
theorem Export.HasCode.readCode_eq_ok {record : Export} (h : record.HasCode data index) :
    ∃ last, readCode id index (NameTable.nameOf ∅ record.decoded.name) record.decoded.offset
      record.size (readerAt data offset) = .ok record.instructions (readerAt data last) := by
  obtain ⟨position, r, hcode⟩ := h.decoded
  have hsize := h.shortest.nonempty
  obtain ⟨_, _, hfollows⟩ := Script.tiles_of_functionCode_eq_ok rfl (by omega) hcode
  have hreader : r = readerAt data r.position := by
    have hcontents := hfollows.contents
    have horder := hfollows.order
    cases r
    subst hcontents horder
    rfl
  refine ⟨r.position, Session.readCode_eq_ok.2 ?_⟩
  rw [← hreader]
  exact Script.functionCode_of_ok_elsewhere offset (by omega) hcode

theorem carries_loadExport {record : Export} (hcode : record.HasCode data index)
    (hheld : Holds data offset record.code) :
    Carries (At id data offset script index) loadExport ()
      (At id data (offset + record.code.length)
        { script with exports := script.exports.push record.decoded } index) := by
  obtain ⟨last, hread⟩ := hcode.readCode_eq_ok (offset + record.code.length)
  apply Carries.get_bind
  intro s₁ hs₁
  rw [hs₁.names]
  apply (carries_reading (reads_export record hheld)).bind
  apply Carries.get_bind
  intro s₂ hs₂
  apply (carries_reading (hcode.readCodeSize_eq_ok _)).bind
  apply Carries.get_bind
  intro s₃ hs₃
  rw [hs₂.reader, hs₃.names, hs₃.index]
  apply (carries_reading hread).bind
  apply (carries_report _).bind
  -- The place behind the record was noted before the reader went to the code.
  apply (carries_seek hheld.stop).bind
  exact carries_update _

namespace Tables.StoredIn

variable (h : tables.StoredIn data)

include h

theorem carries_loadHeader :
    Carries (At id data offset script index) loadHeader ()
      (At id data headerSize { script with header := tables.header, path := tables.path.content }
        index) := by
  have hbehind : Holds data headerSize [] := h.header.stop
  apply (carries_reading (readHeader_eq_ok h.headerFits h.header)).bind
  apply (carries_update _).bind
  apply (carries_reading (peekText_eq_content h.path)).bind
  apply (carries_update _).bind
  exact carries_seek hbehind

theorem carries_loadIncludes (hheader : script.header = tables.header) :
    Carries (At id data offset script index) loadIncludes ()
      (At id data (tables.header.includeTable + (tables.includes.flatMap Include.code).length)
        { script with includes := (tables.includes.map (·.path.content)).mergeSort fun a b ↦ a ≤ b }
        index) := by
  have hpath (record : Include) (hrecord : record ∈ tables.includes) (offset : Int) :
      Reads data (do peekText (← i32)) offset record.code record.path.content := by
    intro hheld
    have hpointer := reads_signed (fitsSigned_int32 record.pointer) hheld
    exact bind_eq_ok.2 ⟨_, _, hpointer, peekText_eq_content (h.includePaths record hrecord)⟩
  have hpaths : Reads data (repeated tables.includes.length (do peekText (← i32)))
      tables.header.includeTable _ _ :=
    reads_repeated (fun record _ ↦ record.code) (fun record ↦ record.path.content) hpath
  rw [joined_const] at hpaths
  refine (carries_header tables.header ?_).bind ?_
  · exact hheader
  rw [h.includeCount]
  apply (carries_seek h.includes).bind
  apply (carries_reading (hpaths h.includes)).bind
  exact carries_update _

theorem carries_liveStrings :
    Carries (At id data tables.header.stringTable { script with strings := #[] } index)
      (times tables.strings.length (loadString readString)) ()
      (At id data (tables.header.stringTable + (tables.strings.flatMap LiveString.code).length)
        { script with strings := (tables.strings.map LiveString.decoded).toArray } index) := by
  refine carries_times LiveString.code
    (fun done ↦ { script with strings := (done.map LiveString.decoded).toArray }) [] ?_ h.strings
  intro record hrecord done offset hheld
  rw [List.map_append, List.map_singleton, ← List.push_toArray]
  apply (carries_reading (reads_liveString (h.texts record hrecord) hheld)).bind
  exact carries_update _

theorem carries_debugStrings :
    Carries (At id data tables.header.debugStringTable
        { script with strings := (tables.strings.map LiveString.decoded).toArray } index)
      (times tables.debugStrings.length (loadString readDebugString)) ()
      (At id data
        (tables.header.debugStringTable + (tables.debugStrings.flatMap DebugString.code).length)
        { script with strings := tables.entries } index) := by
  rw [← List.append_nil (tables.strings.map LiveString.decoded)]
  refine carries_times DebugString.code (fun done ↦ { script with strings :=
    (tables.strings.map LiveString.decoded ++ done.map DebugString.decoded).toArray }) [] ?_
    h.debugStrings
  intro record _ done offset hheld
  rw [List.map_append, List.map_singleton, ← List.append_assoc, ← List.push_toArray]
  apply (carries_reading (reads_debugString record hheld)).bind
  exact carries_update _

theorem carries_loadStrings (hheader : script.header = tables.header) :
    Carries (At id data offset script index) loadStrings ()
      (At id data
        (tables.header.debugStringTable + (tables.debugStrings.flatMap DebugString.code).length)
        { script with strings := tables.entries } index) := by
  apply (carries_update _).bind
  refine (carries_header tables.header ?_).bind ?_
  · exact hheader
  rw [h.stringCount, h.debugStringCount]
  apply (carries_seek h.strings).bind
  apply h.carries_liveStrings.bind
  apply (carries_seek h.debugStrings).bind
  exact h.carries_debugStrings

theorem carries_loadImports (hheader : script.header = tables.header) :
    Carries (At id data offset script index) loadImports ()
      (At id data (tables.header.importTable + (tables.imports.flatMap Import.code).length)
        { script with imports := (tables.imports.map Import.decoded).toArray } index) := by
  apply (carries_update _).bind
  refine (carries_header tables.header ?_).bind ?_
  · exact hheader
  rw [h.importCount]
  apply (carries_seek h.imports).bind
  refine carries_times Import.code
    (fun done ↦ { script with imports := (done.map Import.decoded).toArray }) [] ?_ h.imports
  intro record _ done offset hheld
  rw [List.map_append, List.map_singleton, ← List.push_toArray]
  apply Carries.get_bind
  intro s hs
  rw [hs.names]
  apply (carries_reading (reads_import record hheld)).bind
  exact carries_update _

theorem carries_loadExports (hheader : script.header = tables.header) :
    Carries (At id data offset script (indexOf tables.entries)) loadExports ()
      (At id data (tables.header.exportTable + (tables.exports.flatMap Export.code).length)
        { script with exports := (tables.exports.map Export.decoded).toArray }
        (indexOf tables.entries)) := by
  apply (carries_update _).bind
  refine (carries_header tables.header ?_).bind ?_
  · exact hheader
  rw [h.exportCount]
  apply (carries_seek h.exports).bind
  refine carries_times Export.code
    (fun done ↦ { script with exports := (done.map Export.decoded).toArray }) [] ?_ h.exports
  intro record hrecord done offset hheld
  rw [List.map_append, List.map_singleton, ← List.push_toArray]
  exact carries_loadExport (h.code record hrecord) hheld

theorem carries_load :
    Carries (At id data 0 { game := .blackOps3 } ∅) load ()
      (At id data (tables.header.exportTable + (tables.exports.flatMap Export.code).length)
        (tables.script ((tables.includes.map (·.path.content)).mergeSort fun a b ↦ a ≤ b))
        (indexOf tables.entries)) := by
  apply h.carries_loadHeader.bind
  refine (h.carries_loadIncludes ?_).bind ?_
  · rfl
  refine (h.carries_loadStrings ?_).bind ?_
  · rfl
  apply carries_indexStrings.bind
  refine (h.carries_loadImports ?_).bind ?_
  · rfl
  refine (h.carries_loadExports ?_).bind ?_
  · rfl
  apply Carries.get_bind
  intro s _
  exact carries_report _

theorem gameOf_eq_ok {tag : Option String} (htag : tag = none ∨ tag = some Game.blackOps3.tag) :
    Script.gameOf tag data = .ok .blackOps3 := by
  have hsignature : (data.extract 0 8).data = Game.blackOps3.signature.data :=
    Array.toList_inj.1 h.signature.extract_eq
  rcases htag with rfl | rfl
  · have hgame : Game.ofSignature? data = some .blackOps3 := by
      unfold Game.ofSignature? Game.all
      rw [List.find?_cons_of_pos]
      exact decide_eq_true hsignature
    unfold Script.gameOf
    rw [hgame]
  · rfl

end Tables.StoredIn

theorem pairwise_mergeSort_le (paths : List String) :
    (paths.mergeSort fun a b ↦ a ≤ b).Pairwise (· ≤ ·) := by
  have hsorted : (paths.mergeSort fun a b ↦ a ≤ b).Pairwise fun a b ↦ decide (a ≤ b) = true := by
    apply List.pairwise_mergeSort
    · intro a b c hab hbc
      exact decide_eq_true (String.le_trans (of_decide_eq_true hab) (of_decide_eq_true hbc))
    · intro a b
      rw [Bool.or_eq_true, decide_eq_true_iff, decide_eq_true_iff]
      exact String.le_total a b
  exact hsorted.imp of_decide_eq_true

/-- A buffer that holds the stored form of a script is loaded into that script, whatever the order,
the distances and the overlaps of its tables, under whatever names, with the game named or found by
the signature. The included paths come sorted by their code points, and all else in the order of the
tables. -/
theorem load_eq_ok_of_storedIn (context : NameContext) (tag : Option String) (data : ByteArray)
    (tables : Tables) (htag : tag = none ∨ tag = some Game.blackOps3.tag)
    (h : tables.StoredIn data) :
    ∃ includes : List String,
      includes.Perm (tables.includes.map (·.path.content)) ∧
      includes.Pairwise (· ≤ ·) ∧
      (Script.load context tag data).result =
        .ok ((tables.script includes).map (context.tableFor Game.blackOps3.tag).nameOf) := by
  refine ⟨_, List.mergeSort_perm _ fun a b ↦ a ≤ b, pairwise_mergeSort_le _, ?_⟩
  obtain ⟨s, hload, hs⟩ := h.carries_load (ofBytes id .blackOps3 data) ⟨rfl, rfl, rfl, rfl⟩
  refine Script.load_result_eq_ok_map.2 ⟨.blackOps3, s, h.gameOf_eq_ok htag, hload, ?_⟩
  rw [hs.script]

/-- A text that the string table cites, and the end. -/
def sampleCode : List Assembly.Statement :=
  [⟨.getString, .text (some "a")⟩, ⟨.halt, .none⟩]

/-- One record in each table but the first, which has two in the wrong order. The path of the
script, one of the included paths and the text of the function share their bytes. -/
def sample : Tables where
  header := {
    sourceChecksum := 0xDEADBEEF, includeTable := 76, byteCode := 136, stringTable := 84
    debugStringTable := 92, exportTable := 116, importTable := 100, byteCodeSize := 5
    nameOffset := 72, stringCount := 1, exportCount := 1, importCount := 1, debugStringCount := 1
    includeCount := 2 }
  path := ⟨"a", by decide⟩
  includes := [⟨74, ⟨"b", by decide⟩⟩, ⟨72, ⟨"a", by decide⟩⟩]
  strings := [⟨72, ⟨"a", by decide⟩, ⟨7, [138], by decide⟩⟩]
  debugStrings := [⟨-1, 0xFF, [6], by decide⟩]
  imports := [⟨1, 2, 3, 4, [-5], by decide⟩]
  exports := [⟨3652450943, 136, 6, 7, 8, 9, (10, 11), 5,
    (Assembly.decoded (fun _ ↦ 0xEE) sampleCode 136).toArray⟩]

def sampleBuffer : ByteArray :=
  ⟨[[0x80, 0x47, 0x53, 0x43, 0x0D, 0x0A, 0x00, 0x03], headerCode sample.header, [0x61, 0, 0x62, 0],
    sample.includes.flatMap Include.code, sample.strings.flatMap LiveString.code,
    sample.debugStrings.flatMap DebugString.code, sample.imports.flatMap Import.code,
    sample.exports.flatMap Export.code,
    Assembly.code (fun _ ↦ 0xEE) sampleCode 136].flatten.toArray⟩

theorem hasCode_sample :
    ∀ record ∈ sample.exports, record.HasCode sampleBuffer (indexOf sample.entries) := by
  intro record hrecord
  obtain rfl := List.mem_singleton.1 hrecord
  refine ⟨⟨by decide, by decide +kernel, by decide +kernel, ?_⟩, 0, ?_⟩
  · intro shorter hlow hhigh
    change shorter < 5 at hhigh
    interval_cases shorter <;> decide +kernel
  · have hheld : Holds sampleBuffer 136 (Assembly.code (fun _ ↦ 0xEE) sampleCode 136) := by
      decide +kernel
    have hindex : Assembly.CitesExactly (indexOf sample.entries) 136 141
        (Assembly.citations (fun _ ↦ 0xEE) sampleCode 136) := by
      have hcitations : Assembly.citations (fun _ ↦ 0xEE) sampleCode 136 = [(138, "a")] := by decide
      intro reference text hlow _
      rw [hcitations, text?_indexOf]
      have hdebug : reference ≠ 6 := by omega
      by_cases hcited : reference = 138
      · subst hcited
        simp [textCiting?, entryCiting?, Tables.entries, sample, LiveString.decoded,
          References.decoded, eq_comm]
      · simp [textCiting?, entryCiting?, Tables.entries, sample, LiveString.decoded,
          DebugString.decoded, References.decoded, hcited, hdebug]
    have hnames : Assembly.names sampleCode = [] := rfl
    obtain ⟨last, hwalk⟩ :=
      Assembly.instructionsFrom_of_holds sampleCode hheld (by simp [hnames]) hindex
    exact ⟨readerAt sampleBuffer last, hwalk⟩

theorem storedIn_sample : sample.StoredIn sampleBuffer where
  signature := by decide +kernel
  headerFits := by constructor <;> decide
  header := by decide +kernel
  path := by decide +kernel
  includeCount := rfl
  includes := by decide +kernel
  includePaths := by decide +kernel
  stringCount := rfl
  strings := by decide +kernel
  texts := by decide +kernel
  debugStringCount := rfl
  debugStrings := by decide +kernel
  importCount := rfl
  imports := by decide +kernel
  exportCount := rfl
  exports := by decide +kernel
  code := hasCode_sample

/-- The sample is loaded, with its included paths put in order. -/
theorem load_sample :
    (Script.load .empty none sampleBuffer).result =
      .ok ((sample.script ["a", "b"]).map
        (NameContext.empty.tableFor Game.blackOps3.tag).nameOf) := by
  obtain ⟨includes, hperm, hsorted, hload⟩ :=
    load_eq_ok_of_storedIn .empty none sampleBuffer sample (Or.inl rfl) storedIn_sample
  have hincludes : includes = ["a", "b"] := by
    refine List.Perm.eq_of_pairwise (fun a b _ _ ↦ String.le_antisymm) hsorted (by decide) ?_
    exact hperm.trans (List.Perm.swap "a" "b" [])
  rw [← hincludes]
  exact hload

end CompiledScript.Stored
