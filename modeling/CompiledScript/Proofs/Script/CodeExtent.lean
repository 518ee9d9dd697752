import CompiledScript.Proofs.Script.ExportSoundness
import CompiledScript.Proofs.Script.LocalDecoding
import CompiledScript.Proofs.Script.Renaming
import CompiledScript.Proofs.Script.Retained

/-!
# How far the instructions of a function reach

The checksum of a function says where its code ends, and an instruction is decoded as long as it
starts in front of that end; nothing says that it ends there too. So the instructions cover the code
without a gap, all but the last one lie inside it, and the last one may take bytes that the checksum
does not cover. An instruction inside the code depends on no byte outside: any other buffer with the
same code at the same place decodes to it, if the texts that are cited are the same. The text of an
animation is the only operand that is looked up elsewhere in the buffer.
-/

namespace CompiledScript

open Bytes Reader

/-- The address is one of those that the instruction takes. -/
def Instruction.Covers {ν : Type} (instruction : Instruction ν) (address : Int) : Prop :=
  instruction.offset ≤ address ∧ address < instruction.stop

def Export.codeIn {ν : Type} (data : ByteArray) (function : Export ν) : List UInt8 :=
  (data.extract function.offset.toNat function.stop.toNat).data.toList

/-! ## Addresses of adjacent instructions -/

namespace Tiles

variable {ν : Type} {first last : Instruction ν} {instructions : List (Instruction ν)}
  {start stop limit address : Int}

/-- Behind the first of several instructions the others lie end to end. -/
theorem tail (h : Tiles (first :: instructions) start stop limit) (hmore : instructions ≠ []) :
    first.stop < stop ∧ Tiles instructions first.stop stop limit := by
  obtain ⟨hnext, hadjacent⟩ := List.isChain_cons.1 h.adjacent
  obtain ⟨_, hstarts⟩ := List.forall_mem_cons.1 h.starts
  have hlast := h.last
  rw [List.getLast?_cons_of_ne_nil hmore] at hlast
  refine ⟨?_, hmore, hnext, hadjacent, (List.forall_mem_cons.1 h.positive).2, hstarts, hlast⟩
  obtain ⟨next, others, rfl⟩ := List.exists_cons_of_ne_nil hmore
  rw [← hnext next rfl]
  exact hstarts next List.mem_cons_self

theorem stop_lt_of_mem_dropLast (h : Tiles instructions start stop limit) :
    ∀ instruction ∈ instructions.dropLast, instruction.stop < stop := by
  induction instructions generalizing start with
  | nil => simp
  | cons first others ih =>
    by_cases hmore : others = []
    · simp [hmore]
    · obtain ⟨hfirst, hothers⟩ := h.tail hmore
      rw [List.dropLast_cons_of_ne_nil hmore]
      exact List.forall_mem_cons.2 ⟨hfirst, ih hothers⟩

/-- Instructions that lie end to end take the addresses from the first start to the last end. -/
theorem exists_covers_iff (h : Tiles instructions start stop limit)
    (hlast : instructions.getLast? = some last) :
    (∃ instruction ∈ instructions, instruction.Covers address) ↔
      start ≤ address ∧ address < last.stop := by
  induction instructions generalizing start with
  | nil => exact absurd rfl h.nonempty
  | cons first others ih =>
    have hstart : first.offset = start := h.first first rfl
    have hsize : 1 ≤ first.size := h.positive first List.mem_cons_self
    by_cases hmore : others = []
    · obtain rfl : first = last := by simpa [hmore] using hlast
      simp [hmore, Instruction.Covers, hstart]
    · obtain ⟨hstop, hothers⟩ := h.tail hmore
      rw [List.getLast?_cons_of_ne_nil hmore] at hlast
      have hreach : stop ≤ last.stop := (hothers.last last hlast).1
      have hend : first.stop = first.offset + first.size := rfl
      rw [List.exists_mem_cons_iff, ih hothers hlast, Instruction.Covers]
      omega

theorem start_le_of_mem (h : Tiles instructions start stop limit) :
    ∀ instruction ∈ instructions, start ≤ instruction.offset := by
  intro instruction hmember
  have hsize := h.positive instruction hmember
  have hcovers : instruction.Covers instruction.offset := by
    unfold Instruction.Covers Instruction.stop
    omega
  exact ((h.exists_covers_iff (List.getLast?_eq_some_getLast h.nonempty)).1
    ⟨instruction, hmember, hcovers⟩).1

theorem covers_stop_sub_one (h : Tiles instructions start stop limit) :
    ∀ instruction ∈ instructions, instruction.Covers (instruction.stop - 1) := by
  intro instruction hmember
  have hsize := h.positive instruction hmember
  unfold Instruction.Covers Instruction.stop
  omega

theorem stop_le_of_mem (h : Tiles instructions start stop limit)
    (hlast : instructions.getLast? = some last) :
    ∀ instruction ∈ instructions, instruction.stop ≤ last.stop := by
  intro instruction hmember
  have hcovers := h.covers_stop_sub_one instruction hmember
  have hbefore := ((h.exists_covers_iff hlast).1 ⟨instruction, hmember, hcovers⟩).2
  omega

theorem stop_eq_of_size_eq_one (h : Tiles instructions start stop limit)
    (hlast : instructions.getLast? = some last) (hsize : last.size = 1) : last.stop = stop := by
  have hstart : last.offset < stop := h.starts last (List.mem_of_getLast? hlast)
  have hreach : stop ≤ last.stop := (h.last last hlast).1
  have hend : last.stop = last.offset + last.size := rfl
  omega

/-- The instructions lie inside the code if and only if they take its addresses and no others. -/
theorem forall_stop_le_iff (h : Tiles instructions start stop limit) :
    (∀ instruction ∈ instructions, instruction.stop ≤ stop) ↔
      ∀ address, (∃ instruction ∈ instructions, instruction.Covers address) ↔
        start ≤ address ∧ address < stop := by
  constructor
  · intro hinside address
    have hlast := List.getLast?_eq_some_getLast h.nonempty
    have hstop : (instructions.getLast h.nonempty).stop = stop :=
      Int.le_antisymm (hinside _ (List.getLast_mem h.nonempty)) (h.last _ hlast).1
    rw [h.exists_covers_iff hlast, hstop]
  · intro hcovered instruction hmember
    have hcovers := h.covers_stop_sub_one instruction hmember
    have hbefore := ((hcovered _).1 ⟨instruction, hmember, hcovers⟩).2
    omega

end Tiles

/-! ## Instructions in their buffer -/

namespace Script

variable {index : StringIndex} {data : ByteArray}

/-- The instruction, with the hashes that it holds, is what the decoder finds at its offset. -/
def Occurs (data : ByteArray) (index : StringIndex) (found : Instruction Symbol) : Prop :=
  instruction id index found.offset (readerAt data 0) = .ok found (readerAt data found.stop)

theorem moved_eq_readerAt {r : Reader} (h : r.source = (some data, .little)) (position : Int) :
    { r with position := position } = readerAt data position :=
  moved_eq_of_source (r := readerAt data 0) h position

theorem occurs_of_instruction_eq_ok {offset : Int} {r r' : Reader} {found : Instruction Symbol}
    (hr : r.source = (some data, .little)) (h : instruction id index offset r = .ok found r') :
    Occurs data index found := by
  have hr' : r'.source = (some data, .little) :=
    ((retains_instruction id index offset).of_eq_ok h).trans hr
  have hstop : r' = readerAt data r'.position := moved_eq_readerAt hr' r'.position
  obtain ⟨_, hposition, _⟩ := stop_of_instruction_eq_ok h
  obtain ⟨hstart, _⟩ := one_le_size h
  have hmoved := instruction_of_ok_elsewhere 0 h
  rw [moved_eq_readerAt hr, ← hstart, hstop, ← hposition] at hmoved
  exact hmoved

theorem occurs_of_instructionsFrom_eq_ok {stop offset : Int} {r r' : Reader}
    {decoded all : Array (Instruction Symbol)} (hr : r.source = (some data, .little))
    (hdecoded : ∀ found ∈ decoded, Occurs data index found)
    (h : instructionsFrom id index stop offset decoded r = .ok all r') :
    ∀ found ∈ all, Occurs data index found := by
  fun_induction instructionsFrom id index stop offset decoded r with
  | case1 offset decoded r hoffset fault middle hfault => cases h
  | case2 offset decoded r hoffset found middle hfound ih =>
    refine ih (((retains_instruction id index offset).of_eq_ok hfound).trans hr) ?_ h
    intro other hother
    rcases Array.mem_push.1 hother with hold | rfl
    · exact hdecoded other hold
    · exact occurs_of_instruction_eq_ok hr hfound
  | case3 offset decoded r hoffset =>
    cases h
    exact hdecoded

theorem occurs_of_functionCode_eq_ok {function : String} {offset size : Int} {r r' : Reader}
    {found : Array (Instruction Symbol)} (hr : r.source = (some data, .little))
    (h : functionCode id index function offset size r = .ok found r') :
    ∀ instruction ∈ found, Occurs data index instruction := by
  unfold functionCode at h
  split at h
  · cases h
  · exact occurs_of_instructionsFrom_eq_ok hr (by simp) h

/-- Without operands an instruction is a single byte. -/
theorem size_eq_one {offset : Int} {r r' : Reader} {found : Instruction Symbol}
    (h : instruction id index offset r = .ok found r') (hencoding : found.opcode.encoding = .none) :
    found.size = 1 := by
  obtain ⟨_, byte, opcode, values, behind, _, _, _, hbyte, _, hoperands, rfl⟩ :=
    exists_parts_of_instruction_eq_ok h
  obtain ⟨_, _, _, _, rfl⟩ := position_of_unsigned_eq_ok hbyte
  rw [hencoding] at hoperands
  cases hoperands
  simp

/-- An instruction inside a run of code is found in every buffer with that code at that place. -/
theorem Occurs.of_inside {found : Instruction Symbol} {start : Int} {code : List UInt8}
    {other : ByteArray} (h : Occurs data index found)
    (hencoding : found.opcode.encoding ≠ .animation) (hcode : Holds data start code)
    (hlow : start ≤ found.offset) (hhigh : found.stop ≤ start + code.length)
    (hother : Holds other start code) :
    Occurs other index found := by
  obtain ⟨run, hrun, hstop, _, hmoved⟩ := exists_run_of_instruction_eq_ok index (Int.dvd_zero 4) h
  have hheld : Holds other (found.offset + 0) run :=
    hcode.of_inside hrun hlow (hstop ▸ hhigh) (by rwa [Int.add_zero])
  have hsame := hmoved other 0 hheld (fun _ _ _ ↦ by rw [CitesAlike, Int.add_zero])
    fun hanimation ↦ absurd hanimation hencoding
  rwa [Int.add_zero, Int.add_zero, found.relocate_zero] at hsame

end Script

namespace Session

variable {data : ByteArray}

/-- Loading a function decodes its code with the names and the index of the session, and stores it
behind the others. -/
theorem exists_push_of_loadExport_eq_ok {ν : Type} [ToString ν] {value : Unit} {s s' : Session ν}
    (h : loadExport s = .ok value s') :
    ∃ (function : Export ν) (label : String) (r r' : Reader),
      r.source = s.reader.source ∧
      Script.functionCode s.names s.index label function.offset function.size r =
        .ok function.instructions r' ∧
      s'.script.exports = s.script.exports.push function := by
  obtain ⟨_, _, hget, h⟩ := bind_eq_ok.1 h
  cases hget
  obtain ⟨entry, s₁, hentry, h⟩ := bind_eq_ok.1 h
  obtain ⟨r₁, hread, rfl⟩ := reading_eq_ok.1 hentry
  obtain ⟨_, _, hget, h⟩ := bind_eq_ok.1 h
  cases hget
  obtain ⟨size, s₂, hsize, h⟩ := bind_eq_ok.1 h
  obtain ⟨r₂, hscan, rfl⟩ := reading_eq_ok.1 hsize
  obtain ⟨_, _, hget, h⟩ := bind_eq_ok.1 h
  cases hget
  obtain ⟨instructions, s₃, hcode, h⟩ := bind_eq_ok.1 h
  obtain ⟨r₃, hwalk, rfl⟩ := reading_eq_ok.1 hcode
  obtain ⟨_, s₄, hreport, h⟩ := bind_eq_ok.1 h
  obtain rfl := report_eq_ok.1 hreport
  obtain ⟨_, s₅, hseek, h⟩ := bind_eq_ok.1 h
  obtain ⟨r₅, _, rfl⟩ := reading_eq_ok.1 hseek
  obtain rfl := update_eq_ok.1 h
  refine ⟨{ entry with size := size, instructions := instructions }, _, r₂, r₃, ?_,
    readCode_eq_ok.1 hwalk, rfl⟩
  exact ((retains_readCodeSize entry).of_eq_ok hscan).trans
    ((composed_readExport _).retains.of_eq_ok hread)

/-- The session reads the bytes without names and with the index of its own texts, and the
instructions of all functions so far are found in the bytes. -/
structure Faithful (data : ByteArray) (s : Session Symbol) : Prop where
  names : s.names = id
  reads : s.reader.source = (some data, .little)
  indexed : s.index = indexOf s.script.strings
  occurs : ∀ function ∈ s.script.exports, ∀ instruction ∈ function.instructions,
    Script.Occurs data s.index instruction

theorem source_reader_of_source {ν : Type} {s s' : Session ν} (h : s'.source = s.source) :
    s'.reader.source = s.reader.source :=
  congrArg (fun source ↦ (source.1, source.2.1)) h

theorem names_of_source {ν : Type} {s s' : Session ν} (h : s'.source = s.source) :
    s'.names = s.names :=
  congrArg (fun source ↦ source.2.2.2) h

theorem confined_faithful_loadExport : Confined (Faithful data) (fun _ ↦ True) loadExport where
  keeps := by
    intro s value s' hs h
    have htexts := retains_texts_loadExport.of_eq_ok h
    have hsource := retains_loadExport.of_eq_ok h
    refine ⟨(names_of_source hsource).trans hs.names,
      (source_reader_of_source hsource).trans hs.reads, indexed_of_texts htexts hs.indexed, ?_⟩
    obtain ⟨function, label, r, r', hr, hcode, hexports⟩ := exists_push_of_loadExport_eq_ok h
    have hindex : s'.index = s.index := (Prod.mk.inj htexts).1
    rw [hexports, hindex]
    rw [hs.names] at hcode
    intro other hother
    rcases Array.mem_push.1 hother with hold | rfl
    · exact hs.occurs other hold
    · exact Script.occurs_of_functionCode_eq_ok (hr.trans hs.reads) hcode
  fault := fun _ _ _ _ _ ↦ trivial

theorem faithful_of_load_eq_ok {game : Game} {value : Unit} {s : Session Symbol}
    (h : load (ofBytes id game data) = .ok value s) : Faithful data s := by
  obtain ⟨_, s₁, hheader, h⟩ := bind_eq_ok.1 h
  obtain ⟨_, s₂, hincludes, h⟩ := bind_eq_ok.1 h
  obtain ⟨_, s₃, hstrings, h⟩ := bind_eq_ok.1 h
  obtain ⟨_, s₄, hindex, h⟩ := bind_eq_ok.1 h
  obtain ⟨_, s₅, himports, h⟩ := bind_eq_ok.1 h
  obtain ⟨_, s₆, hexports, h⟩ := bind_eq_ok.1 h
  have hsource : s₅.source = (ofBytes id game data).source := calc
    s₅.source = s₄.source := retains_loadImports.of_eq_ok himports
    _ = s₃.source := retains_indexStrings.of_eq_ok hindex
    _ = s₂.source := retains_loadStrings.of_eq_ok hstrings
    _ = s₁.source := retains_loadIncludes.of_eq_ok hincludes
    _ = (ofBytes id game data).source := retains_loadHeader.of_eq_ok hheader
  have hindexed : s₅.index = indexOf s₅.script.strings := by
    refine indexed_of_texts (retains_texts_loadImports.of_eq_ok himports) ?_
    cases hindex
    rfl
  have hfaithful : Faithful data s₆ := by
    obtain ⟨_, cleared, hclear, hexports⟩ := bind_eq_ok.1 hexports
    obtain rfl := update_eq_ok.1 hclear
    obtain ⟨_, _, hget, hexports⟩ := bind_eq_ok.1 hexports
    obtain ⟨rfl, rfl⟩ := header_eq_ok.1 hget
    obtain ⟨_, moved, hseek, hexports⟩ := bind_eq_ok.1 hexports
    obtain ⟨r, hmove, rfl⟩ := reading_eq_ok.1 hseek
    have hreads : r.source = (some data, .little) :=
      ((retains_seek _).of_eq_ok hmove).trans (source_reader_of_source hsource)
    refine (confined_times confined_faithful_loadExport _).keeps _ _ _ ⟨?_, hreads, ?_, ?_⟩ hexports
    · exact names_of_source hsource
    · exact hindexed
    · intro function hmember
      cases Array.not_mem_empty function hmember
  obtain ⟨_, _, hget, h⟩ := bind_eq_ok.1 h
  cases hget
  obtain rfl := report_eq_ok.1 h
  exact ⟨hfaithful.names, hfaithful.reads, hfaithful.indexed, hfaithful.occurs⟩

end Session

/-! ## Functions of loaded scripts -/

/-- How the instructions of a function lie over its code. -/
structure Export.SpansCode (data : ByteArray) (index : StringIndex) (nameOf : Symbol → String)
    (function : Export String) : Prop where
  /-- All instructions but the last one end in front of the end of the code. -/
  inside : ∀ instruction ∈ function.instructions.pop, instruction.stop < function.stop
  /-- The last instruction reaches the end of the code, and the instructions cover the buffer from
  the start of the code up to the end of the last one. -/
  covered : ∃ last, function.instructions.back? = some last ∧
    function.stop ≤ last.stop ∧ last.stop ≤ data.size ∧
    (last.opcode.encoding = .none → last.stop = function.stop) ∧
    ∀ address, (∃ instruction ∈ function.instructions, instruction.Covers address) ↔
      function.offset ≤ address ∧ address < last.stop
  /-- The instructions cover just the code if and only if none of them leaves it. -/
  exactly : (∀ instruction ∈ function.instructions, instruction.stop ≤ function.stop) ↔
    ∀ address, (∃ instruction ∈ function.instructions, instruction.Covers address) ↔
      function.offset ≤ address ∧ address < function.stop
  /-- An instruction inside the code depends on the code only, unless it has an animation. -/
  determined : ∀ instruction ∈ function.instructions, instruction.stop ≤ function.stop →
    instruction.opcode.encoding ≠ .animation →
    ∃ decoded : Instruction Symbol, decoded.map nameOf = instruction ∧
      ∀ other, Holds other function.offset (function.codeIn data) →
        Script.Occurs other index decoded

theorem Export.IsSound.holds_codeIn {ν : Type} {data : ByteArray} {function : Export ν}
    (h : function.IsSound data) :
    Holds data function.offset (function.codeIn data) ∧
      function.offset + (function.codeIn data).length = function.stop := by
  have hlow := h.offset_nonneg
  have hsize := h.one_le_size
  have hhigh := h.stop_le_size
  have hstop : function.stop = function.offset + function.size := rfl
  obtain ⟨run, hlength, hheld⟩ :=
    exists_holds hlow (by omega : function.offset + function.size.toNat ≤ data.size)
  have hcode : function.codeIn data = run := by
    have hplace : function.stop.toNat = function.offset.toNat + run.length := by omega
    rw [Export.codeIn, hplace, hheld.extract_eq]
  rw [hcode]
  exact ⟨hheld, by omega⟩

/-- Sound functions whose instructions occur in the buffer lie over their code. -/
theorem Export.IsSound.spansCode {data : ByteArray} {index : StringIndex}
    {nameOf : Symbol → String} {function : Export Symbol} (h : (function.map nameOf).IsSound data)
    (hoccurs : ∀ instruction ∈ function.instructions, Script.Occurs data index instruction) :
    (function.map nameOf).SpansCode data index nameOf := by
  have hnamed : ∀ instruction ∈ (function.map nameOf).instructions,
      ∃ decoded, Script.Occurs data index decoded ∧ decoded.map nameOf = instruction := by
    intro instruction hmember
    obtain ⟨decoded, hdecoded, rfl⟩ := Array.mem_map.1 hmember
    exact ⟨decoded, hoccurs decoded hdecoded, rfl⟩
  generalize function.map nameOf = named at h hnamed ⊢
  obtain ⟨last, hlast⟩ : ∃ last, named.instructions.toList.getLast? = some last :=
    ⟨_, List.getLast?_eq_some_getLast h.tiles.nonempty⟩
  have hmember : last ∈ named.instructions.toList := List.mem_of_getLast? hlast
  obtain ⟨hstop, hlimit⟩ := h.tiles.last last hlast
  refine ⟨?_, ⟨last, ?_, hstop, hlimit, ?_, ?_⟩, ?_, ?_⟩
  · intro instruction hpop
    refine h.tiles.stop_lt_of_mem_dropLast instruction ?_
    rwa [← Array.toList_pop, Array.mem_toList_iff]
  · rw [← Array.getLast?_toList, hlast]
  · intro hencoding
    obtain ⟨decoded, hdecoded, rfl⟩ := hnamed last (Array.mem_toList_iff.1 hmember)
    exact h.tiles.stop_eq_of_size_eq_one hlast (Script.size_eq_one hdecoded hencoding)
  · intro address
    rw [← h.tiles.exists_covers_iff hlast]
    simp
  · simpa using h.tiles.forall_stop_le_iff
  · intro instruction hinstruction hinside hencoding
    obtain ⟨decoded, hdecoded, rfl⟩ := hnamed instruction hinstruction
    refine ⟨decoded, rfl, fun other hother ↦ ?_⟩
    obtain ⟨hcode, hlength⟩ := h.holds_codeIn
    exact hdecoded.of_inside hencoding hcode
      (h.tiles.start_le_of_mem _ (Array.mem_toList_iff.2 hinstruction)) (hlength ▸ hinside) hother

/-- Every function of a loaded script is covered by its instructions, which leave it at most with
the last one. -/
theorem Script.spansCode_of_mem_exports (context : NameContext) (tag : Option String)
    (data : ByteArray) (script : Script String)
    (h : (Script.load context tag data).result = .ok script) :
    ∀ function ∈ script.exports,
      function.SpansCode data (Session.indexOf script.strings)
        (context.tableFor script.game.tag).nameOf := by
  obtain ⟨game, s, _, hload, rfl⟩ := load_result_eq_ok_map.1 h
  have hfaithful := Session.faithful_of_load_eq_ok hload
  intro function hmember
  obtain ⟨decoded, hdecoded, rfl⟩ := Array.mem_map.1 hmember
  have hsound := (Session.allSound_of_load_eq_ok hload).2 decoded hdecoded
  have hoccurs := hfaithful.occurs decoded hdecoded
  rw [hfaithful.indexed] at hoccurs
  change (decoded.map _).SpansCode data (Session.indexOf s.script.strings)
    (context.tableFor s.script.game.tag).nameOf
  rw [Session.game_of_load_eq_ok hload]
  exact (hsound.map _).spansCode hoccurs

/-- A script whose two functions have the same offset. The code of the first is one instruction
without operands; that of the second is one byte longer and ends between an opcode and its
operand. -/
def Script.straddlingSample : ByteArray :=
  ⟨#[0x80, 0x47, 0x53, 0x43, 0x0D, 0x0A, 0x00, 0x03,
    0, 0, 0, 0,  0, 0, 0, 0,  0, 0, 0, 0,  0, 0, 0, 0,  0, 0, 0, 0,  0, 0, 0, 0,
    77, 0, 0, 0,  0, 0, 0, 0,  0, 0, 0, 0,  0, 0, 0, 0,  0, 0, 0, 0,
    72, 0,  0, 0,  2, 0,  0, 0,  0, 0,  0, 0,  0, 0,  0, 0,  0, 0, 0, 0,
    0x73, 0,  3, 4, 5,
    0x37, 0xBE, 0x0B, 0x4B,  74, 0, 0, 0,  1, 0, 0, 0,  2, 0, 0, 0,  0, 0, 0, 0,
    0x25, 0x85, 0x99, 0x6D,  74, 0, 0, 0,  1, 0, 0, 0,  2, 0, 0, 0,  0, 0, 0, 0]⟩

theorem Script.run_straddlingSample :
    (Script.load .empty none straddlingSample).result.toOption.map (fun script ↦
      (script.exports.size, script.exports.any fun function ↦
        function.instructions.any fun instruction ↦ function.stop < instruction.stop)) =
      some (2, true) := by
  decide +kernel

theorem Script.exists_load_straddlingSample :
    ∃ script, (Script.load .empty none straddlingSample).result = .ok script ∧
      script.exports.size = 2 ∧ ∃ function ∈ script.exports,
        ∃ instruction ∈ function.instructions, function.stop < instruction.stop := by
  obtain ⟨script, hload, hrun⟩ := Option.map_eq_some_iff.1 run_straddlingSample
  rw [toOption_eq_some_iff] at hload
  obtain ⟨hsize, hany⟩ := Prod.mk.inj hrun
  simp only [Array.any_eq_true', decide_eq_true_eq] at hany
  exact ⟨script, hload, hsize, hany⟩

/-- Both functions of the sample are covered by their instructions. -/
theorem Script.spansCode_straddlingSample :
    ∃ script, (Script.load .empty none straddlingSample).result = .ok script ∧
      script.exports.size = 2 ∧ ∀ function ∈ script.exports,
        function.SpansCode straddlingSample (Session.indexOf script.strings)
          (NameContext.empty.tableFor script.game.tag).nameOf := by
  obtain ⟨script, hload, hsize, _⟩ := exists_load_straddlingSample
  exact ⟨script, hload, hsize,
    Script.spansCode_of_mem_exports .empty none straddlingSample script hload⟩

/-- There are scripts with an instruction that reaches beyond the code of its function. -/
theorem Script.exists_instruction_beyond_code :
    ∃ (data : ByteArray) (script : Script String),
      (Script.load .empty none data).result = .ok script ∧
        ∃ function ∈ script.exports, ∃ instruction ∈ function.instructions,
          function.stop < instruction.stop := by
  obtain ⟨script, hload, _, hbeyond⟩ := exists_load_straddlingSample
  exact ⟨straddlingSample, script, hload, hbeyond⟩

end CompiledScript
