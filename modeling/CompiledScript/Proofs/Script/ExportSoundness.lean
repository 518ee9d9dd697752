import CompiledScript.Proofs.Outcomes
import CompiledScript.Proofs.Script.CodeSize
import CompiledScript.Proofs.Script.SessionSteps
import CompiledScript.Proofs.Script.Tiling

/-!
# Soundness of loaded functions

Every function of a script that was loaded lies in its bytes, has the stored checksum and no shorter
run of code with it, and is tiled by its instructions. The stored offset of a function is signed,
and the scan for its size accepts negative ones; but a size that was found is positive, so the
decoder goes to the offset before anything is read, and that fails for a negative one.
-/

namespace CompiledScript

open Bytes Reader

/-- A function whose code lies in the data, is the shortest run with the checksum, and is tiled by
the instructions. -/
structure Export.IsSound {ν : Type} (data : ByteArray) (function : Export ν) : Prop where
  offset_nonneg : 0 ≤ function.offset
  one_le_size : 1 ≤ function.size
  stop_le_size : function.offset + function.size ≤ data.size
  checksum_eq : (Crc32.checksum (data.extract function.offset.toNat
    (function.offset + function.size).toNat)).toNat = function.checksum
  shortest : ∀ length : Int, 1 ≤ length → length < function.size →
    (Crc32.checksum (data.extract function.offset.toNat
      (function.offset + length).toNat)).toNat ≠ function.checksum
  tiles : Tiles function.instructions.toList function.offset function.stop data.size

/-- Other names do not change whether a function is sound. -/
theorem Export.IsSound.map {ν μ : Type} {data : ByteArray} {function : Export ν} (f : ν → μ)
    (h : function.IsSound data) : (function.map f).IsSound data where
  offset_nonneg := h.offset_nonneg
  one_le_size := h.one_le_size
  stop_le_size := h.stop_le_size
  checksum_eq := h.checksum_eq
  shortest := h.shortest
  tiles := by
    have hmapped := h.tiles.map f
    rw [← Array.toList_map] at hmapped
    exact hmapped

/-- A function of positive size is sound if its code was found by the scan and decoded. -/
theorem Export.isSound_of_decoded {ν : Type} {names : Symbol → ν} {data : ByteArray}
    {entry : Export ν} {size : Int} {index : StringIndex} {label : String}
    {found : Array (Instruction ν)} {r r' : Reader} (hdata : r.contents = some data)
    (hsize : Script.codeSize data entry.offset entry.checksum = .ok size)
    (hcode : Script.functionCode names index label entry.offset size r = .ok found r') :
    Export.IsSound data { entry with size := size, instructions := found } := by
  obtain ⟨hpositive, hinside⟩ := Script.bounds_of_codeSize_eq_ok hsize
  obtain ⟨hnonneg, htiles, _⟩ := Script.tiles_of_functionCode_eq_ok hdata hpositive hcode
  -- From here on the offset is a natural number, so the scan is the search for the shortest run.
  obtain ⟨start, hstart⟩ := Int.eq_ofNat_of_zero_le hnonneg
  rw [hstart] at hsize
  obtain ⟨length, hlength, hrun⟩ := Script.codeSize_eq_ok_iff.1 hsize
  have hstop (other : Nat) : (entry.offset + other).toNat = entry.offset.toNat + other := by omega
  have hoffset : entry.offset.toNat = start := by omega
  refine ⟨hnonneg, hpositive, hinside, ?_, ?_, htiles⟩
  · have hchecksum := hrun.checksum_eq
    unfold Script.runChecksum at hchecksum
    change (Crc32.checksum (data.extract entry.offset.toNat (entry.offset + size).toNat)).toNat = _
    rw [hlength, hstop, hoffset]
    exact_mod_cast hchecksum
  · intro shorter hlow hhigh
    obtain ⟨other, rfl⟩ := Int.eq_ofNat_of_zero_le (by omega : 0 ≤ shorter)
    have hother := hrun.shortest other (by omega) (by
      change (other : Int) < size at hhigh
      omega)
    unfold Script.runChecksum at hother
    change (Crc32.checksum (data.extract entry.offset.toNat (entry.offset + other).toNat)).toNat ≠ _
    rw [hstop, hoffset]
    exact_mod_cast hother

namespace Session

variable {ν : Type} {names : Symbol → ν} {data : ByteArray}

theorem readCodeSize_eq_ok {function : Export ν} {r r' : Reader} {size : Int} :
    readCodeSize function r = .ok size r' ↔
      r' = r ∧ ∃ data, r.contents = some data ∧
        Script.codeSize data function.offset function.checksum = .ok size := by
  constructor
  · intro h
    obtain ⟨data, same, hbuffer, hrest⟩ := bind_eq_ok.1 h
    obtain ⟨hdata, rfl⟩ := buffer_eq_ok.1 hbuffer
    cases hsize : Script.codeSize data function.offset function.checksum with
    | ok found =>
      rw [hsize] at hrest
      cases hrest
      exact ⟨rfl, data, hdata, hsize⟩
    | error fault =>
      rw [hsize] at hrest
      cases hrest
  · rintro ⟨rfl, data, hdata, hsize⟩
    apply bind_eq_ok.2
    refine ⟨data, r', buffer_eq_ok.2 ⟨hdata, rfl⟩, ?_⟩
    rw [hsize]
    rfl

theorem readCode_eq_ok {index : StringIndex} {function : String} {offset size : Int} {r r' : Reader}
    {found : Array (Instruction ν)} :
    readCode names index function offset size r = .ok found r' ↔
      Script.functionCode names index function offset size r = .ok found r' := by
  unfold readCode
  cases h : Script.functionCode names index function offset size r with
  | ok instructions middle =>
    constructor
    · intro hcode
      cases hcode
      rfl
    · intro hcode
      cases hcode
      rfl
  | error interrupted middle =>
    constructor
    · intro hcode
      cases hcode
    · intro hcode
      cases hcode

/-- The bytes are still there, and all functions so far are sound. -/
def AllSound (data : ByteArray) (s : Session ν) : Prop :=
  s.Over data ∧ ∀ function ∈ s.script.exports, function.IsSound data

/-- A function that is loaded joins the sound ones. How loading it can fail does not matter here. -/
theorem confined_allSound_loadExport [ToString ν] :
    Confined (AllSound (ν := ν) data) (fun _ ↦ True) loadExport where
  keeps := by
    rintro s value s' ⟨hdata, hsound⟩ h
    obtain ⟨_, _, hget, h⟩ := bind_eq_ok.1 h
    cases hget
    obtain ⟨entry, s₁, hentry, h⟩ := bind_eq_ok.1 h
    obtain ⟨r₁, hread, rfl⟩ := reading_eq_ok.1 hentry
    have hdata₁ : r₁.contents = some data :=
      ((composed_readExport _).steady _ _ _ hread).contents.trans hdata
    obtain ⟨_, _, hget, h⟩ := bind_eq_ok.1 h
    cases hget
    obtain ⟨size, s₂, hsize, h⟩ := bind_eq_ok.1 h
    obtain ⟨r₂, hscan, rfl⟩ := reading_eq_ok.1 hsize
    obtain ⟨rfl, data', hdata', hcodeSize⟩ := readCodeSize_eq_ok.1 hscan
    obtain rfl : data' = data := Option.some.inj (hdata'.symm.trans hdata₁)
    obtain ⟨_, _, hget, h⟩ := bind_eq_ok.1 h
    cases hget
    obtain ⟨instructions, s₃, hcode, h⟩ := bind_eq_ok.1 h
    obtain ⟨r₃, hwalk, rfl⟩ := reading_eq_ok.1 hcode
    have hfunction := readCode_eq_ok.1 hwalk
    obtain ⟨hpositive, _⟩ := Script.bounds_of_codeSize_eq_ok hcodeSize
    obtain ⟨_, _, hfollows⟩ := Script.tiles_of_functionCode_eq_ok hdata₁ hpositive hfunction
    obtain ⟨_, s₄, hreport, h⟩ := bind_eq_ok.1 h
    obtain rfl := report_eq_ok.1 hreport
    obtain ⟨_, s₅, hseek, h⟩ := bind_eq_ok.1 h
    obtain ⟨r₅, hmove, rfl⟩ := reading_eq_ok.1 hseek
    obtain rfl := update_eq_ok.1 h
    refine ⟨?_, ?_⟩
    · exact ((steady_seek _ _ _ _ hmove).contents.trans hfollows.contents).trans hdata₁
    · intro function hmember
      rcases Array.mem_push.1 hmember with hold | rfl
      · exact hsound function hold
      · exact Export.isSound_of_decoded hdata₁ hcodeSize hfunction
  fault := fun _ _ _ _ _ ↦ trivial

theorem allSound_of_load_eq_ok [ToString ν] {game : Game} {value : Unit} {s : Session ν}
    (h : load (ofBytes names game data) = .ok value s) : AllSound data s := by
  obtain ⟨_, s₁, hheader, h⟩ := bind_eq_ok.1 h
  have hover₁ : s₁.Over data :=
    confined_loadHeader.keeps _ _ _ (show (ofBytes names game data).Over data from rfl) hheader
  obtain ⟨_, s₂, hincludes, h⟩ := bind_eq_ok.1 h
  have hover₂ := confined_loadIncludes.keeps _ _ _ hover₁ hincludes
  obtain ⟨_, s₃, hstrings, h⟩ := bind_eq_ok.1 h
  have hover₃ := confined_loadStrings.keeps _ _ _ hover₂ hstrings
  obtain ⟨_, s₄, hindex, h⟩ := bind_eq_ok.1 h
  have hover₄ := confined_indexStrings.keeps _ _ _ hover₃ hindex
  obtain ⟨_, s₅, himports, h⟩ := bind_eq_ok.1 h
  have hover₅ := confined_loadImports.keeps _ _ _ hover₄ himports
  obtain ⟨_, s₆, hexports, h⟩ := bind_eq_ok.1 h
  have hsound : AllSound data s₆ := by
    obtain ⟨_, cleared, hclear, hexports⟩ := bind_eq_ok.1 hexports
    obtain rfl := update_eq_ok.1 hclear
    obtain ⟨_, _, hget, hexports⟩ := bind_eq_ok.1 hexports
    obtain ⟨rfl, rfl⟩ := header_eq_ok.1 hget
    obtain ⟨_, moved, hseek, hexports⟩ := bind_eq_ok.1 hexports
    obtain ⟨r, hmove, rfl⟩ := reading_eq_ok.1 hseek
    refine (confined_times confined_allSound_loadExport _).keeps _ _ _ ⟨?_, ?_⟩ hexports
    · exact (steady_seek _ _ _ _ hmove).contents.trans hover₅
    · intro function hmember
      cases Array.not_mem_empty function hmember
  obtain ⟨_, _, hget, h⟩ := bind_eq_ok.1 h
  cases hget
  obtain rfl := report_eq_ok.1 h
  exact hsound

end Session

/-- Every function of a loaded script is sound, whatever the bytes are, under whatever names and for
whatever game they are loaded. -/
theorem Script.isSound_of_mem_exports (context : NameContext) (tag : Option String)
    (data : ByteArray) (script : Script String)
    (h : (Script.load context tag data).result = .ok script) :
    ∀ function ∈ script.exports, function.IsSound data := by
  obtain ⟨game, s, _, hload, rfl⟩ := load_result_eq_ok.1 h
  exact (Session.allSound_of_load_eq_ok hload).2

/-- A script with one function, whose code is a single byte. -/
def Script.oneByteSample : ByteArray :=
  ⟨#[0x80, 0x47, 0x53, 0x43, 0x0D, 0x0A, 0x00, 0x03,
    0, 0, 0, 0,  0, 0, 0, 0,  0, 0, 0, 0,  0, 0, 0, 0,  0, 0, 0, 0,  0, 0, 0, 0,
    75, 0, 0, 0,  0, 0, 0, 0,  0, 0, 0, 0,  0, 0, 0, 0,  0, 0, 0, 0,
    72, 0,  0, 0,  1, 0,  0, 0,  0, 0,  0, 0,  0, 0,  0, 0,  0, 0, 0, 0,
    0x73, 0,  0,
    0x8D, 0xEF, 0x02, 0xD2,  74, 0, 0, 0,  1, 0, 0, 0,  2, 0, 0, 0,  0, 0, 0, 0]⟩

/-- A script with two functions. The first adds a byte to an integer, whose value lies behind three
bytes of filler, and returns the sum. The code of the second follows that of the first. -/
def Script.sumSample : ByteArray :=
  ⟨#[0x80, 0x47, 0x53, 0x43, 0x0D, 0x0A, 0x00, 0x03,
    0, 0, 0, 0,  0, 0, 0, 0,  0, 0, 0, 0,  0, 0, 0, 0,  0, 0, 0, 0,  0, 0, 0, 0,
    88, 0, 0, 0,  0, 0, 0, 0,  0, 0, 0, 0,  0, 0, 0, 0,  0, 0, 0, 0,
    72, 0,  0, 0,  2, 0,  0, 0,  0, 0,  0, 0,  0, 0,  0, 0,  0, 0, 0, 0,
    0x73, 0,  4, 5,  8, 0xEE, 0xEE, 0xEE, 0x2A, 0, 0, 0,  112,  1,  3,  0,
    0xF6, 0xCE, 0x6D, 0xD3,  74, 0, 0, 0,  1, 0, 0, 0,  2, 0, 0, 0,  0, 0, 0, 0,
    0x3C, 0x41, 0xF4, 0x6A,  86, 0, 0, 0,  3, 0, 0, 0,  2, 0, 0, 0,  0, 0, 0, 0]⟩

theorem Script.run_sumSample :
    (Script.load .empty none sumSample).result.toOption.map (fun script ↦
      script.exports.toList.map fun function ↦ function.instructions.toList.map fun instruction ↦
        (instruction.offset, instruction.size)) =
      some [[(74, 2), (76, 8), (84, 1), (85, 1)], [(86, 1), (87, 1)]] := by
  decide +kernel

/-- Both functions of the sample are sound. -/
theorem Script.isSound_sumSample :
    ∃ script, (Script.load .empty none sumSample).result = .ok script ∧
      (script.exports.toList.map fun function ↦
        function.instructions.toList.map fun instruction ↦
          (instruction.offset, instruction.size)) =
        [[(74, 2), (76, 8), (84, 1), (85, 1)], [(86, 1), (87, 1)]] ∧
      ∀ function ∈ script.exports, function.IsSound sumSample := by
  obtain ⟨script, hload, hplaces⟩ := Option.map_eq_some_iff.1 run_sumSample
  rw [toOption_eq_some_iff] at hload
  exact ⟨script, hload, hplaces, isSound_of_mem_exports .empty none sumSample script hload⟩

end CompiledScript
