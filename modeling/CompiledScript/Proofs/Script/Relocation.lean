import CompiledScript.Proofs.Script.AssemblyDecoding
import CompiledScript.Proofs.Script.CodeExtent

/-!
# Code at another address

The code of a function can be moved by any multiple of four. Where another buffer holds the bytes
that the instructions take, at a distance, the same instructions are decoded, and all addresses in
them move along: their own, the targets of their jumps and those of the cases of their switches. The
citations of texts have to move along with the code, whereas the texts of animations are found by
pointers that stay the same.

The walk through a function is followed in both buffers at once. One instruction is taken from the
run of bytes that it depends on, and that run is a part of the code that both buffers hold.
-/

namespace CompiledScript

open Bytes Reader

/-- The address after the last instruction, which is the start of the code if there is none. -/
def codeEnd {ν : Type} (start : Int) (instructions : Array (Instruction ν)) : Int :=
  (instructions.back?.map Instruction.stop).getD start

/-- Instructions that lie end to end reach up to the end of the code, and no one reaches further. -/
theorem Tiles.codeEnd_bounds {ν : Type} {instructions : Array (Instruction ν)}
    {start stop limit : Int} (h : Tiles instructions.toList start stop limit) :
    start ≤ codeEnd start instructions ∧ codeEnd start instructions ≤ limit ∧
      ∀ instruction ∈ instructions, instruction.stop ≤ codeEnd start instructions := by
  obtain ⟨last, hlast⟩ : ∃ last, instructions.toList.getLast? = some last :=
    ⟨_, List.getLast?_eq_some_getLast h.nonempty⟩
  have hend : codeEnd start instructions = last.stop := by
    rw [codeEnd, ← Array.getLast?_toList, hlast]
    rfl
  have hmember := List.mem_of_getLast? hlast
  have hstart := h.start_le_of_mem last hmember
  have hsize := h.positive last hmember
  rw [hend]
  refine ⟨?_, (h.last last hlast).2, fun instruction hinstruction ↦ ?_⟩
  · unfold Instruction.stop
    omega
  · exact h.stop_le_of_mem hlast instruction hinstruction.val

/-- A buffer with the same bytes at some place holds the run there. -/
theorem Bytes.Holds.of_extract_eq {data other : ByteArray} {offset place : Int} {run : List UInt8}
    (h : Holds data offset run) (hlow : 0 ≤ place) (hhigh : place + run.length ≤ other.size)
    (hsame : other.extract place.toNat (place + run.length).toNat =
      data.extract offset.toNat (offset + run.length).toNat) :
    Holds other place run := by
  have hoffset := h.offset_nonneg
  obtain ⟨found, hlength, hfound⟩ := exists_holds hlow hhigh
  have hrun : found = run := calc
    found = (other.extract place.toNat (place + run.length).toNat).data.toList := by
      rw [Int.toNat_add_nat hlow, ← hlength, hfound.extract_eq]
    _ = (data.extract offset.toNat (offset + run.length).toNat).data.toList := by rw [hsame]
    _ = run := by rw [Int.toNat_add_nat hoffset, h.extract_eq]
  rwa [hrun] at hfound

namespace Script

variable {ν : Type} {names : Symbol → ν} {index index' : StringIndex} {data other : ByteArray}
  {shift start : Int} {code : List UInt8}

/-- The walk through code that two buffers hold at a distance finds the same instructions in both of
them, moved along. -/
theorem exists_relocated_instructionsFrom (hshift : 4 ∣ shift) (hcode : Holds data start code)
    (hother : Holds other (start + shift) code)
    (hcites : ∀ address, start ≤ address → address < start + code.length →
      CitesAlike index index' shift address)
    {stop offset position : Int} {decoded all : Array (Instruction ν)} {r : Reader}
    (hstart : start ≤ offset)
    (h : instructionsFrom names index stop offset decoded (readerAt data position) = .ok all r) :
    ∃ found : List (Instruction ν), all = decoded ++ found.toArray ∧
      ((∀ instruction ∈ found, instruction.stop ≤ start + code.length ∧
          PointsAlike data other instruction) →
        ∀ (before : Array (Instruction ν)) (place : Int), ∃ last,
          instructionsFrom names index' (stop + shift) (offset + shift) before
              (readerAt other place) =
            .ok (before ++ (found.map (Instruction.relocate shift)).toArray)
              (readerAt other last)) := by
  induction hleft : (stop - offset).toNat using Nat.strongRecOn
    generalizing offset decoded position with
  | ind left ih =>
    by_cases hoffset : offset < stop
    · cases hstep : instruction names index offset (readerAt data position) with
      | error fault middle =>
        rw [instructionsFrom_of_error hoffset hstep] at h
        cases h
      | ok first middle =>
        obtain ⟨hfirst, hsize⟩ := one_le_size hstep
        have hnext : first.stop = offset + first.size := by rw [Instruction.stop, hfirst]
        obtain ⟨run, hheld, hend, rfl, hmoved⟩ :=
          exists_run_of_instruction_eq_ok index' hshift hstep
        rw [instructionsFrom_of_ok hoffset hstep] at h
        obtain ⟨rest, rfl, hrest⟩ := ih _ (by omega) (by omega) h rfl
        refine ⟨first :: rest, by simp, fun hall before place ↦ ?_⟩
        obtain ⟨⟨hinside, hpoints⟩, hothers⟩ := List.forall_mem_cons.1 hall
        have hheld' : Holds other (offset + shift) run :=
          hcode.of_inside hheld hstart (by omega) hother
        have hsame := hmoved other place hheld'
          (fun address _ _ ↦ hcites address (by omega) (by omega)) hpoints
        obtain ⟨last, hlater⟩ :=
          hrest hothers (before.push (first.relocate shift)) (first.stop + shift)
        refine ⟨last, ?_⟩
        rw [instructionsFrom_of_ok (by omega) hsame, Instruction.stop_relocate, hlater]
        simp
    · rw [instructionsFrom_of_le (by omega)] at h
      cases h
      refine ⟨[], by simp, fun _ before place ↦ ⟨place, ?_⟩⟩
      rw [instructionsFrom_of_le (by omega)]
      simp

/-- A function that was decoded is decoded at every distance that is a multiple of four: if another
buffer holds the bytes of its instructions there, gives the same texts to the addresses of the code,
and has the same texts where the pointers of its animations lead, the same instructions are found.
Their addresses move along, with the targets of jumps and cases, and all else is the same. -/
theorem functionCode_relocate {ν : Type} (names : Symbol → ν) (index index' : StringIndex)
    (data other : ByteArray) (function : String) (offset size words position : Int)
    (found : Array (Instruction ν)) (r : Reader) (hmoved : 0 ≤ offset + 4 * words)
    (h : functionCode names index function offset size (readerAt data position) = .ok found r)
    (hfits : codeEnd offset found + 4 * words ≤ other.size)
    (hbytes : other.extract (offset + 4 * words).toNat (codeEnd offset found + 4 * words).toNat =
      data.extract offset.toNat (codeEnd offset found).toNat)
    (hcites : ∀ address, offset ≤ address → address < codeEnd offset found →
      index'.text? (address + 4 * words) = index.text? address)
    (hpoints : ∀ instruction ∈ found, PointsAlike data other instruction) :
    (∀ (label : String) (place : Int), ∃ last,
      functionCode names index' label (offset + 4 * words) size (readerAt other place) =
        .ok (found.map (Instruction.relocate (4 * words))) last) ∧
    ∀ instruction ∈ found, (instruction.relocate (4 * words)).target? =
      instruction.target?.map (· + 4 * words) := by
  refine ⟨fun label place ↦ ?_, fun instruction _ ↦ instruction.target?_relocate _⟩
  have hsize : 0 ≤ size := by
    by_contra hnegative
    rw [functionCode, if_pos (by omega)] at h
    cases h
  have hwalk := h
  rw [functionCode, if_neg (by omega)] at hwalk
  rw [functionCode, if_neg (by omega), Int.add_right_comm]
  rcases Int.lt_or_eq_of_le hsize with hpositive | rfl
  · obtain ⟨hlow, htiles, _⟩ := tiles_of_functionCode_eq_ok rfl hpositive h
    obtain ⟨hstart, hlimit, hstops⟩ := htiles.codeEnd_bounds
    have hcount : offset + (codeEnd offset found - offset).toNat ≤ data.size := by omega
    obtain ⟨code, hlength, hcode⟩ := exists_holds hlow hcount
    have hend : codeEnd offset found = offset + code.length := by omega
    have hother : Holds other (offset + 4 * words) code := by
      rw [hend, Int.add_right_comm] at hfits hbytes
      exact hcode.of_extract_eq hmoved hfits hbytes
    rw [hend] at hcites hstops
    obtain ⟨all, hall, hrelocated⟩ := exists_relocated_instructionsFrom (Int.dvd_mul_right 4 words)
      hcode hother hcites (Int.le_refl offset) hwalk
    obtain rfl : found = all.toArray := by simpa using hall
    obtain ⟨last, hfound⟩ := hrelocated
      (fun instruction hmember ↦ ⟨hstops instruction (by simpa using hmember),
        hpoints instruction (by simpa using hmember)⟩) #[] place
    refine ⟨readerAt other last, hfound.trans ?_⟩
    simp
  · -- Without code no byte is read, wherever the function stands.
    rw [instructionsFrom_of_le (by omega)] at hwalk
    cases hwalk
    refine ⟨readerAt other place, ?_⟩
    rw [instructionsFrom_of_le (by omega), Array.map_empty]

/-- The code of a sample with a text, a switch and an animation, two words further than it was. -/
def relocatedSample : ByteArray :=
  ⟨([0x68, 0x69, 0, 1, 2, 3, 4, 5, 6, 7, 8] ++
    Assembly.code (fun _ ↦ 0xEE) Assembly.sample 3).toArray⟩

/-- The texts of the sample are cited at the addresses 4 and 14, and two words further at 12 and 22
by other entries. -/
def relocatedIndex : StringIndex :=
  (∅ : StringIndex).insert 12 ⟨1, "a", [12]⟩ |>.insert 22 ⟨2, "b", [22]⟩

theorem functionCode_relocatedSample :
    ∃ last, functionCode id relocatedIndex "g" 11 42 (readerAt relocatedSample 0) =
      .ok ((Assembly.decoded (fun _ ↦ 0xEE) Assembly.sample 3).toArray.map
        (Instruction.relocate 8)) last := by
  have hheld : Holds Assembly.sampleBuffer 3 (Assembly.code (fun _ ↦ 0xEE) Assembly.sample 3) := by
    decide +kernel
  have hnames : ∀ place ∈ Assembly.names Assembly.sample,
      Holds Assembly.sampleBuffer place.1 (place.2 ++ [0]) := by decide +kernel
  obtain ⟨last, hwalk⟩ :=
    Assembly.instructionsFrom_of_holds Assembly.sample hheld hnames Assembly.citesExactly_sample
  rw [Array.empty_append] at hwalk
  refine (functionCode_relocate id _ _ Assembly.sampleBuffer relocatedSample "f" 3 42 2 0 _ _
    (by decide) hwalk (by decide +kernel) (by decide +kernel) ?_ ?_).1 "g" 0
  · intro address _ _
    have hfirst : ((12 : Int) == address + 4 * 2) = ((4 : Int) == address) := by
      rw [Bool.eq_iff_iff, beq_iff_eq, beq_iff_eq]
      omega
    have hsecond : ((22 : Int) == address + 4 * 2) = ((14 : Int) == address) := by
      rw [Bool.eq_iff_iff, beq_iff_eq, beq_iff_eq]
      omega
    simp only [StringIndex.text?, relocatedIndex, Assembly.sampleIndex,
      Std.HashMap.getElem?_insert, hfirst, hsecond, Std.HashMap.getElem?_empty]
    split <;> [rfl; split <;> rfl]
  · unfold PointsAlike
    decide +kernel

end Script
end CompiledScript
