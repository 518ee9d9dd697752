import CompiledScript.Proofs.Bytes.Held
import CompiledScript.Proofs.Reader.Appended
import CompiledScript.Proofs.Script.ExportSoundness

/-!
# Loading a script with bytes behind it

A script that was loaded is loaded in the same way when there are further bytes behind it. All
tables and operands are read by composed actions, which do not see such bytes. The scan for the size
of a function stops at the first match, and what lies in front of it stays the same; only a start
below zero would be counted from the end, and no function with such a start is loaded.
-/

namespace CompiledScript

open Bytes Reader

variable (tail : ByteArray)

namespace Script

variable {ν : Type} {names : Symbol → ν}

/-- The shortest run with a checksum is still the shortest with bytes behind the data. -/
theorem IsShortestRun.append {data : ByteArray} {start length : Nat} {checksum : Int}
    (h : IsShortestRun data start checksum length) :
    IsShortestRun (data ++ tail) start checksum length := by
  have hinside := h.inside
  have hrun (shorter : Nat) (hshorter : shorter ≤ length) :
      runChecksum (data ++ tail) start shorter = runChecksum data start shorter := by
    unfold runChecksum
    rw [extract_append_of_le tail (by omega)]
  refine ⟨h.nonempty, ?_, ?_, fun shorter hlow hhigh ↦ ?_⟩
  · rw [ByteArray.size_append]
    omega
  · rw [hrun length (Nat.le_refl _)]
    exact h.checksum_eq
  · rw [hrun shorter (by omega)]
    exact h.shortest shorter hlow hhigh

theorem codeSize_append {data : ByteArray} {start checksum size : Int} (hstart : 0 ≤ start)
    (h : codeSize data start checksum = .ok size) :
    codeSize (data ++ tail) start checksum = .ok size := by
  obtain ⟨place, rfl⟩ := Int.eq_ofNat_of_zero_le hstart
  obtain ⟨length, hlength, hrun⟩ := codeSize_eq_ok_iff.1 h
  exact codeSize_eq_ok_iff.2 ⟨length, hlength, hrun.append tail⟩

variable (names) in
theorem extends_instruction (index : StringIndex) (offset : Int) :
    Extends tail (instruction names index offset) := by
  refine (extends_seek tail offset).bind fun _ ↦ (extends_unsigned tail 1).bind fun byte ↦ ?_
  split
  · exact unaffected_throw _
  · exact ((composed_operands _ _ _).extends tail).bind fun _ ↦
      unaffected_get_bind (fun _ ↦ rfl) fun _ ↦ unaffected_pure _

variable (names) in
theorem extends_instructionsFrom (index : StringIndex) (stop offset : Int)
    (decoded : Array (Instruction ν)) :
    Unaffected NotBefore (appended tail) (instructionsFrom names index stop offset decoded) := by
  intro r all r' hr h
  fun_induction instructionsFrom names index stop offset decoded r with
  | case1 offset decoded r hoffset fault middle hstep => cases h
  | case2 offset decoded r hoffset found middle hstep ih =>
    obtain ⟨hmiddle, hstep'⟩ := extends_instruction tail names index offset r found middle hr hstep
    obtain ⟨hr', hrest⟩ := ih hmiddle h
    exact ⟨hr', (instructionsFrom_of_ok hoffset hstep').trans hrest⟩
  | case3 offset decoded r hoffset =>
    cases h
    exact ⟨hr, instructionsFrom_of_le (by omega)⟩

end Script

namespace Session

variable {ν : Type} {names : Symbol → ν}

/-- The session with bytes appended to those that it reads. -/
def appended (s : Session ν) : Session ν :=
  { s with reader := s.reader.appended tail }

def NotBefore (s : Session ν) : Prop :=
  s.reader.NotBefore

/-- A success stays the same when bytes are appended. -/
abbrev Extends {α : Type} (step : Action ν α) : Prop :=
  Unaffected NotBefore (appended tail) step

section Steps

variable {tail}

theorem extends_reading {α : Type} {action : Reader.Action α}
    (haction : Reader.Extends tail action) :
    Extends (ν := ν) tail (reading action) := by
  intro s value s' hs h
  obtain ⟨r, hread, rfl⟩ := reading_eq_ok.1 h
  obtain ⟨hr, hread'⟩ := haction s.reader value r hs hread
  exact ⟨hr, reading_eq_ok.2 ⟨r.appended tail, hread', rfl⟩⟩

theorem extends_update (change : Script ν → Script ν) : Extends tail (update change) :=
  unaffected_modify (fun _ hs ↦ hs) fun _ ↦ rfl

theorem extends_report (event : ScriptEvent ν) : Extends tail (report event) :=
  unaffected_modify (fun _ hs ↦ hs) fun _ ↦ rfl

theorem extends_header : Extends (ν := ν) tail header :=
  unaffected_get_bind (fun _ ↦ rfl) fun _ ↦ unaffected_pure _

theorem extends_times {step : Action ν Unit} (hstep : Extends tail step) (count : Nat) :
    Extends tail (times count step) := by
  induction count with
  | zero => exact unaffected_pure ()
  | succ count ih => exact hstep.bind fun _ ↦ ih

end Steps

/-! ## Tables -/

theorem extends_loadHeader : Extends (ν := ν) tail loadHeader :=
  (extends_reading (composed_readHeader.extends tail)).bind fun _ ↦ (extends_update _).bind fun _ ↦
    (extends_reading ((composed_peekText _).extends tail)).bind fun _ ↦
      (extends_update _).bind fun _ ↦ extends_reading (extends_seek tail _)

theorem extends_loadIncludes : Extends (ν := ν) tail loadIncludes :=
  extends_header.bind fun _ ↦ (extends_reading (extends_seek tail _)).bind fun _ ↦
    (extends_reading ((composed_includePaths _).extends tail)).bind fun _ ↦ extends_update _

theorem extends_loadString {action : Reader.Action StringEntry} (haction : Composed action) :
    Extends (ν := ν) tail (loadString action) :=
  (extends_reading (haction.extends tail)).bind fun _ ↦ extends_update _

theorem extends_loadStrings : Extends (ν := ν) tail loadStrings :=
  (extends_update _).bind fun _ ↦ extends_header.bind fun _ ↦
    (extends_reading (extends_seek tail _)).bind fun _ ↦
      (extends_times (extends_loadString tail composed_readString) _).bind fun _ ↦
        (extends_reading (extends_seek tail _)).bind fun _ ↦
          extends_times (extends_loadString tail composed_readDebugString) _

theorem extends_indexStrings : Extends (ν := ν) tail indexStrings :=
  unaffected_modify (fun _ hs ↦ hs) fun _ ↦ rfl

theorem extends_loadImport : Extends (ν := ν) tail loadImport :=
  unaffected_get_bind (fun _ ↦ rfl) fun _ ↦
    (extends_reading ((composed_readImport _).extends tail)).bind fun _ ↦ extends_update _

theorem extends_loadImports : Extends (ν := ν) tail loadImports :=
  (extends_update _).bind fun _ ↦ extends_header.bind fun _ ↦
    (extends_reading (extends_seek tail _)).bind fun _ ↦ extends_times (extends_loadImport tail) _

/-! ## Functions -/

theorem extends_readCodeSize {entry : Export ν} (hoffset : 0 ≤ entry.offset) :
    Reader.Extends tail (readCodeSize entry) := by
  intro r size r' hr h
  obtain ⟨rfl, data, hdata, hsize⟩ := readCodeSize_eq_ok.1 h
  exact ⟨hr, readCodeSize_eq_ok.2 ⟨rfl, data ++ tail, contents_appended tail hdata,
    Script.codeSize_append tail hoffset hsize⟩⟩

theorem extends_readCode (index : StringIndex) (function : String) (offset size : Int) :
    Reader.Extends tail (readCode names index function offset size) := by
  intro r found r' hr h
  have hcode := readCode_eq_ok.1 h
  rw [readCode_eq_ok]
  unfold Script.functionCode at hcode ⊢
  split at hcode
  · cases hcode
  · rename_i hsize
    rw [if_neg hsize]
    exact Script.extends_instructionsFrom tail names index _ _ _ r found r' hr hcode

/-- A function whose code was found and decoded starts at an offset of the data. -/
theorem offset_nonneg_of_code {entry : Export ν} {size : Int} {index : StringIndex}
    {label : String} {found : Array (Instruction ν)} {s₁ s₂ s₃ : Session ν}
    (hsize : reading (readCodeSize entry) s₁ = .ok size s₂)
    (hcode : reading (readCode names index label entry.offset size) s₂ = .ok found s₃) :
    0 ≤ entry.offset := by
  obtain ⟨r, hscan, rfl⟩ := reading_eq_ok.1 hsize
  obtain ⟨rfl, data, hdata, hcodeSize⟩ := readCodeSize_eq_ok.1 hscan
  obtain ⟨r', hread, _⟩ := reading_eq_ok.1 hcode
  have hpositive := (Script.bounds_of_codeSize_eq_ok hcodeSize).1
  exact (Script.tiles_of_functionCode_eq_ok hdata hpositive (readCode_eq_ok.1 hread)).1

variable [ToString ν]

theorem extends_loadExport : Extends (ν := ν) tail loadExport := by
  refine unaffected_get_bind (fun _ ↦ rfl) fun _ ↦
    (extends_reading ((composed_readExport _).extends tail)).bind fun entry ↦
      unaffected_get_bind (fun _ ↦ rfl) fun before ↦ ?_
  by_cases hoffset : 0 ≤ entry.offset
  · exact (extends_reading (extends_readCodeSize tail hoffset)).bind fun _ ↦
      unaffected_get_bind (fun _ ↦ rfl) fun _ ↦
        (extends_reading (extends_readCode tail _ _ _ _)).bind fun _ ↦
          (extends_report _).bind fun _ ↦ (extends_reading (extends_seek tail _)).bind fun _ ↦
            extends_update _
  · -- The scan may succeed here, with other bytes for every buffer; the decoder does not.
    intro s value s' _ h
    obtain ⟨size, s₂, hsize, h⟩ := bind_eq_ok.1 h
    obtain ⟨_, _, hget, h⟩ := bind_eq_ok.1 h
    cases hget
    obtain ⟨found, s₃, hcode, _⟩ := bind_eq_ok.1 h
    exact absurd (offset_nonneg_of_code hsize hcode) hoffset

theorem extends_loadExports : Extends (ν := ν) tail loadExports :=
  (extends_update _).bind fun _ ↦ extends_header.bind fun _ ↦
    (extends_reading (extends_seek tail _)).bind fun _ ↦ extends_times (extends_loadExport tail) _

theorem extends_load : Extends (ν := ν) tail load :=
  (extends_loadHeader tail).bind fun _ ↦ (extends_loadIncludes tail).bind fun _ ↦
    (extends_loadStrings tail).bind fun _ ↦ (extends_indexStrings tail).bind fun _ ↦
      (extends_loadImports tail).bind fun _ ↦ (extends_loadExports tail).bind fun _ ↦
        unaffected_get_bind (fun _ ↦ rfl) fun _ ↦ extends_report _

end Session

namespace Script

theorem ofSignature?_append {data : ByteArray} {game : Game}
    (h : Game.ofSignature? data = some game) : Game.ofSignature? (data ++ tail) = some game := by
  unfold Game.ofSignature? Game.all at h ⊢
  rw [List.find?_singleton] at h ⊢
  split at h
  · rename_i hfound
    have hprefix := extract_zero_eq_iff_startsWith.1 (of_decide_eq_true hfound)
    have hlonger : Game.blackOps3.signature.data.toList <+: (data ++ tail).data.toList := by
      rw [ByteArray.toList_data_append]
      exact hprefix.trans (List.prefix_append _ _)
    rw [if_pos (decide_eq_true (extract_zero_eq_iff_startsWith.2 hlonger))]
    exact h
  · cases h

theorem gameOf_append {tag : Option String} {data : ByteArray} {game : Game}
    (h : gameOf tag data = .ok game) : gameOf tag (data ++ tail) = .ok game := by
  cases tag with
  | some tag => exact h
  | none =>
    unfold gameOf at h ⊢
    cases hfind : Game.ofSignature? data with
    | none =>
      rw [hfind] at h
      cases h
    | some found =>
      rw [hfind] at h
      rw [ofSignature?_append tail hfind]
      exact h

/-- A script is loaded in the same way with bytes behind it. -/
theorem load_append {context : NameContext} {tag : Option String} {data : ByteArray}
    {script : Script String} (h : (load context tag data).result = .ok script) :
    (load context tag (data ++ tail)).result = .ok script := by
  obtain ⟨game, s, hgame, hload, rfl⟩ := load_result_eq_ok.1 h
  have hstart : (Session.ofBytes (context.tableFor game.tag).nameOf game data).NotBefore :=
    Int.le_refl 0
  obtain ⟨_, hlonger⟩ := Session.extends_load tail _ _ _ hstart hload
  exact load_result_eq_ok.2 ⟨game, s.appended tail, gameOf_append tail hgame, hlonger, rfl⟩

end Script
end CompiledScript
