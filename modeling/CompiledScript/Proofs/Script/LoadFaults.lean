import CompiledScript.Proofs.Bytes.Held
import CompiledScript.Proofs.Script.DecodingFaults
import CompiledScript.Proofs.Script.ExportSoundness

/-!
# How loading a script fails

Loading fails because the game is not known, and then before anything is read, or in one of the ways
of decoding the bytes. A function is never decoded before the size of its code is known: the scan
for the checksum yields positive sizes, or fails itself.
-/

namespace CompiledScript

open Reader Script

/-- What fails only at the end of the bytes fails in a way of decoding them. -/
theorem Confined.decoding {σ α : Type} {property : σ → Prop} {step : EStateM Fault σ α}
    {data : ByteArray} (hstep : Confined property Truncates step) :
    Confined property (DecodingFault data) step :=
  hstep.mono fun _ hkind ↦ .truncation hkind

namespace Session

variable {ν : Type} {data : ByteArray}

theorem confined_readCodeSize (function : Export ν) :
    Confined (Open data) (DecodingFault data) (readCodeSize function) where
  keeps := by
    intro r size r' hr h
    obtain ⟨rfl, _⟩ := readCodeSize_eq_ok.1 h
    exact hr
  fault := by
    intro r fault r' hr h
    unfold readCodeSize at h
    rw [buffer_bind_of_contents hr] at h
    cases hsize : codeSize data function.offset function.checksum with
    | ok size =>
      rw [hsize] at h
      cases h
    | error cause =>
      rw [hsize] at h
      cases h
      exact decodingFault_of_codeSize_eq_error hsize

theorem confined_readCode (names : Symbol → ν) (index : StringIndex) (function : String)
    (offset : Int) {size : Int} (hsize : 1 ≤ size) :
    Confined (Open data) (DecodingFault data) (readCode names index function offset size) where
  keeps := by
    intro r found r' hr h
    obtain ⟨_, _, hfollows⟩ := tiles_of_functionCode_eq_ok hr hsize (readCode_eq_ok.1 h)
    exact hfollows.contents.trans hr
  fault := by
    intro r fault r' hr h
    unfold readCode at h
    split at h
    · cases h
    · rename_i interrupted after hcode
      cases h
      exact decodingFault_of_functionCode_eq_error hr (by omega) hcode

theorem one_le_of_readCodeSize {function : Export ν} {size : Int}
    (h : ∃ (s s' : Session ν), reading (readCodeSize function) s = .ok size s') : 1 ≤ size := by
  obtain ⟨s, s', h⟩ := h
  obtain ⟨r, hread, _⟩ := reading_eq_ok.1 h
  obtain ⟨_, data, _, hsize⟩ := readCodeSize_eq_ok.1 hread
  exact (bounds_of_codeSize_eq_ok hsize).1

variable [ToString ν]

theorem confined_loadExport : Confined (Over (ν := ν) data) (DecodingFault data) loadExport :=
  confined_get.bind fun _ ↦
    (confined_reading (composed_readExport _).confined).decoding.bind fun entry ↦
      confined_get.bind fun _ ↦
        -- The size is at least one, so the code is decoded with a known size.
        (confined_reading (confined_readCodeSize entry)).bind_of_eq_ok fun _ hsize ↦
          confined_get.bind fun _ ↦
            (confined_reading
              (confined_readCode _ _ _ _ (one_le_of_readCodeSize hsize))).bind fun _ ↦
              (confined_report _).bind fun _ ↦
                (confined_reading (confined_seek _)).decoding.bind fun _ ↦ confined_update _

theorem confined_loadExports : Confined (Over (ν := ν) data) (DecodingFault data) loadExports :=
  (confined_update _).bind fun _ ↦ confined_header.bind fun _ ↦
    (confined_reading (confined_seek _)).decoding.bind fun _ ↦
      confined_times confined_loadExport _

theorem confined_load : Confined (Over (ν := ν) data) (DecodingFault data) load :=
  confined_loadHeader.decoding.bind fun _ ↦ confined_loadIncludes.decoding.bind fun _ ↦
    confined_loadStrings.decoding.bind fun _ ↦ confined_indexStrings.decoding.bind fun _ ↦
      confined_loadImports.decoding.bind fun _ ↦ confined_loadExports.bind fun _ ↦
        confined_get.bind fun _ ↦ confined_report _

end Session

namespace Script

variable {context : NameContext} {tag : Option String} {data : ByteArray} {fault : Fault}

/-- No game has the tag; or there is no tag, and the bytes start with the signature of no game. -/
def NoGame (tag : Option String) (data : ByteArray) : Prop :=
  match tag with
  | some tag => ∀ game ∈ Game.all, game.tag ≠ tag
  | none => ∀ game ∈ Game.all, ¬ game.signature.data.toList <+: data.data.toList

theorem load_result_of_gameOf_eq_error (hgame : gameOf tag data = .error fault) :
    (load context tag data).result = .error fault := by
  rw [load, hgame]

theorem load_result_of_gameOf_eq_ok {game : Game} (hgame : gameOf tag data = .ok game) :
    (load context tag data).result =
      (decodeFor (context.tableFor game.tag).nameOf game data).result := by
  rw [load, hgame]

/-- The game is found unless there is none. -/
theorem gameOf_cases (tag : Option String) (data : ByteArray) :
    (NoGame tag data ∧ ∃ fault, gameOf tag data = .error fault ∧ fault.kind = .format) ∨
      (¬ NoGame tag data ∧ ∃ game, gameOf tag data = .ok game) := by
  cases tag with
  | some tag =>
    cases hfind : Game.ofTag? tag with
    | none =>
      left
      refine ⟨fun game hgame ↦ ?_, _, by rw [gameOf, hfind], rfl⟩
      simpa using List.find?_eq_none.1 hfind game hgame
    | some game =>
      right
      refine ⟨fun hnone ↦ hnone game (List.mem_of_find?_eq_some hfind) ?_, game, ?_⟩
      · simpa using List.find?_some hfind
      · rw [gameOf, hfind]
  | none =>
    cases hfind : Game.ofSignature? data with
    | none =>
      left
      refine ⟨fun game hgame ↦ ?_, _, by rw [gameOf, hfind], rfl⟩
      rw [← Bytes.extract_zero_eq_iff_startsWith]
      simpa using List.find?_eq_none.1 hfind game hgame
    | some game =>
      right
      refine ⟨fun hnone ↦ hnone game (List.mem_of_find?_eq_some hfind) ?_, game, ?_⟩
      · rw [← Bytes.extract_zero_eq_iff_startsWith]
        simpa using List.find?_some hfind
      · rw [gameOf, hfind]

/-- Decoding fails in the ways of decoding. -/
theorem decodingFault_of_decodeFor_result_eq_error {ν : Type} [ToString ν] {names : Symbol → ν}
    {game : Game} (h : (decodeFor names game data).result = .error fault) :
    DecodingFault data fault := by
  unfold decodeFor at h
  split at h
  · cases h
  · rename_i cause s hload
    cases h
    have hover : (Session.ofBytes names game data).Over data := rfl
    exact Session.confined_load.fault _ _ _ hover hload

/-- Loading fails over an unknown game if and only if there is none, and otherwise in the ways of
decoding. -/
theorem fault_of_load_result_eq_error (h : (load context tag data).result = .error fault) :
    (NoGame tag data ∧ fault.kind = .format) ∨ (¬ NoGame tag data ∧ DecodingFault data fault) := by
  rcases gameOf_cases tag data with ⟨hnone, cause, hgame, hkind⟩ | ⟨hsome, game, hgame⟩
  · rw [load_result_of_gameOf_eq_error hgame] at h
    cases h
    exact Or.inl ⟨hnone, hkind⟩
  · rw [load_result_of_gameOf_eq_ok hgame] at h
    exact Or.inr ⟨hsome, decodingFault_of_decodeFor_result_eq_error h⟩

/-- A fault of loading is of the kind that stands for an unknown game if and only if there is no
such game, and otherwise one of decoding. -/
theorem kind_of_load_result_eq_error (h : (load context tag data).result = .error fault) :
    fault.kind ∈ [.format, .truncation, .opcode, .checksum] ∧
      (fault.kind = .format ↔ NoGame tag data) := by
  rcases fault_of_load_result_eq_error h with ⟨hnone, hkind⟩ | ⟨hsome, hfault⟩
  · simp [hkind, hnone]
  · have hmember := hfault.kind_mem
    refine ⟨List.mem_cons_of_mem _ hmember, fun hformat ↦ ?_, fun hnone ↦ absurd hnone hsome⟩
    rw [hformat] at hmember
    simp at hmember

end Script
end CompiledScript
