import CompiledScript.Container.Extract
import CompiledScript.Proofs.Container.BlockChain
import CompiledScript.Proofs.Script.LoadedHeader
import Mathlib.Data.List.Forall2

/-!
# Extracted scripts and loaded scripts

A script inside a payload is read twice: its length and its name are looked up in the payload when
it is cut out, and its whole header is read again when the bytes that were cut out are loaded. The
two readings agree. The length is unsigned for one and signed for the other, which makes no
difference in a payload of less than two gibibytes; and the name ends at the same zero byte, because
a script that can be loaded has its name in its own bytes.
-/

namespace CompiledScript.Container

open Reader

/-- The script was cut out of the payload at the offset: its length and the place of its name stand
in its header. -/
structure CutOut (payload : ByteArray) (offset : Nat) (script : EmbeddedScript) : Prop where
  offset_eq : script.offset = offset
  inside : offset + unsignedAt payload 4 (offset + scriptSizeField) ≤ payload.size
  data_eq : script.data = payload.extract offset
    (offset + unsignedAt payload 4 (offset + scriptSizeField))
  path_eq : storedText? payload (offset + unsignedAt payload 2 (offset + scriptNameField)) =
    some script.path

section Extraction

variable {payload : ByteArray} {offset : Nat} {script : EmbeddedScript}

theorem cutOut_of_embeddedAt_eq_ok {r : Reader}
    (h : embeddedAt offset (Reader.ofBytes .little payload) = .ok script r) :
    CutOut payload offset script := by
  obtain ⟨_, _, hseek, h⟩ := bind_eq_ok.1 h
  obtain ⟨_, _, _, _, rfl⟩ := seek_eq_ok.1 hseek
  obtain ⟨size, _, hsize, h⟩ := bind_eq_ok.1 h
  obtain ⟨rfl, _, _, rfl⟩ := unsigned_readerAt_eq_ok hsize
  obtain ⟨_, _, hseek, h⟩ := bind_eq_ok.1 h
  obtain ⟨_, _, _, _, rfl⟩ := seek_eq_ok.1 hseek
  obtain ⟨pointer, _, hpointer, h⟩ := bind_eq_ok.1 h
  obtain ⟨rfl, _, _, rfl⟩ := unsigned_readerAt_eq_ok hpointer
  obtain ⟨path, _, hpath, h⟩ := bind_eq_ok.1 h
  obtain ⟨_, hsame, htext, rfl⟩ := peekText_eq_ok.1 hpath
  cases hsame
  obtain ⟨_, _, hseek, h⟩ := bind_eq_ok.1 h
  obtain ⟨_, _, _, _, rfl⟩ := seek_eq_ok.1 hseek
  obtain ⟨data, _, hdata, h⟩ := bind_eq_ok.1 h
  have hnonneg : (0 : Int) ≤ offset := Int.natCast_nonneg offset
  obtain ⟨rfl, hinside, rfl⟩ := bytes_readerAt_eq_ok hnonneg hdata
  cases h
  exact ⟨rfl, by exact_mod_cast hinside, rfl, htext⟩

/-- If nothing fails, one script is cut out at each offset. -/
theorem cutOut_of_extractAt {offsets : List Nat} (h : (extractAt payload offsets).fault = none) :
    List.Forall₂ (CutOut payload) offsets (extractAt payload offsets).scripts := by
  induction offsets with
  | nil => exact .nil
  | cons offset rest ih =>
    unfold extractAt at h ⊢
    cases hembedded : embeddedAt offset (Reader.ofBytes .little payload) with
    | error fault r =>
      rw [hembedded] at h
      cases h
    | ok script r =>
      rw [hembedded] at h
      exact .cons (cutOut_of_embeddedAt_eq_ok hembedded) (ih h)

theorem cutOut_of_extract_eq_ok {scripts : List EmbeddedScript}
    (h : (extract Game.blackOps3.tag payload).result = .ok scripts) :
    List.Forall₂ (CutOut payload) (occurrences payload Game.blackOps3.signature) scripts := by
  have hgame : extract Game.blackOps3.tag payload =
      extractAt payload (occurrences payload Game.blackOps3.signature) := rfl
  rw [hgame, Extraction.result] at h
  split at h
  · rename_i hnone
    cases h
    exact cutOut_of_extractAt hnone
  · cases h

theorem cutOut_of_mem {offsets : List Nat} {scripts : List EmbeddedScript}
    (h : List.Forall₂ (CutOut payload) offsets scripts) (hmember : script ∈ scripts) :
    CutOut payload script.offset script := by
  induction h with
  | nil => cases hmember
  | cons hfirst _ ih =>
    rcases List.mem_cons.1 hmember with rfl | hrest
    · rw [hfirst.offset_eq]
      exact hfirst
    · exact ih hrest

end Extraction

namespace CutOut

variable {payload : ByteArray} {offset : Nat} {script : EmbeddedScript}

theorem size_eq (h : CutOut payload offset script) :
    script.data.size = unsignedAt payload 4 (offset + scriptSizeField) := by
  have hinside := h.inside
  rw [h.data_eq, ByteArray.size_extract]
  omega

/-- The bytes that were cut out start with the header that stands at the offset. -/
theorem fields_eq (h : CutOut payload offset script)
    (hheader : Session.headerSize ≤ script.data.size) :
    unsignedAt script.data 2 0x34 = unsignedAt payload 2 (offset + scriptNameField) ∧
      signedAt script.data 4 0x28 = signedAt payload 4 (offset + scriptSizeField) := by
  have hlength : (0x48 : Int) ≤ unsignedAt payload 4 (offset + scriptSizeField) := by
    rw [← h.size_eq]
    exact hheader
  rw [h.data_eq]
  constructor
  · exact unsignedAt_extract (by decide) (by push_cast; omega)
  · exact signedAt_extract (by decide) (by push_cast; omega)

variable {context : NameContext} {tag : Option String} {loaded : Script String}

/-- A script is loaded under the path with which it was cut out. -/
theorem path_eq_of_load (h : CutOut payload offset script)
    (hload : (Script.load context tag script.data).result = .ok loaded) :
    script.path = loaded.path := by
  obtain ⟨hheader, htext, _⟩ := Script.header_of_load_result_eq_ok hload
  have hpointer : ((Header.storedIn script.data).nameOffset : Int) =
      unsignedAt payload 2 (offset + scriptNameField) :=
    congrArg Nat.cast (h.fields_eq hheader).1
  rw [hpointer, h.data_eq] at htext
  have hpayload := storedText?_of_extract htext
  rw [h.path_eq] at hpayload
  exact Option.some.inj hpayload

/-- The fixup table of a script that was cut out lies at its end. -/
theorem fixupTable_eq_of_load (h : CutOut payload offset script)
    (hpayload : payload.size < 0x80000000)
    (hload : (Script.load context tag script.data).result = .ok loaded) :
    loaded.header.fixupTable = script.data.size := by
  obtain ⟨hinside, _, hheader⟩ := Script.header_of_load_result_eq_ok hload
  have hsize : 2 * unsignedAt payload 4 (offset + scriptSizeField) < Nat.pow 256 4 := by
    have hlimit := h.inside
    have hpow : Nat.pow 256 4 = 0x100000000 := rfl
    omega
  calc
    loaded.header.fixupTable = signedAt script.data 4 0x28 := by
      rw [hheader]
      rfl
    _ = signedAt payload 4 (offset + scriptSizeField) := (h.fields_eq hinside).2
    _ = unsignedAt payload 4 (offset + scriptSizeField) := signedAt_eq_unsignedAt hsize
    _ = script.data.size := by rw [h.size_eq]

end CutOut

/-- Where the scripts of a payload can be extracted, there is one for each occurrence of the
signature, with as many bytes from there on as its header says. Whatever of this can be loaded has
the extracted name, and its fixup table at the end. -/
theorem extracted_scripts_agree_with_loaded (payload : ByteArray) (scripts : List EmbeddedScript)
    (hpayload : payload.size < 0x80000000)
    (h : (extract Game.blackOps3.tag payload).result = .ok scripts) :
    List.Forall₂ (fun (offset : Nat) script ↦ script.offset = offset ∧
        script.data.size = unsignedAt payload 4 (offset + 0x28) ∧
        script.data = payload.extract offset (offset + unsignedAt payload 4 (offset + 0x28)))
      (occurrences payload Game.blackOps3.signature) scripts ∧
    ∀ script ∈ scripts, ∀ (context : NameContext) (tag : Option String) (loaded : Script String),
      (Script.load context tag script.data).result = .ok loaded →
        script.name = loaded.path ++ "c" ∧ loaded.header.fixupTable = script.data.size := by
  have hcut := cutOut_of_extract_eq_ok h
  refine ⟨hcut.imp fun _ _ hscript ↦ ⟨hscript.offset_eq, hscript.size_eq, hscript.data_eq⟩, ?_⟩
  intro script hmember context tag loaded hload
  have hscript := cutOut_of_mem hcut hmember
  refine ⟨?_, hscript.fixupTable_eq_of_load hpayload hload⟩
  rw [EmbeddedScript.name, hscript.path_eq_of_load hload]

/-- A payload with a script of one function behind a byte, and with another byte behind it. -/
def embeddedSample : ByteArray :=
  ⟨#[0x01,
    0x80, 0x47, 0x53, 0x43, 0x0D, 0x0A, 0x00, 0x03,
    0, 0, 0, 0,  0, 0, 0, 0,  0, 0, 0, 0,  0, 0, 0, 0,  0, 0, 0, 0,  0, 0, 0, 0,
    75, 0, 0, 0,  0, 0, 0, 0,  95, 0, 0, 0,  0, 0, 0, 0,  0, 0, 0, 0,
    72, 0,  0, 0,  1, 0,  0, 0,  0, 0,  0, 0,  0, 0,  0, 0,  0, 0, 0, 0,
    0x73, 0,  0,
    0x8D, 0xEF, 0x02, 0xD2,  74, 0, 0, 0,  1, 0, 0, 0,  2, 0, 0, 0,  0, 0, 0, 0,
    0xFF]⟩

/-- The script of the sample is extracted and loaded, under one name and with one length. -/
theorem extracted_scripts_embeddedSample :
    embeddedSample.size < 0x80000000 ∧ ∃ (script : EmbeddedScript) (loaded : Script String),
      (extract Game.blackOps3.tag embeddedSample).result = .ok [script] ∧
      (Script.load .empty none script.data).result = .ok loaded ∧
      script.offset = 1 ∧ script.data.size = 95 ∧ script.name = "sc" ∧
      script.name = loaded.path ++ "c" ∧ loaded.header.fixupTable = script.data.size := by
  have hrun : (extract Game.blackOps3.tag embeddedSample).result.toOption.map (fun scripts ↦
      scripts.map fun script ↦ (script.offset, script.data.size, script.name,
        (Script.load .empty none script.data).result.toOption.isSome)) =
      some [(1, 95, "sc", true)] := by decide +kernel
  have hsmall : embeddedSample.size < 0x80000000 := by decide
  obtain ⟨scripts, hextract, hscripts⟩ := Option.map_eq_some_iff.1 hrun
  obtain ⟨script, rfl, hscript⟩ := List.map_eq_singleton_iff.1 hscripts
  simp only [Prod.mk.injEq] at hscript
  obtain ⟨hoffset, hsize, hname, hloads⟩ := hscript
  obtain ⟨loaded, hload⟩ := Option.isSome_iff_exists.1 hloads
  replace hextract := toOption_eq_some_iff.1 hextract
  replace hload := toOption_eq_some_iff.1 hload
  have hagree := (extracted_scripts_agree_with_loaded embeddedSample [script] hsmall hextract).2
    script List.mem_cons_self .empty none loaded hload
  exact ⟨hsmall, script, loaded, hextract, hload, hoffset, hsize, hname, hagree⟩

end CompiledScript.Container
