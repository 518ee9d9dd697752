import CompiledScript.Proofs.Text.LenientDecoding

/-!
# Reading back a text that was stored

A text is stored as its encoding with a zero byte behind it. An encoding has no zero byte of its
own, so the search for the end of the text stops where the encoding ends, and decoding gives the
text back. For any other bytes the search stops in the same way, and what is found depends on
nothing but the bytes up to the first zero byte.
-/

namespace CompiledScript.Reader

open Bytes

variable {data : ByteArray} {offset : Int} {run : List UInt8} {r r' : Reader} {value : String}

theorem text_of_run (hrun : 0 ∉ run) (hdata : r.contents = some data)
    (h : Holds data r.position (run ++ [0])) :
    text r = .ok (Text.Utf8.decodeLenient run)
      { r with position := r.position + run.length + 1 } :=
  bind_eq_ok.2 ⟨r, r, rfl, bind_eq_ok.2 ⟨_, r, textAt_of_holds hrun hdata h, rfl⟩⟩

/-- What is found at an offset comes from the run of bytes in front of the first zero byte. -/
theorem exists_run_of_peekText (h : peekText offset r = .ok value r') :
    ∃ data run, r.contents = some data ∧ 0 ∉ run ∧ Holds data offset (run ++ [0]) ∧
      value = Text.Utf8.decodeLenient run := by
  obtain ⟨found, middle, htext, hvalue⟩ := bind_eq_ok.1 h
  obtain ⟨data, stop, hdata, hoffset, hfind, rfl, rfl⟩ := textAt_eq_ok.1 htext
  obtain ⟨rfl, rfl⟩ := EStateM.Result.ok.inj hvalue
  have hholds := holds_of_findFrom?_eq_some hfind
  rw [Int.toNat_of_nonneg hoffset] at hholds
  exact ⟨data, _, hdata, not_mem_of_findFrom?_eq_some hfind, hholds, rfl⟩

/-- A stored text is read back, and the position goes behind its zero byte. Whatever is found at an
offset is made from the bytes up to the first zero byte by the rules of lenient decoding, is found
wherever these bytes stand, and has no zero character. -/
theorem stored_text_is_read_back :
    (∀ (stored : String) (data : ByteArray) (offset : Int) (r : Reader),
      '\x00' ∉ stored.toList → Holds data offset (stored.toUTF8.data.toList ++ [0]) →
      r.contents = some data →
        peekText offset r = .ok stored r ∧
        (r.position = offset →
          text r = .ok stored { r with position := offset + stored.utf8ByteSize + 1 })) ∧
    ∀ (r r' : Reader) (offset : Int) (found : String), peekText offset r = .ok found r' →
      '\x00' ∉ found.toList ∧
      ∃ data run, r.contents = some data ∧ 0 ∉ run ∧ Holds data offset (run ++ [0]) ∧
        (∀ other : String, Text.Utf8.Decodes run other.toList ↔ other = found) ∧
        ∀ (other : ByteArray) (place : Int) (s : Reader), s.contents = some other →
          Holds other place (run ++ [0]) → peekText place s = .ok found s := by
  constructor
  · intro stored data offset r hstored hholds hdata
    rw [Text.Utf8.toUTF8_data_toList] at hholds
    have hrun := Text.Utf8.zero_not_mem_encode hstored
    constructor
    · rw [peekText_of_run hrun hdata hholds, Text.Utf8.decodeLenient_encode]
    · rintro rfl
      rw [text_of_run hrun hdata hholds, Text.Utf8.decodeLenient_encode, Text.Utf8.length_encode]
  · intro r r' offset found h
    obtain ⟨data, run, hdata, hrun, hholds, rfl⟩ := exists_run_of_peekText h
    refine ⟨Text.Utf8.zero_not_mem_decodeLenient hrun, data, run, hdata, hrun, hholds,
      fun other ↦ Text.Utf8.decodes_iff, fun other place s hother hplace ↦ ?_⟩
    exact peekText_of_run hrun hother hplace

/-- A text with encodings of two, three and four bytes behind another byte, and then a malformed
text. -/
def storedSample : ByteArray :=
  ⟨#[0xFF, 0xC3, 0xA9, 0xE2, 0x82, 0xAC, 0xF0, 0x9F, 0x98, 0x80, 0x00, 0xE2, 0x82, 0x28, 0x00]⟩

theorem read_back_storedSample :
    '\x00' ∉ "é€😀".toList ∧ Holds storedSample 1 ("é€😀".toUTF8.data.toList ++ [0]) ∧
      peekText 1 ⟨some storedSample, .big, 1⟩ = .ok "é€😀" ⟨some storedSample, .big, 1⟩ ∧
      text ⟨some storedSample, .big, 1⟩ = .ok "é€😀" ⟨some storedSample, .big, 11⟩ ∧
      peekText 11 ⟨some storedSample, .big, 1⟩ = .ok "�(" ⟨some storedSample, .big, 1⟩ ∧
      '\x00' ∉ "�(".toList := by
  have hstored : '\x00' ∉ "é€😀".toList := by decide
  have hholds : Holds storedSample 1 ("é€😀".toUTF8.data.toList ++ [0]) := by decide
  have hrun : Holds storedSample 11 ([0xE2, 0x82, 0x28] ++ [0]) := by decide
  have hmalformed : peekText 11 ⟨some storedSample, .big, 1⟩ =
      .ok "�(" ⟨some storedSample, .big, 1⟩ := peekText_of_run (by decide) rfl hrun
  obtain ⟨hpeek, htext⟩ :=
    stored_text_is_read_back.1 "é€😀" storedSample 1 ⟨some storedSample, .big, 1⟩ hstored hholds rfl
  exact ⟨hstored, hholds, hpeek, htext rfl, hmalformed,
    (stored_text_is_read_back.2 _ _ 11 "�(" hmalformed).1⟩

end CompiledScript.Reader
