import CompiledScript.Proofs.Container.AppendedBytes
import CompiledScript.Proofs.Container.BlockChain
import CompiledScript.Proofs.Script.AppendedBytes

/-!
# Trailing bytes

Scripts and containers come with bytes behind them that do not belong to them, for instance when a
script is cut out of a payload. Such bytes change nothing: whatever was loaded or unpacked without
them is loaded or unpacked with them, to the same result.
-/

namespace CompiledScript

/-- Bytes behind a script or a container that can be read do not change what is read. -/
theorem load_and_unpack_with_trailing_bytes (data tail : ByteArray) :
    (∀ (context : NameContext) (tag : Option String) (script : Script String),
      (Script.load context tag data).result = .ok script →
        (Script.load context tag (data ++ tail)).result = .ok script) ∧
    (∀ payload : ByteArray, (Container.unpack data).2 = .ok payload →
      (Container.unpack (data ++ tail)).2 = .ok payload) :=
  ⟨fun _ _ _ ↦ Script.load_append tail, fun _ ↦ Container.unpack_append tail⟩

/-- A script with one function and a container of two blocks, each with three bytes behind it. -/
theorem trailing_bytes_samples :
    (∃ script : Script String,
      (Script.load .empty none Script.oneByteSample).result = .ok script ∧
        script.exports.size = 1 ∧
        (Script.load .empty none (Script.oneByteSample ++ ⟨#[0x73, 0, 0xFF]⟩)).result =
          .ok script) ∧
    (Container.unpack Container.twoBlockSample).2 = .ok ⟨#[0x61, 0x62, 0x63]⟩ ∧
      (Container.unpack (Container.twoBlockSample ++ ⟨#[0x73, 0, 0xFF]⟩)).2 =
        .ok ⟨#[0x61, 0x62, 0x63]⟩ := by
  have hsize : (Script.load .empty none Script.oneByteSample).result.toOption.map
      (fun script ↦ script.exports.size) = some 1 := by decide +kernel
  have hunpack := Container.run_twoBlockSample.2
  refine ⟨?_, hunpack, (load_and_unpack_with_trailing_bytes _ _).2 _ hunpack⟩
  obtain ⟨script, hload, hcount⟩ := Option.map_eq_some_iff.1 hsize
  rw [toOption_eq_some_iff] at hload
  exact ⟨script, hload, hcount,
    (load_and_unpack_with_trailing_bytes _ _).1 .empty none script hload⟩

end CompiledScript
