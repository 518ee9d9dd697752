import CompiledScript.Proofs.Container.ExtractionFaults
import CompiledScript.Proofs.Script.LoadFaults

/-!
# The kinds of faults that leave the library

Scripts are loaded and extracted in batches, and a batch survives a bad file because the kinds of
faults that a file can cause are few and known. Whatever the bytes are, loading a script and
extracting the scripts of a container end with a result or with a fault of such a kind. The faults
that would be mistakes of the library itself do not occur: no reader is used after it was closed,
nothing is aligned to multiples of zero, no flag or code byte is looked up that was not read, and no
function is decoded before its size is known.
-/

namespace CompiledScript

theorem Container.ExtractionFault.kind_mem {tag : String} {data : ByteArray} {fault : Fault}
    (h : Container.ExtractionFault tag data fault) :
    fault.kind ∈ [.format, .unsupported, .corruption, .truncation] := by
  cases h with
  | corruption hkind | truncation hkind => simp [hkind]
  | signature | version | compression | platform | encryption | game => simp [Fault.kind]

/-- Loading a script yields it, or fails for want of a game, at the end of the bytes, over a code
byte or over a checksum. Extracting scripts yields them, or fails over the form of the container,
over a variant that is not supported, over a contradiction in it or at the end of the bytes. Every
fault is one of those that the bytes account for. -/
theorem load_and_scripts_end_as_listed (context : NameContext) (tag : Option String)
    (game : String) (data : ByteArray) :
    ((∃ script, (Script.load context tag data).result = .ok script) ∨
      ∃ fault, (Script.load context tag data).result = .error fault ∧
        fault.kind ∈ [.format, .truncation, .opcode, .checksum] ∧
        (fault.kind = .format ↔ Script.NoGame tag data) ∧
        (Script.NoGame tag data ∨ Script.DecodingFault data fault)) ∧
    ((∃ found, (Container.scripts game data).2 = .ok found) ∨
      ∃ fault, (Container.scripts game data).2 = .error fault ∧
        fault.kind ∈ [.format, .unsupported, .corruption, .truncation] ∧
        Container.ExtractionFault game data fault) := by
  constructor
  · cases h : (Script.load context tag data).result with
    | ok script => exact Or.inl ⟨script, rfl⟩
    | error fault =>
      obtain ⟨hkind, hformat⟩ := Script.kind_of_load_result_eq_error h
      have hcause : Script.NoGame tag data ∨ Script.DecodingFault data fault :=
        (Script.fault_of_load_result_eq_error h).imp And.left And.right
      exact Or.inr ⟨fault, rfl, hkind, hformat, hcause⟩
  · cases h : (Container.scripts game data).2 with
    | ok found => exact Or.inl ⟨found, rfl⟩
    | error fault =>
      have hfault : Container.ExtractionFault game data fault :=
        Container.extractionFault_of_scripts h
      exact Or.inr ⟨fault, rfl, hfault.kind_mem, hfault⟩

end CompiledScript
