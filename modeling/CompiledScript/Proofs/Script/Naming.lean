import CompiledScript.Proofs.Script.Renaming
import Mathlib.Data.List.Forall2

/-!
# Names do not influence decoding

The tables of a context are asked for a name whenever a hash is read, and decoding goes on in the
same way whatever the name is. So if a script is loaded twice with different contexts, it fails both
times in the same way, or is the same script both times except for its names; and what two names
that correspond to each other were made of is one hash, which depends on the bytes alone. This hash
is what stands in the place of the names when the script is decoded without any.

The only fault whose message shows a name is that of a function without a known size, and this fault
does not occur.
-/

namespace CompiledScript

/-! ## Agreement up to names -/

section Agreement

variable (first second : NameTable)

/-- Two tables give these names to the same hash of the same kind. -/
def NamesAgree (name other : String) : Prop :=
  ∃ symbol : Symbol, name = first.resolve symbol.kind.tag symbol.hash ∧
    other = second.resolve symbol.kind.tag symbol.hash

def Operand.IsName {ν : Type} : Operand ν → Prop
  | .name _ _ => True
  | _ => False

/-- The same operand, or the names of one hash with the same marks. -/
inductive OperandsAgree : Operand String → Operand String → Prop where
  | same {operand : Operand String} (hother : ¬ operand.IsName) : OperandsAgree operand operand
  | name (decoration : Decoration) {name other : String}
      (hnames : NamesAgree first second name other) :
      OperandsAgree (.name decoration name) (.name decoration other)

/-- The same instruction up to names. -/
structure InstructionsAgree (instruction other : Instruction String) : Prop where
  offset_eq : instruction.offset = other.offset
  size_eq : instruction.size = other.size
  opcode_eq : instruction.opcode = other.opcode
  target_eq : instruction.target? = other.target?
  operands : List.Forall₂ (OperandsAgree first second) instruction.operands other.operands

/-- The same function of another script up to names. -/
structure ImportsAgree (entry other : Import String) : Prop where
  parameterCount_eq : entry.parameterCount = other.parameterCount
  references_eq : entry.references = other.references
  name : NamesAgree first second entry.name other.name
  module : NamesAgree first second entry.module other.module

/-- The same function up to names. -/
structure ExportsAgree (function other : Export String) : Prop where
  checksum_eq : function.checksum = other.checksum
  offset_eq : function.offset = other.offset
  size_eq : function.size = other.size
  parameterCount_eq : function.parameterCount = other.parameterCount
  flags_eq : function.flags = other.flags
  name : NamesAgree first second function.name other.name
  module : NamesAgree first second function.module other.module
  instructions : List.Forall₂ (InstructionsAgree first second) function.instructions.toList
    other.instructions.toList

/-- The same script up to names. -/
structure ScriptsAgree (script other : Script String) : Prop where
  game_eq : script.game = other.game
  header_eq : script.header = other.header
  path_eq : script.path = other.path
  includes_eq : script.includes = other.includes
  strings_eq : script.strings = other.strings
  imports : List.Forall₂ (ImportsAgree first second) script.imports.toList other.imports.toList
  exports : List.Forall₂ (ExportsAgree first second) script.exports.toList other.exports.toList

end Agreement

/-! ## Two choices of names for one script -/

section Map

variable {first second : NameTable}

theorem forall₂_map_map {α β γ : Type} {relation : β → γ → Prop} {f : α → β} {g : α → γ}
    (items : List α) (h : ∀ item, relation (f item) (g item)) :
    List.Forall₂ relation (items.map f) (items.map g) := by
  rw [List.forall₂_map_left_iff, List.forall₂_map_right_iff, List.forall₂_same]
  exact fun item _ ↦ h item

theorem namesAgree (symbol : Symbol) :
    NamesAgree first second (first.nameOf symbol) (second.nameOf symbol) :=
  ⟨symbol, rfl, rfl⟩

theorem operandsAgree_map (operand : Operand Symbol) :
    OperandsAgree first second (operand.map first.nameOf) (operand.map second.nameOf) := by
  cases operand with
  | name decoration symbol => exact .name decoration (namesAgree symbol)
  | integer | real | vector | text | localizedText | animation | switchCase => exact .same id

/-- A distance is never a name, so an instruction leads to the same address under all names. -/
theorem Instruction.target?_map {ν μ : Type} (f : ν → μ) (instruction : Instruction ν) :
    (instruction.map f).target? = instruction.target? := by
  unfold Instruction.target? Instruction.map
  dsimp only
  split
  · cases instruction.operands with
    | nil => rfl
    | cons operand rest => cases operand <;> rfl
  · rfl

theorem instructionsAgree_map (instruction : Instruction Symbol) :
    InstructionsAgree first second (instruction.map first.nameOf)
      (instruction.map second.nameOf) where
  offset_eq := rfl
  size_eq := rfl
  opcode_eq := rfl
  target_eq := by rw [Instruction.target?_map, Instruction.target?_map]
  operands := forall₂_map_map _ operandsAgree_map

theorem importsAgree_map (entry : Import Symbol) :
    ImportsAgree first second (entry.map first.nameOf) (entry.map second.nameOf) where
  parameterCount_eq := rfl
  references_eq := rfl
  name := namesAgree entry.name
  module := namesAgree entry.module

theorem exportsAgree_map (function : Export Symbol) :
    ExportsAgree first second (function.map first.nameOf) (function.map second.nameOf) where
  checksum_eq := rfl
  offset_eq := rfl
  size_eq := rfl
  parameterCount_eq := rfl
  flags_eq := rfl
  name := namesAgree function.name
  module := namesAgree function.module
  instructions := by
    simp only [Export.map, Array.toList_map]
    exact forall₂_map_map _ instructionsAgree_map

theorem scriptsAgree_map (script : Script Symbol) :
    ScriptsAgree first second (script.map first.nameOf) (script.map second.nameOf) where
  game_eq := rfl
  header_eq := rfl
  path_eq := rfl
  includes_eq := rfl
  strings_eq := rfl
  imports := by
    simp only [Script.map, Array.toList_map]
    exact forall₂_map_map _ importsAgree_map
  exports := by
    simp only [Script.map, Array.toList_map]
    exact forall₂_map_map _ exportsAgree_map

end Map

namespace Script

/-- Whatever the contexts are, loading fails with one and the same fault, which is not the one that
shows a name; or it yields what decoding to hashes yields, with the names of the context, so that
the scripts under any two contexts agree up to names. -/
theorem load_agrees_up_to_names (tag : Option String) (data : ByteArray) :
    (∃ fault, fault.kind ≠ .decode ∧
      ∀ context, (load context tag data).result = .error fault) ∨
    ∃ (game : Game) (decoded : Script Symbol), gameOf tag data = .ok game ∧
      (decodeFor id game data).result = .ok decoded ∧
      (∀ context, (load context tag data).result =
        .ok (decoded.map (context.tableFor game.tag).nameOf)) ∧
      ∀ first second : NameContext, ∃ script other : Script String,
        (load first tag data).result = .ok script ∧ (load second tag data).result = .ok other ∧
        ScriptsAgree (first.tableFor game.tag) (second.tableFor game.tag) script other := by
  rcases gameOf_cases tag data with ⟨_, fault, hgame, hkind⟩ | ⟨_, game, hgame⟩
  · refine Or.inl ⟨fault, by simp [hkind], fun context ↦ ?_⟩
    exact load_result_of_gameOf_eq_error hgame
  · cases hresult : (decodeFor id game data).result with
    | error fault =>
      have hkind := (decodingFault_of_decodeFor_result_eq_error hresult).kind_mem
      refine Or.inl ⟨fault, ?_, fun context ↦ ?_⟩
      · intro hdecode
        simp [hdecode] at hkind
      · rw [load_result_eq_map context hgame, hresult]
        rfl
    | ok decoded =>
      have hnamed (context : NameContext) : (load context tag data).result =
          .ok (decoded.map (context.tableFor game.tag).nameOf) := by
        rw [load_result_eq_map context hgame, hresult]
        rfl
      refine Or.inr ⟨game, decoded, hgame, hresult, hnamed, fun first second ↦ ?_⟩
      exact ⟨_, _, hnamed first, hnamed second, scriptsAgree_map decoded⟩

end Script
end CompiledScript
