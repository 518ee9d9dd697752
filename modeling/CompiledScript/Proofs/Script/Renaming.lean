import CompiledScript.Proofs.Outcomes
import CompiledScript.Proofs.Script.LoadFaults

/-!
# Decoding with other names

A session names every hash as soon as it has read it. The names are stored, shown in events and
never looked at: if all names are changed by a function, every step of decoding ends as before, with
the same bytes read and the same faults, and what it stores is what it stored before with the
changed names. The argument follows the decoder, from a single hash over the operands of each
encoding, the walk through a function and the records of the tables up to a whole script.

A name is put into words for the fault of a function without a known size, and there other names
would show. The fault does not occur, since the scan for the size of a function yields positive
sizes.

So a script is decoded to its hashes under the names that leave every hash as it is, and decoding it
under any names is a renaming of that.
-/

namespace CompiledScript

variable {ν μ : Type} (f : ν → μ)

/-! ## Instructions -/

namespace Script

open Reader

variable (names : Symbol → ν) (index : StringIndex)

theorem becomes_repeated {α β : Type} {g : α → β} {action : Reader.Action α}
    {image : Reader.Action β} (h : Becomes id g action image) (count : Nat) :
    Becomes id (List.map g) (repeated count action) (repeated count image) := by
  induction count with
  | zero => exact becomes_pure []
  | succ count ih => exact h.bind fun _ ↦ ih.bind fun _ ↦ becomes_pure _

theorem becomes_hashName (kind : SymbolKind) :
    Becomes id f (hashName names kind) (hashName (f ∘ names) kind) :=
  (becomes_self _).bind fun _ ↦ (becomes_self _).bind fun _ ↦ becomes_pure _

theorem becomes_variableEntry :
    Becomes id (Operand.map f) (variableEntry names) (variableEntry (f ∘ names)) :=
  (becomes_hashName f names _).bind fun _ ↦ (becomes_self _).bind fun _ ↦ becomes_pure _

theorem becomes_operands (encoding : Encoding) :
    Becomes id (List.map (Operand.map f)) (operands names index encoding)
      (operands (f ∘ names) index encoding) := by
  cases encoding with
  | none => exact becomes_pure []
  | signedByte | unsignedByte | negatedByte | vectorFlags | text | localizedText =>
    exact (becomes_self _).bind fun _ ↦ becomes_pure _
  | signedShort | unsignedShort | negatedShort | signedWord | unsignedWord | real =>
    exact (becomes_self _).bind fun _ ↦ (becomes_self _).bind fun _ ↦ becomes_pure _
  | hash | variableName | functionPointer =>
    exact (becomes_hashName f names _).bind fun _ ↦ becomes_pure _
  | vector =>
    exact (becomes_self _).bind fun _ ↦ (becomes_self _).bind fun _ ↦ (becomes_self _).bind fun _ ↦
      (becomes_self _).bind fun _ ↦ becomes_pure _
  | animation =>
    exact (becomes_self _).bind fun _ ↦ (becomes_self _).bind fun _ ↦ (becomes_self _).bind fun _ ↦
      becomes_pure _
  | call | countedCall =>
    exact (becomes_self _).bind fun _ ↦ (becomes_hashName f names _).bind fun _ ↦ becomes_pure _
  | variableList =>
    exact (becomes_self _).bind fun count ↦ becomes_repeated (becomes_variableEntry f names) count
  | cases =>
    refine (becomes_self _).bind fun table ↦ ?_
    have hmap : (table.map (.switchCase : SwitchCase → Operand ν)).map (Operand.map f) =
        table.map .switchCase := List.map_map
    rw [id, ← hmap]
    exact becomes_pure _

theorem becomes_instruction (offset : Int) :
    Becomes id (Instruction.map f) (instruction names index offset)
      (instruction (f ∘ names) index offset) := by
  refine (becomes_self _).bind fun _ ↦ (becomes_self _).bind fun byte ↦ ?_
  rw [id]
  cases Opcode.ofByte? byte.toUInt8 with
  | none => exact becomes_throw _
  | some opcode =>
    exact (becomes_operands f names index _).bind fun _ ↦ becomes_get_bind fun _ ↦ becomes_pure _

def Interrupted.map (interrupted : Interrupted ν) : Interrupted μ where
  fault := interrupted.fault
  decoded := interrupted.decoded.map (Instruction.map f)

/-- The walk through the instructions of a function decides where to go on by their sizes, which do
not depend on names. -/
theorem instructionsFrom_comp (stop offset : Int) (decoded : Array (Instruction ν)) (r : Reader) :
    instructionsFrom (f ∘ names) index stop offset (decoded.map (Instruction.map f)) r =
      mapResult (Interrupted.map f) id (Array.map (Instruction.map f))
        (instructionsFrom names index stop offset decoded r) := by
  fun_induction instructionsFrom names index stop offset decoded r with
  | case1 offset decoded r hmore fault after hstep =>
    have himage : instruction (f ∘ names) index offset r = _ :=
      becomes_instruction f names index offset r
    rw [hstep] at himage
    rw [instructionsFrom_of_error hmore himage]
    rfl
  | case2 offset decoded r hmore found after hstep ih =>
    have himage : instruction (f ∘ names) index offset r = _ :=
      becomes_instruction f names index offset r
    rw [hstep] at himage
    rw [instructionsFrom_of_ok hmore himage, ← ih, Array.map_push]
    rfl
  | case3 offset decoded r hdone =>
    rw [instructionsFrom_of_le (by omega)]
    rfl

/-- The label of a function of known size is not used. -/
theorem functionCode_comp {size : Int} (hsize : 0 ≤ size) (label label' : String) (offset : Int)
    (r : Reader) :
    functionCode (f ∘ names) index label' offset size r =
      mapResult (Interrupted.map f) id (Array.map (Instruction.map f))
        (functionCode names index label offset size r) := by
  unfold functionCode
  rw [if_neg (by omega), if_neg (by omega)]
  have hwalk := instructionsFrom_comp f names index (offset + size) offset #[] r
  rwa [Array.map_empty] at hwalk

end Script

/-! ## Steps of a session -/

namespace Session

def rename (s : Session ν) : Session μ where
  names := f ∘ s.names
  reader := s.reader
  script := s.script.map f
  index := s.index
  events := s.events.map (ScriptEvent.map f)

theorem ofBytes_comp (names : Symbol → ν) (game : Game) (data : ByteArray) :
    ofBytes (f ∘ names) game data = (ofBytes names game data).rename f := by
  simp [ofBytes, rename, Script.map]

/-- The step ends in the same way when the session has other names. -/
abbrev Renames {α β : Type} (g : α → β) (step : Action ν α) (image : Action μ β) : Prop :=
  Becomes (rename f) g step image

theorem renames_reading {α β : Type} {g : α → β} {action : Reader.Action α}
    {image : Reader.Action β} (h : Becomes id g action image) :
    Renames f g (reading action) (reading image) := by
  intro s
  have hread : image (s.rename f).reader = mapResult id id g (action s.reader) := h s.reader
  unfold reading
  rw [hread]
  cases action s.reader <;> rfl

theorem renames_reading_self {α : Type} (action : Reader.Action α) :
    Renames f id (reading action) (reading action) :=
  renames_reading f (becomes_self action)

theorem renames_update {change : Script ν → Script ν} {change' : Script μ → Script μ}
    (h : ∀ script, change' (script.map f) = (change script).map f) :
    Renames f id (update change) (update change') := by
  apply becomes_modify
  intro s
  simp only [rename, h]

theorem renames_report (event : ScriptEvent ν) :
    Renames f id (report event) (report (event.map f)) := by
  apply becomes_modify
  intro s
  simp only [rename, Array.map_push]

theorem renames_header : Renames f id header header :=
  becomes_get_bind fun _ ↦ becomes_pure _

variable {f} in
theorem renames_times {step : Action ν Unit} {image : Action μ Unit} (h : Renames f id step image)
    (count : Nat) : Renames f id (times count step) (times count image) := by
  induction count with
  | zero => exact becomes_pure ()
  | succ count ih => exact h.bind fun _ ↦ ih

theorem renames_loadHeader : Renames f id loadHeader loadHeader :=
  (renames_reading_self f _).bind fun _ ↦ (renames_update f fun _ ↦ rfl).bind fun _ ↦
    (renames_reading_self f _).bind fun _ ↦ (renames_update f fun _ ↦ rfl).bind fun _ ↦
      renames_reading_self f _

theorem renames_loadIncludes : Renames f id loadIncludes loadIncludes :=
  (renames_header f).bind fun _ ↦ (renames_reading_self f _).bind fun _ ↦
    (renames_reading_self f _).bind fun _ ↦ renames_update f fun _ ↦ rfl

theorem renames_loadString (action : Reader.Action StringEntry) :
    Renames f id (loadString action) (loadString action) :=
  (renames_reading_self f _).bind fun _ ↦ renames_update f fun _ ↦ rfl

theorem renames_loadStrings : Renames f id loadStrings loadStrings :=
  (renames_update f fun _ ↦ rfl).bind fun _ ↦ (renames_header f).bind fun _ ↦
    (renames_reading_self f _).bind fun _ ↦ (renames_times (renames_loadString f _) _).bind fun _ ↦
      (renames_reading_self f _).bind fun _ ↦ renames_times (renames_loadString f _) _

theorem renames_indexStrings : Renames f id indexStrings indexStrings :=
  becomes_modify fun _ ↦ rfl

theorem becomes_readImport (names : Symbol → ν) :
    Becomes id (Import.map f) (readImport names) (readImport (f ∘ names)) :=
  (becomes_self _).bind fun _ ↦ (becomes_self _).bind fun _ ↦ (becomes_self _).bind fun _ ↦
    (becomes_self _).bind fun _ ↦ (becomes_self _).bind fun _ ↦ (becomes_self _).bind fun _ ↦
      becomes_pure _

theorem renames_loadImport : Renames f id loadImport loadImport :=
  becomes_get_bind fun s ↦ (renames_reading f (becomes_readImport f s.names)).bind fun entry ↦
    renames_update f fun script ↦ by simp [Script.map]

theorem renames_loadImports : Renames f id loadImports loadImports :=
  (renames_update f fun _ ↦ by simp [Script.map]).bind fun _ ↦ (renames_header f).bind fun _ ↦
    (renames_reading_self f _).bind fun _ ↦ renames_times (renames_loadImport f) _

theorem becomes_readExport (names : Symbol → ν) :
    Becomes id (Export.map f) (readExport names) (readExport (f ∘ names)) :=
  (becomes_self _).bind fun _ ↦ (becomes_self _).bind fun _ ↦ (becomes_self _).bind fun _ ↦
    (becomes_self _).bind fun _ ↦ (becomes_self _).bind fun _ ↦ (becomes_self _).bind fun _ ↦
      (becomes_self _).bind fun _ ↦ by
        intro r
        simp [mapResult, Export.map, pure, EStateM.pure]

theorem becomes_readCode (names : Symbol → ν) (index : StringIndex) (label label' : String)
    (offset : Int) {size : Int} (hsize : 0 ≤ size) :
    Becomes id (Array.map (Instruction.map f)) (readCode names index label offset size)
      (readCode (f ∘ names) index label' offset size) := by
  intro r
  unfold readCode
  rw [id, Script.functionCode_comp f names index hsize label label' offset r]
  cases Script.functionCode names index label offset size r <;> rfl

variable [ToString ν] [ToString μ]

theorem renames_loadExport : Renames f id loadExport loadExport := by
  refine becomes_get_bind fun s ↦
    (renames_reading f (becomes_readExport f s.names)).bind fun entry ↦ becomes_get_bind fun _ ↦ ?_
  -- The scan looks at the offset and the checksum of the function only.
  have hscan : Renames f id (reading (readCodeSize entry)) (reading (readCodeSize (entry.map f))) :=
    renames_reading_self f _
  refine hscan.bind_of_eq_ok fun size hsize ↦ becomes_get_bind fun t ↦ ?_
  have hpositive := one_le_of_readCodeSize hsize
  refine (renames_reading f
    (becomes_readCode f t.names t.index _ _ entry.offset (by omega))).bind fun found ↦ ?_
  have hreport : Renames f id
      (report (.decoded entry.module entry.name entry.offset size found.size))
      (report (.decoded (f entry.module) (f entry.name) entry.offset size
        (found.map (Instruction.map f)).size)) := by
    rw [Array.size_map]
    exact renames_report f _
  exact hreport.bind fun _ ↦ (renames_reading_self f _).bind fun _ ↦
    renames_update f fun script ↦ by simp [Script.map, Export.map]

theorem renames_loadExports : Renames f id loadExports loadExports :=
  (renames_update f fun _ ↦ by simp [Script.map]).bind fun _ ↦ (renames_header f).bind fun _ ↦
    (renames_reading_self f _).bind fun _ ↦ renames_times (renames_loadExport f) _

theorem renames_load : Renames f id load load := by
  refine (renames_loadHeader f).bind fun _ ↦ (renames_loadIncludes f).bind fun _ ↦
    (renames_loadStrings f).bind fun _ ↦ (renames_indexStrings f).bind fun _ ↦
      (renames_loadImports f).bind fun _ ↦ (renames_loadExports f).bind fun _ ↦
        becomes_get_bind fun s ↦ ?_
  have hsizes : (s.rename f).script.exports.size = s.script.exports.size ∧
      (s.rename f).script.imports.size = s.script.imports.size := by
    simp [rename, Script.map]
  dsimp only
  rw [hsizes.1, hsizes.2]
  exact renames_report f _

end Session

/-! ## Whole scripts -/

namespace Script

variable [ToString ν] [ToString μ]

/-- Decoding with changed names is decoding and then changing the names. -/
theorem decodeFor_comp (names : Symbol → ν) (game : Game) (data : ByteArray) :
    decodeFor (f ∘ names) game data = (decodeFor names game data).map f := by
  unfold decodeFor
  rw [Session.ofBytes_comp, Session.renames_load f (Session.ofBytes names game data)]
  cases Session.load (Session.ofBytes names game data) with
  | ok value s => simp [mapResult, Decoding.map, Session.rename, Except.map]
  | error fault s => simp [mapResult, Decoding.map, Session.rename, Except.map]

/-- Decoding with any names is decoding to hashes and then naming them. -/
theorem decodeFor_eq_map (names : Symbol → ν) (game : Game) (data : ByteArray) :
    decodeFor names game data = (decodeFor id game data).map names :=
  decodeFor_comp names id game data

theorem load_result_eq_map {tag : Option String} {data : ByteArray} {game : Game}
    (context : NameContext) (hgame : gameOf tag data = .ok game) :
    (load context tag data).result =
      (decodeFor id game data).result.map (Script.map (context.tableFor game.tag).nameOf) := by
  rw [load_result_of_gameOf_eq_ok hgame, decodeFor_eq_map]
  rfl

/-- A loaded script is what a session without names decodes, with the names of the context. -/
theorem load_result_eq_ok_map {context : NameContext} {tag : Option String} {data : ByteArray}
    {script : Script String} :
    (load context tag data).result = .ok script ↔
      ∃ game s, gameOf tag data = .ok game ∧
        Session.load (Session.ofBytes id game data) = .ok () s ∧
        script = s.script.map (context.tableFor game.tag).nameOf := by
  constructor
  · intro h
    obtain ⟨game, _, hgame, _⟩ := load_result_eq_ok.1 h
    rw [load_result_eq_map context hgame] at h
    cases hdecoded : (decodeFor id game data).result with
    | ok decoded =>
      rw [hdecoded] at h
      cases h
      obtain ⟨s, hload, rfl⟩ := decodeFor_result_eq_ok.1 hdecoded
      exact ⟨game, s, hgame, hload, rfl⟩
    | error fault =>
      rw [hdecoded] at h
      cases h
  · rintro ⟨game, s, hgame, hload, rfl⟩
    rw [load_result_eq_map context hgame, decodeFor_result_eq_ok.2 ⟨s, hload, rfl⟩]
    rfl

end Script
end CompiledScript
