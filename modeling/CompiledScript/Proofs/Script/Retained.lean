import CompiledScript.Proofs.Reader.Retained
import CompiledScript.Proofs.Script.Operands
import CompiledScript.Proofs.Script.Reloading

/-!
# What decoding leaves alone

No step of decoding changes the bytes that are read, the game that they are read for or the names
that hashes get, whether it succeeds or fails: a reader is only moved, and what a session stores is
kept beside it.
-/

namespace CompiledScript

namespace Script

variable {ν : Type} (names : Symbol → ν)

theorem retains_instruction (index : StringIndex) (offset : Int) :
    Retains Reader.source (instruction names index offset) := by
  refine (Reader.retains_seek offset).bind fun _ ↦ (Reader.retains_unsigned 1).bind fun byte ↦ ?_
  split
  · exact retains_throw _
  · exact (composed_operands _ _ _).retains.bind fun _ ↦ retains_get.bind fun _ ↦ retains_pure _

theorem retains_instructionsFrom (index : StringIndex) (stop offset : Int)
    (decoded : Array (Instruction ν)) :
    Retains Reader.source (instructionsFrom names index stop offset decoded) := by
  intro r
  have hstep := retains_instruction names index
  fun_induction instructionsFrom names index stop offset decoded r with
  | case1 offset decoded r hoffset fault r' hfault =>
    have hkept := hstep offset r
    rw [hfault] at hkept
    exact hkept
  | case2 offset decoded r hoffset found r' hfound ih =>
    have hkept := hstep offset r
    rw [hfound] at hkept
    exact ih.trans hkept
  | case3 offset decoded r hoffset => rfl

theorem retains_functionCode (index : StringIndex) (function : String) (offset size : Int) :
    Retains Reader.source (functionCode names index function offset size) :=
  (retains_throw _).ite (retains_instructionsFrom _ _ _ _ _)

end Script

namespace Session

variable {ν : Type}

/-! ## Parts of loading -/

section Steps

variable {α β : Type} {feature : Session ν → β}

theorem retains_reading {action : Reader.Action α} (h : Retains Reader.source action) :
    Retains source (reading (ν := ν) action) := by
  intro s
  have hread := h s.reader
  unfold reading
  cases haction : action s.reader <;>
  · rw [haction] at hread
    exact congrArg (fun read ↦ (read.1, read.2, s.script.game, s.names)) hread

theorem retains_update {change : Script ν → Script ν}
    (h : ∀ script, (change script).game = script.game) : Retains source (update change) :=
  retains_modify fun s ↦
    congrArg (fun game ↦ (s.reader.contents, s.reader.order, game, s.names)) (h s.script)

theorem retains_report (event : ScriptEvent ν) : Retains source (report event) :=
  retains_modify fun _ ↦ rfl

theorem retains_header : Retains feature header :=
  retains_get.bind fun _ ↦ retains_pure _

theorem retains_times {step : Action ν Unit} (hstep : Retains feature step) (count : Nat) :
    Retains feature (times count step) := by
  induction count with
  | zero => exact retains_pure ()
  | succ count ih => exact hstep.bind fun _ ↦ ih

theorem retains_move (offset : Int) : Retains source (reading (ν := ν) (Reader.seek offset)) :=
  retains_reading (Reader.retains_seek offset)

end Steps

theorem retains_loadHeader : Retains source (loadHeader (ν := ν)) :=
  (retains_reading composed_readHeader.retains).bind fun _ ↦
    (retains_update fun _ ↦ by rfl).bind fun _ ↦
      (retains_reading (Reader.composed_peekText _).retains).bind fun _ ↦
        (retains_update fun _ ↦ by rfl).bind fun _ ↦ retains_move _

theorem retains_loadIncludes : Retains source (loadIncludes (ν := ν)) :=
  retains_header.bind fun _ ↦ (retains_move _).bind fun _ ↦
    (retains_reading (composed_includePaths _).retains).bind fun _ ↦
      retains_update fun _ ↦ by rfl

theorem retains_loadString {action : Reader.Action StringEntry} (h : Reader.Composed action) :
    Retains source (loadString (ν := ν) action) :=
  (retains_reading h.retains).bind fun _ ↦ retains_update fun _ ↦ by rfl

theorem retains_loadStrings : Retains source (loadStrings (ν := ν)) :=
  (retains_update fun _ ↦ by rfl).bind fun _ ↦ retains_header.bind fun _ ↦
    (retains_move _).bind fun _ ↦
      (retains_times (retains_loadString composed_readString) _).bind fun _ ↦
        (retains_move _).bind fun _ ↦
          retains_times (retains_loadString composed_readDebugString) _

theorem retains_indexStrings : Retains source (indexStrings (ν := ν)) :=
  retains_modify fun _ ↦ rfl

theorem retains_loadImport : Retains source (loadImport (ν := ν)) :=
  retains_get.bind fun _ ↦ (retains_reading (composed_readImport _).retains).bind fun _ ↦
    retains_update fun _ ↦ by rfl

theorem retains_loadImports : Retains source (loadImports (ν := ν)) :=
  (retains_update fun _ ↦ by rfl).bind fun _ ↦ retains_header.bind fun _ ↦
    (retains_move _).bind fun _ ↦ retains_times retains_loadImport _

theorem retains_readCodeSize (function : Export ν) :
    Retains Reader.source (readCodeSize function) := by
  refine Reader.retains_buffer.bind fun data ↦ ?_
  split
  · exact retains_pure _
  · exact retains_throw _

theorem retains_readCode (names : Symbol → ν) (index : StringIndex) (function : String)
    (offset size : Int) :
    Retains Reader.source (readCode names index function offset size) := by
  intro r
  have hcode := Script.retains_functionCode names index function offset size r
  unfold readCode
  cases hrun : Script.functionCode names index function offset size r <;>
  · rw [hrun] at hcode
    exact hcode

section Functions

variable [ToString ν]

theorem retains_loadExport : Retains source (loadExport (ν := ν)) :=
  retains_get.bind fun _ ↦ (retains_reading (composed_readExport _).retains).bind fun _ ↦
    retains_get.bind fun _ ↦ (retains_reading (retains_readCodeSize _)).bind fun _ ↦
      retains_get.bind fun _ ↦ (retains_reading (retains_readCode _ _ _ _ _)).bind fun _ ↦
        (retains_report _).bind fun _ ↦ (retains_move _).bind fun _ ↦
          retains_update fun _ ↦ by rfl

theorem retains_loadExports : Retains source (loadExports (ν := ν)) :=
  (retains_update fun _ ↦ by rfl).bind fun _ ↦ retains_header.bind fun _ ↦
    (retains_move _).bind fun _ ↦ retains_times retains_loadExport _

theorem retains_load : Retains source (load (ν := ν)) :=
  retains_loadHeader.bind fun _ ↦ retains_loadIncludes.bind fun _ ↦ retains_loadStrings.bind fun _ ↦
    retains_indexStrings.bind fun _ ↦ retains_loadImports.bind fun _ ↦
      retains_loadExports.bind fun _ ↦ retains_get.bind fun _ ↦ retains_report _

theorem game_of_load_eq_ok {names : Symbol → ν} {game : Game} {data : ByteArray} {value : Unit}
    {s : Session ν} (h : load (ofBytes names game data) = .ok value s) : s.script.game = game :=
  congrArg (fun source ↦ source.2.2.1) (retains_load.of_eq_ok h)

end Functions

/-! ## Texts behind their loading -/

/-- The texts of a session and their index. -/
def texts (s : Session ν) : StringIndex × Array StringEntry :=
  (s.index, s.script.strings)

theorem retains_texts_reading {α : Type} (action : Reader.Action α) :
    Retains texts (reading (ν := ν) action) := by
  intro s
  unfold reading
  cases action s.reader <;> rfl

theorem retains_texts_loadImport : Retains texts (loadImport (ν := ν)) :=
  retains_get.bind fun _ ↦ (retains_texts_reading _).bind fun _ ↦ retains_modify fun _ ↦ by rfl

theorem retains_texts_loadImports : Retains texts (loadImports (ν := ν)) :=
  (retains_modify fun _ ↦ by rfl).bind fun _ ↦ retains_header.bind fun _ ↦
    (retains_texts_reading _).bind fun _ ↦ retains_times retains_texts_loadImport _

theorem retains_texts_loadExport [ToString ν] : Retains texts (loadExport (ν := ν)) :=
  retains_get.bind fun _ ↦ (retains_texts_reading _).bind fun _ ↦ retains_get.bind fun _ ↦
    (retains_texts_reading _).bind fun _ ↦ retains_get.bind fun _ ↦
      (retains_texts_reading _).bind fun _ ↦ (retains_modify fun _ ↦ by rfl).bind fun _ ↦
        (retains_texts_reading _).bind fun _ ↦ retains_modify fun _ ↦ by rfl

theorem indexed_of_texts {s s' : Session ν} (h : s'.texts = s.texts)
    (hindexed : s.index = indexOf s.script.strings) : s'.index = indexOf s'.script.strings := by
  obtain ⟨hindex, hstrings⟩ := Prod.mk.inj h
  rw [hindex, hstrings, hindexed]

end Session

namespace Script

theorem mem_all_of_gameOf_eq_ok {tag : Option String} {data : ByteArray} {game : Game}
    (h : gameOf tag data = .ok game) : game ∈ Game.all := by
  unfold gameOf at h
  split at h
  · split at h
    · rename_i hfind
      cases h
      exact List.mem_of_find?_eq_some hfind
    · cases h
  · split at h
    · rename_i hfind
      cases h
      exact List.mem_of_find?_eq_some hfind
    · cases h

/-- A loaded script is one of the only game that there is. -/
theorem game_of_load_result_eq_ok {context : NameContext} {tag : Option String} {data : ByteArray}
    {script : Script String} (h : (load context tag data).result = .ok script) :
    script.game = .blackOps3 := by
  obtain ⟨game, s, hgame, hload, rfl⟩ := load_result_eq_ok.1 h
  calc
    s.script.game = game := Session.game_of_load_eq_ok hload
    _ = .blackOps3 := List.mem_singleton.1 (mem_all_of_gameOf_eq_ok hgame)

end Script
end CompiledScript
