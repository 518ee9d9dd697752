import CompiledScript.Proofs.Reader.Composed
import CompiledScript.Script.Load

/-!
# Steps of a session

What the basic steps of decoding a script do to the session, and the reading steps of the decoder as
composed actions. The steps in front of the functions never let go of the bytes, and fail only where
the bytes end too early. A script is loaded if and only if its session runs through, and is then
what the session has gathered, with the names of the context.
-/

namespace CompiledScript.Session

open Reader

variable {ν α : Type} {s s' : Session ν}

theorem reading_eq_ok {action : Reader.Action α} {value : α} :
    reading action s = .ok value s' ↔
      ∃ r, action s.reader = .ok value r ∧ s' = { s with reader := r } := by
  unfold reading
  cases h : action s.reader with
  | ok found r =>
    constructor
    · intro hok
      cases hok
      exact ⟨r, rfl, rfl⟩
    · rintro ⟨r', hok, rfl⟩
      cases hok
      rfl
  | error fault r =>
    constructor
    · intro herror
      cases herror
    · rintro ⟨r', hok, _⟩
      cases hok

theorem reading_eq_error {action : Reader.Action α} {fault : Fault}
    (h : reading action s = .error fault s') : ∃ r, action s.reader = .error fault r := by
  unfold reading at h
  split at h
  · cases h
  · rename_i r hread
    cases h
    exact ⟨r, hread⟩

theorem update_eq_ok {change : Script ν → Script ν} {value : Unit} :
    update change s = .ok value s' ↔ s' = { s with script := change s.script } := by
  constructor
  · intro h
    cases h
    rfl
  · rintro rfl
    rfl

theorem report_eq_ok {event : ScriptEvent ν} {value : Unit} :
    report event s = .ok value s' ↔ s' = { s with events := s.events.push event } := by
  constructor
  · intro h
    cases h
    rfl
  · rintro rfl
    rfl

theorem header_eq_ok {value : Header} :
    header s = .ok value s' ↔ value = s.script.header ∧ s' = s := by
  constructor
  · intro h
    cases h
    exact ⟨rfl, rfl⟩
  · rintro ⟨rfl, rfl⟩
    rfl

section Readers

theorem composed_readHeader : Composed readHeader := by
  refine (Composed.seek 8).bind fun _ ↦ (Composed.unsigned 4).bind fun _ ↦ ?_
  iterate 10 refine (composed_signed 4).bind fun _ ↦ ?_
  iterate 7 refine (Composed.unsigned 2).bind fun _ ↦ ?_
  iterate 2 refine (Composed.unsigned 1).bind fun _ ↦ ?_
  exact (Composed.unsigned 4).map _

theorem composed_readReferences : Composed readReferences :=
  (Composed.unsigned 1).bind fun _ ↦ (composed_skip 1).bind fun _ ↦
    composed_repeated _ (composed_signed 4)

theorem composed_readString : Composed readString :=
  (Composed.unsigned 2).bind fun _ ↦ composed_readReferences.bind fun _ ↦
    (composed_peekText _).map _

theorem composed_readDebugString : Composed readDebugString :=
  (composed_signed 2).bind fun _ ↦ composed_readReferences.map _

theorem composed_readImport (names : Symbol → ν) : Composed (readImport names) :=
  (Composed.unsigned 4).bind fun _ ↦ (Composed.unsigned 4).bind fun _ ↦
    (composed_signed 2).bind fun _ ↦ (Composed.unsigned 1).bind fun _ ↦
      (composed_skip 1).bind fun _ ↦ (composed_repeated _ (composed_signed 4)).map _

theorem composed_readExport (names : Symbol → ν) : Composed (readExport names) :=
  (Composed.unsigned 4).bind fun _ ↦ (composed_signed 4).bind fun _ ↦
    (Composed.unsigned 4).bind fun _ ↦ (Composed.unsigned 4).bind fun _ ↦
      (Composed.unsigned 1).bind fun _ ↦ (Composed.unsigned 1).bind fun _ ↦
        (composed_skip 2).map _

theorem composed_includePaths (count : Nat) :
    Composed (repeated count do peekText (← i32)) :=
  composed_repeated count ((composed_signed 4).bind fun _ ↦ composed_peekText _)

end Readers

/-- The session reads the given bytes. -/
def Over (data : ByteArray) (s : Session ν) : Prop :=
  s.reader.contents = some data

section Confined

variable {data : ByteArray} {property : Session ν → Prop} {allowed : Fault → Prop}

theorem confined_times {step : Action ν Unit} (hstep : Confined property allowed step)
    (count : Nat) : Confined property allowed (times count step) := by
  induction count with
  | zero => exact confined_pure ()
  | succ count ih => exact hstep.bind fun _ ↦ ih

theorem confined_reading {action : Reader.Action α}
    (haction : Confined (Open data) allowed action) :
    Confined (Over data) allowed (reading (ν := ν) action) where
  keeps := by
    intro s value s' hs h
    obtain ⟨r, hread, rfl⟩ := reading_eq_ok.1 h
    exact haction.keeps _ _ _ hs hread
  fault := by
    intro s fault s' hs h
    obtain ⟨r, hread⟩ := reading_eq_error h
    exact haction.fault _ _ _ hs hread

theorem confined_update (change : Script ν → Script ν) :
    Confined (Over data) allowed (update change) :=
  confined_modify fun _ hs ↦ hs

theorem confined_report (event : ScriptEvent ν) :
    Confined (Over data) allowed (report event) :=
  confined_modify fun _ hs ↦ hs

theorem confined_header : Confined (Over data) allowed (header (ν := ν)) :=
  confined_get.bind fun _ ↦ confined_pure _

end Confined

/-! ## The steps in front of the functions -/

section Tables

variable {data : ByteArray}

theorem confined_loadHeader : Confined (Over data) Truncates (loadHeader (ν := ν)) :=
  (confined_reading composed_readHeader.confined).bind fun _ ↦ (confined_update _).bind fun _ ↦
    (confined_reading (composed_peekText _).confined).bind fun _ ↦ (confined_update _).bind fun _ ↦
      confined_reading (confined_seek _)

theorem confined_loadIncludes : Confined (Over data) Truncates (loadIncludes (ν := ν)) :=
  confined_header.bind fun _ ↦ (confined_reading (confined_seek _)).bind fun _ ↦
    (confined_reading (composed_includePaths _).confined).bind fun _ ↦ confined_update _

theorem confined_loadString {action : Reader.Action StringEntry} (haction : Composed action) :
    Confined (Over data) Truncates (loadString (ν := ν) action) :=
  (confined_reading haction.confined).bind fun _ ↦ confined_update _

theorem confined_loadStrings : Confined (Over data) Truncates (loadStrings (ν := ν)) :=
  (confined_update _).bind fun _ ↦ confined_header.bind fun _ ↦
    (confined_reading (confined_seek _)).bind fun _ ↦
      (confined_times (confined_loadString composed_readString) _).bind fun _ ↦
        (confined_reading (confined_seek _)).bind fun _ ↦
          confined_times (confined_loadString composed_readDebugString) _

theorem confined_indexStrings : Confined (Over data) Truncates (indexStrings (ν := ν)) :=
  confined_modify fun _ hs ↦ hs

theorem confined_loadImport : Confined (Over data) Truncates (loadImport (ν := ν)) :=
  confined_get.bind fun _ ↦
    (confined_reading (composed_readImport _).confined).bind fun _ ↦ confined_update _

theorem confined_loadImports : Confined (Over data) Truncates (loadImports (ν := ν)) :=
  (confined_update _).bind fun _ ↦ confined_header.bind fun _ ↦
    (confined_reading (confined_seek _)).bind fun _ ↦ confined_times confined_loadImport _

end Tables

end CompiledScript.Session

namespace CompiledScript.Script

theorem decodeFor_result_eq_ok {ν : Type} [ToString ν] {names : Symbol → ν} {game : Game}
    {data : ByteArray} {script : Script ν} :
    (decodeFor names game data).result = .ok script ↔
      ∃ s, Session.load (Session.ofBytes names game data) = .ok () s ∧ script = s.script := by
  unfold decodeFor
  cases h : Session.load (Session.ofBytes names game data) with
  | ok value s =>
    constructor
    · intro hok
      cases hok
      exact ⟨s, rfl, rfl⟩
    · rintro ⟨s', hok, rfl⟩
      cases hok
      rfl
  | error fault s =>
    constructor
    · intro herror
      cases herror
    · rintro ⟨s', hok, _⟩
      cases hok

theorem load_result_eq_ok {context : NameContext} {tag : Option String} {data : ByteArray}
    {script : Script String} :
    (load context tag data).result = .ok script ↔
      ∃ game s, gameOf tag data = .ok game ∧
        Session.load (Session.ofBytes (context.tableFor game.tag).nameOf game data) = .ok () s ∧
        script = s.script := by
  unfold load
  cases hgame : gameOf tag data with
  | error fault =>
    constructor
    · intro herror
      cases herror
    · rintro ⟨game, s, hok, _⟩
      cases hok
  | ok game =>
    dsimp only
    rw [decodeFor_result_eq_ok]
    constructor
    · rintro ⟨s, hload, hscript⟩
      exact ⟨game, s, rfl, hload, hscript⟩
    · rintro ⟨_, s, hok, hload, hscript⟩
      cases hok
      exact ⟨s, hload, hscript⟩

end CompiledScript.Script
