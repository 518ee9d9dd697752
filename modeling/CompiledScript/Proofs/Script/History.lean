import CompiledScript.Proofs.Script.Retained

/-!
# Loading after other calls

The parts of a script can be loaded one by one, in any order and again, and a call that fails leaves
what it has stored and moved so far. None of this changes the bytes that a session reads, the game
that it reads them for or the names that it gives, and loading the whole script depends on nothing
else. So it ends in the same way as in a session in which nothing has happened.
-/

namespace CompiledScript

namespace Session

variable {ν : Type}

/-! ## Calls -/

/-- The script with other instructions in one of its functions. -/
def withCode (script : Script ν) (place : Nat) (instructions : Array (Instruction ν)) :
    Script ν :=
  { script with exports := script.exports.modify place ({ · with instructions := instructions }) }

/-- Decodes a function that is loaded already once more, and stores its instructions up to the end
or up to a fault. If the size of the function is not known, it stays as it is. -/
def reloadFunction [ToString ν] (place : Nat) : Action ν Unit := fun s ↦
  match s.script.exports[place]? with
  | none => .ok () s
  | some function =>
    let label := toString function.name
    match Script.functionCode s.names s.index label function.offset function.size s.reader with
    | .ok instructions reader =>
      .ok () { s with reader := reader, script := withCode s.script place instructions }
    | .error interrupted reader =>
      let kept := if function.size < 0 then function.instructions else interrupted.decoded
      .error interrupted.fault { s with reader := reader, script := withCode s.script place kept }

/-- What can be asked of a session. The reader can be moved in between, by moves and by reads of its
own; of these, no more is left than a position. -/
inductive Call (ν : Type) where
  | loadHeader
  | loadIncludes
  | loadStrings
  | loadImports
  | loadExports
  | loadInstruction (offset : Int)
  | loadSwitchTable
  | loadFunction (function : Export ν)
  | reloadFunction (place : Nat)
  | load
  | moveReader (position : Int)

def Call.step [ToString ν] : Call ν → Action ν Unit
  | .loadHeader => Session.loadHeader
  | .loadIncludes => Session.loadIncludes
  | .loadStrings => Session.loadStrings
  | .loadImports => Session.loadImports
  | .loadExports => Session.loadExports
  | .loadInstruction offset => do
    let session ← get
    let _ ← reading (Script.instruction session.names session.index offset)
  | .loadSwitchTable => do
    let _ ← reading (Script.switchTable (← get).index)
  | .loadFunction function => do
    let session ← get
    let label := toString function.name
    let _ ← reading (readCode session.names session.index label function.offset function.size)
  | .reloadFunction place => Session.reloadFunction place
  | .load => Session.load
  | .moveReader position =>
    modify fun s ↦ { s with reader := { s.reader with position := position } }

/-- The session after some calls, each of which may succeed or fail. -/
def afterCalls [ToString ν] (calls : List (Call ν)) (s : Session ν) : Session ν :=
  calls.foldl (fun s call ↦ stateOf (call.step s)) s

variable [ToString ν]

theorem retains_reloadFunction (place : Nat) :
    Retains source (reloadFunction (ν := ν) place) := by
  intro s
  unfold reloadFunction
  split
  · rfl
  · rename_i function _
    have hcode := Script.retains_functionCode s.names s.index (toString function.name)
      function.offset function.size s.reader
    dsimp only
    split <;>
    · rename_i hrun
      rw [hrun] at hcode
      exact congrArg (fun read ↦ (read.1, read.2, s.script.game, s.names)) hcode

theorem retains_step (call : Call ν) : Retains source call.step := by
  cases call with
  | loadHeader => exact retains_loadHeader
  | loadIncludes => exact retains_loadIncludes
  | loadStrings => exact retains_loadStrings
  | loadImports => exact retains_loadImports
  | loadExports => exact retains_loadExports
  | loadInstruction offset =>
    exact retains_get.bind fun _ ↦
      (retains_reading (Script.retains_instruction _ _ _)).bind fun _ ↦ retains_pure _
  | loadSwitchTable =>
    exact retains_get.bind fun _ ↦
      (retains_reading (Script.composed_switchTable _).retains).bind fun _ ↦ retains_pure _
  | loadFunction function =>
    exact retains_get.bind fun _ ↦
      (retains_reading (retains_readCode _ _ _ _ _)).bind fun _ ↦ retains_pure _
  | reloadFunction place => exact retains_reloadFunction place
  | load => exact retains_load
  | moveReader position => exact retains_modify fun _ ↦ rfl

/-- No calls change what a session reads. -/
theorem source_afterCalls (calls : List (Call ν)) (s : Session ν) :
    (afterCalls calls s).source = s.source := by
  induction calls generalizing s with
  | nil => rfl
  | cons call rest ih => exact (ih _).trans (retains_step call s)

/-- How loading the script of a session ends: with a fault, or with the script and the index of its
texts. -/
def outcome (s : Session ν) : Except Fault (Script ν × StringIndex) :=
  match Session.load s with
  | .ok _ s' => .ok (s'.script, s'.index)
  | .error fault _ => .error fault

theorem outcome_of_sameSource {s t : Session ν} (h : SameSource s t) : outcome s = outcome t := by
  have hload := runsAlike_load s t h
  unfold outcome
  generalize Session.load s = first at hload
  generalize Session.load t = second at hload
  cases hload with
  | error fault s' t' => rfl
  | ok value hagree => exact congrArg Except.ok hagree.seen

/-- Whatever calls were made in a session, and however they ended, loading its script ends as in a
session over the same bytes with the same names and without any calls. -/
theorem outcome_afterCalls (names : Symbol → ν) (game : Game) (data : ByteArray)
    (calls : List (Call ν)) :
    outcome (afterCalls calls (ofBytes names game data)) = outcome (ofBytes names game data) :=
  outcome_of_sameSource (source_afterCalls calls (ofBytes names game data))

end Session
end CompiledScript
