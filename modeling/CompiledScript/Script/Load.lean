import CompiledScript.Script.Session

/-!
# Loading scripts

The bytes of a script are decoded for a game that is chosen by its tag, or else by the signature
with which they start. The hashes in it get the names that a context has for that game.
-/

namespace CompiledScript.Script

/-- The game of a script, by its tag if one is given and by the signature otherwise. -/
def gameOf (tag : Option String) (data : ByteArray) : Except Fault Game :=
  match tag with
  | some tag =>
    match Game.ofTag? tag with
    | some game => .ok game
    | none => .error (.unsupportedGame tag)
  | none =>
    match Game.ofSignature? data with
    | some game => .ok game
    | none => .error (.unknownSignature (data.extract 0 8).data.toList)

/-- What happened while a script was decoded, and how that ended. -/
structure Decoding (ν : Type) where
  events : List (ScriptEvent ν)
  result : Except Fault (Script ν)

def Decoding.map {ν μ : Type} (f : ν → μ) (decoding : Decoding ν) : Decoding μ where
  events := decoding.events.map (ScriptEvent.map f)
  result := decoding.result.map (Script.map f)

def Decoding.records (decoding : Decoding String) : List Record :=
  decoding.events.map ScriptEvent.record

def decodeFor {ν : Type} [ToString ν] (names : Symbol → ν) (game : Game) (data : ByteArray) :
    Decoding ν :=
  match Session.load (Session.ofBytes names game data) with
  | .ok _ session => ⟨session.events.toList, .ok session.script⟩
  | .error fault session => ⟨session.events.toList, .error fault⟩

/-- Loads a script with the names of a context. -/
def load (context : NameContext) (tag : Option String) (data : ByteArray) : Decoding String :=
  match gameOf tag data with
  | .error fault => ⟨[], .error fault⟩
  | .ok game => decodeFor (context.tableFor game.tag).nameOf game data

end CompiledScript.Script
