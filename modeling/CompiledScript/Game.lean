/-!
# Games

The games whose scripts are understood. A game is named by a tag, and its compiled scripts start
with a signature of their own.
-/

namespace CompiledScript

/-- A game whose scripts are understood. -/
structure Game where
  /-- The name by which a caller chooses the game. -/
  tag : String
  /-- The name as it is printed. -/
  title : String
  /-- The bytes with which a compiled script starts. -/
  signature : ByteArray

namespace Game

/-- The third game of the Black Ops series. -/
def blackOps3 : Game where
  tag := "BlackOps3"
  title := "Black Ops III"
  signature := ⟨#[0x80, 0x47, 0x53, 0x43, 0x0D, 0x0A, 0x00, 0x03]⟩

def all : List Game := [blackOps3]

def ofTag? (tag : String) : Option Game :=
  all.find? (·.tag = tag)

/-- The game whose signature is at the start of the data. -/
def ofSignature? (data : ByteArray) : Option Game :=
  all.find? fun game ↦ (data.extract 0 game.signature.size).data = game.signature.data

end Game
end CompiledScript
