import CompiledScript.Text.Hex
import Std.Data.ExtTreeMap

/-!
# Names of hashes

A compiled script refers to functions, namespaces and variables by hashes of their names. A table
gives back the names that are known; a hash without a name is shown in hexadecimal behind a tag for
what it refers to.
-/

namespace CompiledScript

/-- What a hash refers to. -/
inductive SymbolKind where
  | function
  | module
  | variableName
  | hash
  deriving DecidableEq

/-- The tag in front of a hash without a name. -/
def SymbolKind.tag : SymbolKind → String
  | .function => "function_"
  | .module => "namespace_"
  | .variableName => "var_"
  | .hash => "hash_"

/-- A hash with what it refers to. -/
structure Symbol where
  kind : SymbolKind
  hash : Nat
  deriving DecidableEq

abbrev NameTable := Std.ExtTreeMap Int String

namespace NameTable

/-- The name of a hash, or the hash behind a tag. -/
def resolve (table : NameTable) (tag : String) (value : Int) : String :=
  match table[value]? with
  | some name => name
  | none => tag ++ Text.Hex.numeral .lower value

def nameOf (table : NameTable) (symbol : Symbol) : String :=
  resolve table symbol.kind.tag symbol.hash

/-- A symbol is shown like one without a name. -/
instance : ToString Symbol := ⟨nameOf ∅⟩

/-- The table of a list of pairs, in which a later name replaces an earlier one. -/
def ofList (pairs : List (Int × String)) : NameTable :=
  pairs.foldl (fun table pair ↦ table.insert pair.1 pair.2) ∅

end NameTable

/-- The tables of several games, by tag. -/
structure NameContext where
  tables : List (String × NameTable)

namespace NameContext

def empty : NameContext := ⟨[]⟩

/-- The table of a game, which is empty if there is none. -/
def tableFor (context : NameContext) (tag : String) : NameTable :=
  (context.tables.lookup tag).getD ∅

end NameContext
end CompiledScript
