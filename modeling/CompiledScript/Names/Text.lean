import CompiledScript.Log
import CompiledScript.Names.Line
import CompiledScript.Names.Table
import CompiledScript.Text.Line
import CompiledScript.Text.Utf8

/-!
# Texts of name tables

The text of a name table is read as a whole first. Its lines end with a line feed, or with a
carriage return and a line feed; if all of them hold an entry or nothing, these are the table. If
not, the text is cut into lines at every line break, and the lines that hold something else are
left out, each with a warning. In both cases a later entry for a hash replaces an earlier one.
-/

namespace CompiledScript.Names

/-- What happens while a name table is read. -/
inductive TableEvent where
  | rejected (source : String) (line : Nat)
  | skipped (source : String) (line column : Nat)
  | loaded (source : String) (count : Nat)
  | missing (tag path : String)

def TableEvent.record : TableEvent → Record
  | .rejected source line =>
    ⟨.debug, "Hash table " ++ source ++ s!" failed at line {line}, parsing line by line"⟩
  | .skipped source line column =>
    ⟨.warning, s!"Skipping malformed line {line} in hash table " ++ source ++ s!" (column {column})"⟩
  | .loaded source count => ⟨.debug, s!"Loaded {count} hashes from " ++ source⟩
  | .missing tag path => ⟨.debug, "No hash table for " ++ tag ++ " at " ++ path⟩

def insertEntry (table : NameTable) (entry : Entry) : NameTable :=
  table.insert entry.hash entry.name

def tableOf (entries : List Entry) : NameTable :=
  entries.foldl insertEntry ∅

/-- A line without the carriage return that belongs to its end. -/
def dropReturn (line : List Char) : List Char :=
  if line.getLast? = some '\r' then line.dropLast else line

/-- What a line of a whole text holds, which has no other carriage return. -/
def wholeLine? (line : List Char) : Option (Option Entry) :=
  if '\r' ∈ dropReturn line then none else (parseLine (dropReturn line)).toOption

/-- The entries of a whole text, or the number of the first line that does not belong there. The
first of the given lines has the given number. -/
def wholeEntries (number : Nat) : List (List Char) → Except Nat (List Entry)
  | [] => .ok []
  | line :: rest =>
    match wholeLine? line with
    | none => .error number
    | some entry => (wholeEntries (number + 1) rest).map (entry.toList ++ ·)

/-- The entries of those lines that hold one, and the events of leaving out others. -/
def lineEntries (source : String) (number : Nat) :
    List (List Char) → List TableEvent × List Entry
  | [] => ([], [])
  | line :: rest =>
    let others := lineEntries source (number + 1) rest
    match parseLine line with
    | .ok entry => (others.1, entry.toList ++ others.2)
    | .error column => (.skipped source number column :: others.1, others.2)

/-- The table of a text, and what happened while it was read. -/
def parseTable (source : String) (text : String) : List TableEvent × NameTable :=
  let whole := Text.terminated text.toList
  match wholeEntries 1 (Text.feedLines whole) with
  | .ok entries => ([], tableOf entries)
  | .error line =>
    let found := lineEntries source 1 (Text.lines whole)
    (.rejected source line :: found.1, tableOf found.2)

/-- The table of the bytes of a file. The bytes are those of a text, whose line breaks are made
line feeds. -/
def readTable (source : String) (data : ByteArray) :
    Except Text.Utf8.Malformed (List TableEvent × NameTable) :=
  (Text.Utf8.decodeStrict data.data.toList).map fun text ↦
    let (events, table) := parseTable source (String.ofList (Text.unifyBreaks text.toList))
    (events ++ [.loaded source table.size], table)

end CompiledScript.Names
