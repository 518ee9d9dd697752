import CompiledScript.Text.Digit
import CompiledScript.Text.Quoted

/-!
# Command-line arguments

An argument is an option, a path, or the mark `--`, after which all arguments are paths. A long
option may be shortened as far as it stays unambiguous, and takes its value from behind an equals
sign or from the next argument. Short options may be joined. The paths are one unbroken run of
arguments; a path after an option that follows the run is not recognised. The mark itself is dropped
from the run, and also where it is joined to an option as its value.
-/

namespace CompiledScript.Tool

inductive Flag where
  | help
  | disassemble
  | hashDir
  | outputDir
  | verbose
  deriving DecidableEq

namespace Flag

def all : List Flag := [.help, .disassemble, .hashDir, .outputDir, .verbose]

def spellings : Flag → List String
  | .help => ["-h", "--help"]
  | .disassemble => ["-d", "--disassemble"]
  | .hashDir => ["--hash-dir"]
  | .outputDir => ["--output-dir"]
  | .verbose => ["-v", "--verbose"]

def takesValue : Flag → Bool
  | .hashDir | .outputDir => true
  | .help | .disassemble | .verbose => false

/-- An option as messages name it. -/
def label (flag : Flag) : String :=
  "/".intercalate flag.spellings

def table : List (String × Flag) :=
  all.flatMap fun flag ↦ flag.spellings.map fun spelling ↦ (spelling, flag)

def ofSpelling? (spelling : String) : Option Flag :=
  table.lookup spelling

end Flag

/-- Why arguments cannot be understood. -/
inductive UsageFault where
  | ambiguous (argument : String) (spellings : List String)
  | ignoredValue (flag : Flag) (value : String)
  | missingValue (flag : Flag)
  | unrecognized (arguments : List String)

def UsageFault.message : UsageFault → String
  | .ambiguous argument spellings =>
    "ambiguous option: " ++ argument ++ " could match " ++ ", ".intercalate spellings
  | .ignoredValue flag value =>
    "argument " ++ flag.label ++ ": ignored explicit argument " ++ Text.Quoted.quote value
  | .missingValue flag => "argument " ++ flag.label ++ ": expected one argument"
  | .unrecognized arguments => "unrecognized arguments: " ++ " ".intercalate arguments

/-- A spelling of an option with a value that is joined to it. -/
structure Use where
  spelling : String
  flag : Flag
  value : Option String

inductive Token where
  | path (argument : String)
  | separator
  | option (use : Use)
  | unknown (argument : String)

/-- A text cut at its first equals sign. -/
def cutAtEquals? (text : List Char) : Option (List Char × List Char) :=
  if '=' ∈ text then some (text.takeWhile (· ≠ '='), (text.dropWhile (· ≠ '=')).drop 1) else none

/-- The long options that an argument may be a shortened form of. -/
def shortened (argument : List Char) : List Use :=
  let (start, value) := match cutAtEquals? argument with
    | some (start, value) => (start, some (String.ofList value))
    | none => (argument, none)
  Flag.table.filterMap fun (spelling, flag) ↦
    if start.isPrefixOf spelling.toList then some ⟨spelling, flag, value⟩ else none

/-- The short option that an argument starts with, with the rest of the argument joined to it. -/
def joined (argument : List Char) : List Use :=
  let spelling := String.ofList (argument.take 2)
  match Flag.ofSpelling? spelling with
  | some flag => [⟨spelling, flag, some (String.ofList (argument.drop 2))⟩]
  | none => []

/-- The options that an argument may be meant for when it is not spelled out. -/
def candidates (argument : List Char) : List Use :=
  if argument.take 2 = ['-', '-'] then shortened argument else joined argument

def isDigits (text : List Char) : Bool :=
  !text.isEmpty && text.all Text.isDecimalDigit

/-- Whether an argument is a negative number, which is no option. A line feed at its end does not
matter. -/
def isNegativeNumber : List Char → Bool
  | '-' :: text =>
    let number := if text.getLast? = some '\n' then text.dropLast else text
    isDigits number || match number.dropWhile Text.isDecimalDigit with
      | '.' :: decimals => isDigits decimals
      | _ => false
  | _ => false

/-- The option that an argument spells out, with what stands behind an equals sign. -/
def spelledOut? (argument : String) : Option Use :=
  match Flag.ofSpelling? argument with
  | some flag => some ⟨argument, flag, none⟩
  | none => do
    let (start, value) ← cutAtEquals? argument.toList
    let flag ← Flag.ofSpelling? (String.ofList start)
    return ⟨String.ofList start, flag, some (String.ofList value)⟩

/-- What an argument in front of any `--` is taken for. -/
def classify (argument : String) : Except UsageFault Token :=
  if argument.toList.head? ≠ some '-' ∨ argument = "-" then .ok (.path argument)
  else match spelledOut? argument with
    | some use => .ok (.option use)
    | none =>
      match candidates argument.toList with
      | [use] => .ok (.option use)
      | [] =>
        if isNegativeNumber argument.toList ∨ ' ' ∈ argument.toList then .ok (.path argument)
        else .ok (.unknown argument)
      | several => .error (.ambiguous argument (several.map Use.spelling))

def tokens : List String → Except UsageFault (List Token)
  | [] => .ok []
  | argument :: rest =>
    if argument = "--" then .ok (.separator :: rest.map Token.path)
    else do
      let first ← classify argument
      return first :: (← tokens rest)

/-- Options that were joined in one argument: those without a value, and the last one, with the value
that was joined to it. -/
structure Expansion where
  flags : List Flag
  last : Flag
  value : Option String

/-- The options in an argument where `letters` are joined to an option. They are the value of an
option that takes one. Behind a short option they are further short options, and nothing can be
joined to any other option. -/
def expand (flag : Flag) (isShort : Bool) (letters : List Char) : Except UsageFault Expansion :=
  if flag.takesValue then .ok ⟨[], flag, some (String.ofList letters)⟩
  else match isShort, letters with
    | true, letter :: rest =>
      match Flag.ofSpelling? (String.ofList ['-', letter]) with
      | none => .error (.ignoredValue flag (String.ofList (letter :: rest)))
      | some other =>
        if rest.isEmpty then .ok ⟨[flag], other, none⟩
        else (expand other true rest).map fun e ↦ { e with flags := flag :: e.flags }
    | _, letters => .error (.ignoredValue flag (String.ofList letters))

def Use.expansion (use : Use) : Except UsageFault Expansion :=
  match use.value with
  | none => .ok ⟨[], use.flag, none⟩
  | some value => expand use.flag (use.spelling.toList[1]? ≠ some '-') value.toList

inductive Value where
  | text (content : String)
  /-- The value was the mark `--`, which leaves the option without one. -/
  | dropped
  deriving DecidableEq

def Value.ofArgument (argument : String) : Value :=
  if argument = "--" then .dropped else .text argument

/-- What the arguments ask for. -/
structure Request where
  isHelp : Bool := false
  disassemble : Bool := false
  verbose : Bool := false
  hashDir : Option Value := none
  outputDir : Option Value := none
  /-- The run of paths, with the mark `--`, once it has begun. -/
  run : Option (List String) := none
  /-- Whether the run of paths may go on. -/
  isRunOpen : Bool := true
  /-- Arguments that are not recognised. -/
  extras : List String := []

namespace Request

def paths (request : Request) : List String :=
  (request.run.getD []).erase "--"

def apply (request : Request) (flag : Flag) (value : String) : Request :=
  match flag with
  | .help => { request with isHelp := true }
  | .disassemble => { request with disassemble := true }
  | .verbose => { request with verbose := true }
  | .hashDir => { request with hashDir := some (.ofArgument value) }
  | .outputDir => { request with outputDir := some (.ofArgument value) }

def closeRun (request : Request) : Request :=
  { request with isRunOpen := request.run.isNone }

/-- Adds an argument to the run of paths, if that is possible. -/
def addPath (request : Request) (argument : String) : Request :=
  if request.isRunOpen then { request with run := some (request.run.getD [] ++ [argument]) }
  else { request with extras := request.extras ++ [argument] }

def addExtra (request : Request) (argument : String) : Request :=
  { request with extras := request.extras ++ [argument] }

/-- The effect of the options in an argument, where the last one has the given value. -/
def applyAll (request : Request) (expansion : Expansion) (value : String) : Request :=
  (expansion.flags.foldl (fun request flag ↦ request.apply flag "") request.closeRun).apply
    expansion.last value

/-- Takes in the arguments in order. A request for help ends this at once. -/
def consume (request : Request) : List Token → Except UsageFault Request
  | [] => .ok request
  | token :: rest =>
    if request.isHelp then .ok request
    else match token with
      | .path argument => (request.addPath argument).consume rest
      | .separator => (request.addPath "--").consume rest
      | .unknown argument => (request.closeRun.addExtra argument).consume rest
      | .option use =>
        match use.expansion with
        | .error fault => .error fault
        | .ok expansion =>
          if expansion.last.takesValue then
            match expansion.value, rest with
            | some value, rest => (request.applyAll expansion value).consume rest
            | none, .path value :: rest => (request.applyAll expansion value).consume rest
            | none, _ => .error (.missingValue expansion.last)
          else (request.applyAll expansion "").consume rest

/-- What the arguments ask for; all of them have to be recognised, unless help is asked for. -/
def ofArguments (arguments : List String) : Except UsageFault Request := do
  let request ← consume {} (← tokens arguments)
  if request.isHelp ∨ request.extras.isEmpty then return request
  else throw (.unrecognized request.extras)

end Request

def usageLines : List String :=
  ["usage: gsctool.py [-h] [-d] [--hash-dir HASH_DIR] [--output-dir OUTPUT_DIR]",
    "                  [-v]",
    "                  [paths ...]"]

def helpLines : List String :=
  usageLines ++
    ["",
      "Black Ops III compiled script extractor and disassembler",
      "",
      "positional arguments:",
      "  paths                 Scripts, fast files or directories",
      "",
      "options:",
      "  -h, --help            show this help message and exit",
      "  -d, --disassemble     Write a disassembly listing",
      "  --hash-dir HASH_DIR   Directory holding <Game>.txt hash tables",
      "  --output-dir OUTPUT_DIR",
      "                        Where extracted scripts and listings are written",
      "  -v, --verbose         Debug logging"]

def UsageFault.lines (fault : UsageFault) : List String :=
  usageLines ++ ["gsctool.py: error: " ++ fault.message]

end CompiledScript.Tool
