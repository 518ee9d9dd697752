import CompiledScript.Container.Extract
import CompiledScript.Listing
import CompiledScript.Names.Directory
import CompiledScript.Script.Batch
import CompiledScript.Tool.Arguments

/-!
# The tool

The tool goes through the files it is given, one after another. Out of a container it extracts the
scripts; of a script it prints a summary and, if asked to, writes a listing. Whatever it writes lies
below the output directory. A file that fails is reported, and the tool goes on with the next one.
It ends early only where something makes no sense: a path that no file can have, a directory by an
option whose value was dropped, or a reader that is used where it must not be.
-/

namespace CompiledScript.Tool

/-- A line that the tool prints. -/
inductive Message where
  | processing (name : String)
  | found (path : String)
  | summary (path : String) (exports imports includes : Nat)
  | failed (name : String) (fault : ScriptFault)
  | succeeded (name : String)
  | failures (count : Nat)

def Message.text : Message → String
  | .processing name => ": Processing " ++ name ++ "..."
  | .found path => ": Found " ++ path
  | .summary path exports imports includes =>
    ": " ++ path ++ s!": {exports} exports, {imports} imports, {includes} includes"
  | .failed name fault =>
    ": An error has occurred while processing " ++ name ++ ": " ++ fault.message
  | .succeeded name => ": Processed " ++ name ++ " successfully."
  | .failures count => s!": {count} file(s) failed."

structure Report where
  messages : List Message := []
  records : List Record := []

instance : Append Report :=
  ⟨fun first second ↦ ⟨first.messages ++ second.messages, first.records ++ second.records⟩⟩

/-- Why a run ends before its last file. -/
inductive Abort where
  /-- No file can have this path. -/
  | badPath (path : String)
  /-- The value of an option is needed, and was dropped. -/
  | noValue (flag : Flag)
  /-- A reader was used in a way in which no bytes can be read. -/
  | misread (fault : Fault)

def Abort.message : Abort → String
  | .badPath path => "not a path: " ++ Text.Quoted.quote path
  | .noValue flag => "argument " ++ flag.label ++ " has no value"
  | .misread fault => fault.message

/-- Why the processing of a file ends early. -/
inductive Interruption where
  | fault (fault : ScriptFault)
  | abort (cause : Abort)

def Interruption.ofFile (fault : FileFault) : Interruption :=
  if fault.isFatal then .abort (.badPath fault.path) else .fault (.file fault)

def Interruption.ofData (fault : Fault) : Interruption :=
  if fault.isFatal then .abort (.misread fault) else .fault (.data fault)

/-- A step that reports, and may be interrupted. -/
abbrev Step := Report × Except Interruption Unit

structure Settings where
  context : NameContext
  outputDir : Value
  disassemble : Bool

inductive Input where
  | container
  | script

/-- The endings of the names of files that are processed. Capital letters are read as small ones. -/
def inputs : List (String × Input) :=
  [(".ff", .container), (".gsc", .script), (".csc", .script), (".gscc", .script),
    (".cscc", .script)]

def inputOf? (path : String) : Option Input :=
  inputs.lookup (String.ofList ((Path.fileExtension path).toList.map Char.toLower))

/-- The game whose containers are understood. -/
def containerGame : Game := .blackOps3

def extractPath (outputDir : String) (script : Container.EmbeddedScript) : String :=
  Path.below outputDir ["ExtractedScripts", containerGame.title, script.name]

/-- The ending of a listing's name: that of the script's own path, or else that of the file. -/
def listingEnding (script : Script String) (path : String) : String :=
  let own := Path.fileExtension script.path
  ".script_asm" ++ if own.isEmpty then Path.fileExtension path else own

/-- The path of the listing of a script below the output directory, where `path` is that of the
script. -/
def listingPath (outputDir : String) (script : Script String) (path : String) : String :=
  Path.below outputDir [script.game.title, script.path] ++ listingEnding script path

variable {m : Type → Type} [Monad m] [FileStore m]

/-- Writes a file to the path that a rule gives it for the output directory, and yields the path. -/
def writeOutput (settings : Settings) (place : String → String) (data : ByteArray) :
    m (Except Interruption String) := do
  match settings.outputDir with
  | .dropped => return .error (.abort (.noValue .outputDir))
  | .text outputDir =>
    match ← FileStore.writeBelow (place outputDir) data with
    | .error fault => return .error (.ofFile fault)
    | .ok () => return .ok (place outputDir)

/-- Writes extracted scripts in order, up to the first that cannot be written. -/
def writeScripts (settings : Settings) : List Container.EmbeddedScript → m Step
  | [] => return ({}, .ok ())
  | script :: rest => do
    match ← writeOutput settings (extractPath · script) script.data with
    | .error interruption => return ({}, .error interruption)
    | .ok path =>
      let (report, result) ← writeScripts settings rest
      return (⟨[.found path], []⟩ ++ report, result)

def processContainer (settings : Settings) (path : String) : m Step := do
  match ← FileStore.read path with
  | .error fault => return ({}, .error (.ofFile fault))
  | .ok data =>
    let (records, scripts) := Container.scripts containerGame.tag data
    match scripts with
    | .error fault => return (⟨[], records⟩, .error (.ofData fault))
    | .ok scripts =>
      let (report, result) ← writeScripts settings scripts
      return (⟨[], records⟩ ++ report, result)

def summary (script : Script String) : Message :=
  .summary script.path script.exports.size script.imports.size script.includes.length

def processScript (settings : Settings) (path : String) : m Step := do
  match ← FileStore.read path with
  | .error fault => return ({}, .error (.ofFile fault))
  | .ok data =>
    let decoding := Script.load settings.context none data
    match decoding.result with
    | .error fault => return (⟨[], decoding.records⟩, .error (.ofData fault))
    | .ok script =>
      let report : Report := ⟨[summary script], decoding.records⟩
      if settings.disassemble then
        let listing := (Listing.text script).toUTF8
        match ← writeOutput settings (listingPath · script path) listing with
        | .error interruption => return (report, .error interruption)
        | .ok _ => return (report, .ok ())
      else return (report, .ok ())

def processInput (settings : Settings) (path : String) : Input → m Step
  | .container => processContainer settings path
  | .script => processScript settings path

/-- The report on a processed file, and whether it failed. -/
def concluded (path : String) (step : Step) : Report × Except Abort Bool :=
  let name := Path.base path
  let opening : Report := ⟨[.processing name], []⟩
  match step.2 with
  | .ok () => (opening ++ step.1 ++ ⟨[.succeeded name], []⟩, .ok false)
  | .error (.fault fault) =>
    let details : Record := ⟨.debug, "Failure details for " ++ path⟩
    (opening ++ step.1 ++ ⟨[.failed name fault], [details]⟩, .ok true)
  | .error (.abort cause) => (opening ++ step.1, .error cause)

/-- Processes a file, unless its name says that it is none of the tool's. -/
def processFile (settings : Settings) (path : String) : m (Report × Except Abort Bool) := do
  match inputOf? path with
  | none => return (⟨[], [⟨.debug, "Skipping " ++ path⟩]⟩, .ok false)
  | some input => return concluded path (← processInput settings path input)

/-- Processes files in order, and counts those that fail. -/
def processFiles (settings : Settings) : List String → m (Report × Except Abort Nat)
  | [] => return ({}, .ok 0)
  | path :: rest => do
    let (report, result) ← processFile settings path
    match result with
    | .error cause => return (report, .error cause)
    | .ok isFailed =>
      let (others, count) ← processFiles settings rest
      return (report ++ others, count.map fun count ↦ if isFailed then count + 1 else count)

structure Environment where
  hashDir : Option String
  outputDir : Option String

def defaultOutput : String := "ProcessedScripts"

/-- Reads the name tables from the directory that is asked for, else from the one that the
environment names. Without tables the tool goes on with hashes. -/
def loadNames (asked environment : Option String) : m (Report × NameContext) := do
  let (events, context) ← Names.loadContext asked environment
  let records := events.map Names.TableEvent.record
  match context with
  | .ok context => return (⟨[], records⟩, context)
  | .error fault =>
    let warning : Record := ⟨.warning, "Hash tables not loaded: " ++ fault.message⟩
    return (⟨[], records ++ [warning]⟩, .empty)

/-- The settings that the arguments and the environment make, with the given names. -/
def settingsFor (request : Request) (environment : Environment) (context : NameContext) :
    Settings where
  context := context
  outputDir := request.outputDir.getD (.text (environment.outputDir.getD defaultOutput))
  disassemble := request.disassemble

def closing : Except Abort Nat → Report
  | .ok 0 | .error _ => {}
  | .ok count => ⟨[.failures count], []⟩

/-- Processes the files that are asked for with the names in a directory, and counts those that
fail. -/
def performWith (request : Request) (environment : Environment) (hashDir : Option String) :
    m (Report × Except Abort Nat) := do
  let (loading, context) ← loadNames hashDir environment.hashDir
  let files ← FileStore.collect request.paths
  let (processing, count) ← processFiles (settingsFor request environment context) files
  return (loading ++ processing ++ closing count, count)

def perform (request : Request) (environment : Environment) : m (Report × Except Abort Nat) :=
  match request.hashDir with
  | some .dropped => return ({}, .error (.noValue .hashDir))
  | some (.text hashDir) => performWith request environment (some hashDir)
  | none => performWith request environment none

/-- How a run of the tool ends. -/
inductive Outcome where
  | usage (fault : UsageFault)
  | help
  | finished (report : Report) (failures : Nat)
  | aborted (report : Report) (cause : Abort)

namespace Outcome

def status : Outcome → UInt32
  | .usage _ => 2
  | .help => 0
  | .finished _ failures => if failures = 0 then 0 else 1
  | .aborted _ _ => 1

def outputLines : Outcome → List String
  | .usage _ => []
  | .help => helpLines
  | .finished report _ | .aborted report _ => report.messages.map Message.text

def diagnostics : Outcome → List String
  | .usage fault => fault.lines
  | .help => []
  | .finished report _ | .aborted report _ => report.records.map Record.line

def output (outcome : Outcome) : String :=
  String.join (outcome.outputLines.map (· ++ "\n"))

end Outcome

/-- A report with the records that are shown: warnings, and everything if so asked. -/
def shown (verbose : Bool) (report : Report) : Report :=
  { report with records := report.records.filter fun record ↦ verbose || record.level = .warning }

def run (environment : Environment) (arguments : List String) : m Outcome := do
  match Request.ofArguments arguments with
  | .error fault => return .usage fault
  | .ok request =>
    if request.isHelp ∨ request.paths.isEmpty then return .help
    else
      let (report, result) ← perform request environment
      match result with
      | .ok failures => return .finished (shown request.verbose report) failures
      | .error cause => return .aborted (shown request.verbose report) cause

end CompiledScript.Tool
