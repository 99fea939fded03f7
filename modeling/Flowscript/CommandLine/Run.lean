import Flowscript.CommandLine.Arguments
import Flowscript.CommandLine.File
import Flowscript.Stream
import Flowscript.Text.Utf8
import Flowscript.Yaml.Table

/-!
# Runs of the program

What the program writes, and how it ends, for given arguments and given contents of the files that
it reads.
-/

namespace Flowscript.CommandLine

/-- What a run writes, and whether it succeeds. -/
structure Outcome where
  success : Bool
  output : String
  /-- The lines that are written beside the output. -/
  reports : List String

/-- The exit code of a run. -/
def Outcome.exitCode (outcome : Outcome) : UInt8 := if outcome.success then 0 else 1

/-! ## Texts -/

/-- The name of the program. -/
def programName : String := "Statecraft"

/-- The version of the program. -/
def programVersion : String := "0.1.0"

/-- How the program is used. -/
def usage : String :=
  String.intercalate "\n" [
    programName ++ " v" ++ programVersion,
    "",
    "Usage: statecraft [OPTIONS] [INPUT_FILE]",
    "",
    "Arguments:",
    "  [INPUT_FILE]        Notation source (default: stdin, or '-')",
    "",
    "Options:",
    "  --stream            Compile each input line as its own document",
    "  --pretty            Pretty-print the JSON output",
    "  --resources FILE    YAML/JSON table resolving short references",
    "  --validate          Fail on dangling state references",
    "  --verbose           Enable debug logging",
    "  --help              Show this help message",
    "  --version           Show version information",
    "",
    "Examples:",
    "  statecraft pipeline.yaml --pretty",
    "  statecraft --stream jobs.ndyaml --resources resources.yaml",
    ""]

/-- The line that shows a failure. -/
def errorLine (message : String) : String := "Error: " ++ message

/-! ## Reading -/

/-- The text of a file, or the reason why there is none; `explain` words it for bytes that are no
text. -/
def File.text (explain : Text.Utf8.Fault → String) : File → Except String String
  | .bytes content => (Text.Utf8.decode content).mapError explain
  | .unreadable message | .unopenable message => .error message

/-- The lines of a file with their line feeds, each cut off as bytes and decoded on its own; a
carriage return in front of a line feed is left out. Nothing follows a line that is not UTF-8. -/
def chunksOf (lines : List (List UInt8)) : List Chunk :=
  match lines with
  | [] => []
  | line :: rest =>
    match Text.Utf8.decode line with
    | .error fault => [.error fault.message]
    | .ok text =>
      let body := text.toList
      let body := if body.getLast? = some '\n' then Text.withoutReturn body.dropLast else body
      .ok (String.ofList body ++ "\n") :: chunksOf rest

/-- The lines of bytes, each with the line feed that ends it. -/
def byteLines : List UInt8 → List (List UInt8)
  | [] => []
  | b :: rest =>
    if b = 10 then [b] :: byteLines rest
    else
      match byteLines rest with
      | [] => [[b]]
      | line :: lines => (b :: line) :: lines

/-- The chunks of a file. -/
def File.chunks : File → List Chunk
  | .bytes content => chunksOf (byteLines content)
  | .unreadable message | .unopenable message => [.error message]

/-- A table of resources, or the reason why there is none, with what is reported on the way. -/
def loadTable (path : String) (file : File) :
    Except String (Entries String Json) × List String :=
  let loading := "Loading resource table from: " ++ path
  match file.text (fun _ => "stream did not contain valid UTF-8") with
  | .error message =>
    (.error ("Failed to read resource table '" ++ path ++ "': " ++ message ++
      ". Check that the file exists and is readable."), [loading])
  | .ok text =>
    match Yaml.table text with
    | .error cause => (.error ("Failed to parse resource table: " ++ cause.message), [loading])
    | .ok table =>
      (.ok table, [loading,
        "Loaded " ++ toString table.length ++ " resource resolutions",
        "Loaded " ++ toString table.length ++ " resource resolution(s)"])

/-! ## Compiling -/

/-- A machine as JSON, checked first if that is asked for. -/
def render (config : Config) (pretty : Bool) (branch : Branch) : Compile String := do
  if config.validate then validate branch
  return if pretty then branch.toJson.pretty else branch.toJson.compact

/-- The notices of a memory that are shown, in order. -/
def shownNotices (verbose : Bool) (memory : Memory) : List String :=
  (memory.journal.reverse.filter fun notice => verbose || notice.isWarning).map Notice.line

/-- Compiles the whole input to one machine. -/
def compileWhole (config : Config) (setting : Setting) (text : String) : Outcome :=
  let step : Compile String := do
    let branch ← setting.compileText text
    Compile.note (.machineCompiled branch.states.length)
    render config config.pretty branch
  let (outcome, memory) := step.outcome {}
  let reports := shownNotices config.verbose memory
  match outcome with
  | .ok json => ⟨true, json ++ "\n", reports⟩
  | .error cause => ⟨false, "", reports ++ [errorLine cause.message]⟩

/-- Compiles each line of the input to a machine of its own. -/
def compileEach (config : Config) (setting : Setting) (chunks : List Chunk) : Outcome :=
  let (result, memory) := (setting.streamWith (render config false) chunks).run {}
  let output := String.join (result.results.map (· ++ "\n"))
  let reports := shownNotices config.verbose memory
  match result.failure with
  | some cause => ⟨false, output, reports ++ [errorLine cause.message]⟩
  | none =>
    let count := "Compiled " ++ toString result.results.length ++ " document(s)"
    ⟨true, output, reports ++ if config.verbose then [count] else []⟩

/-- Reads the input and compiles it. -/
def compileInput (config : Config) (setting : Setting) (file : File) : Outcome :=
  match file with
  | .unopenable message =>
    ⟨false, "", [errorLine ("Could not open input '" ++ config.input ++ "': " ++ message)]⟩
  | _ =>
    let source :=
      if config.input = standardInput then "Reading notation from stdin"
      else "Reading notation from: " ++ config.input
    let opening := if config.verbose then [source] else []
    let ignored :=
      if config.stream && config.pretty then ["[WARN] --pretty is ignored in stream mode"] else []
    let outcome :=
      if config.stream then compileEach config setting file.chunks
      else
        match file.text Text.Utf8.Fault.message with
        | .ok text => compileWhole config setting text
        | .error message => ⟨false, "", [errorLine message]⟩
    { outcome with reports := opening ++ ignored ++ outcome.reports }

/-- Does what the settings ask for. `file` gives the files by their paths. -/
def compile (config : Config) (file : String → File) (stdin : File) : Outcome :=
  let (setting, reports) : Except String Setting × List String :=
    match config.resources with
    | none => (.ok {}, [])
    | some path =>
      let (table, reports) := loadTable path (file path)
      (table.map fun table => { resolver := Resolver.ofTable table }, reports)
  let reports :=
    if config.verbose then ("Configuration: " ++ config.description) :: reports else []
  match setting with
  | .error message => ⟨false, "", reports ++ [errorLine message]⟩
  | .ok setting =>
    let input := if config.input = standardInput then stdin else file config.input
    let outcome := compileInput config setting input
    { outcome with reports := reports ++ outcome.reports }

/-- Runs the program. -/
def run (arguments : List String) (file : String → File) (stdin : File) : Outcome :=
  match parse arguments with
  | .error cause =>
    ⟨false, usage, [errorLine cause.message, "", errorLine cause.message]⟩
  | .ok .help => ⟨true, usage, []⟩
  | .ok .version => ⟨true, programName ++ " " ++ programVersion ++ "\n", []⟩
  | .ok (.compile config) => compile config file stdin

end Flowscript.CommandLine
