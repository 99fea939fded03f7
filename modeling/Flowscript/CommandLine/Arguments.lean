import Flowscript.Text.Quoted

/-!
# Arguments of the command line

Reads the arguments of the command line: options in any order, and one word for the input at most.
-/

namespace Flowscript.CommandLine

/-- What the program is asked to do. -/
structure Config where
  input : String := "-"
  resources : Option String := none
  stream : Bool := false
  pretty : Bool := false
  validate : Bool := false
  verbose : Bool := false
deriving DecidableEq

/-- The input that stands for standard input. -/
def standardInput : String := "-"

/-- What the arguments ask for. -/
inductive Request where
  | help
  | version
  | compile (config : Config)
deriving DecidableEq

/-- A cause for which arguments make no sense. -/
inductive ArgumentError where
  | missingFile
  | unexpected (word : String)
  | unknownOption (word : String)
deriving DecidableEq

/-- The wording of a cause. -/
def ArgumentError.message : ArgumentError → String
  | .missingFile => "--resources requires a file argument"
  | .unexpected word => "Unexpected argument: " ++ word
  | .unknownOption word => "Unknown option: " ++ word

/-- Reads arguments behind others that gave `config`; `placed` says whether the word for the input
was among them. A wish for help or the version is granted as soon as it is met. -/
def parseFrom (config : Config) (placed : Bool) : List String → Except ArgumentError Request
  | [] => .ok (.compile config)
  | word :: rest =>
    if word = "--help" || word = "-h" then .ok .help
    else if word = "--version" || word = "-V" then .ok .version
    else if word = "--stream" then parseFrom { config with stream := true } placed rest
    else if word = "--pretty" then parseFrom { config with pretty := true } placed rest
    else if word = "--validate" then parseFrom { config with validate := true } placed rest
    else if word = "--verbose" || word = "-v" then
      parseFrom { config with verbose := true } placed rest
    else if word = "--resources" then
      match rest with
      | [] => .error .missingFile
      | path :: rest => parseFrom { config with resources := some path } placed rest
    else if word.toList.head? = some '-' && word ≠ standardInput then .error (.unknownOption word)
    else if placed then .error (.unexpected word)
    else parseFrom { config with input := word } true rest

/-- Reads the arguments behind the program's name. -/
def parse (arguments : List String) : Except ArgumentError Request := parseFrom {} false arguments

/-- The settings as they are reported. -/
def Config.description (config : Config) : String :=
  let resources :=
    match config.resources with
    | some path => "Some(" ++ Text.quoted path ++ ")"
    | none => "None"
  "Config \x7b input_path: " ++ Text.quoted config.input ++ ", resources_path: " ++ resources ++
    ", stream: " ++ toString config.stream ++ ", pretty: " ++ toString config.pretty ++
    ", validate: " ++ toString config.validate ++ ", verbose: " ++ toString config.verbose ++
    " \x7d"

end Flowscript.CommandLine
