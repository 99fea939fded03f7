import Flowscript.CommandLine.Run

/-!
# The program

Reads the files that the arguments name, and writes what the run says.
-/

namespace Flowscript.CommandLine

/-- The number of a fault, which some systems give with its sign turned. -/
def faultNumber (code : UInt32) : UInt32 := min code (0 - code)

/-- The file at a path as the program finds it. -/
def readFile (path : String) : IO File := do
  try
    return .bytes (← IO.FS.readBinFile path).toList
  catch
    | .noFileOrDirectory .. => return PathError.missing.file
    | .permissionDenied .. => return PathError.forbidden.file
    | .inappropriateType _ code _ =>
      return (if faultNumber code = 20 then PathError.notDirectory else .isDirectory).file
    | .invalidArgument (some _) code details =>
      return if faultNumber code = 36 then PathError.nameTooLong.file else .unopenable details
    | error => return .unopenable (toString error)

/-- Everything on standard input behind what was read. -/
partial def readStream (stream : IO.FS.Stream) (before : ByteArray) : IO ByteArray := do
  let bytes ← stream.read 65536
  if bytes.isEmpty then return before else readStream stream (before ++ bytes)

/-- The files that a run needs, and standard input if it is needed. -/
def readNeeded (arguments : List String) : IO (List (String × File) × File) := do
  let none := File.bytes []
  match parse arguments with
  | .ok (.compile config) =>
    let tables ← config.resources.toList.mapM fun path => do return (path, ← readFile path)
    if config.input = standardInput then
      let bytes ← readStream (← IO.getStdin) ByteArray.empty
      return (tables, .bytes bytes.toList)
    else return (tables ++ [(config.input, ← readFile config.input)], none)
  | _ => return ([], none)

end Flowscript.CommandLine

open Flowscript.CommandLine in
/-- The command line. -/
def main (arguments : List String) : IO UInt32 := do
  let (files, stdin) ← readNeeded arguments
  let file (path : String) : File := (files.lookup path).getD (.bytes [])
  let outcome := run arguments file stdin
  let stderr ← IO.getStderr
  outcome.reports.forM stderr.putStrLn
  (← IO.getStdout).putStr outcome.output
  return outcome.exitCode.toUInt32
