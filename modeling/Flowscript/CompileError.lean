import Flowscript.Machine.Validation
import Flowscript.SyntaxError
import Flowscript.Yaml.Fault

/-!
# Why compilation fails

Every failure on the way from a text to a machine that is known to be sound.
-/

namespace Flowscript

/-- A cause for which there is no machine. -/
inductive CompileError where
  /-- The document has no meaning. -/
  | refused (cause : SyntaxError)
  /-- The resolver failed at a reference. -/
  | unresolved (reference message : String)
  /-- The machine breaks rules of its structure. -/
  | unsound (problems : List Problem)
  /-- The text is no YAML. -/
  | malformed (cause : Yaml.Fault)
  /-- The input cannot be read. -/
  | unreadable (message : String)

/-- The wording of a cause. -/
def CompileError.message : CompileError → String
  | .refused cause => "Syntax error: " ++ cause.message
  | .unresolved reference message => "Failed to resolve '" ++ reference ++ "': " ++ message
  | .unsound problems =>
    "Invalid state machine:\n" ++ String.intercalate "\n" (problems.map Problem.message)
  | .malformed cause => "Failed to parse notation YAML: " ++ cause.message
  | .unreadable message => "I/O error: " ++ message

end Flowscript
