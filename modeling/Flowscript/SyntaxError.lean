import Flowscript.Machine.DecodeError
import Flowscript.Node
import Flowscript.Property

/-!
# Why a document makes no machine

The causes for which a well-formed document is refused, and their wording.
-/

namespace Flowscript

/-- The argument lists of readers. -/
inductive ArgumentList where
  | choice | condition | guard | retry | target
deriving DecidableEq

namespace ArgumentList

/-- The name of an argument list in messages. -/
def name : ArgumentList → String
  | .choice => "if"
  | .condition => "if condition"
  | .guard => "try"
  | .retry => "retry"
  | .target => "next"

/-- How many arguments a list has at least. -/
def least : ArgumentList → Nat
  | .choice => 2
  | .condition => 3
  | .guard => 2
  | .retry => 1
  | .target => 2

/-- How many arguments a list has at most. -/
def most : ArgumentList → Nat
  | .choice => 3
  | .condition => 3
  | .guard => 2
  | .retry => 4
  | .target => 2

end ArgumentList

/-- The arguments of readers that must be strings. -/
inductive TextArgument where
  | variablePath | operator | consequent | alternate | catchTarget | target
deriving DecidableEq

/-- The name of an argument in messages. -/
def TextArgument.name : TextArgument → String
  | .variablePath => "if variable"
  | .operator => "if operator"
  | .consequent => "if consequent"
  | .alternate => "if alternate"
  | .catchTarget => "try catch target"
  | .target => "next target"

/-- The arguments of readers that must be whole numbers. -/
inductive CountArgument where
  | maxAttempts | interval
deriving DecidableEq

/-- The name of an argument in messages. -/
def CountArgument.name : CountArgument → String
  | .maxAttempts => "max attempts"
  | .interval => "interval"

/-- A cause for which a document is refused. -/
inductive SyntaxError where
  /-- A number that is infinite or none at all; `text` is how it is written. -/
  | notFinite (text : String)
  /-- A collection or a tagged node as the key of a mapping. -/
  | compoundKey (description : String)
  | tagInData (tag : String)
  | unknownTag (tag : String)
  | notAState (found : Shape)
  | emptyShorthand
  | longShorthand (count : Nat)
  /-- A third element where the first is neither parameters nor an input path. -/
  | misplacedThird
  | resourceNotText (found : Shape)
  | pathNotText (found : Shape)
  | invalidMachine (reference : String) (cause : DecodeError)
  | invalidBranch (cause : DecodeError)
  | invalidClause (property : Property) (cause : DecodeError)
  | emptyBranch
  | repeatedState (name : String)
  | emptyParallel
  | emptySource
  | propertyNotText (property : Property) (found : Shape)
  | propertyNotBoolean (property : Property) (found : Shape)
  | propertyNotSeconds (property : Property) (found : Shape)
  | unknownType (name : String)
  | unknownOperator (text : String)
  | compoundOperand (value : Json)
  | terminalPayload (type : StateType) (found : Shape)
  | argumentCount (list : ArgumentList) (found : Nat)
  | argumentNotText (argument : TextArgument) (found : Shape)
  | argumentNotWhole (argument : CountArgument) (found : Shape)
  | tooManyAttempts (count : Nat)
  | backoffNotNumber (found : Shape)
  | parametersPayload (found : Shape)

/-- The wording of a cause. -/
def SyntaxError.message : SyntaxError → String
  | .notFinite text => "number '" ++ text ++ "' is not finite"
  | .compoundKey description => "mapping keys must be scalars, found " ++ description
  | .tagInData tag => "tag '!" ++ tag ++ "' is not allowed inside data"
  | .unknownTag tag => "unknown notation tag '!" ++ tag ++ "'"
  | .notAState found =>
    "invalid state object: expected string, sequence or mapping, found " ++ found.name
  | .emptyShorthand => "shorthand task list is empty"
  | .longShorthand count =>
    "shorthand task takes at most 3 elements, found " ++ toString count
  | .misplacedThird =>
    "shorthand task without parameters or input path takes at most 2 elements"
  | .resourceNotText found => "task resource must be a string, found " ++ found.name
  | .pathNotText found => "result path must be a string, found " ++ found.name
  | .invalidMachine reference cause =>
    "invalid machine for '" ++ reference ++ "': " ++ cause.message
  | .invalidBranch cause => "invalid branch: " ++ cause.message
  | .invalidClause property cause =>
    "invalid '" ++ property.text ++ "' clause: " ++ cause.message
  | .emptyBranch => "a branch needs at least one state"
  | .repeatedState name =>
    "duplicate state name '" ++ name ++ "' in branch (repeat a step with !dupe)"
  | .emptyParallel => "a parallel state needs at least one branch"
  | .emptySource => "no states to compile"
  | .propertyNotText property found =>
    "'" ++ property.text ++ "' must be a string, found " ++ found.name
  | .propertyNotBoolean property found =>
    "'" ++ property.text ++ "' must be a boolean, found " ++ found.name
  | .propertyNotSeconds property found =>
    "'" ++ property.text ++ "' must be a whole number of seconds, found " ++ found.name
  | .unknownType name => "unknown state type '" ++ name ++ "'"
  | .unknownOperator text => "invalid operation '" ++ text ++ "'"
  | .compoundOperand value => "comparison value must be a scalar, found " ++ value.compact
  | .terminalPayload type found =>
    "!" ++ type.stem ++ " expects a name or a mapping, found " ++ found.name
  | .argumentCount list found =>
    "!" ++ list.name ++ " expects " ++ toString list.least ++ " to " ++ toString list.most ++
      " arguments, found " ++ toString found
  | .argumentNotText argument found =>
    "!" ++ argument.name ++ " must be a string, found " ++ found.name
  | .argumentNotWhole argument found =>
    "!retry " ++ argument.name ++ " must be a whole number, found " ++ found.name
  | .tooManyAttempts count => "!retry max attempts " ++ toString count ++ " is too large"
  | .backoffNotNumber found => "!retry backoff rate must be a number, found " ++ found.name
  | .parametersPayload found => "!params expects a path or a mapping, found " ++ found.name

end Flowscript
