import Flowscript.Json
import Flowscript.Machine.StateType
import Flowscript.Machine.Predicate

/-!
# Machines

The data of a compiled machine: states with their clauses, and branches that hold states by name.
A machine is a branch; a parallel state holds branches of its own.
-/

namespace Flowscript

/-- The error name that stands for every failure. -/
def allErrors : String := "States.ALL"

/-- What to do again after a failure. -/
structure RetryClause where
  errorEquals : List String
  maxAttempts : UInt32
  intervalSeconds : UInt64
  backoffRate : Double
deriving DecidableEq

/-- Where to go after a failure. -/
structure CatchClause where
  errorEquals : List String
  resultPath : Option String
  next : String
deriving DecidableEq

/-- One rule of a choice state: if `value` stands in the relation of `predicate` to the variable,
the machine goes on with `next`. -/
structure ChoiceClause where
  variablePath : String
  predicate : Predicate
  value : Json
  next : String

mutual

/-- One step of a machine. The name is the state's key in its branch and no field of its own, so
it is absent there. -/
structure State where
  name : Option String := none
  type : StateType := .task
  comment : Option String := none
  resource : Option String := none
  parameters : Option Json := none
  result : Option Json := none
  inputPath : Option String := none
  outputPath : Option String := none
  resultPath : Option String := none
  next : Option String := none
  finish : Option Bool := none
  retry : Option (List RetryClause) := none
  catches : Option (List CatchClause) := none
  branches : Option (List Branch) := none
  choices : Option (List ChoiceClause) := none
  default : Option String := none
  timeoutSeconds : Option UInt64 := none
  heartbeatSeconds : Option UInt64 := none
  seconds : Option UInt64 := none
  secondsPath : Option String := none
  timestamp : Option String := none
  timestampPath : Option String := none
  cause : Option String := none
  error : Option String := none

/-- A whole workflow, or a part of one that runs on its own: where it starts, and its states by
name, in the order of the document. -/
structure Branch where
  startAt : String
  states : List (String × State)

end

namespace State

instance : Inhabited State := ⟨{}⟩

/-- A state of the given name and type without any other field. -/
def named (name : String) (type : StateType) : State := { name := some name, type := type }

/-- Sets the resource. -/
def withResource (s : State) (resource : String) : State := { s with resource := some resource }

/-- Sets the next state, whatever else is set. -/
def withNext (s : State) (next : String) : State := { s with next := some next }

/-- Makes the state go on with `next` and not end. -/
def forceNext (s : State) (next : String) : State := { s with next := some next, finish := none }

/-- Makes the state end and not go on. -/
def forceEnd (s : State) : State := { s with next := none, finish := some true }

/-- Whether the state's type has control flow of its own. -/
def isTerminal (s : State) : Bool := s.type.isTerminal

/-- Whether a transition is written: a next state, or an end mark of either value. -/
def hasTransition (s : State) : Bool := s.next.isSome || s.finish.isSome

end State

namespace Branch

instance : Inhabited Branch := ⟨⟨"", []⟩⟩

/-- The names of the states, in order. -/
def stateNames (b : Branch) : List String := Entries.keys b.states

end Branch
end Flowscript
