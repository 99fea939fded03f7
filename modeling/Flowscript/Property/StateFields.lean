import Flowscript.Machine.Decoding
import Flowscript.Property.Normalization

/-!
# Fields of a state

Reads the values of properties as the fields of a state. A property whose value is null is the same
as one that is absent, and branches are left to be compiled.
-/

namespace Flowscript

/-! ## Typed values -/

/-- A string. -/
def Property.readText (p : Property) : Node → Except SyntaxError String
  | .string text => .ok text
  | node => .error (.propertyNotText p node.shape)

/-- A truth value. -/
def Property.readBool (p : Property) : Node → Except SyntaxError Bool
  | .bool b => .ok b
  | node => .error (.propertyNotBoolean p node.shape)

/-- A whole number of seconds. -/
def Property.readSeconds (p : Property) (node : Node) : Except SyntaxError UInt64 :=
  let seconds? :=
    match node with
    | .number n => n.toUInt64?
    | _ => none
  match seconds? with
  | some count => .ok count
  | none => .error (.propertyNotSeconds p node.shape)

/-- Data without tags. -/
def Property.readData (node : Node) : Except SyntaxError Json :=
  match node.toJson with
  | .ok value => .ok value
  | .error tag => .error (.tagInData tag)

/-- The name of a type. -/
def Property.readType (node : Node) : Except SyntaxError StateType := do
  let name ← Property.readText .type node
  match StateType.ofName? name with
  | some stateType => return stateType
  | none => throw (.unknownType name)

/-- A list of clauses; a single clause may stand without the list. -/
def Property.readClauses {α : Type} (decode : Decoder α) (p : Property) (node : Node) :
    Except SyntaxError (List α) := do
  let value ← Property.readData node
  let items :=
    match value with
    | .array items => items
    | single => [single]
  match items.mapM decode with
  | .ok clauses => return clauses
  | .error fault => throw (.invalidClause p fault)

/-! ## States -/

/-- Sets the field of a state that a property names to the property's value, which is not null. -/
def State.read (s : State) (p : Property) (node : Node) : Except SyntaxError State :=
  match p with
  | .type => do return { s with type := ← Property.readType node }
  | .name => do return { s with name := ← p.readText node }
  | .comment => do return { s with comment := ← p.readText node }
  | .resource => do return { s with resource := ← p.readText node }
  | .inputPath => do return { s with inputPath := ← p.readText node }
  | .outputPath => do return { s with outputPath := ← p.readText node }
  | .resultPath => do return { s with resultPath := ← p.readText node }
  | .next => do return { s with next := ← p.readText node }
  | .default => do return { s with default := ← p.readText node }
  | .secondsPath => do return { s with secondsPath := ← p.readText node }
  | .timestamp => do return { s with timestamp := ← p.readText node }
  | .timestampPath => do return { s with timestampPath := ← p.readText node }
  | .cause => do return { s with cause := ← p.readText node }
  | .error => do return { s with error := ← p.readText node }
  | .parameters => do return { s with parameters := ← Property.readData node }
  | .result => do return { s with result := ← Property.readData node }
  | .finish => do return { s with finish := ← p.readBool node }
  | .timeoutSeconds => do return { s with timeoutSeconds := ← p.readSeconds node }
  | .heartbeatSeconds => do return { s with heartbeatSeconds := ← p.readSeconds node }
  | .seconds => do return { s with seconds := ← p.readSeconds node }
  | .retry => do return { s with retry := ← Property.readClauses RetryClause.ofJson p node }
  | .catches => do return { s with catches := ← Property.readClauses CatchClause.ofJson p node }
  | .choices => do return { s with choices := ← Property.readClauses ChoiceClause.ofJson p node }
  | .branches | .other _ => .ok s

namespace Properties

/-- The state that properties describe, without its branches. The first property that cannot be
read decides about the failure. -/
def toState (properties : Properties) : Except SyntaxError State :=
  properties.foldlM (fun s entry => if entry.2.isNull then .ok s else s.read entry.1 entry.2) {}

/-- The branches that are left to be compiled. -/
def branches? (properties : Properties) : Option Node :=
  (properties.get? .branches).filter fun node => !node.isNull

end Properties
end Flowscript
