import Flowscript.Machine.DecodeError
import Flowscript.Machine.Encoding

/-!
# Machines from JSON

Decodes the JSON form of a machine. A record is an object, whose unknown fields are ignored, or an
array of the record's fields in order, from which trailing fields with a default may be missing.
Where several things are wrong, the fields of an object are tried in the order in which they are
written, and a field that is missing is noticed after all others.
-/

namespace Flowscript

/-- A decoder of JSON data. -/
abbrev Decoder (α : Type) := Json → Except DecodeError α

namespace Decoder

/-- A string. -/
def string : Decoder String
  | .string s => .ok s
  | value => .error (.wrongType value .string)

/-- A truth value. -/
def boolean : Decoder Bool
  | .bool b => .ok b
  | value => .error (.wrongType value .boolean)

/-- A count below `2 ^ 32`. -/
def count32 : Decoder UInt32
  | .number (.whole n) =>
    if 0 ≤ n ∧ n < UInt32.size then .ok (UInt32.ofNat n.toNat) else .error (.outOfRange n .count32)
  | value => .error (.wrongType value .count32)

/-- A count below `2 ^ 64`. -/
def count64 : Decoder UInt64
  | .number (.whole n) =>
    if 0 ≤ n ∧ n < UInt64.size then .ok (UInt64.ofNat n.toNat) else .error (.outOfRange n .count64)
  | value => .error (.wrongType value .count64)

/-- Any number, as the nearest binary64 number. -/
def real : Decoder Double
  | .number n =>
    match n.toDouble? with
    | some x => .ok x
    | none => .error (.wrongType (.number n) .real)
  | value => .error (.wrongType value .real)

/-- Any data. -/
def data : Decoder Json := fun value => .ok value

/-- Null for an absent value, or else what `decode` takes. -/
def optional {α : Type} (decode : Decoder α) : Decoder (Option α)
  | .null => .ok none
  | value => (decode value).map some

/-- An array whose members `decode` takes. -/
def list {α : Type} (decode : Decoder α) : Decoder (List α)
  | .array items => items.mapM decode
  | value => .error (.wrongType value .sequence)

end Decoder

/-- Checks that an array of `length` fields ends behind the last field that has no default and not
behind the last of all. `required` tells which of the fields have no default. -/
def RecordKind.checkLength (kind : RecordKind) (required : List Nat) (length : Nat) :
    Except DecodeError Unit :=
  match required.find? fun index => length ≤ index with
  | some index => .error (.tooShort index kind)
  | none => if kind.size < length then .error (.tooLong length) else .ok ()

/-- The value of a field that has no default. -/
def requireField {α : Type} (name : String) : Option α → Except DecodeError α
  | some value => .ok value
  | none => .error (.missing name)

/-! ## Retry clauses -/

/-- The fields of a retry clause that are known so far. -/
structure RetryClause.Draft where
  errorEquals : Option (List String) := none
  maxAttempts : Option UInt32 := none
  intervalSeconds : Option UInt64 := none
  backoffRate : Option Double := none

namespace RetryClause

/-- The fields of a retry clause, in order. -/
def fieldNames : List String := ["ErrorEquals", "MaxAttempts", "IntervalSeconds", "BackoffRate"]

/-- Twofold. -/
def defaultBackoffRate : Double := ⟨false, 1 <<< 52, -51, by decide⟩

/-- Takes one field up. -/
def Draft.set (draft : Draft) (name : String) (value : Json) : Except DecodeError Draft :=
  match name with
  | "ErrorEquals" =>
    (Decoder.list .string value).map fun v => { draft with errorEquals := some v }
  | "MaxAttempts" => (Decoder.count32 value).map fun v => { draft with maxAttempts := some v }
  | "IntervalSeconds" =>
    (Decoder.count64 value).map fun v => { draft with intervalSeconds := some v }
  | "BackoffRate" => (Decoder.real value).map fun v => { draft with backoffRate := some v }
  | _ => .ok draft

/-- The clause of a draft: three attempts, a second apart at first, twice as long each time, unless
told otherwise. -/
def Draft.finish (draft : Draft) : Except DecodeError RetryClause := do
  let errorEquals ← requireField "ErrorEquals" draft.errorEquals
  return { errorEquals
           maxAttempts := draft.maxAttempts.getD 3
           intervalSeconds := draft.intervalSeconds.getD 1
           backoffRate := draft.backoffRate.getD defaultBackoffRate }

/-- Decodes a clause. -/
def ofJson : Decoder RetryClause
  | .object fields => do
    (← fields.foldlM (fun draft field => Draft.set draft field.1 field.2) {}).finish
  | .array items => do
    let draft ← (fieldNames.zip items).foldlM
      (fun draft field => Draft.set draft field.1 field.2) {}
    RecordKind.retryClause.checkLength [0] items.length
    draft.finish
  | value => .error (.wrongType value (.record .retryClause))

end RetryClause

/-! ## Catch clauses -/

/-- The fields of a catch clause that are known so far. -/
structure CatchClause.Draft where
  errorEquals : Option (List String) := none
  resultPath : Option String := none
  next : Option String := none

namespace CatchClause

/-- The fields of a catch clause, in order. -/
def fieldNames : List String := ["ErrorEquals", "ResultPath", "Next"]

/-- Takes one field up. -/
def Draft.set (draft : Draft) (name : String) (value : Json) : Except DecodeError Draft :=
  match name with
  | "ErrorEquals" =>
    (Decoder.list .string value).map fun v => { draft with errorEquals := some v }
  | "ResultPath" => (Decoder.optional .string value).map fun v => { draft with resultPath := v }
  | "Next" => (Decoder.string value).map fun v => { draft with next := some v }
  | _ => .ok draft

/-- The clause of a draft. -/
def Draft.finish (draft : Draft) : Except DecodeError CatchClause := do
  let errorEquals ← requireField "ErrorEquals" draft.errorEquals
  let next ← requireField "Next" draft.next
  return { errorEquals, resultPath := draft.resultPath, next }

/-- Decodes a clause. -/
def ofJson : Decoder CatchClause
  | .object fields => do
    (← fields.foldlM (fun draft field => Draft.set draft field.1 field.2) {}).finish
  | .array items => do
    let draft ← (fieldNames.zip items).foldlM
      (fun draft field => Draft.set draft field.1 field.2) {}
    RecordKind.catchClause.checkLength [0, 2] items.length
    draft.finish
  | value => .error (.wrongType value (.record .catchClause))

end CatchClause

/-! ## Choice rules -/

namespace ChoiceClause

/-- The field of a rule that has to be a string. -/
def textField (name : String) (fields : List (String × Json)) : Except DecodeError String :=
  match Entries.get? name fields with
  | some (.string s) => .ok s
  | some value => .error (.notText name value)
  | none => .error (.missing name)

/-- Decodes a rule: an object with a variable, a target and exactly one field more, which is named
after a predicate. -/
def ofJson : Decoder ChoiceClause
  | .object fields => do
    let variablePath ← textField "Variable" fields
    let next ← textField "Next" fields
    match Entries.erase "Next" (Entries.erase "Variable" fields) with
    | [(name, value)] =>
      match Predicate.ofName? name with
      | some predicate => return { variablePath, predicate, value, next }
      | none => .error (.unknownPredicate name)
    | others => .error (.predicateCount others.length)
  | value => .error (.wrongType value .map)

end ChoiceClause

/-! ## Types of states -/

/-- The type of a name. -/
def StateType.decodeName (name : String) : Except DecodeError StateType :=
  match StateType.ofName? name with
  | some type => .ok type
  | none => .error (.unknownType name)

/-- Decodes a type: its name, or an object whose only field has that name and the value null. -/
def StateType.ofJson : Decoder StateType
  | .string name => StateType.decodeName name
  | .object [(name, payload)] => do
    let type ← StateType.decodeName name
    match payload with
    | .null => return type
    | payload => .error (.wrongType payload .unit)
  | .object _ => .error .notSingle
  | value => .error (.wrongType value .typeName)

/-! ## States and branches -/

/-- A state of which fields are known, and whether its type is among them. -/
structure State.Draft where
  state : State := {}
  typed : Bool := false

namespace State

/-- Takes up a field other than the branches. Null stands for an absent value, except for the
type. -/
def Draft.set (draft : Draft) (p : Property) (value : Json) : Except DecodeError Draft :=
  let s := draft.state
  let put (s : Except DecodeError State) : Except DecodeError Draft :=
    s.map fun s => { draft with state := s }
  let string (field : Option String → State) := put ((Decoder.optional .string value).map field)
  let count (field : Option UInt64 → State) := put ((Decoder.optional .count64 value).map field)
  match p with
  | .type => (StateType.ofJson value).map fun v => { state := { s with type := v }, typed := true }
  | .comment => string fun v => { s with comment := v }
  | .resource => string fun v => { s with resource := v }
  | .parameters => put ((Decoder.optional .data value).map fun v => { s with parameters := v })
  | .result => put ((Decoder.optional .data value).map fun v => { s with result := v })
  | .inputPath => string fun v => { s with inputPath := v }
  | .outputPath => string fun v => { s with outputPath := v }
  | .resultPath => string fun v => { s with resultPath := v }
  | .next => string fun v => { s with next := v }
  | .finish => put ((Decoder.optional .boolean value).map fun v => { s with finish := v })
  | .retry =>
    put ((Decoder.optional (.list RetryClause.ofJson) value).map fun v => { s with retry := v })
  | .catches =>
    put ((Decoder.optional (.list CatchClause.ofJson) value).map fun v => { s with catches := v })
  | .choices =>
    put ((Decoder.optional (.list ChoiceClause.ofJson) value).map fun v => { s with choices := v })
  | .default => string fun v => { s with default := v }
  | .timeoutSeconds => count fun v => { s with timeoutSeconds := v }
  | .heartbeatSeconds => count fun v => { s with heartbeatSeconds := v }
  | .seconds => count fun v => { s with seconds := v }
  | .secondsPath => string fun v => { s with secondsPath := v }
  | .timestamp => string fun v => { s with timestamp := v }
  | .timestampPath => string fun v => { s with timestampPath := v }
  | .cause => string fun v => { s with cause := v }
  | .error => string fun v => { s with error := v }
  | .branches | .name | .other _ => .ok draft

/-- The state of a draft. -/
def Draft.finish (draft : Draft) : Except DecodeError State :=
  if draft.typed then .ok draft.state else .error (.missing "Type")

end State

mutual

/-- Decodes a state. -/
def State.ofJson : Json → Except DecodeError State
  | .object fields => do
    (← State.ofFields {} fields).finish
  | .array items => do
    let draft ← State.ofItems {} State.fieldOrder items
    RecordKind.state.checkLength [0] items.length
    draft.finish
  | .null => .error (.wrongType .null (.record .state))
  | .bool b => .error (.wrongType (.bool b) (.record .state))
  | .number n => .error (.wrongType (.number n) (.record .state))
  | .string s => .error (.wrongType (.string s) (.record .state))

/-- Takes up the fields of an object in the order in which they are written. -/
def State.ofFields (draft : State.Draft) : List (String × Json) → Except DecodeError State.Draft
  | [] => .ok draft
  | (name, value) :: rest => do
    if name = "Branches" then
      let branches ← optionalBranches value
      State.ofFields { draft with state := { draft.state with branches } } rest
    else
      State.ofFields (← draft.set (Property.ofText name) value) rest

/-- Takes up the members of an array for the fields in order. -/
def State.ofItems (draft : State.Draft) :
    List Property → List Json → Except DecodeError State.Draft
  | p :: ps, value :: rest => do
    if p = .branches then
      let branches ← optionalBranches value
      State.ofItems { draft with state := { draft.state with branches } } ps rest
    else
      State.ofItems (← draft.set p value) ps rest
  | _, _ => .ok draft

/-- Decodes the branches of a state, which null leaves absent. -/
def optionalBranches : Json → Except DecodeError (Option (List Branch))
  | .null => .ok none
  | .array items => (branchesOfJson items).map some
  | .bool b => .error (.wrongType (.bool b) .sequence)
  | .number n => .error (.wrongType (.number n) .sequence)
  | .string s => .error (.wrongType (.string s) .sequence)
  | .object fields => .error (.wrongType (.object fields) .sequence)

/-- Decodes branches. -/
def branchesOfJson : List Json → Except DecodeError (List Branch)
  | [] => .ok []
  | value :: rest => do
    let branch ← Branch.ofJson value
    let branches ← branchesOfJson rest
    return branch :: branches

/-- Decodes a branch. -/
def Branch.ofJson : Json → Except DecodeError Branch
  | .object fields => do
    let (startAt, states) ← Branch.ofFields none none fields
    return ⟨← requireField "StartAt" startAt, ← requireField "States" states⟩
  | .array [] => .error (.tooShort 0 .branch)
  | .array [startAt] => do
    let _ ← Decoder.string startAt
    .error (.tooShort 1 .branch)
  | .array (startAt :: states :: rest) => do
    let startAt ← Decoder.string startAt
    let states ← statesOfJson states
    if rest.isEmpty then return ⟨startAt, states⟩ else .error (.tooLong (rest.length + 2))
  | .null => .error (.wrongType .null (.record .branch))
  | .bool b => .error (.wrongType (.bool b) (.record .branch))
  | .number n => .error (.wrongType (.number n) (.record .branch))
  | .string s => .error (.wrongType (.string s) (.record .branch))

/-- Takes up the fields of an object in the order in which they are written. -/
def Branch.ofFields (startAt : Option String) (states : Option (List (String × State))) :
    List (String × Json) → Except DecodeError (Option String × Option (List (String × State)))
  | [] => .ok (startAt, states)
  | (name, value) :: rest => do
    if name = "StartAt" then
      Branch.ofFields (some (← Decoder.string value)) states rest
    else if name = "States" then
      let found ← statesOfJson value
      Branch.ofFields startAt (some found) rest
    else
      Branch.ofFields startAt states rest

/-- Decodes the states of a branch. -/
def statesOfJson : Json → Except DecodeError (List (String × State))
  | .object fields => stateEntriesOfJson fields
  | .null => .error (.wrongType .null .map)
  | .bool b => .error (.wrongType (.bool b) .map)
  | .number n => .error (.wrongType (.number n) .map)
  | .string s => .error (.wrongType (.string s) .map)
  | .array items => .error (.wrongType (.array items) .map)

/-- Decodes states under their names. -/
def stateEntriesOfJson : List (String × Json) → Except DecodeError (List (String × State))
  | [] => .ok []
  | (name, value) :: rest => do
    let state ← State.ofJson value
    let states ← stateEntriesOfJson rest
    return (name, state) :: states

end

end Flowscript
