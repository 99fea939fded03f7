import Flowscript.Machine.State
import Flowscript.Property

/-!
# Machines as JSON

The JSON form of a machine. The fields of a state are written in the order of `State.fieldOrder`,
those without a value not at all; data that a state holds is written as it is.
-/

namespace Flowscript

/-- A list of texts. -/
def textArray (texts : List String) : Json := .array (texts.map .string)

/-- A count. -/
def countNumber (n : Nat) : Json := .number (.whole n)

/-- The JSON form of a clause. -/
def RetryClause.toJson (c : RetryClause) : Json :=
  .object [("ErrorEquals", textArray c.errorEquals),
    ("MaxAttempts", countNumber c.maxAttempts.toNat),
    ("IntervalSeconds", countNumber c.intervalSeconds.toNat),
    ("BackoffRate", .number (.real c.backoffRate))]

/-- The JSON form of a clause. -/
def CatchClause.toJson (c : CatchClause) : Json :=
  .object ([("ErrorEquals", textArray c.errorEquals)] ++
    (c.resultPath.map fun path => ("ResultPath", Json.string path)).toList ++
    [("Next", .string c.next)])

/-- The JSON form of a clause: the predicate's name is the name of the field that holds the
value. -/
def ChoiceClause.toJson (c : ChoiceClause) : Json :=
  .object [("Variable", .string c.variablePath), (c.predicate.name, c.value),
    ("Next", .string c.next)]

/-- The fields of a state in the order in which they are written. -/
def State.fieldOrder : List Property := [
  .type, .comment, .resource, .parameters, .result, .inputPath, .outputPath, .resultPath, .next,
  .finish, .retry, .catches, .branches, .choices, .default, .timeoutSeconds, .heartbeatSeconds,
  .seconds, .secondsPath, .timestamp, .timestampPath, .cause, .error]

/-- The value of a state's field, given that of its branches. -/
def State.fieldJson (s : State) (branches : Option Json) : Property → Option Json
  | .type => some (.string s.type.name)
  | .comment => s.comment.map .string
  | .resource => s.resource.map .string
  | .parameters => s.parameters
  | .result => s.result
  | .inputPath => s.inputPath.map .string
  | .outputPath => s.outputPath.map .string
  | .resultPath => s.resultPath.map .string
  | .next => s.next.map .string
  | .finish => s.finish.map .bool
  | .retry => s.retry.map fun clauses => .array (clauses.map RetryClause.toJson)
  | .catches => s.catches.map fun clauses => .array (clauses.map CatchClause.toJson)
  | .branches => branches
  | .choices => s.choices.map fun clauses => .array (clauses.map ChoiceClause.toJson)
  | .default => s.default.map .string
  | .timeoutSeconds => s.timeoutSeconds.map fun n => countNumber n.toNat
  | .heartbeatSeconds => s.heartbeatSeconds.map fun n => countNumber n.toNat
  | .seconds => s.seconds.map fun n => countNumber n.toNat
  | .secondsPath => s.secondsPath.map .string
  | .timestamp => s.timestamp.map .string
  | .timestampPath => s.timestampPath.map .string
  | .cause => s.cause.map .string
  | .error => s.error.map .string
  | .name | .other _ => none

/-- The fields of a state that have a value. -/
def State.fields (s : State) (branches : Option Json) : List (String × Json) :=
  State.fieldOrder.filterMap fun p => (s.fieldJson branches p).map fun value => (p.text, value)

mutual

/-- The JSON form of a state; its name is not part of it. -/
def State.toJson : State → Json
  | s@⟨_, _, _, _, _, _, _, _, _, _, _, _, _, none, _, _, _, _, _, _, _, _, _, _⟩ =>
    .object (s.fields none)
  | s@⟨_, _, _, _, _, _, _, _, _, _, _, _, _, some branches, _, _, _, _, _, _, _, _, _, _⟩ =>
    .object (s.fields (some (.array (branchesToJson branches))))

/-- The JSON forms of the branches of a state. -/
def branchesToJson : List Branch → List Json
  | [] => []
  | branch :: rest => branch.toJson :: branchesToJson rest

/-- The JSON form of a branch. -/
def Branch.toJson : Branch → Json
  | ⟨startAt, states⟩ =>
    .object [("StartAt", .string startAt), ("States", .object (statesToJson states))]

/-- The JSON forms of the states of a branch under their names. -/
def statesToJson : List (String × State) → List (String × Json)
  | [] => []
  | (name, state) :: rest => (name, state.toJson) :: statesToJson rest

end

theorem State.toJson_eq (s : State) :
    s.toJson =
      .object (s.fields (s.branches.map fun branches => .array (branchesToJson branches))) := by
  obtain ⟨_, _, _, _, _, _, _, _, _, _, _, _, _, branches, _, _, _, _, _, _, _, _, _, _⟩ := s
  cases branches <;> rfl

end Flowscript
