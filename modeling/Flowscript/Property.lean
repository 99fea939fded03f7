/-!
# Properties of a state

The names under which a state's fields are written. The order of `Property.canonical` is the order
of preference when an abbreviation fits several names.
-/

namespace Flowscript

/-- A field of a state. A name that is no field's is carried along as `other`. -/
inductive Property where
  | type | inputPath | outputPath | resource | result | resultPath | retry | parameters
  | name | next | finish | branches | catches | choices | default | timeoutSeconds
  | heartbeatSeconds | seconds | secondsPath | timestamp | timestampPath | cause | error
  | comment
  | other (text : String)
deriving DecidableEq

namespace Property

/-- The written name of a property. -/
def text : Property → String
  | .type => "Type"
  | .inputPath => "InputPath"
  | .outputPath => "OutputPath"
  | .resource => "Resource"
  | .result => "Result"
  | .resultPath => "ResultPath"
  | .retry => "Retry"
  | .parameters => "Parameters"
  | .name => "Name"
  | .next => "Next"
  | .finish => "End"
  | .branches => "Branches"
  | .catches => "Catch"
  | .choices => "Choices"
  | .default => "Default"
  | .timeoutSeconds => "TimeoutSeconds"
  | .heartbeatSeconds => "HeartbeatSeconds"
  | .seconds => "Seconds"
  | .secondsPath => "SecondsPath"
  | .timestamp => "Timestamp"
  | .timestampPath => "TimestampPath"
  | .cause => "Cause"
  | .error => "Error"
  | .comment => "Comment"
  | .other text => text

/-- The properties that have a meaning. -/
def canonical : List Property := [
  .type, .inputPath, .outputPath, .resource, .result, .resultPath, .retry, .parameters,
  .name, .next, .finish, .branches, .catches, .choices, .default, .timeoutSeconds,
  .heartbeatSeconds, .seconds, .secondsPath, .timestamp, .timestampPath, .cause, .error,
  .comment]

/-- The property of a given name, spelled exactly. -/
def ofText (text : String) : Property :=
  (canonical.find? fun p => p.text = text).getD (.other text)

theorem text_ofText (s : String) : (ofText s).text = s := by
  simp only [ofText]
  cases h : canonical.find? fun p => p.text = s with
  | none => rfl
  | some p => simpa using List.find?_some h

end Property
end Flowscript
