import Flowscript.Property.StateFields

/-!
# Fields of a state, one at a time

A state is read from properties and decoded from JSON field by field. Both take over single fields
of some state, and taking over a field changes no other.
-/

namespace Flowscript

/-- Every name of a property means that property. -/
theorem Property.ofKey?_text {p : Property} (h : p ∈ canonical) : ofKey? p.text = some p := by
  have hall : ∀ p ∈ canonical, ofKey? p.text = some p := by decide +kernel
  exact hall p h

namespace State

/-- The state with one field of another state, if that field is there. -/
def adopt (s : State) (p : Property) (source : State) : State :=
  match p with
  | .type => { s with type := source.type }
  | .name => { s with name := source.name.or s.name }
  | .comment => { s with comment := source.comment.or s.comment }
  | .resource => { s with resource := source.resource.or s.resource }
  | .parameters => { s with parameters := source.parameters.or s.parameters }
  | .result => { s with result := source.result.or s.result }
  | .inputPath => { s with inputPath := source.inputPath.or s.inputPath }
  | .outputPath => { s with outputPath := source.outputPath.or s.outputPath }
  | .resultPath => { s with resultPath := source.resultPath.or s.resultPath }
  | .next => { s with next := source.next.or s.next }
  | .finish => { s with finish := source.finish.or s.finish }
  | .retry => { s with retry := source.retry.or s.retry }
  | .catches => { s with catches := source.catches.or s.catches }
  | .branches => { s with branches := source.branches.or s.branches }
  | .choices => { s with choices := source.choices.or s.choices }
  | .default => { s with default := source.default.or s.default }
  | .timeoutSeconds => { s with timeoutSeconds := source.timeoutSeconds.or s.timeoutSeconds }
  | .heartbeatSeconds =>
    { s with heartbeatSeconds := source.heartbeatSeconds.or s.heartbeatSeconds }
  | .seconds => { s with seconds := source.seconds.or s.seconds }
  | .secondsPath => { s with secondsPath := source.secondsPath.or s.secondsPath }
  | .timestamp => { s with timestamp := source.timestamp.or s.timestamp }
  | .timestampPath => { s with timestampPath := source.timestampPath.or s.timestampPath }
  | .cause => { s with cause := source.cause.or s.cause }
  | .error => { s with error := source.error.or s.error }
  | .other _ => s

/-- Adopting a field changes no other field. -/
theorem fieldJson_adopt {p q : Property} (h : q ≠ p) (s source : State) (branches : Option Json) :
    (s.adopt p source).fieldJson branches q = s.fieldJson branches q := by
  cases q <;> cases p <;> first | rfl | exact absurd rfl h

/-- All written fields of a state together make up the state, apart from its name. -/
theorem foldl_adopt_fieldOrder (name : Option String) (source : State) :
    fieldOrder.foldl (fun s p => s.adopt p source) { name := name } =
      { source with name := name } := by
  simp [fieldOrder, adopt]

/-- What is read from a property is that property's own field. -/
theorem eq_adopt_of_read {s t : State} {p : Property} {node : Node} (h : s.read p node = .ok t) :
    t = s.adopt p t ∧ t.branches = s.branches := by
  cases p with
  | branches =>
    cases h
    exact ⟨by cases s; simp [adopt], rfl⟩
  | other text =>
    cases h
    exact ⟨rfl, rfl⟩
  | _ =>
    simp only [read, bind, Except.bind] at h
    split at h <;> cases h
    constructor <;> rfl

/-- Reading a property changes no other field. -/
theorem fieldJson_read {s t : State} {p q : Property} {node : Node} (h : s.read p node = .ok t)
    (hq : q ≠ p) : t.fieldJson none q = s.fieldJson none q := by
  rw [(eq_adopt_of_read h).1]
  exact fieldJson_adopt hq s t none

theorem name_read {s t : State} {p : Property} {node : Node} (h : s.read p node = .ok t)
    (hp : p ≠ .name) : t.name = s.name := by
  rw [(eq_adopt_of_read h).1]
  cases p <;> first | rfl | exact absurd rfl hp

end State
end Flowscript
