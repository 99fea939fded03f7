import Flowscript.Compile
import Flowscript.Property.StateFields
import Flowscript.Reader

/-!
# Shorthand tasks

A task may be written as its resource alone, or as a short list of the resource and what surrounds
it: parameters or an input path in front, a result path behind. A reference that stands for a whole
machine becomes a state that runs the machine.
-/

namespace Flowscript

/-- The parts of a task in their places. -/
structure TaskOutline where
  resource : Node
  parameters : Option Json := none
  inputPath : Option String := none
  resultPath : Option String := none

/-- A result path, or null for none. -/
def readPath : Node → Except SyntaxError (Option String)
  | .null => .ok none
  | .string path => .ok (some path)
  | node => .error (.pathNotText node.shape)

/-- Whether a text is a path into the state's data. -/
def startsPath (text : String) : Bool := text.toList.head? = some '$'

/-- A path is a text that begins with a dollar. -/
theorem startsPath_iff {text : String} : startsPath text = true ↔ ∃ rest, text = "$" ++ rest := by
  rw [startsPath, decide_eq_true_iff, List.head?_eq_some_iff]
  constructor
  · rintro ⟨rest, h⟩
    refine ⟨String.ofList rest, String.toList_inj.mp ?_⟩
    simp [h]
  · rintro ⟨rest, rfl⟩
    exact ⟨rest.toList, String.toList_append⟩

theorem startsPath_eq_false_iff {text : String} :
    startsPath text = false ↔ ∀ rest, text ≠ "$" ++ rest := by
  rw [← Bool.not_eq_true, startsPath_iff, not_exists]

/-- The parts of a task that is written as a list of two or three. -/
def TaskOutline.ofParts (first second third : Node) : Except SyntaxError TaskOutline := do
  let plain : Except SyntaxError TaskOutline :=
    if !third.isNull then .error .misplacedThird
    else do return { resource := first, resultPath := ← readPath second }
  match first with
  | .mapping _ =>
    let parameters ← Property.readData first
    return { resource := second, parameters := parameters, resultPath := ← readPath third }
  | .string path =>
    if startsPath path then
      return { resource := second, inputPath := path, resultPath := ← readPath third }
    else plain
  | _ => plain

/-- The parts of a task. -/
def TaskOutline.ofNode : Node → Except SyntaxError TaskOutline
  | .sequence [] => .error .emptyShorthand
  | .sequence [resource] => .ok { resource := resource }
  | .sequence [first, second] => ofParts first second .null
  | .sequence [first, second, third] => ofParts first second third
  | .sequence items => .error (.longShorthand items.length)
  | resource => .ok { resource := resource }

/-- A task with the given parts, named for its resource. -/
def taskState (fresh : Bool) (outline : TaskOutline) : Compile State :=
  match outline.resource with
  | .string resource => do
    let name ← Compile.shortName fresh resource
    return { State.named name .task with
      resource := resource
      parameters := outline.parameters
      inputPath := outline.inputPath
      resultPath := outline.resultPath }
  | node => Compile.refuse (.resourceNotText node.shape)

/-- The path to the last output of a state's only branch. -/
def lastOutput : String := "$.0[-1:]"

/-- A machine that is written out in full. -/
def readMachine (cause : DecodeError → SyntaxError) (node : Node) : Except SyntaxError Branch := do
  let value ← Property.readData node
  match Branch.ofJson value with
  | .ok machine => return machine
  | .error fault => throw (cause fault)

/-- A state that runs the machine which a reference stands for. -/
def submachineState (reference : String) (machine : Node) : Compile State := do
  let machine ← Compile.ofExcept (readMachine (.invalidMachine reference) machine)
  let name ← Compile.generateName reference
  return { State.named name .parallel with
    branches := some [machine]
    outputPath := lastOutput }

/-- What a reference stands for; one that stands for nothing else stands for itself. -/
def Setting.resolve (setting : Setting) (reference : String) : Compile Node := do
  match setting.resolver reference with
  | .error message => throw (.unresolved reference message)
  | .ok none => return .string reference
  | .ok (some value) =>
    Compile.note (.referenceResolved reference value)
    return .ofJson value

/-- The state of a shorthand task. A string is resolved once; what it stands for is taken as it
is. -/
def Setting.shorthand (setting : Setting) (fresh : Bool) (node : Node) : Compile State := do
  let resolved ←
    match node with
    | .string reference => setting.resolve reference
    | node => pure node
  if resolved.isMachine then submachineState (node.string?.getD "") resolved
  else
    let outline ← Compile.ofExcept (TaskOutline.ofNode resolved)
    taskState fresh outline

end Flowscript
