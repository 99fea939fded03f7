import Flowscript.Proofs.Remembering
import Flowscript.Proofs.SingleStates

/-!
# Tasks as lists

A shorthand task may be written as a list of its resource and of what surrounds it. What a member
means depends on its place and on the first member. The lists that are taken are those of a few
layouts, and each of their members comes into the task. A list that a reference stands for is taken
like one that is written.
-/

namespace Flowscript

/-! ## Paths in their places -/

/-- How a result path is written; null stands for none. -/
def Node.ofPath : Option String → Node
  | none => .null
  | some path => .string path

theorem readPath_ofPath (path : Option String) : readPath (.ofPath path) = .ok path := by
  cases path <;> rfl

theorem eq_ofPath_of_readPath {node : Node} {path : Option String} (h : readPath node = .ok path) :
    node = .ofPath path := by
  cases node <;> cases h <;> rfl

theorem readData_of_ofJson {node : Node} {value : Json} (h : Node.ofJson value = node) :
    Property.readData node = .ok value := by
  rw [← h, Node.readData_ofJson]

/-! ## Layouts -/

/-- What a task is made of. -/
structure TaskParts where
  resource : String
  parameters : Option Json := none
  inputPath : Option String := none
  resultPath : Option String := none

namespace TaskParts

/-- The parts in their places. -/
def outline (parts : TaskParts) : TaskOutline where
  resource := .string parts.resource
  parameters := parts.parameters
  inputPath := parts.inputPath
  resultPath := parts.resultPath

/-- The task of the given parts; it has no other fields. -/
def state (parts : TaskParts) (name : String) : State :=
  { State.named name .task with
    resource := some parts.resource
    parameters := parts.parameters
    inputPath := parts.inputPath
    resultPath := parts.resultPath }

/-- The ways to write a task as a list. In front of the resource a text is an input path, and begins
with a dollar; a resource that comes first does not. A result path may be null, which is the same as
none. A third member behind a resource and its result path is null: there is nothing left for it to
be. -/
inductive Layout : TaskParts → List Node → Prop
  | resource {resource} : Layout { resource } [.string resource]
  | parameters {entries value resource} : Node.ofJson value = .mapping entries →
      Layout { resource, parameters := some value } [.mapping entries, .string resource]
  | parametersResult {entries value resource} (path) : Node.ofJson value = .mapping entries →
      Layout { resource, parameters := some value, resultPath := path }
        [.mapping entries, .string resource, .ofPath path]
  | input {input resource} : (∃ rest, input = "$" ++ rest) →
      Layout { resource, inputPath := some input } [.string input, .string resource]
  | inputResult {input resource} (path) : (∃ rest, input = "$" ++ rest) →
      Layout { resource, inputPath := some input, resultPath := path }
        [.string input, .string resource, .ofPath path]
  | result {resource} (path) : (∀ rest, resource ≠ "$" ++ rest) →
      Layout { resource, resultPath := path } [.string resource, .ofPath path]
  | resultNull {resource} (path) : (∀ rest, resource ≠ "$" ++ rest) →
      Layout { resource, resultPath := path } [.string resource, .ofPath path, .null]

/-- Two or three parts in a row that are read as a task are in one of the layouts. The third one is
null if there are two. -/
theorem Layout.of_ofParts {first second third : Node} {parts : TaskParts}
    (h : TaskOutline.ofParts first second third = .ok parts.outline) :
    parts.Layout [first, second, third] ∧ (third = .null → parts.Layout [first, second]) := by
  obtain ⟨resource, parameters, inputPath, resultPath⟩ := parts
  rcases TaskOutline.ofParts_cases h with ⟨entries, value, path, rfl, hvalue, hpath, hparts⟩ |
    ⟨input, path, rfl, hstarts, hpath, hparts⟩ | ⟨hstarts, rfl, path, hpath, hparts⟩
  -- where a third member is read as a path, a null in its place is the same as two members
  · cases hparts
    have hdata := (Node.eq_ofJson_of_readData hvalue).symm
    obtain rfl := eq_ofPath_of_readPath hpath
    refine ⟨.parametersResult resultPath hdata, fun hnull => ?_⟩
    cases resultPath with
    | none => exact .parameters hdata
    | some path => cases hnull
  · cases hparts
    obtain rfl := eq_ofPath_of_readPath hpath
    have hdollar := startsPath_iff.mp hstarts
    refine ⟨.inputResult resultPath hdollar, fun hnull => ?_⟩
    cases resultPath with
    | none => exact .input hdollar
    | some path => cases hnull
  · cases hparts
    obtain rfl := eq_ofPath_of_readPath hpath
    have hplain := startsPath_eq_false_iff.mp (hstarts resource rfl)
    exact ⟨.resultNull resultPath hplain, fun _ => .result resultPath hplain⟩

/-- A list is read as a task with a text for its resource exactly if it is in one of the layouts. -/
theorem ofNode_eq_ok_iff {items : List Node} {parts : TaskParts} :
    TaskOutline.ofNode (.sequence items) = .ok parts.outline ↔ parts.Layout items := by
  constructor
  · intro h
    match items with
    | [] => cases h
    | [resource] =>
      obtain ⟨text, parameters, inputPath, resultPath⟩ := parts
      cases h
      exact .resource
    | [first, second] => exact (Layout.of_ofParts h).2 rfl
    | [first, second, third] => exact (Layout.of_ofParts h).1
    | _ :: _ :: _ :: _ :: _ => cases h
  · intro h
    cases h with
    | resource => rfl
    | parameters hdata =>
      have hread := readData_of_ofJson hdata
      simp only [TaskOutline.ofNode, TaskOutline.ofParts, hread]
      rfl
    | parametersResult path hdata =>
      have hread := readData_of_ofJson hdata
      simp only [TaskOutline.ofNode, TaskOutline.ofParts, hread, readPath_ofPath]
      rfl
    | input hdollar =>
      have hstarts := startsPath_iff.mpr hdollar
      simp only [TaskOutline.ofNode, TaskOutline.ofParts, hstarts]
      rfl
    | inputResult path hdollar =>
      have hstarts := startsPath_iff.mpr hdollar
      simp only [TaskOutline.ofNode, TaskOutline.ofParts, hstarts, readPath_ofPath]
      rfl
    | result path hplain =>
      have hstarts := startsPath_eq_false_iff.mpr hplain
      simp only [TaskOutline.ofNode, TaskOutline.ofParts, hstarts, readPath_ofPath]
      rfl
    | resultNull path hplain =>
      have hstarts := startsPath_eq_false_iff.mpr hplain
      simp only [TaskOutline.ofNode, TaskOutline.ofParts, hstarts, readPath_ofPath]
      rfl

end TaskParts

namespace Compile

/-- Every reference has a name. -/
theorem exists_outcome_shortName (fresh : Bool) (reference : String) (memory : Memory) :
    ∃ name after, (shortName fresh reference).outcome memory = (.ok name, after) := by
  cases fresh with
  | true => exact ⟨_, _, outcome_generateName (lastSegment reference) memory⟩
  | false =>
    rw [outcome_shortName]
    split
    · exact ⟨_, _, rfl⟩
    · split <;> exact ⟨_, _, rfl⟩

end Compile

/-- The task of parts in their places has them all, under the short name of its resource. -/
theorem taskState_outline (fresh : Bool) (parts : TaskParts) :
    taskState fresh parts.outline = parts.state <$> Compile.shortName fresh parts.resource := by
  rw [← bind_pure_comp]
  rfl

theorem exists_parts_of_taskState {fresh : Bool} {outline : TaskOutline} {memory after : Memory}
    {s : State} (h : (taskState fresh outline).outcome memory = (.ok s, after)) :
    ∃ parts : TaskParts, outline = parts.outline := by
  obtain ⟨resource, parameters, inputPath, resultPath⟩ := outline
  cases resource with
  | string resource => exact ⟨⟨resource, parameters, inputPath, resultPath⟩, rfl⟩
  | _ => cases h

/-! ## References that stand for tasks -/

/-- The memories differ in one notice, which the first of them took up before both went on. -/
structure Memory.OneMore (notice : Notice) (before : List Notice) (first second : Memory) :
    Prop where
  symbols : first.symbols = second.symbols
  names : first.names = second.names
  journal : ∃ later, first.journal = later ++ notice :: before ∧ second.journal = later ++ before

theorem Memory.lockstep_oneMore (notice : Notice) (before : List Notice) :
    Lockstep (OneMore notice before) where
  -- both take up the same notices later, so these come in front of the one that sets them apart
  noting := by
    rintro first second other ⟨hsymbols, hnames, later, hfirst, hsecond⟩ -
    refine ⟨hsymbols, hnames, other :: later, ?_, ?_⟩
    · simp [noting, hfirst]
    · simp [noting, hsecond]
  generating := by
    rintro stem first second ⟨hsymbols, hnames, later, hfirst, hsecond⟩
    rw [Compile.outcome_generateName, Compile.outcome_generateName, hsymbols]
    refine ⟨rfl, rfl, hnames, .symbolAllocated (second.symbols.next stem).1 :: later, ?_, ?_⟩
    · simp [noting, hfirst]
    · simp [noting, hsecond]
  naming := by
    rintro reference first second ⟨hsymbols, hnames, later, hfirst, hsecond⟩
    rw [Compile.outcome_shortName, Compile.outcome_shortName, hnames]
    split
    · exact ⟨rfl, hsymbols, hnames, later, hfirst, hsecond⟩
    · split
      · exact ⟨rfl, hsymbols, hnames, later, hfirst, hsecond⟩
      · refine ⟨rfl, hsymbols, ?_, .referenceNamed reference (Compile.lastSegment reference) :: later,
          ?_, ?_⟩
        · simp [naming, hnames]
        · simp [naming, noting, hfirst]
        · simp [naming, noting, hsecond]

namespace Setting

variable (setting : Setting) (fresh : Bool)

/-- The reference is compiled like the node: both give back the same and leave the same behind,
except that what the reference stands for is noted first. -/
def TakesAs (reference : String) (value : Json) (node : Node) : Prop :=
  ∀ memory : Memory,
    ((setting.shorthand fresh (.string reference)).outcome memory).1 =
        ((setting.shorthand fresh node).outcome memory).1 ∧
      Memory.OneMore (.referenceResolved reference value) memory.journal
        ((setting.shorthand fresh (.string reference)).outcome memory).2
        ((setting.shorthand fresh node).outcome memory).2

variable {setting fresh}

/-- Nothing is resolved for a list. -/
theorem outcome_shorthand_sequence (items : List Node) (memory : Memory) :
    (setting.shorthand fresh (.sequence items)).outcome memory =
      (do
        let outline ← Compile.ofExcept (TaskOutline.ofNode (.sequence items))
        taskState fresh outline : Compile State).outcome memory := rfl

/-- A reference is compiled like a list if it stands for something that is read like the list. -/
theorem takesAs_sequence {reference : String} {value : Json} {items : List Node}
    (hvalue : setting.resolver reference = .ok (some value))
    (hmachine : (Node.ofJson value).isMachine = false)
    (hread : TaskOutline.ofNode (.ofJson value) = TaskOutline.ofNode (.sequence items)) :
    setting.TakesAs fresh reference value (.sequence items) := by
  intro memory
  have hresolved : (setting.shorthand fresh (.string reference)).outcome memory =
      (setting.shorthand fresh (.sequence items)).outcome
        (memory.noting (.referenceResolved reference value)) := by
    have hresolve : (setting.resolve reference).outcome memory =
        (.ok (.ofJson value), memory.noting (.referenceResolved reference value)) := by
      rw [resolve, hvalue]
      rfl
    rw [outcome_shorthand_sequence, ← hread, shorthand, Compile.outcome_bind_ok hresolve]
    dsimp only
    rw [hmachine]
    rfl
  rw [hresolved]
  exact (Memory.lockstep_oneMore _ memory.journal).shorthand fresh
    (Setting.saysAlike_self setting).self _ memory ⟨rfl, rfl, [], rfl, rfl⟩

/-- A list in one of the layouts is compiled to a task of its parts. -/
theorem outcome_shorthand_of_layout {items : List Node} {parts : TaskParts}
    (h : parts.Layout items) (memory : Memory) :
    (setting.shorthand fresh (.sequence items)).outcome memory =
      (parts.state <$> Compile.shortName fresh parts.resource).outcome memory := by
  rw [outcome_shorthand_sequence, TaskParts.ofNode_eq_ok_iff.mpr h, ← taskState_outline]
  rfl

/-- What is compiled is in one of the layouts. -/
theorem exists_layout {items : List Node} {memory after : Memory} {s : State}
    (h : (setting.shorthand fresh (.sequence items)).outcome memory = (.ok s, after)) :
    ∃ parts : TaskParts, parts.Layout items := by
  rw [outcome_shorthand_sequence] at h
  obtain ⟨outline, between, houtline, h⟩ := Compile.ok_of_bind h
  obtain ⟨parts, rfl⟩ := exists_parts_of_taskState h
  refine ⟨parts, TaskParts.ofNode_eq_ok_iff.mp ?_⟩
  cases hread : TaskOutline.ofNode (.sequence items) with
  | error cause =>
    rw [hread] at houtline
    cases houtline
  | ok outline =>
    rw [hread] at houtline
    cases houtline
    rfl

/-! ## The main statement -/

/-- A list is compiled exactly if it is in one of the layouts; what comes out is a task of its parts
with the short name of its resource, and no other fields. The parameters in a layout are any mapping
without tags. A reference that stands for an array is compiled like the array, one that stands for a
string like the list of that string. -/
theorem shorthand_list_exact (setting : Setting) (fresh : Bool) :
    (∀ (items : List Node) (memory : Memory),
      (∃ s after, (setting.shorthand fresh (.sequence items)).outcome memory = (.ok s, after)) ↔
        ∃ parts : TaskParts, parts.Layout items) ∧
    (∀ (items : List Node) (parts : TaskParts), parts.Layout items → ∀ memory,
      (setting.shorthand fresh (.sequence items)).outcome memory =
        (parts.state <$> Compile.shortName fresh parts.resource).outcome memory) ∧
    (∀ entries, (Node.mapping entries).TagFree ↔ ∃ value, Node.ofJson value = .mapping entries) ∧
    (∀ reference answers, setting.resolver reference = .ok (some (.array answers)) →
      setting.TakesAs fresh reference (.array answers) (.ofJson (.array answers))) ∧
    ∀ reference resource, setting.resolver reference = .ok (some (.string resource)) →
      setting.TakesAs fresh reference (.string resource) (.sequence [.string resource]) := by
  refine ⟨fun items memory => ⟨?_, ?_⟩, ?_, fun entries => Node.tagFree_iff _, ?_, ?_⟩
  · rintro ⟨s, after, h⟩
    exact exists_layout h
  · rintro ⟨parts, hlayout⟩
    obtain ⟨name, after, hname⟩ :=
      Compile.exists_outcome_shortName fresh parts.resource memory
    refine ⟨parts.state name, after, ?_⟩
    rw [outcome_shorthand_of_layout hlayout, Compile.outcome_map, hname]
  · intro items parts hlayout memory
    exact outcome_shorthand_of_layout hlayout memory
  · intro reference answers hanswer
    exact takesAs_sequence hanswer rfl rfl
  · intro reference resource hanswer
    exact takesAs_sequence hanswer rfl rfl

/-- Parameters before a resource and a result path behind it, in a list and behind a reference. -/
theorem shorthand_list_exact_parameters :
    let call : Json :=
      .array [.object [("id", .string "$.id")], .string "arn:call", .string "$.answer"]
    let parts : TaskParts :=
      { resource := "arn:call", parameters := some (.object [("id", .string "$.id")]),
        resultPath := some "$.answer" }
    let setting : Setting :=
      { resolver := .ofTable [("call", call), ("plain", .string "arn:call")] }
    (setting.shorthand false (.ofJson call)).outcome {} =
        (.ok (parts.state "call"), Memory.naming {} "arn:call") ∧
      setting.TakesAs false "call" call (.ofJson call) ∧
      setting.TakesAs false "plain" (.string "arn:call") (.sequence [.string "arn:call"]) := by
  intro call parts setting
  obtain ⟨-, hstate, -, harray, hstring⟩ := shorthand_list_exact setting false
  refine ⟨?_, harray "call" _ rfl, hstring "plain" "arn:call" rfl⟩
  have hlayout : parts.Layout
      [.ofJson (.object [("id", .string "$.id")]), .string "arn:call", .string "$.answer"] :=
    .parametersResult (some "$.answer") rfl
  have hname : (Compile.shortName false "arn:call").outcome {} =
      (.ok "call", Memory.naming {} "arn:call") := by
    rw [Compile.outcome_shortName, if_neg (by decide)]
    rfl
  refine (hstate _ parts hlayout {}).trans ?_
  rw [Compile.outcome_map, hname]

end Setting

end Flowscript
