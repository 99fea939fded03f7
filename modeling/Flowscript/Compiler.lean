import Flowscript.Property.Defaults
import Flowscript.Reader.Payload
import Flowscript.Shorthand

/-!
# The compiler

Compiles nodes to states and branches. A state is a tagged node, for whose tag there is a reader, a
shorthand task, or a mapping of properties. A branch is a list of items, each of which goes on with
the next unless something else is written; a list among the items runs its members side by side.
-/

namespace Flowscript

open Compile (refuse note)

/-! ## Linking -/

/-- Changes the last member of a list. -/
def changeLast {α : Type} (change : α → α) : List α → List α
  | [] => []
  | [a] => [change a]
  | a :: b :: rest => a :: changeLast change (b :: rest)

namespace State

/-- Whether the state still needs a transition. -/
def isOpen (s : State) : Bool := !s.isTerminal && !s.hasTransition

/-- Lets a state that needs a transition go on with `next`. -/
def linkTo (s : State) (next : String) : State :=
  if s.isOpen then { s with next := some next } else s

/-- Lets a state that needs a transition end. -/
def close (s : State) : State := if s.isOpen then { s with finish := some true } else s

end State

namespace Branch

/-- Appends a state, with which the one before it goes on. A state in a branch has no name of its
own. -/
def append (states : List (String × State)) (name : String) (s : State) : List (String × State) :=
  changeLast (fun (key, last) => (key, last.linkTo name)) states ++
    [(name, { s with name := none })]

/-- The branch of linked states: it starts at the first, and its last one ends. -/
def ofLinked (states : List (String × State)) : Branch :=
  ⟨(states.head?.map Prod.fst).getD "", changeLast (fun (key, last) => (key, last.close)) states⟩

end Branch

/-! ## Parts that compile no other node -/

/-- The state that the entries of a mapping describe, without its branches. A type that is forced
replaces the one that is written. -/
def explicitState (forced : Option StateType) (entries : Entries String Node) : Compile State := do
  (Properties.named entries).journal.reverse.forM note
  let properties := Properties.ofEntries entries
  let properties : Properties :=
    match forced with
    | some type => Entries.insert .type (.string type.name) properties
    | none => properties
  let properties ← properties.withDefaults
  Compile.ofExcept properties.toState

/-- A state that runs branches side by side. -/
def parallelState (branches : List Branch) : Compile State := do
  if branches.isEmpty then refuse .emptyParallel
  else
    let name ← Compile.generateName StateType.parallel.stem
    return { State.named name .parallel with branches := some branches }

/-- Takes up a compiled state into a branch, under its name or a generated one. -/
def appendState (states : List (String × State)) (s : State) : Compile (List (String × State)) := do
  let name ←
    match s.name with
    | some name => pure name
    | none => Compile.generateName s.type.stem
  if Entries.has name states then refuse (.repeatedState name)
  else return Branch.append states name s

/-- The branch of linked states. -/
def assembleBranch (states : List (String × State)) : Compile Branch := do
  let branch := Branch.ofLinked states
  note (.branchAssembled states.length branch.startAt)
  return branch

/-! ## The compiler -/

namespace Setting

variable (setting : Setting)

mutual

/-- Compiles a node to a state. A shorthand task gets a generated name if `fresh`. -/
def state (fresh : Bool) (node : Node) : Compile State := do
  match node with
  | .tagged tag payload =>
    match setting.readers.get? tag with
    | none => refuse (.unknownTag tag)
    | some reader =>
      note (.readerChosen tag)
      read reader payload
  | .string _ | .sequence _ => setting.shorthand fresh node
  | .mapping entries => mappingState none entries
  | _ => refuse (.notAState node.shape)
termination_by (node.height, 0, 0)
decreasing_by all_goals grind [Node.height]

/-- Compiles the entries of a mapping to a state, the branches among them included. -/
def mappingState (forced : Option StateType) (entries : Entries String Node) : Compile State := do
  let s ← explicitState forced entries
  match _found : (Properties.ofEntries entries).get? .branches with
  | none => return s
  | some node =>
    if node.isNull then return s
    else
      let branches ← branchList node.arguments
      return { s with branches := some branches }
termination_by (Node.entriesHeight entries, 5, 0)
decreasing_by
  obtain ⟨key, hkey⟩ := Properties.exists_mem_of_get? _found
  have := Node.height_le_entriesHeight hkey
  have := Node.itemsHeight_arguments_le node
  grind

/-- Compiles each node of a list to a branch. -/
def branchList (items : List Node) : Compile (List Branch) := do
  match items with
  | [] => return []
  | item :: rest =>
    let first ← branch item
    let others ← branchList rest
    return first :: others
termination_by (Node.itemsHeight items, 4, items.length)
decreasing_by all_goals grind [Node.itemsHeight]

/-- Compiles a node to a branch. A machine that is written out in full is the branch itself. -/
def branch (node : Node) : Compile Branch := do
  if node.isMachine then Compile.ofExcept (readMachine .invalidBranch node)
  else if node.arguments.isEmpty then refuse .emptyBranch
  else
    let states ← sequence [] node.arguments
    assembleBranch states
termination_by (node.height, 3, 0)
decreasing_by
  have := Node.itemsHeight_arguments_le node
  grind

/-- Compiles the items of a branch and takes them up behind those that are there already. -/
def sequence (states : List (String × State)) (items : List Node) :
    Compile (List (String × State)) := do
  match items with
  | [] => return states
  | item :: rest =>
    let s ← itemState item
    let states ← appendState states s
    sequence states rest
termination_by (Node.itemsHeight items, 2, items.length)
decreasing_by all_goals grind [Node.itemsHeight]

/-- Compiles an item of a branch to a state. -/
def itemState : Node → Compile State
  | .sequence members => do parallelState (← branchList members)
  | node => state false node
termination_by node => (node.height, 1, 0)
decreasing_by all_goals grind [Node.height]

/-- Compiles a name, a mapping or nothing to a state of the given type. -/
def typedState (type : StateType) : Node → Compile State
  | .null => explicitState (some type) []
  | .string name => explicitState (some type) [("Name", .string name)]
  | .mapping entries => mappingState (some type) entries
  | node => refuse (.terminalPayload type node.shape)
termination_by node => (node.height, 0, 0)
decreasing_by all_goals grind [Node.height]

/-- Compiles the payload of a tag to a state. -/
def read (reader : Reader) (payload : Node) : Compile State := do
  match reader with
  | .terminal type => typedState type payload
  | .state => state false payload
  | .dupe => state true payload
  | .parallel => parallelState (← branchList payload.arguments)
  | .choice => choiceState payload
  | .guard =>
    ArgumentList.guard.check payload
    let target ← TextArgument.catchTarget.read (payload.argument 1)
    let s ← state false (payload.argument 0)
    let target ← Compile.shortName false target
    return { s with catches := some [catchAll s target] }
  | .retry =>
    let clause ← readRetry payload
    let s ← state false (payload.argument 0)
    return { s with retry := some [clause] }
  | .next =>
    ArgumentList.target.check payload
    let target ← TextArgument.target.read (payload.argument 1)
    let s ← state false (payload.argument 0)
    return s.forceNext target
  | .finish =>
    let s ← state false payload
    return s.forceEnd
  | .parameters => parametersState payload
  | .custom compile => compile payload
termination_by (payload.height, 6, 0)
decreasing_by
  all_goals
    have := Node.height_argument_le 0 payload
    have := Node.itemsHeight_arguments_le payload
    grind [Node.height]

end

/-- Compiles a node to a state that runs a branch for each member of the node. -/
def parallel (node : Node) : Compile State := do
  parallelState (← setting.branchList node.arguments)

end Setting
end Flowscript
