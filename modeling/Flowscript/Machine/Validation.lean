import Flowscript.Machine.State

/-!
# Structure of a machine

The rules that a machine must keep to run: it has states, starts at one of them, goes on only to
states of the same branch, and every state that has no control flow of its own either goes on or
ends. `Branch.problems` lists what a machine breaks, nested branches included.
-/

namespace Flowscript

/-- A rule that a branch breaks. -/
inductive Problem where
  | emptyBranch
  | missingStart (name : String)
  | danglingReference (state target : String)
  | missingTransition (state : String)
  | conflictingTransition (state : String)
deriving DecidableEq

/-- The wording of a problem. -/
def Problem.message : Problem → String
  | .emptyBranch => "Branch has no states"
  | .missingStart name => "StartAt references unknown state '" ++ name ++ "'"
  | .danglingReference state target =>
    "State '" ++ state ++ "' references unknown state '" ++ target ++ "'"
  | .missingTransition state => "State '" ++ state ++ "' has neither Next nor End"
  | .conflictingTransition state => "State '" ++ state ++ "' has both Next and End"

/-- The states that a state may go on with. -/
def State.targets (s : State) : List String :=
  s.next.toList ++ s.default.toList ++ (s.choices.getD []).map ChoiceClause.next ++
    (s.catches.getD []).map CatchClause.next

/-- Problems of one state, among states with the given names, that do not lie in its branches. -/
def State.ownProblems (names : List String) (name : String) (s : State) : List Problem :=
  ((s.targets.filter fun target => target ∉ names).map fun target =>
    .danglingReference name target) ++
  (if s.isTerminal then []
  else
    match s.next.isSome, s.finish == some true with
    | false, false => [.missingTransition name]
    | true, true => [.conflictingTransition name]
    | _, _ => [])

/-- Problems of a branch's start. -/
def Branch.startProblems (startAt : String) (names : List String) : List Problem :=
  if startAt ∈ names then [] else [.missingStart startAt]

mutual

/-- All problems of a branch and of the branches inside it, in the order of the document. -/
def Branch.problems : Branch → List Problem
  | ⟨_, []⟩ => [.emptyBranch]
  | ⟨startAt, entry :: states⟩ =>
    let names := Entries.keys (entry :: states)
    Branch.startProblems startAt names ++ stateProblems names (entry :: states)

/-- The problems of states among states with the given names. -/
def stateProblems (names : List String) : List (String × State) → List Problem
  | [] => []
  | (name, state) :: rest =>
    state.ownProblems names name ++ state.nestedProblems ++ stateProblems names rest

/-- The problems inside the branches of a state. -/
def State.nestedProblems : State → List Problem
  | ⟨_, _, _, _, _, _, _, _, _, _, _, _, _, none, _, _, _, _, _, _, _, _, _, _⟩ => []
  | ⟨_, _, _, _, _, _, _, _, _, _, _, _, _, some branches, _, _, _, _, _, _, _, _, _, _⟩ =>
    branchProblems branches

/-- The problems of several branches. -/
def branchProblems : List Branch → List Problem
  | [] => []
  | branch :: rest => branch.problems ++ branchProblems rest

end

end Flowscript
