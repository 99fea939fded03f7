/-!
# Types of states

What a state of a machine does.
-/

namespace Flowscript

/-- The seven types of states. -/
inductive StateType where
  | task | pass | fail | succeed | choice | parallel | wait
deriving DecidableEq

namespace StateType

instance : Inhabited StateType := ⟨.task⟩

/-- All types, in the order in which messages list them. -/
def all : List StateType := [.task, .pass, .fail, .succeed, .choice, .parallel, .wait]

/-- The written name of a type. -/
def name : StateType → String
  | .task => "Task"
  | .pass => "Pass"
  | .fail => "Fail"
  | .succeed => "Succeed"
  | .choice => "Choice"
  | .parallel => "Parallel"
  | .wait => "Wait"

/-- The type of a given name. -/
def ofName? (name : String) : Option StateType := all.find? fun t => t.name = name

/-- The stem of the names that are generated for states of a type: its name in lower case. -/
def stem : StateType → String
  | .task => "task"
  | .pass => "pass"
  | .fail => "fail"
  | .succeed => "succeed"
  | .choice => "choice"
  | .parallel => "parallel"
  | .wait => "wait"

/-- Whether states of a type have control flow of their own, so that none is inferred for them. -/
def isTerminal : StateType → Bool
  | .choice | .succeed | .fail => true
  | _ => false

@[simp] theorem ofName?_name (t : StateType) : ofName? t.name = some t := by
  cases t <;> rfl

theorem name_of_ofName? {name : String} {t : StateType} (h : ofName? name = some t) :
    t.name = name := by
  simpa using List.find?_some h

theorem name_injective {s t : StateType} (h : s.name = t.name) : s = t := by
  have := congrArg ofName? h
  simpa using this

end StateType
end Flowscript
