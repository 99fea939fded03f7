import Flowscript.Text.Blank

/-!
# Predicates of choice rules

The tests of a choice rule: the type that the two sides are compared as, then the relation that
must hold. A predicate's name is the name of the type followed by that of the relation.
-/

namespace Flowscript

/-- The type that a value is compared as. -/
inductive ValueType where
  | string | numeric | boolean | timestamp
deriving DecidableEq

/-- The relation that is tested. -/
inductive Relation where
  | equals | greaterThan | greaterThanEquals | lessThan | lessThanEquals
deriving DecidableEq

/-- The test of a choice rule. -/
structure Predicate where
  type : ValueType
  relation : Relation
deriving DecidableEq

namespace ValueType

/-- All types, in the order in which a comparison is tried as each of them. -/
def all : List ValueType := [.string, .numeric, .boolean, .timestamp]

/-- The written name of a type. -/
def name : ValueType → String
  | .string => "String"
  | .numeric => "Numeric"
  | .boolean => "Boolean"
  | .timestamp => "Timestamp"

end ValueType

namespace Relation

/-- All relations. -/
def all : List Relation := [.equals, .greaterThan, .greaterThanEquals, .lessThan, .lessThanEquals]

/-- The written name of a relation. -/
def name : Relation → String
  | .equals => "Equals"
  | .greaterThan => "GreaterThan"
  | .greaterThanEquals => "GreaterThanEquals"
  | .lessThan => "LessThan"
  | .lessThanEquals => "LessThanEquals"

/-- The relation of a given name. -/
def ofName? (name : String) : Option Relation := all.find? fun r => r.name = name

end Relation

namespace Predicate

/-- The written name of a predicate. -/
def name (p : Predicate) : String := p.type.name ++ p.relation.name

/-- The predicate of a given name: the name of a type in front, that of a relation behind it. -/
def ofName? (name : String) : Option Predicate :=
  ValueType.all.findSome? fun type => do
    let rest ← Text.dropStart? type.name.toList name.toList
    let relation ← Relation.ofName? (String.ofList rest)
    return ⟨type, relation⟩

end Predicate
end Flowscript
