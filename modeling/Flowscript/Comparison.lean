import Flowscript.Comparison.Timestamp
import Flowscript.Machine.State
import Flowscript.Notice
import Flowscript.Number.Decimal

/-!
# Comparisons

Expands a comparison of a variable with a value into rules of a choice state. A strict operator
names the type to compare as; a generic one gives a rule for each type that the value can be read
as, of which text is always one.
-/

namespace Flowscript

/-! ## Operators -/

/-- An operator of a comparison. -/
inductive Operator where
  | strict (predicate : Predicate)
  | generic (relation : Relation)
deriving DecidableEq

namespace Operator

/-- The sign of a relation. -/
def sign : Relation → String
  | .equals => "="
  | .greaterThan => ">"
  | .greaterThanEquals => ">="
  | .lessThan => "<"
  | .lessThanEquals => "<="

/-- The relation of a sign. -/
def relation? (text : String) : Option Relation := Relation.all.find? fun r => sign r = text

/-- The types that a strict operator can name, and how it starts then. -/
def strictStarts : List (String × ValueType) :=
  [("str", .string), ("num", .numeric), ("time", .timestamp)]

/-- The predicate of a strict operator. -/
def strict? (text : String) : Option Predicate :=
  strictStarts.findSome? fun (start, type) => do
    let rest ← Text.dropStart? start.toList text.toList
    let relation ← relation? (String.ofList rest)
    return ⟨type, relation⟩

/-- The operator that is written so. The doubled equals sign is another spelling of the single
one. -/
def ofText? (text : String) : Option Operator :=
  match strict? text with
  | some predicate => some (.strict predicate)
  | none => (relation? (if text = "==" then "=" else text)).map .generic

end Operator

/-! ## Readings of a value -/

/-- Whether a text is a finite number that starts with a digit, a sign apart. -/
def isNumeral (text : String) : Bool :=
  let trimmed := Text.trim text.toList
  let (_, digits) := Decimal.splitSign trimmed
  digits.head?.any Char.isDigit &&
    ((Decimal.ofChars? trimmed).bind Decimal.toDouble?).isSome

/-- Whether a value can be read as a value of the given type. -/
def Json.readsAs (value : Json) : ValueType → Bool
  | .string => true
  | .numeric =>
    match value with
    | .number n => n.toDouble?.isSome
    | .string text => isNumeral text
    | _ => false
  | .boolean =>
    match value with
    | .bool _ => true
    | .string text => text = "true" || text = "false"
    | _ => false
  | .timestamp =>
    match value with
    | .string text => Timestamp.isTimestamp text
    | _ => false

/-- The types that a value can be read as. -/
def Json.readings (value : Json) : List ValueType := ValueType.all.filter value.readsAs

/-- The text of a scalar. -/
def Json.scalarText? : Json → Option String
  | .string text => some text
  | .number n => some n.text
  | .bool b => some (toString b)
  | .null => some "null"
  | _ => none

/-! ## Rules -/

/-- The rules of a comparison, and what is to be reported about them. -/
def comparison (operator variablePath : String) (value : Json) (next : String) :
    Except SyntaxError (List ChoiceClause × List Notice) :=
  match Operator.ofText? operator with
  | none => .error (.unknownOperator operator)
  | some (.strict predicate) => .ok ([⟨variablePath, predicate, value, next⟩], [])
  | some (.generic relation) =>
    match value.scalarText? with
    | none => .error (.compoundOperand value)
    | some text =>
      let rule (type : ValueType) : ChoiceClause :=
        let operand := if type = .string then .string text else value
        ⟨variablePath, ⟨type, relation⟩, operand, next⟩
      .ok (value.readings.map rule,
        [.comparisonExpanded variablePath operator text value.readings])

end Flowscript
