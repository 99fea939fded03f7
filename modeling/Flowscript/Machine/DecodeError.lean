import Flowscript.Json.Printer
import Flowscript.Machine.StateType
import Flowscript.Text.Quoted

/-!
# Why JSON data is no machine

The causes for which decoding a machine or a part of one fails, and their wording.
-/

namespace Flowscript

/-- The records of a machine that may be written as an object or as an array of their fields. -/
inductive RecordKind where
  | retryClause | catchClause | state | branch
deriving DecidableEq

/-- The name of a record in messages. -/
def RecordKind.name : RecordKind → String
  | .retryClause => "RetryClause"
  | .catchClause => "CatchClause"
  | .state => "State"
  | .branch => "Branch"

/-- How many fields a record has. -/
def RecordKind.size : RecordKind → Nat
  | .retryClause => 4
  | .catchClause => 3
  | .state => 23
  | .branch => 2

/-- What a decoder takes. -/
inductive Expected where
  | string | boolean | sequence | map | count32 | count64 | real | unit | typeName
  | record (kind : RecordKind)
deriving DecidableEq

/-- The wording of an expectation. -/
def Expected.text : Expected → String
  | .string => "a string"
  | .boolean => "a boolean"
  | .sequence => "a sequence"
  | .map => "a map"
  | .count32 => "u32"
  | .count64 => "u64"
  | .real => "f64"
  | .unit => "unit"
  | .typeName => "string or map"
  | .record kind => "struct " ++ kind.name

/-- A value as messages describe it: its type, with scalars spelled out. -/
def Json.description : Json → String
  | .null => "null"
  | .bool b => "boolean `" ++ (if b then "true" else "false") ++ "`"
  | .number (.whole n) => "integer `" ++ toString n ++ "`"
  | .number (.real x) => "floating point `" ++ FloatLayout.json.text x ++ "`"
  | .string s => "string " ++ Text.quoted s
  | .array _ => "sequence"
  | .object _ => "map"

/-- A cause for which JSON data is not what it should be. -/
inductive DecodeError where
  /-- A value of another type stands there. -/
  | wrongType (found : Json) (expected : Expected)
  /-- A whole number stands there that the field has no room for. -/
  | outOfRange (found : Int) (expected : Expected)
  /-- An object that should name one thing has no field, or several. -/
  | notSingle
  /-- There is no type of states of that name. -/
  | unknownType (name : String)
  /-- A field that has no default is absent. -/
  | missing (field : String)
  /-- An array ends before a field that has no default; `index` is the place of that field. -/
  | tooShort (index : Nat) (kind : RecordKind)
  /-- An array goes on behind the last field. -/
  | tooLong (length : Nat)
  /-- A choice rule has no predicate, or several. -/
  | predicateCount (count : Nat)
  /-- A field of a choice rule is not a string. -/
  | notText (field : String) (found : Json)
  /-- There is no predicate of that name. -/
  | unknownPredicate (name : String)

/-- The wording of a cause. -/
def DecodeError.message : DecodeError → String
  | .wrongType found expected =>
    "invalid type: " ++ found.description ++ ", expected " ++ expected.text
  | .outOfRange found expected =>
    "invalid value: integer `" ++ toString found ++ "`, expected " ++ expected.text
  | .notSingle => "invalid value: map, expected map with a single key"
  | .unknownType name =>
    "unknown variant `" ++ name ++ "`, expected one of " ++
      String.intercalate ", " (StateType.all.map fun type => "`" ++ type.name ++ "`")
  | .missing field => "missing field `" ++ field ++ "`"
  | .tooShort index kind =>
    "invalid length " ++ toString index ++ ", expected struct " ++ kind.name ++ " with " ++
      toString kind.size ++ " elements"
  | .tooLong length => "invalid length " ++ toString length ++ ", expected fewer elements in array"
  | .predicateCount count =>
    "choice rule must have exactly one predicate, found " ++ toString count
  | .notText field found => "'" ++ field ++ "' must be a string, found " ++ found.compact
  | .unknownPredicate name => "unknown choice predicate '" ++ name ++ "'"

end Flowscript
