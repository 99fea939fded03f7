import Flowscript.Number.Decimal
import Flowscript.Number
import Flowscript.Text.Utf8
import Flowscript.Yaml.Fault

/-!
# Meaning of scalars

What a scalar stands for. A plain one may be null, a truth value or a number, which its text alone
decides; a quoted one is its text. A tag of the core schema asks for one of these and fails if the
text does not fit.
-/

namespace Flowscript.Yaml

/-- A number, or one of the values that are none. -/
inductive Quantity where
  | number (n : Number)
  | infinite (negative : Bool)
  | notANumber
deriving DecidableEq

namespace Quantity

/-- Equality of quantities: the two zeros are one number, and what is not a number equals itself. -/
def same : Quantity → Quantity → Bool
  | .number (.real x), .number (.real y) => x.same y
  | p, q => p = q

/-- The text of a quantity. -/
def text : Quantity → String
  | .number (.whole n) => toString n
  | .number (.real x) => FloatLayout.key.text x
  | .infinite false => ".inf"
  | .infinite true => "-.inf"
  | .notANumber => ".nan"

end Quantity

/-- What a scalar stands for. -/
inductive Scalar where
  | null
  | bool (value : Bool)
  | number (value : Quantity)
  | text (value : String)
deriving DecidableEq

namespace Scalar

/-! ## Plain texts -/

/-- The words for null. -/
def isNullWord (text : String) : Bool := ["null", "Null", "NULL", "~"].contains text

/-- The truth value of a word. -/
def bool? (text : String) : Option Bool :=
  if ["true", "True", "TRUE"].contains text then some true
  else if ["false", "False", "FALSE"].contains text then some false
  else none

/-- The value of a digit, or of a letter that serves as one. -/
def digitValue? (c : Char) : Option Nat :=
  if c.isDigit then some (c.toNat - 0x30)
  else if c.isLower then some (c.toNat - 0x61 + 10)
  else if c.isUpper then some (c.toNat - 0x41 + 10)
  else none

/-- The number that digits of the given base stand for; there must be a digit. -/
def natural? (base : Nat) (digits : List Char) : Option Nat :=
  if digits.isEmpty then none
  else digits.foldlM (fun n c =>
    match digitValue? c with
    | some d => if d < base then some (n * base + d) else none
    | none => none) 0

/-- Whether a numeral without its sign is decimal and starts with a zero that does not count. Such
a text is no number. -/
def isZeroPadded (digits : List Char) : Bool :=
  1 < digits.length && digits.head? = some '0' && digits.all Char.isDigit

/-- A whole numeral without its sign: decimal, or with a mark for base 16, 8 or 2. -/
def unsigned? : List Char → Option Nat
  | '0' :: 'x' :: digits => natural? 16 digits
  | '0' :: 'o' :: digits => natural? 8 digits
  | '0' :: 'b' :: digits => natural? 2 digits
  | digits => if isZeroPadded digits then none else natural? 10 digits

/-- The whole number of a numeral with an optional sign. A number that has 128 bits but not 64 is
refused; a longer one is no whole number. -/
def whole? (cs : List Char) : Except Fault (Option Int) :=
  let (negative, digits) := Decimal.splitSign cs
  match unsigned? digits with
  | none => .ok none
  | some n =>
    if n < 1 <<< 64 && !negative then .ok (some n)
    else if n ≤ 1 <<< 63 && negative then .ok (some (-n))
    else if n < 1 <<< 128 && !negative || n ≤ 1 <<< 127 && negative then .error .integerTooLong
    else .ok none

/-- The quantity of a numeral with a point or an exponent, or of a word such as `.inf`. -/
def real? (text : String) : Option Quantity :=
  if [".inf", ".Inf", ".INF", "+.inf", "+.Inf", "+.INF"].contains text then some (.infinite false)
  else if ["-.inf", "-.Inf", "-.INF"].contains text then some (.infinite true)
  else if [".nan", ".NaN", ".NAN"].contains text then some .notANumber
  else do
    let numeral ← Decimal.ofChars? text.toList
    let x ← numeral.toDouble?
    return .number (.real x)

/-- What a plain text stands for. -/
def ofPlain (text : String) : Except Fault Scalar := do
  if text.isEmpty || isNullWord text then return .null
  else
    match bool? text with
    | some b => return .bool b
    | none =>
      match ← whole? text.toList with
      | some n => return .number (.number (.whole n))
      | none =>
        if isZeroPadded (Decimal.splitSign text.toList).2 then return .text text
        else
          match real? text with
          | some q => return .number q
          | none => return .text text

/-! ## Tags -/

/-- The tag of the core schema with the given name. -/
def coreTag (name : String) : List UInt8 := ("tag:yaml.org,2002:" ++ name).toUTF8.toList

/-- A reading that a tag asks for. -/
def fitting (value? : Option Scalar) : Except Fault Scalar :=
  match value? with
  | some value => .ok value
  | none => .error .tagMismatch

/-- What a scalar stands for. A tag with an exclamation mark in front says nothing about it; any
other tag outside the core schema asks for text. -/
def read (tag : Option (List UInt8)) (text : String) (plain : Bool) : Except Fault Scalar :=
  match tag with
  | none => if plain then ofPlain text else .ok (.text text)
  | some tag =>
    if tag = coreTag "bool" then fitting ((bool? text).map .bool)
    else if tag = coreTag "int" then do
      fitting ((← whole? text.toList).map fun n => .number (.number (.whole n)))
    else if tag = coreTag "float" then fitting ((real? text).map .number)
    else if tag = coreTag "null" then fitting (if isNullWord text then some .null else none)
    else if plain && tag.head? = some (UInt8.ofNat '!'.toNat) then ofPlain text
    else .ok (.text text)

end Scalar
end Flowscript.Yaml
