import Flowscript.Number.Double

/-!
# Decimal numerals

Numerals such as `12`, `-0.5`, `.5`, `5.` and `1.5e-7`, read from text and rounded to binary64.
-/

namespace Flowscript

/-- The number `± coefficient · 10 ^ exponent`. -/
structure Decimal where
  negative : Bool
  coefficient : Nat
  exponent : Int
deriving DecidableEq

namespace Decimal

/-- The whole number that a list of digits stands for; other characters are not digits. -/
def digitsValue (digits : List Char) : Nat :=
  digits.foldl (fun n c => 10 * n + (c.toNat - 0x30)) 0

/-- A sign in front, and what follows it; no sign counts as plus. -/
def splitSign : List Char → Bool × List Char
  | '-' :: rest => (true, rest)
  | '+' :: rest => (false, rest)
  | rest => (false, rest)

/-- The exponent part `e±digits` up to the end of the text; an absent part is zero. -/
def exponentPart? : List Char → Option Int
  | [] => some 0
  | c :: rest =>
    if c = 'e' || c = 'E' then
      let (negative, digits) := splitSign rest
      if digits.isEmpty || !digits.all Char.isDigit then none
      else if negative then some (-(digitsValue digits : Int)) else some (digitsValue digits : Int)
    else none

/-- A numeral without a sign: digits with an optional point among or around them, at least one
digit in all, then an optional exponent. -/
def unsigned? (negative : Bool) (cs : List Char) : Option Decimal :=
  let whole := cs.takeWhile Char.isDigit
  let rest := cs.dropWhile Char.isDigit
  let (fraction, rest) :=
    match rest with
    | '.' :: rest => (rest.takeWhile Char.isDigit, rest.dropWhile Char.isDigit)
    | rest => ([], rest)
  if whole.isEmpty && fraction.isEmpty then none
  else
    (exponentPart? rest).map fun exponent =>
      ⟨negative, digitsValue (whole ++ fraction), exponent - fraction.length⟩

/-- A numeral with an optional sign, up to the end of the text. -/
def ofChars? (cs : List Char) : Option Decimal :=
  let (negative, rest) := splitSign cs
  unsigned? negative rest

/-- How many digits a whole number is written with. -/
def digitCount (n : Nat) : Nat := (Nat.toDigits 10 n).length

/-- The binary64 number nearest to a numeral; none if it lies beyond the greatest finite one.
Magnitudes far outside the format are decided without computing the power of ten. -/
def toDouble? (d : Decimal) : Option Double :=
  let magnitude : Int := digitCount d.coefficient + d.exponent
  if d.coefficient = 0 || magnitude < -400 then some (Double.zero d.negative)
  else if 400 < magnitude then none
  else
    Double.ofRatio? d.negative (d.coefficient * Nat.pow 10 d.exponent.toNat)
      (Nat.pow 10 (-d.exponent).toNat)

end Decimal
end Flowscript
