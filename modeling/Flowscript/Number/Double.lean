/-!
# Finite binary64 numbers

A finite number of the IEEE format binary64, as sign, significand and exponent: the number
`± significand · 2 ^ exponent`. The range condition makes the pair unique, so equality of numbers
is equality of their parts, zero's sign apart.
-/

namespace Flowscript

/-- The pairs that binary64 has a finite number for: normal significands have 53 bits, and only at
the least exponent may they have fewer. -/
abbrev Double.InRange (significand : Nat) (exponent : Int) : Prop :=
  significand < 1 <<< 53 ∧ -1074 ≤ exponent ∧ exponent ≤ 971 ∧
    (1 <<< 52 ≤ significand ∨ exponent = -1074)

/-- The number `± significand · 2 ^ exponent`. -/
structure Double where
  /-- Whether the sign is minus; zero has both signs. -/
  negative : Bool
  significand : Nat
  exponent : Int
  inRange : Double.InRange significand exponent
deriving DecidableEq

namespace Double

/-- Zero with the given sign. -/
def zero (negative : Bool) : Double := ⟨negative, 0, -1074, by decide⟩

/-- Whether the number is zero, of either sign. -/
def isZero (x : Double) : Bool := x.significand == 0

/-- Equality of the numbers meant: the two zeros are one number. -/
def same (x y : Double) : Bool := x = y || (x.isZero && y.isZero)

/-- The quotient to the nearest whole number, a half to the even neighbour. -/
def roundQuotient (num den : Nat) : Nat :=
  let q := num / den
  let r := num % den
  if 2 * r < den then q else if den < 2 * r then q + 1 else if q % 2 = 0 then q else q + 1

/-- The greatest `k` with `2 ^ k ≤ num / den`, for positive `num` and `den`. -/
def floorLog2 (num den : Nat) : Int :=
  let guess : Int := (Nat.log2 num : Int) - (Nat.log2 den : Int)
  if den <<< guess.toNat ≤ num <<< (-guess).toNat then guess else guess - 1

/-- The number nearest to `± num / den`, a tie to the even significand; none if that lies beyond
the greatest finite number. -/
def ofRatio? (negative : Bool) (num den : Nat) : Option Double :=
  if num = 0 then some (zero negative)
  else
    let exponent := max (-1074) (floorLog2 num den - 52)
    let rounded := roundQuotient (num <<< (-exponent).toNat) (den <<< exponent.toNat)
    -- Rounding up to the next power of two needs one more bit than there is.
    let (significand, exponent) :=
      if rounded = 1 <<< 53 then (1 <<< 52, exponent + 1) else (rounded, exponent)
    if h : InRange significand exponent then some ⟨negative, significand, exponent, h⟩ else none

/-- The number nearest to a whole number. -/
def ofInt? (n : Int) : Option Double := ofRatio? (n < 0) n.natAbs 1

end Double
end Flowscript
