import Flowscript.Number.Double

/-!
# Shortest decimal text

The fewest decimal digits that read back as the same binary64 number, and of those the nearest to
it. The digits do not depend on the way they are laid out; `FloatLayout` fixes that.
-/

namespace Flowscript

namespace Double

/-- The reals that round to a number, as bounds over one denominator: `low / den` to `high / den`
around `num / den`, ends included if `closed`. -/
structure Neighbourhood where
  num : Nat
  low : Nat
  high : Nat
  den : Nat
  closed : Bool

/-- Half way to the two neighbours. Below a power of two the grid is twice as fine, the least one
apart. -/
def neighbourhood (x : Double) : Neighbourhood :=
  let up := 1 <<< x.exponent.toNat
  let below := if x.significand = 1 <<< 52 && x.exponent ≠ -1074 then 1 else 2
  { num := 4 * x.significand * up
    low := (4 * x.significand - below) * up
    high := (4 * x.significand + 2) * up
    den := 4 <<< (-x.exponent).toNat
    closed := x.significand % 2 = 0 }

/-- Whether the decimal number `d · 10 ^ k` rounds to the number. -/
def Neighbourhood.holds (n : Neighbourhood) (d : Nat) (k : Int) : Bool :=
  let value := d * Nat.pow 10 k.toNat * n.den
  let low := n.low * Nat.pow 10 (-k).toNat
  let high := n.high * Nat.pow 10 (-k).toNat
  if n.closed then low ≤ value && value ≤ high else low < value && value < high

/-- The greatest `k` with `10 ^ k ≤ num / den`, for positive `num` and `den`. -/
def floorLog10 (num den : Nat) : Int :=
  let guess : Int := (Nat.toDigits 10 num).length - (Nat.toDigits 10 den).length
  if den * Nat.pow 10 guess.toNat ≤ num * Nat.pow 10 (-guess).toNat then guess else guess - 1

/-- The better of the number's two neighbours on the grid of step `10 ^ k`, if one rounds to it. -/
def Neighbourhood.onGrid? (n : Neighbourhood) (k : Int) : Option Nat :=
  let num := n.num * Nat.pow 10 (-k).toNat
  let den := n.den * Nat.pow 10 k.toNat
  let d := num / den
  let r := num % den
  match n.holds d k, n.holds (d + 1) k with
  | true, true =>
    if 2 * r < den then some d
    else if den < 2 * r then some (d + 1)
    else some (if d % 2 = 0 then d else d + 1)
  | true, false => some d
  | false, true => some (d + 1)
  | false, false => none

/-- The first grid with a hit, from `count` digits on; seventeen digits always suffice. -/
def Neighbourhood.search (n : Neighbourhood) (top : Int) : (fuel count : Nat) → Nat × Int
  | 0, _ => (0, 0)
  | fuel + 1, count =>
    let k := top + 1 - count
    match n.onGrid? k with
    | some d => (d, k)
    | none => n.search top fuel (count + 1)

/-- Digits `d` and exponent `k`: the shortest `d · 10 ^ k` that rounds to the number's magnitude,
which is not zero. -/
def shortest (x : Double) : Nat × Int :=
  let n := x.neighbourhood
  n.search (floorLog10 n.num n.den) 17 1

end Double

/-- Where positional notation ends and how an exponent is written. -/
structure FloatLayout where
  /-- The least decimal exponent of the first digit that is still written positionally. -/
  least : Int
  /-- The greatest one. -/
  greatest : Int
  /-- Whether a positive exponent is written with its sign. -/
  plusSign : Bool

namespace FloatLayout

/-- Digits of a whole number without the zeros at its end. -/
def significantDigits (d : Nat) : List Char :=
  ((Nat.toDigits 10 d).reverse.dropWhile (· = '0')).reverse

/-- The exponent text behind the mark `e`. -/
def exponentText (layout : FloatLayout) (e : Int) : List Char :=
  if e < 0 then '-' :: Nat.toDigits 10 e.natAbs
  else if layout.plusSign then '+' :: Nat.toDigits 10 e.natAbs
  else Nat.toDigits 10 e.natAbs

/-- Lays out significant digits whose first one has the decimal exponent `e`. A number that is
written positionally keeps at least one digit on each side of the point. -/
def lay (layout : FloatLayout) (digits : List Char) (e : Int) : List Char :=
  if layout.least ≤ e && e ≤ layout.greatest then
    if e < 0 then '0' :: '.' :: (List.replicate ((-e).toNat - 1) '0' ++ digits)
    else
      let whole := digits.take (e.toNat + 1)
      let fraction := digits.drop (e.toNat + 1)
      whole ++ List.replicate (e.toNat + 1 - whole.length) '0' ++
        '.' :: (if fraction.isEmpty then ['0'] else fraction)
  else
    let fraction := digits.drop 1
    digits.take 1 ++ (if fraction.isEmpty then [] else '.' :: fraction) ++
      'e' :: layout.exponentText e

/-- The shortest text of a number in this layout. -/
def text (layout : FloatLayout) (x : Double) : String :=
  let body :=
    if x.isZero then ['0', '.', '0']
    else
      let (d, k) := x.shortest
      layout.lay (significantDigits d) (k + (Nat.toDigits 10 d).length - 1)
  String.ofList (if x.negative then '-' :: body else body)

/-- Numbers as JSON data are written positionally from `0.00001` up to sixteen digits, with a
signed exponent elsewhere. -/
def json : FloatLayout := ⟨-5, 15, true⟩

/-- Numbers as names of mapping entries have an exponent without a plus sign. -/
def key : FloatLayout := ⟨-5, 15, false⟩

end FloatLayout
end Flowscript
