import Flowscript.Number.Shortest

/-!
# Numbers

A number of a document: whole, or with a fraction. The two are told apart by the way they are
written, so `1` and `1.0` are different numbers. Whole numbers that are read from text lie between
`-2 ^ 63` and `2 ^ 64 - 1`.
-/

namespace Flowscript

/-- A whole number, or a finite binary64 number. -/
inductive Number where
  | whole (n : Int)
  | real (x : Double)
deriving DecidableEq

namespace Number

/-- The whole numbers that a document can hold. -/
def Holds (n : Int) : Prop := Int64.minValue.toInt ≤ n ∧ n < UInt64.size

instance (n : Int) : Decidable (Holds n) := inferInstanceAs (Decidable (_ ∧ _))

/-- The text of a number: a whole number in decimal, any other by its shortest digits. -/
def text : Number → String
  | .whole n => toString n
  | .real x => FloatLayout.json.text x

/-- The text of a whole number is its digits, with its sign in front. -/
theorem toList_toString (n : Int) :
    (toString n).toList =
      if n < 0 then '-' :: Nat.toDigits 10 n.natAbs else Nat.toDigits 10 n.natAbs := by
  rw [Int.toString_eq_repr]
  cases n with
  | ofNat n =>
    have hnonneg : ¬ Int.ofNat n < 0 := Int.not_lt.mpr (Int.natCast_nonneg n)
    rw [if_neg hnonneg]
    exact Nat.toList_repr
  | negSucc n =>
    rw [if_pos (Int.negSucc_lt_zero n)]
    show ("-" ++ Nat.repr (n + 1)).toList = _
    rw [String.toList_append, Nat.toList_repr]
    rfl

/-- The nearest binary64 number. -/
def toDouble? : Number → Option Double
  | .whole n => Double.ofInt? n
  | .real x => some x

/-- The number as a count of at most 64 bits: only whole numbers that are not negative have one. -/
def toUInt64? : Number → Option UInt64
  | .whole n => if 0 ≤ n ∧ n < UInt64.size then some (UInt64.ofNat n.toNat) else none
  | .real _ => none

end Number
end Flowscript
