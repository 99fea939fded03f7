import Mathlib.Algebra.Order.Field.Power
import Mathlib.Tactic.Linarith
import Mathlib.Tactic.Ring
import Flowscript.Number.Shortest

/-!
# Shortest digits

The digits that are found for a number lie in the interval of the reals that round to it. The
search for them always ends: on the grid of seventeen digits the interval is wider than a step. And
the intervals of different numbers do not meet, so that the digits tell the number.
-/

namespace Flowscript
namespace Double

/-! ## Intervals -/

namespace Neighbourhood

/-- A real rounds to the number. -/
def Contains (n : Neighbourhood) (value : ℚ) : Prop :=
  if n.closed then n.low ≤ value * n.den ∧ value * n.den ≤ n.high
  else n.low < value * n.den ∧ value * n.den < n.high

variable {n : Neighbourhood} {d : Nat} {k : Int}

/-- A power of ten with an exponent of either sign. -/
theorem ten_zpow_mul (k : Int) :
    (10 : ℚ) ^ k * (10 : ℚ) ^ (-k).toNat = (10 : ℚ) ^ k.toNat := by
  rw [← zpow_natCast, ← zpow_natCast, ← zpow_add₀ (by norm_num)]
  congr 1
  omega

/-- Whether a decimal number rounds to the number is found without fractions. -/
theorem holds_iff : n.holds d k = true ↔ n.Contains (d * 10 ^ k) := by
  have hscale : (0 : ℚ) < 10 ^ (-k).toNat := by positivity
  have hvalue : (d * 10 ^ k * n.den : ℚ) * 10 ^ (-k).toNat =
      ((d * Nat.pow 10 k.toNat * n.den : Nat) : ℚ) := by
    have hpow := ten_zpow_mul k
    push_cast [Nat.pow_eq]
    rw [← hpow]
    ring
  have hbound (b : Nat) :
      ((b * Nat.pow 10 (-k).toNat : Nat) : ℚ) = b * 10 ^ (-k).toNat := by
    push_cast [Nat.pow_eq]
    rfl
  unfold holds Contains
  dsimp only
  split
  · rw [Bool.and_eq_true, decide_eq_true_eq, decide_eq_true_eq, ← Nat.cast_le (α := ℚ),
      ← Nat.cast_le (α := ℚ), ← hvalue, hbound, hbound, mul_le_mul_iff_of_pos_right hscale,
      mul_le_mul_iff_of_pos_right hscale]
  · rw [Bool.and_eq_true, decide_eq_true_eq, decide_eq_true_eq, ← Nat.cast_lt (α := ℚ),
      ← Nat.cast_lt (α := ℚ), ← hvalue, hbound, hbound, mul_lt_mul_iff_of_pos_right hscale,
      mul_lt_mul_iff_of_pos_right hscale]

theorem contains_of_lt {value : ℚ} (hlow : n.low < value * n.den) (hhigh : value * n.den < n.high) :
    n.Contains value := by
  unfold Contains
  split
  · exact ⟨hlow.le, hhigh.le⟩
  · exact ⟨hlow, hhigh⟩

/-! ## Grids -/

theorem holds_of_onGrid? (h : n.onGrid? k = some d) : n.holds d k = true := by
  unfold onGrid? at h
  dsimp only at h
  split at h
  next hlower hupper =>
    split at h
    · cases h
      exact hlower
    split at h
    · cases h
      exact hupper
    cases h
    split
    · exact hlower
    · exact hupper
  next hlower hupper =>
    cases h
    exact hlower
  next hlower hupper =>
    cases h
    exact hupper
  next => cases h

/-- The two neighbours of the number on a grid. -/
theorem grid_bounds (hden : 0 < n.den) (k : Int) :
    let below := (n.num * Nat.pow 10 (-k).toNat) / (n.den * Nat.pow 10 k.toNat)
    (below : ℚ) * 10 ^ k * n.den ≤ n.num ∧
      (n.num : ℚ) < ((below + 1 : Nat) : ℚ) * 10 ^ k * n.den := by
  intro below
  have hstep : 0 < n.den * Nat.pow 10 k.toNat := Nat.mul_pos hden (Nat.pow_pos (by omega))
  have hscale : (0 : ℚ) < 10 ^ (-k).toNat := by positivity
  have hpow := ten_zpow_mul k
  have hlower : below * (n.den * Nat.pow 10 k.toNat) ≤ n.num * Nat.pow 10 (-k).toNat :=
    Nat.div_mul_le_self _ _
  have hupper : n.num * Nat.pow 10 (-k).toNat < (below + 1) * (n.den * Nat.pow 10 k.toNat) :=
    Nat.lt_mul_of_div_lt (Nat.lt_succ_self _) hstep
  rw [← Nat.cast_le (α := ℚ)] at hlower
  rw [← Nat.cast_lt (α := ℚ)] at hupper
  push_cast [Nat.pow_eq] at hlower hupper ⊢
  rw [← hpow] at hlower hupper
  constructor
  · rw [← mul_le_mul_iff_of_pos_right hscale]
    linarith
  · rw [← mul_lt_mul_iff_of_pos_right hscale]
    linarith

/-- A grid with a step that is smaller than the interval has a hit. -/
theorem onGrid?_isSome (hden : 0 < n.den) (hlow : n.low < n.num) (hhigh : n.num < n.high)
    (hwide : (10 : ℚ) ^ k * n.den < n.high - n.low) : (n.onGrid? k).isSome = true := by
  obtain ⟨hlower, hupper⟩ := grid_bounds hden k
  rw [← Nat.cast_lt (α := ℚ)] at hlow hhigh
  unfold onGrid?
  dsimp only
  generalize (n.num * Nat.pow 10 (-k).toNat) / (n.den * Nat.pow 10 k.toNat) = below at *
  -- if neither neighbour is inside, a step leads from one end of the interval to the other
  have hinside : n.holds below k = true ∨ n.holds (below + 1) k = true := by
    rw [holds_iff, holds_iff]
    by_contra hboth
    rw [not_or] at hboth
    have hleft : (below : ℚ) * 10 ^ k * n.den ≤ n.low := by
      by_contra hinside
      exact hboth.1 (contains_of_lt (not_le.mp hinside) (hlower.trans_lt hhigh))
    have hright : (n.high : ℚ) ≤ ((below + 1 : Nat) : ℚ) * 10 ^ k * n.den := by
      by_contra hinside
      exact hboth.2 (contains_of_lt (hlow.trans hupper) (not_le.mp hinside))
    push_cast at hright
    linarith
  split
  next =>
    split
    · rfl
    split <;> rfl
  next => rfl
  next => rfl
  next hlower hupper =>
    rw [hlower, hupper] at hinside
    rcases hinside with hinside | hinside <;> cases hinside

/-- The search ends at a hit, if there is one on any of its grids. -/
theorem holds_search {top : Int} {fuel count : Nat}
    (h : ∃ i < fuel, (n.onGrid? (top + 1 - ((count + i : Nat) : Int))).isSome = true) :
    n.holds (n.search top fuel count).1 (n.search top fuel count).2 = true := by
  induction fuel generalizing count with
  | zero =>
    obtain ⟨i, hi, -⟩ := h
    cases hi
  | succ fuel ih =>
    unfold search
    dsimp only
    split
    next d hd => exact holds_of_onGrid? hd
    next hnone =>
      apply ih
      obtain ⟨i, hi, hhit⟩ := h
      cases i with
      | zero =>
        rw [Nat.add_zero, hnone] at hhit
        cases hhit
      | succ i =>
        refine ⟨i, by omega, ?_⟩
        rwa [show count + 1 + i = count + (i + 1) by omega]

end Neighbourhood

/-! ## Digits of a number -/

/-- The digits of a whole number tell its size. -/
theorem length_toDigits {n : Nat} (h : 0 < n) :
    10 ^ ((Nat.toDigits 10 n).length - 1) ≤ n ∧ n < 10 ^ (Nat.toDigits 10 n).length := by
  have hpos : 0 < (Nat.toDigits 10 n).length := Nat.length_toDigits_pos
  constructor
  · by_contra hsmall
    cases hlength : (Nat.toDigits 10 n).length - 1 with
    | zero =>
      rw [hlength] at hsmall
      omega
    | succ k =>
      have hle := (Nat.length_toDigits_le_iff (b := 10) (n := n) (k := k + 1) (by omega)
        (by omega)).mpr (by rw [← hlength]; omega)
      omega
  · exact (Nat.length_toDigits_le_iff (by omega) hpos).mp (Nat.le_refl _)

theorem floorLog10_le {num den : Nat} (hnum : 0 < num) (hden : 0 < den) :
    (10 : ℚ) ^ floorLog10 num den * den ≤ num := by
  unfold floorLog10
  dsimp only
  generalize hguess : ((Nat.toDigits 10 num).length : Int) - (Nat.toDigits 10 den).length = guess
  split
  next hle =>
    have hscale : (0 : ℚ) < 10 ^ (-guess).toNat := by positivity
    have hpow := Neighbourhood.ten_zpow_mul guess
    rw [← Nat.cast_le (α := ℚ)] at hle
    push_cast [Nat.pow_eq] at hle
    rw [← mul_le_mul_iff_of_pos_right hscale]
    linarith [congrArg (· * (den : ℚ)) hpow]
  next =>
    -- one digit less than the guess leaves room for the first digits
    obtain ⟨hlow, -⟩ := length_toDigits hnum
    obtain ⟨-, hhigh⟩ := length_toDigits hden
    have hpos : 0 < (Nat.toDigits 10 num).length := Nat.length_toDigits_pos
    have hexponent : ((Nat.toDigits 10 num).length - 1 : Nat) =
        (guess - 1) + (Nat.toDigits 10 den).length := by omega
    rw [← Nat.cast_le (α := ℚ)] at hlow
    rw [← Nat.cast_lt (α := ℚ)] at hhigh
    push_cast at hlow hhigh
    calc (10 : ℚ) ^ (guess - 1) * den
        ≤ 10 ^ (guess - 1) * 10 ^ (Nat.toDigits 10 den).length := by gcongr
      _ = 10 ^ ((Nat.toDigits 10 num).length - 1) := by
        rw [← zpow_natCast, ← zpow_natCast, hexponent, ← zpow_add₀ (by norm_num)]
      _ ≤ num := hlow

/-! ## Intervals of numbers -/

/-- How far the interval reaches down, in quarters of a step of the grid above. -/
def below (x : Double) : Nat := if x.significand = 1 <<< 52 ∧ x.exponent ≠ -1074 then 1 else 2

theorem neighbourhood_eq (x : Double) :
    x.neighbourhood =
      { num := 4 * x.significand * 2 ^ x.exponent.toNat
        low := (4 * x.significand - x.below) * 2 ^ x.exponent.toNat
        high := (4 * x.significand + 2) * 2 ^ x.exponent.toNat
        den := 4 * 2 ^ (-x.exponent).toNat
        closed := x.significand % 2 = 0 } := by
  unfold neighbourhood below
  simp [Nat.shiftLeft_eq]

theorem isZero_eq_false_iff {x : Double} : x.isZero = false ↔ 0 < x.significand := by
  simp [isZero, Nat.pos_iff_ne_zero]

theorem below_pos (x : Double) : 0 < x.below ∧ x.below ≤ 2 := by
  unfold below
  split <;> omega

/-- A significand is small against the interval, of which ten to the sixteenth is the scale. -/
theorem significand_lt (x : Double) : 4 * x.significand < (2 + x.below) * 10 ^ 16 := by
  have hbound : x.significand < 2 ^ 53 := x.inRange.1
  unfold below
  split
  next hpower =>
    have hvalue : x.significand = 2 ^ 52 := hpower.1
    omega
  next => omega

theorem neighbourhood_bounds {x : Double} (h : x.isZero = false) :
    0 < x.neighbourhood.den ∧ x.neighbourhood.low < x.neighbourhood.num ∧
      x.neighbourhood.num < x.neighbourhood.high := by
  have hpos := isZero_eq_false_iff.mp h
  obtain ⟨hbelow, hbelow'⟩ := x.below_pos
  rw [neighbourhood_eq]
  refine ⟨by positivity, ?_, ?_⟩
  · exact Nat.mul_lt_mul_of_pos_right (by omega) (by positivity)
  · exact Nat.mul_lt_mul_of_pos_right (by omega) (by positivity)

/-- Zero has one significand and one exponent. -/
theorem parts_of_isZero {x y : Double} (hx : x.isZero = true) (hy : y.isZero = true) :
    x.significand = y.significand ∧ x.exponent = y.exponent := by
  have hparts {x : Double} (hx : x.isZero = true) : x.significand = 0 ∧ x.exponent = -1074 := by
    have hzero : x.significand = 0 := by simpa [isZero] using hx
    refine ⟨hzero, x.inRange.2.2.2.resolve_left ?_⟩
    rw [hzero]
    decide
  exact ⟨(hparts hx).1.trans (hparts hy).1.symm, (hparts hx).2.trans (hparts hy).2.symm⟩

/-- On the grid of seventeen digits a step is smaller than the interval. -/
theorem step_lt_width {x : Double} (h : x.isZero = false) :
    (10 : ℚ) ^ (floorLog10 x.neighbourhood.num x.neighbourhood.den - 16) * x.neighbourhood.den <
      x.neighbourhood.high - x.neighbourhood.low := by
  obtain ⟨hden, hlow, hhigh⟩ := neighbourhood_bounds h
  have hlog := floorLog10_le (Nat.zero_lt_of_lt hlow) hden
  have hpos := isZero_eq_false_iff.mp h
  have hbelow : x.below ≤ 4 * x.significand := by
    have := x.below_pos
    omega
  have hscale : (0 : ℚ) < 2 ^ x.exponent.toNat := by positivity
  have hsmall : (4 * x.significand : ℚ) < (2 + x.below) * 10 ^ 16 := by
    exact_mod_cast x.significand_lt
  have hwidth : (x.neighbourhood.high : ℚ) - x.neighbourhood.low =
      (2 + x.below) * 2 ^ x.exponent.toNat := by
    rw [neighbourhood_eq]
    push_cast [Nat.cast_sub hbelow]
    ring
  have hnum : (x.neighbourhood.num : ℚ) = 4 * x.significand * 2 ^ x.exponent.toNat := by
    rw [neighbourhood_eq]
    push_cast
    rfl
  rw [hwidth, zpow_sub₀ (by norm_num), div_mul_eq_mul_div, div_lt_iff₀ (by positivity)]
  calc (10 : ℚ) ^ floorLog10 x.neighbourhood.num x.neighbourhood.den * x.neighbourhood.den
      ≤ 4 * x.significand * 2 ^ x.exponent.toNat := hnum ▸ hlog
    _ < (2 + x.below) * 10 ^ 16 * 2 ^ x.exponent.toNat := by gcongr
    _ = (2 + x.below) * 2 ^ x.exponent.toNat * 10 ^ (16 : ℤ) := by
      norm_num
      ring

/-- The shortest digits of a number round to it. -/
theorem contains_shortest {x : Double} (h : x.isZero = false) :
    x.neighbourhood.Contains (x.shortest.1 * 10 ^ x.shortest.2) := by
  obtain ⟨hden, hlow, hhigh⟩ := neighbourhood_bounds h
  rw [← Neighbourhood.holds_iff]
  apply Neighbourhood.holds_search
  refine ⟨16, by omega, Neighbourhood.onGrid?_isSome hden hlow hhigh ?_⟩
  have hwide := step_lt_width h
  rwa [show floorLog10 x.neighbourhood.num x.neighbourhood.den + 1 - ((1 + 16 : Nat) : Int) =
    floorLog10 x.neighbourhood.num x.neighbourhood.den - 16 by omega]

/-! ## Intervals of different numbers -/

/-- The unit of the grid, as a multiple of the least one. -/
def unit (x : Double) : Nat := 2 ^ (x.exponent + 1074).toNat

/-- The lower end of the interval, in quarters of the least unit. -/
def lowerEnd (x : Double) : Nat := (4 * x.significand - x.below) * x.unit

/-- The upper end of the interval, in quarters of the least unit. -/
def upperEnd (x : Double) : Nat := (4 * x.significand + 2) * x.unit

theorem unit_pos (x : Double) : 0 < x.unit := Nat.pow_pos (by omega)

/-- A real in quarters of the least unit. -/
def quarters (value : ℚ) : ℚ := value * 4 * 2 ^ 1074

/-- The ends of all intervals are whole multiples of a quarter of the least unit. -/
theorem contains_iff {x : Double} {value : ℚ} :
    x.neighbourhood.Contains value ↔
      if x.significand % 2 = 0 then x.lowerEnd ≤ quarters value ∧ quarters value ≤ x.upperEnd
      else x.lowerEnd < quarters value ∧ quarters value < x.upperEnd := by
  have hleast : -1074 ≤ x.exponent := x.inRange.2.1
  have hunit : (2 : ℚ) ^ x.exponent.toNat * 2 ^ 1074 = x.unit * 2 ^ (-x.exponent).toNat := by
    rw [unit, Nat.cast_pow, Nat.cast_ofNat, ← pow_add, ← pow_add]
    congr 1
    omega
  have hscale : (0 : ℚ) < 2 ^ 1074 := by positivity
  have hden : (0 : ℚ) < 2 ^ (-x.exponent).toNat := by positivity
  -- both sides of each comparison are scaled to the least unit
  have hvalue : value * x.neighbourhood.den * 2 ^ 1074 =
      quarters value * 2 ^ (-x.exponent).toNat := by
    rw [neighbourhood_eq, quarters]
    generalize (2 : ℚ) ^ 1074 = grid
    push_cast
    ring
  have hlow : (x.neighbourhood.low : ℚ) * 2 ^ 1074 = x.lowerEnd * 2 ^ (-x.exponent).toNat := by
    rw [neighbourhood_eq, lowerEnd]
    push_cast
    rw [mul_assoc, hunit, mul_assoc]
  have hhigh : (x.neighbourhood.high : ℚ) * 2 ^ 1074 = x.upperEnd * 2 ^ (-x.exponent).toNat := by
    rw [neighbourhood_eq, upperEnd]
    push_cast
    rw [mul_assoc, hunit, mul_assoc]
  have hclosed : x.neighbourhood.closed = decide (x.significand % 2 = 0) := rfl
  have hle (a b : ℚ) : a ≤ b ↔ a * 2 ^ 1074 ≤ b * 2 ^ 1074 :=
    (mul_le_mul_iff_of_pos_right hscale).symm
  have hlt (a b : ℚ) : a < b ↔ a * 2 ^ 1074 < b * 2 ^ 1074 :=
    (mul_lt_mul_iff_of_pos_right hscale).symm
  unfold Neighbourhood.Contains
  rw [hclosed]
  simp only [decide_eq_true_eq]
  split
  · rw [hle x.neighbourhood.low, hle _ (x.neighbourhood.high : ℚ), hvalue, hlow, hhigh,
      mul_le_mul_iff_of_pos_right hden, mul_le_mul_iff_of_pos_right hden]
  · rw [hlt x.neighbourhood.low, hlt _ (x.neighbourhood.high : ℚ), hvalue, hlow, hhigh,
      mul_lt_mul_iff_of_pos_right hden, mul_lt_mul_iff_of_pos_right hden]

/-- The number stands before another one: on a finer grid, or earlier on the same. -/
def Before (x y : Double) : Prop :=
  x.exponent < y.exponent ∨ x.exponent = y.exponent ∧ x.significand < y.significand

/-- The interval of a number ends where that of a later one starts, or before; and they do not share
an end. -/
theorem Before.apart {x y : Double} (h : Before x y) :
    x.upperEnd ≤ y.lowerEnd ∧
      (x.upperEnd = y.lowerEnd → x.significand % 2 = 0 → y.significand % 2 ≠ 0) := by
  have hx : x.significand < 2 ^ 53 := x.inRange.1
  have hpos := x.unit_pos
  rcases h with hexponent | ⟨hexponent, hsignificand⟩
  · have hleast : -1074 ≤ x.exponent := x.inRange.2.1
    have hy : 2 ^ 52 ≤ y.significand := by
      rcases y.inRange.2.2.2 with hnormal | hsubnormal
      · exact hnormal
      · omega
    -- the unit of the later number is twice as large at least
    obtain ⟨more, hmore⟩ : ∃ more, y.unit = 2 * 2 ^ more * x.unit := by
      refine ⟨(y.exponent - x.exponent).toNat - 1, ?_⟩
      unfold unit
      rw [← Nat.pow_succ', ← Nat.pow_add]
      congr 1
      omega
    have hends : 4 * x.significand + 2 ≤ (4 * y.significand - y.below) * 2 ∧
        (4 * x.significand + 2 = (4 * y.significand - y.below) * 2 →
          x.significand % 2 = 0 → y.significand % 2 ≠ 0) := by
      unfold below
      split
      next hpower =>
        have hvalue : y.significand = 2 ^ 52 := hpower.1
        omega
      next hpower =>
        have hvalue : y.significand ≠ 2 ^ 52 := fun hvalue => hpower ⟨hvalue, by omega⟩
        omega
    have hgrow : (4 * y.significand - y.below) * 2 ≤
        (4 * y.significand - y.below) * 2 * 2 ^ more := Nat.le_mul_of_pos_right _ Nat.one_le_two_pow
    have hlower : y.lowerEnd = (4 * y.significand - y.below) * 2 * 2 ^ more * x.unit := by
      rw [lowerEnd, hmore]
      ring
    rw [hlower, upperEnd]
    constructor
    · exact Nat.mul_le_mul_right _ (hends.1.trans hgrow)
    · intro heq
      have hsame := Nat.eq_of_mul_eq_mul_right hpos heq
      exact hends.2 (Nat.le_antisymm hends.1 (hsame ▸ hgrow))
  · have hbelow : y.below = 2 ∨ y.below = 1 := by
      have := y.below_pos
      omega
    have hunit : y.unit = x.unit := by
      unfold unit
      rw [hexponent]
    unfold upperEnd lowerEnd
    rw [hunit]
    constructor
    · exact Nat.mul_le_mul_right _ (by omega)
    · intro heq
      have hends := Nat.eq_of_mul_eq_mul_right hpos heq
      omega

/-- A real rounds to one number at most, its sign apart. -/
theorem eq_of_contains {x y : Double} {value : ℚ} (hx : x.neighbourhood.Contains value)
    (hy : y.neighbourhood.Contains value) :
    x.significand = y.significand ∧ x.exponent = y.exponent := by
  have hnever {x y : Double} (hx : x.neighbourhood.Contains value)
      (hy : y.neighbourhood.Contains value) : ¬ Before x y := by
    intro h
    obtain ⟨hapart, hshared⟩ := h.apart
    rw [contains_iff] at hx hy
    rw [← Nat.cast_le (α := ℚ)] at hapart
    split at hx
    next heven =>
      split at hy
      next heven' =>
        have heq : (x.upperEnd : ℚ) = y.lowerEnd := le_antisymm hapart (hy.1.trans hx.2)
        exact hshared (by exact_mod_cast heq) heven heven'
      next => linarith
    next =>
      split at hy <;> linarith
  have hforth := hnever hx hy
  have hback := hnever hy hx
  unfold Before at hforth hback
  omega

/-- Zero rounds to no other number. -/
theorem pos_of_contains {x : Double} (h : x.isZero = false) {value : ℚ}
    (hvalue : x.neighbourhood.Contains value) : 0 < value := by
  have hpos := isZero_eq_false_iff.mp h
  have hlower : 0 < x.lowerEnd := by
    have hbelow := x.below_pos
    exact Nat.mul_pos (by omega) x.unit_pos
  have hquarters : 0 < quarters value := by
    rw [← Nat.cast_pos (α := ℚ)] at hlower
    rw [contains_iff] at hvalue
    split at hvalue
    · exact hlower.trans_le hvalue.1
    · exact hlower.trans hvalue.1
  have hscale : (0 : ℚ) < 2 ^ 1074 := by positivity
  exact pos_of_mul_pos_left (pos_of_mul_pos_left hquarters hscale.le) (by norm_num)

end Double
end Flowscript
