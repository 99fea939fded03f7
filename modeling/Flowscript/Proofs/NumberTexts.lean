import Mathlib.Data.List.Basic
import Mathlib.Data.List.TakeWhile
import Flowscript.Proofs.Readings
import Flowscript.Proofs.ShortestDigits
import Flowscript.Yaml.Scalar

/-!
# Texts of numbers

The text of a number is a numeral, and read as one it stands for the digits that were written. So
different numbers have different texts, in every layout: whole numbers by their digits, others by
their shortest digits, and the two are told apart by a point or an exponent.
-/

namespace Flowscript

/-! ## Digits -/

namespace Decimal

theorem digitsValue_eq (digits : List Char) : digitsValue digits = Nat.ofDigitChars 10 digits 0 :=
  Nat.ofDigitChars_eq_foldl.symm

theorem digitsValue_toDigits (n : Nat) : digitsValue (Nat.toDigits 10 n) = n := by
  rw [digitsValue_eq, Nat.ofDigitChars_ten_toDigits]

theorem digitsValue_append (first second : List Char) :
    digitsValue (first ++ second) =
      digitsValue first * 10 ^ second.length + digitsValue second := by
  rw [digitsValue_eq, digitsValue_eq, digitsValue_eq, Nat.ofDigitChars_append,
    Nat.ofDigitChars_eq_ofDigitChars_zero]
  ring

theorem digitsValue_replicate (n : Nat) : digitsValue (List.replicate n '0') = 0 := by
  rw [digitsValue_eq, Nat.ofDigitChars_replicate_zero, Nat.mul_zero]

/-! ## Numerals -/

/-- Digits, a point with the digits behind it if there are any, and the text of an exponent. -/
def numeral (whole fraction tail : List Char) : List Char :=
  whole ++ (if fraction.isEmpty then [] else '.' :: fraction) ++ tail

/-- The parts of a numeral: there is a digit in front of the point. -/
structure Parts (whole fraction tail : List Char) (exponent : Int) : Prop where
  wholeDigits : ∀ c ∈ whole, c.isDigit = true
  wholeNonempty : whole ≠ []
  fractionDigits : ∀ c ∈ fraction, c.isDigit = true
  tailReads : exponentPart? tail = some exponent

variable {whole fraction tail : List Char} {exponent : Int}

/-- A numeral without a sign stands for its digits and its exponent. -/
theorem Parts.unsigned? (h : Parts whole fraction tail exponent) (negative : Bool) :
    unsigned? negative (numeral whole fraction tail) =
      some ⟨negative, digitsValue (whole ++ fraction), exponent - fraction.length⟩ := by
  have hstop : tail.takeWhile Char.isDigit = [] ∧ tail.dropWhile Char.isDigit = tail ∧
      ∀ rest, tail ≠ '.' :: rest := by
    cases tail with
    | nil => simp
    | cons c rest => rcases head_of_exponentPart? h.tailReads with rfl | rfl <;> simp
  obtain ⟨htake, hdrop, hpoint⟩ := hstop
  have hempty : whole.isEmpty = false := by simpa using h.wholeNonempty
  unfold numeral Decimal.unsigned?
  cases fraction with
  | nil =>
    simp only [List.isEmpty_nil, if_true, List.append_nil]
    rw [List.takeWhile_append_of_pos h.wholeDigits, List.dropWhile_append_of_pos h.wholeDigits,
      htake, hdrop]
    split
    next => exact absurd rfl (hpoint _)
    next => simp [hempty, h.tailReads]
  | cons c rest =>
    have hdot : Char.isDigit '.' = false := by decide
    simp only [List.isEmpty_cons, Bool.false_eq_true, if_false, List.append_assoc,
      List.cons_append]
    rw [List.takeWhile_append_of_pos h.wholeDigits, List.dropWhile_append_of_pos h.wholeDigits,
      List.takeWhile_cons_of_neg (by simp [hdot]), List.dropWhile_cons_of_neg (by simp [hdot])]
    have htake' : (c :: (rest ++ tail)).takeWhile Char.isDigit = c :: rest := by
      rw [← List.cons_append, List.takeWhile_append_of_pos h.fractionDigits, htake, List.append_nil]
    have hdrop' : (c :: (rest ++ tail)).dropWhile Char.isDigit = tail := by
      rw [← List.cons_append, List.dropWhile_append_of_pos h.fractionDigits, hdrop]
    simp [htake', hdrop', hempty, h.tailReads]

/-- A sign in front of a numeral is the sign of its number. -/
theorem Parts.ofChars? (h : Parts whole fraction tail exponent) (negative : Bool) :
    ofChars? (if negative then '-' :: numeral whole fraction tail
      else numeral whole fraction tail) =
        some ⟨negative, digitsValue (whole ++ fraction), exponent - fraction.length⟩ := by
  cases negative with
  | true => exact h.unsigned? true
  | false =>
    obtain ⟨c, rest, rfl⟩ := List.exists_cons_of_ne_nil h.wholeNonempty
    have hsign := splitSign_of_isDigit (h.wholeDigits c List.mem_cons_self)
      (rest ++ (if fraction.isEmpty then [] else '.' :: fraction) ++ tail)
    have hunsigned := h.unsigned? false
    unfold Decimal.ofChars?
    simp only [numeral, List.cons_append, Bool.false_eq_true, if_false] at hsign hunsigned ⊢
    rw [hsign]
    exact hunsigned

end Decimal

/-! ## Layouts -/

namespace FloatLayout

open Decimal (Parts numeral digitsValue)

variable {digits : List Char}

theorem isDigit_of_mem_toDigits {n : Nat} : ∀ c ∈ Nat.toDigits 10 n, c.isDigit = true :=
  fun _ hc => Nat.isDigit_of_mem_toDigits (by omega) (by omega) hc

theorem splitSign_toDigits (n : Nat) :
    Decimal.splitSign (Nat.toDigits 10 n) = (false, Nat.toDigits 10 n) := by
  obtain ⟨c, rest, hcons⟩ := List.exists_cons_of_ne_nil (Nat.toDigits_ne_nil (n := n) (b := 10))
  have hdigit := isDigit_of_mem_toDigits (n := n) c (hcons ▸ List.mem_cons_self)
  rw [hcons]
  exact splitSign_of_isDigit hdigit rest

theorem exponentPart?_of_splitSign {rest : List Char} {n : Nat} (negative : Bool)
    (h : Decimal.splitSign rest = (negative, Nat.toDigits 10 n)) :
    Decimal.exponentPart? ('e' :: rest) = some (if negative then -(n : Int) else n) := by
  have hnonempty : (Nat.toDigits 10 n).isEmpty = false := by simp
  have hall : (Nat.toDigits 10 n).all Char.isDigit = true :=
    List.all_eq_true.mpr isDigit_of_mem_toDigits
  unfold Decimal.exponentPart?
  simp only [h, hnonempty, hall, Decimal.digitsValue_toDigits]
  cases negative <;> rfl

/-- The text of an exponent is read back. -/
theorem exponentPart?_exponentText (layout : FloatLayout) (e : Int) :
    Decimal.exponentPart? ('e' :: layout.exponentText e) = some e := by
  unfold exponentText
  split
  next hnegative =>
    rw [exponentPart?_of_splitSign true rfl, if_pos rfl]
    congr 1
    omega
  next hpositive =>
    have hsame : (e.natAbs : Int) = e := by omega
    split
    next =>
      rw [exponentPart?_of_splitSign false rfl, if_neg Bool.false_ne_true, hsame]
    next =>
      rw [exponentPart?_of_splitSign _ (splitSign_toDigits _), if_neg Bool.false_ne_true, hsame]

/-- The text is a numeral that has a point or an exponent. Its number is that of the digits, the
first of which has the given exponent. -/
def Spells (text digits : List Char) (e : Int) : Prop :=
  ∃ whole fraction tail exponent, Parts whole fraction tail exponent ∧
    text = numeral whole fraction tail ∧ (fraction ≠ [] ∨ tail ≠ []) ∧
    (digitsValue (whole ++ fraction) : ℚ) * 10 ^ (exponent - fraction.length) =
      digitsValue digits * 10 ^ (e + 1 - digits.length)

theorem isDigit_of_mem_replicate (n : Nat) : ∀ c ∈ List.replicate n '0', c.isDigit = true := by
  intro c hc
  rw [(List.mem_replicate.mp hc).2]
  rfl

theorem isDigit_of_mem_append {first second : List Char} (h : ∀ c ∈ first, c.isDigit = true)
    (h' : ∀ c ∈ second, c.isDigit = true) : ∀ c ∈ first ++ second, c.isDigit = true :=
  fun c hc => (List.mem_append.mp hc).elim (h c) (h' c)

section Lay

variable (h : ∀ c ∈ digits, c.isDigit = true) (hne : digits ≠ []) {e : Int}

include h hne

/-- Behind the point, and zeros before the digits. -/
theorem spells_below (he : e < 0) :
    Spells ('0' :: '.' :: (List.replicate ((-e).toNat - 1) '0' ++ digits)) digits e := by
  have hpos : 0 < digits.length := List.length_pos_iff.mpr hne
  have hempty : (List.replicate ((-e).toNat - 1) '0' ++ digits).isEmpty = false := by simp [hne]
  have hvalue : digitsValue (['0'] ++ (List.replicate ((-e).toNat - 1) '0' ++ digits)) =
      digitsValue digits := by
    rw [← List.append_assoc, Decimal.digitsValue_append, ← List.replicate_one,
      ← List.replicate_add, Decimal.digitsValue_replicate]
    simp
  refine ⟨['0'], List.replicate ((-e).toNat - 1) '0' ++ digits, [], 0,
    ⟨isDigit_of_mem_replicate 1, by simp, isDigit_of_mem_append (isDigit_of_mem_replicate _) h,
      rfl⟩, by simp [numeral, hempty], .inl (by simp [hne]), ?_⟩
  rw [hvalue]
  congr 2
  rw [List.length_append, List.length_replicate]
  push_cast
  omega

/-- In front of the point, with zeros up to it, or on both sides of it. -/
theorem spells_around (he : 0 ≤ e) :
    Spells (digits.take (e.toNat + 1) ++
        List.replicate (e.toNat + 1 - (digits.take (e.toNat + 1)).length) '0' ++
      '.' :: (if (digits.drop (e.toNat + 1)).isEmpty then ['0'] else digits.drop (e.toNat + 1)))
      digits e := by
  by_cases hshort : digits.length ≤ e.toNat + 1
  · have hwhole : digits.take (e.toNat + 1) = digits := List.take_of_length_le hshort
    have hrest : digits.drop (e.toNat + 1) = [] := List.drop_of_length_le hshort
    refine ⟨digits ++ List.replicate (e.toNat + 1 - digits.length) '0', ['0'], [], 0,
      ⟨isDigit_of_mem_append h (isDigit_of_mem_replicate _), by simp [hne],
        isDigit_of_mem_replicate 1, rfl⟩, by simp [numeral, hwhole, hrest], .inl (by simp), ?_⟩
    rw [List.append_assoc, ← List.replicate_one, ← List.replicate_add,
      Decimal.digitsValue_append, Decimal.digitsValue_replicate, Nat.add_zero,
      List.length_replicate, List.length_replicate]
    push_cast
    rw [mul_assoc, ← zpow_natCast, ← zpow_add₀ (by norm_num)]
    congr 2
    omega
  · have hlength : (digits.take (e.toNat + 1)).length = e.toNat + 1 := by
      rw [List.length_take]
      omega
    have hrest : digits.drop (e.toNat + 1) ≠ [] := by
      rw [Ne, List.drop_eq_nil_iff]
      exact hshort
    refine ⟨digits.take (e.toNat + 1), digits.drop (e.toNat + 1), [], 0,
      ⟨fun c hc => h c (List.mem_of_mem_take hc), by simp [hne],
        fun c hc => h c (List.mem_of_mem_drop hc), rfl⟩, by simp [numeral, hlength, hrest],
      .inl hrest, ?_⟩
    rw [List.take_append_drop, List.length_drop]
    congr 2
    omega

/-- One digit in front of the point, and an exponent. -/
theorem spells_exponent (layout : FloatLayout) :
    Spells (digits.take 1 ++ (if (digits.drop 1).isEmpty then [] else '.' :: digits.drop 1) ++
      'e' :: layout.exponentText e) digits e := by
  have hpos : 0 < digits.length := List.length_pos_iff.mpr hne
  refine ⟨digits.take 1, digits.drop 1, 'e' :: layout.exponentText e, e,
    ⟨fun c hc => h c (List.mem_of_mem_take hc), by simp [hne],
      fun c hc => h c (List.mem_of_mem_drop hc), layout.exponentPart?_exponentText e⟩, rfl,
    .inr (by simp), ?_⟩
  rw [List.take_append_drop, List.length_drop]
  congr 2
  omega

/-- In every layout digits are spelled. -/
theorem spells_lay (layout : FloatLayout) (e : Int) : Spells (layout.lay digits e) digits e := by
  unfold lay
  split
  next =>
    split
    next hnegative => exact spells_below h hne hnegative
    next hpositive => exact spells_around h hne (not_lt.mp hpositive)
  next => exact spells_exponent h hne layout

end Lay

/-! ## Significant digits -/

/-- Only zeros at the end are left out. -/
theorem exists_zeros (d : Nat) :
    ∃ zeros, Nat.toDigits 10 d = significantDigits d ++ List.replicate zeros '0' := by
  have hsplit := List.takeWhile_append_dropWhile (p := (· = '0'))
    (l := (Nat.toDigits 10 d).reverse)
  have hzeros : ∀ c ∈ (Nat.toDigits 10 d).reverse.takeWhile (· = '0'), c = '0' := by
    intro c hc
    simpa using List.mem_takeWhile_imp hc
  obtain ⟨zeros, hlength⟩ :
      ∃ zeros, zeros = ((Nat.toDigits 10 d).reverse.takeWhile (· = '0')).length := ⟨_, rfl⟩
  rw [List.eq_replicate_of_mem hzeros, ← hlength] at hsplit
  refine ⟨zeros, ?_⟩
  rw [← List.reverse_inj, ← hsplit, significantDigits, List.reverse_append, List.reverse_reverse,
    List.reverse_replicate]

/-- The number of the significant digits, the first of which has the exponent that it has among all
digits. -/
theorem value_significantDigits {d : Nat} (hd : 0 < d) (k : Int) :
    (∀ c ∈ significantDigits d, c.isDigit = true) ∧ significantDigits d ≠ [] ∧
      (digitsValue (significantDigits d) : ℚ) *
        10 ^ (k + (Nat.toDigits 10 d).length - 1 + 1 - (significantDigits d).length) =
          d * 10 ^ k := by
  obtain ⟨zeros, hzeros⟩ := exists_zeros d
  have hvalue := Decimal.digitsValue_toDigits d
  rw [hzeros, Decimal.digitsValue_append, Decimal.digitsValue_replicate, List.length_replicate,
    Nat.add_zero] at hvalue
  refine ⟨fun c hc => isDigit_of_mem_toDigits c (hzeros ▸ List.mem_append_left _ hc), ?_, ?_⟩
  · intro hnil
    rw [hnil, show digitsValue [] = 0 from rfl, Nat.zero_mul] at hvalue
    omega
  · have hexponent : k + (Nat.toDigits 10 d).length - 1 + 1 - (significantDigits d).length =
        zeros + k := by
      rw [hzeros, List.length_append, List.length_replicate]
      push_cast
      omega
    rw [hexponent, zpow_add₀ (by norm_num), zpow_natCast, ← mul_assoc]
    congr 1
    exact_mod_cast hvalue

/-! ## Texts -/

/-- The magnitude that is written for a number. -/
def written (x : Double) : ℚ := if x.isZero then 0 else x.shortest.1 * 10 ^ x.shortest.2

/-- The text of a number is a numeral for the magnitude that is written, with the number's sign in
front. It has a point or an exponent. -/
theorem exists_parts_text (layout : FloatLayout) (x : Double) :
    ∃ whole fraction tail exponent, Parts whole fraction tail exponent ∧
      (layout.text x).toList = (if x.negative then '-' :: numeral whole fraction tail
        else numeral whole fraction tail) ∧
      (fraction ≠ [] ∨ tail ≠ []) ∧
      (digitsValue (whole ++ fraction) : ℚ) * 10 ^ (exponent - fraction.length) = written x := by
  unfold text written
  cases hzero : x.isZero with
  | true =>
    have hdigit := isDigit_of_mem_replicate 1
    refine ⟨['0'], ['0'], [], 0, ⟨hdigit, by simp, hdigit, rfl⟩, ?_, .inl (by simp), ?_⟩
    · rw [String.toList_ofList]
      rfl
    · rw [show digitsValue (['0'] ++ ['0']) = 0 from rfl]
      simp
  | false =>
    have hpos : 0 < x.shortest.1 := by
      by_contra hnone
      have hvalue := Double.pos_of_contains hzero (Double.contains_shortest hzero)
      rw [Nat.eq_zero_of_not_pos hnone] at hvalue
      simp at hvalue
    obtain ⟨hdigits, hne, hvalue⟩ := value_significantDigits hpos x.shortest.2
    obtain ⟨whole, fraction, tail, exponent, hparts, htext, hmarked, hspelled⟩ :=
      spells_lay hdigits hne layout (x.shortest.2 + (Nat.toDigits 10 x.shortest.1).length - 1)
    refine ⟨whole, fraction, tail, exponent, hparts, ?_, hmarked, ?_⟩
    · rw [String.toList_ofList, ← htext]
      rfl
    · rw [hspelled, hvalue]
      rfl

theorem ofChars?_text (layout : FloatLayout) (x : Double) :
    ∃ coefficient exponent,
      Decimal.ofChars? (layout.text x).toList = some ⟨x.negative, coefficient, exponent⟩ ∧
        (coefficient : ℚ) * 10 ^ exponent = written x := by
  obtain ⟨whole, fraction, tail, exponent, hparts, htext, -, hvalue⟩ := layout.exists_parts_text x
  exact ⟨_, _, htext ▸ hparts.ofChars? x.negative, hvalue⟩

/-- A point or an exponent stands in the text. -/
theorem mark_mem_text (layout : FloatLayout) (x : Double) :
    '.' ∈ (layout.text x).toList ∨ 'e' ∈ (layout.text x).toList ∨ 'E' ∈ (layout.text x).toList := by
  obtain ⟨whole, fraction, tail, exponent, hparts, htext, hmarked, -⟩ := layout.exists_parts_text x
  have hmark : '.' ∈ numeral whole fraction tail ∨ 'e' ∈ numeral whole fraction tail ∨
      'E' ∈ numeral whole fraction tail := by
    unfold numeral
    rcases hmarked with hfraction | htail
    · simp [hfraction]
    · obtain ⟨c, rest, rfl⟩ := List.exists_cons_of_ne_nil htail
      rcases head_of_exponentPart? hparts.tailReads with rfl | rfl <;> simp
  rw [htext]
  split
  · simpa using hmark
  · exact hmark

/-- Only zero is written as zero. -/
theorem written_eq_zero_iff {x : Double} : written x = 0 ↔ x.isZero = true := by
  unfold written
  cases hx : x.isZero with
  | true => simp
  | false =>
    have hpos := Double.pos_of_contains hx (Double.contains_shortest hx)
    simpa using hpos.ne'

/-- The magnitude that is written tells the number, its sign apart. -/
theorem eq_of_written {x y : Double} (hnegative : x.negative = y.negative)
    (h : written x = written y) : x = y := by
  have hparts : x.significand = y.significand ∧ x.exponent = y.exponent := by
    cases hx : x.isZero with
    | true =>
      have hy : y.isZero = true := written_eq_zero_iff.mp (h ▸ written_eq_zero_iff.mpr hx)
      exact Double.parts_of_isZero hx hy
    | false =>
      have hy : y.isZero = false := by
        rw [← Bool.not_eq_true, ← written_eq_zero_iff, ← h, written_eq_zero_iff, hx]
        exact Bool.false_ne_true
      have hvalue := Double.contains_shortest hy
      simp only [written, hx, hy, Bool.false_eq_true, if_false] at h
      rw [← h] at hvalue
      exact Double.eq_of_contains (Double.contains_shortest hx) hvalue
  cases x
  cases y
  simp_all

/-- Different numbers have different texts. -/
theorem text_injective (layout : FloatLayout) : Function.Injective layout.text := by
  intro x y h
  obtain ⟨coefficient, exponent, hread, hvalue⟩ := layout.ofChars?_text x
  obtain ⟨coefficient', exponent', hread', hvalue'⟩ := layout.ofChars?_text y
  rw [h, hread', Option.some.injEq, Decimal.mk.injEq] at hread
  obtain ⟨hnegative, rfl, rfl⟩ := hread
  exact eq_of_written hnegative.symm (hvalue.symm.trans hvalue')

end FloatLayout

/-! ## Whole numbers -/

theorem ofChars?_toString (n : Int) :
    Decimal.ofChars? (toString n).toList = some ⟨n < 0, n.natAbs, 0⟩ := by
  have hparts : Decimal.Parts (Nat.toDigits 10 n.natAbs) [] [] 0 :=
    ⟨FloatLayout.isDigit_of_mem_toDigits, Nat.toDigits_ne_nil, by simp, rfl⟩
  have hread := hparts.ofChars? (n < 0)
  simp only [Decimal.numeral, List.isEmpty_nil, if_true, List.append_nil, decide_eq_true_eq,
    Decimal.digitsValue_toDigits] at hread
  rw [Number.toList_toString, hread]
  rfl

theorem toString_injective : Function.Injective (toString : Int → String) := by
  intro n m h
  have hread := ofChars?_toString n
  rw [h, ofChars?_toString m, Option.some.injEq, Decimal.mk.injEq, decide_eq_decide] at hread
  omega

/-- A whole number is written without a point and without an exponent. -/
theorem mark_notMem_toString (n : Int) :
    '.' ∉ (toString n).toList ∧ 'e' ∉ (toString n).toList ∧ 'E' ∉ (toString n).toList := by
  have hdigits {c : Char} (hc : c ∈ (toString n).toList) : c = '-' ∨ c.isDigit = true := by
    rw [Number.toList_toString] at hc
    split at hc
    · exact (List.mem_cons.mp hc).imp_right (FloatLayout.isDigit_of_mem_toDigits c)
    · exact .inr (FloatLayout.isDigit_of_mem_toDigits c hc)
  refine ⟨?_, ?_, ?_⟩ <;> intro hmem <;> rcases hdigits hmem with h | h <;> cases h

/-- A whole number and another one are told apart by their texts, in every layout. -/
theorem toString_ne_text (n : Int) (layout : FloatLayout) (x : Double) :
    toString n ≠ layout.text x := by
  intro h
  obtain ⟨hpoint, hlower, hupper⟩ := mark_notMem_toString n
  rw [h] at hpoint hlower hupper
  rcases layout.mark_mem_text x with hmark | hmark | hmark
  · exact hpoint hmark
  · exact hlower hmark
  · exact hupper hmark

/-! ## Quantities -/

namespace Yaml.Quantity

/-- The quantities that are none of the numbers. -/
def words : List Quantity := [.infinite false, .infinite true, .notANumber]

theorem exists_number_or_mem_words (q : Quantity) : (∃ n, q = .number n) ∨ q ∈ words := by
  cases q with
  | number n => exact .inl ⟨n, rfl⟩
  | infinite negative => cases negative <;> exact .inr (by decide)
  | notANumber => exact .inr (by decide)

/-- Numbers are written as numerals. -/
theorem ofChars?_text_number (n : Number) :
    ∃ numeral, Decimal.ofChars? (text (.number n)).toList = some numeral := by
  cases n with
  | whole n => exact ⟨_, ofChars?_toString n⟩
  | real x =>
    obtain ⟨coefficient, exponent, hread, -⟩ := FloatLayout.key.ofChars?_text x
    exact ⟨_, hread⟩

/-- No numeral stands for what is none of the numbers. -/
theorem ofChars?_text_word : ∀ q ∈ words, Decimal.ofChars? q.text.toList = none := by decide

/-- Different quantities have different texts. -/
theorem text_injective : Function.Injective text := by
  intro p q h
  have hapart {n : Number} {q : Quantity} (hq : q ∈ words) : text (.number n) ≠ q.text := by
    intro h
    obtain ⟨numeral, hread⟩ := ofChars?_text_number n
    rw [h, ofChars?_text_word q hq] at hread
    cases hread
  rcases exists_number_or_mem_words p with ⟨n, rfl⟩ | hp <;>
    rcases exists_number_or_mem_words q with ⟨m, rfl⟩ | hq
  · congr 1
    cases n with
    | whole n =>
      cases m with
      | whole m => exact congrArg Number.whole (toString_injective h)
      | real y => exact absurd h (toString_ne_text n _ y)
    | real x =>
      cases m with
      | whole m => exact absurd h.symm (toString_ne_text m _ x)
      | real y => exact congrArg Number.real (FloatLayout.key.text_injective h)
  · exact absurd h (hapart hq)
  · exact absurd h.symm (hapart hp)
  · have hwords : ∀ p ∈ words, ∀ q ∈ words, p.text = q.text → p = q := by decide
    exact hwords p hp q hq h

end Yaml.Quantity
end Flowscript
