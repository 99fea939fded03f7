import Flowscript.Comparison

/-!
# Readings of a value

A value can be read as text, and as at most one other type. Between numbers and points in time it is
the character behind the first digits that decides: in a number it is a point or an exponent's
letter, in a point in time it is a hyphen or white space. From this follows which rules a comparison
without a type comes to.
-/

namespace Flowscript

/-! ## What follows the first digits -/

/-- The text starts with a digit, a sign apart. -/
def StartsNumber (cs : List Char) : Prop :=
  ∃ c rest, (Decimal.splitSign cs).2 = c :: rest ∧ c.isDigit = true

theorem toNat_of_isDigit {c : Char} (h : c.isDigit = true) : 48 ≤ c.toNat ∧ c.toNat ≤ 57 :=
  Char.isDigit_iff_toNat.mp h

theorem splitSign_of_isDigit {c : Char} (h : c.isDigit = true) (rest : List Char) :
    Decimal.splitSign (c :: rest) = (false, c :: rest) := by
  have hc := toNat_of_isDigit h
  unfold Decimal.splitSign
  split
  · simp_all
  · simp_all
  · rfl

/-- A text that starts with a digit, a sign apart, starts with a sign or a digit. -/
theorem StartsNumber.head {cs : List Char} (h : StartsNumber cs) :
    ∃ c rest, cs = c :: rest ∧ (c = '-' ∨ c = '+' ∨ c.isDigit = true) := by
  obtain ⟨d, rest, hsign, hd⟩ := h
  unfold Decimal.splitSign at hsign
  split at hsign
  · exact ⟨_, _, rfl, .inl rfl⟩
  · exact ⟨_, _, rfl, .inr (.inl rfl)⟩
  · exact ⟨d, rest, hsign, .inr (.inr hd)⟩

/-- There is no white space in front of a sign or a digit. -/
theorem StartsNumber.trimStart {cs : List Char} (h : StartsNumber cs) : Text.trimStart cs = cs := by
  obtain ⟨c, rest, rfl, hc⟩ := h.head
  refine List.dropWhile_cons_of_neg ?_
  rcases hc with rfl | rfl | hc
  · decide
  · decide
  · have hbounds := toNat_of_isDigit hc
    simp only [Text.isBlank, Bool.or_eq_true, Bool.and_eq_true, decide_eq_true_eq, beq_iff_eq]
    omega

/-- An exponent starts with its letter. -/
theorem head_of_exponentPart? {c : Char} {rest : List Char} {exponent : Int}
    (h : Decimal.exponentPart? (c :: rest) = some exponent) : c = 'e' ∨ c = 'E' := by
  by_cases hc : c = 'e' ∨ c = 'E'
  · exact hc
  · rw [Decimal.exponentPart?, if_neg (by simpa using hc)] at h
    cases h

namespace Timestamp

/-! ## Pieces -/

end Timestamp

/-! ## Readings -/

namespace Json

end Json

/-! ## Operators -/

namespace Operator

/-- Every operator with what it means. -/
def table : List (String × Operator) := [
  ("=", .generic .equals), ("==", .generic .equals), (">", .generic .greaterThan),
  (">=", .generic .greaterThanEquals), ("<", .generic .lessThan),
  ("<=", .generic .lessThanEquals),
  ("str=", .strict ⟨.string, .equals⟩), ("str>", .strict ⟨.string, .greaterThan⟩),
  ("str>=", .strict ⟨.string, .greaterThanEquals⟩), ("str<", .strict ⟨.string, .lessThan⟩),
  ("str<=", .strict ⟨.string, .lessThanEquals⟩),
  ("num=", .strict ⟨.numeric, .equals⟩), ("num>", .strict ⟨.numeric, .greaterThan⟩),
  ("num>=", .strict ⟨.numeric, .greaterThanEquals⟩), ("num<", .strict ⟨.numeric, .lessThan⟩),
  ("num<=", .strict ⟨.numeric, .lessThanEquals⟩),
  ("time=", .strict ⟨.timestamp, .equals⟩), ("time>", .strict ⟨.timestamp, .greaterThan⟩),
  ("time>=", .strict ⟨.timestamp, .greaterThanEquals⟩),
  ("time<", .strict ⟨.timestamp, .lessThan⟩),
  ("time<=", .strict ⟨.timestamp, .lessThanEquals⟩)]

end Operator

/-! ## The main statement -/

end Flowscript
