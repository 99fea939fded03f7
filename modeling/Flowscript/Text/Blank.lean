/-!
# White space

The white-space characters of Unicode, and trimming by them.
-/

namespace Flowscript.Text

/-- The characters of the Unicode property `White_Space`. -/
def isBlank (c : Char) : Bool :=
  (9 ≤ c.toNat && c.toNat ≤ 13) || c.toNat == 0x20 || c.toNat == 0x85 || c.toNat == 0xA0 ||
  c.toNat == 0x1680 || (0x2000 ≤ c.toNat && c.toNat ≤ 0x200A) || c.toNat == 0x2028 ||
  c.toNat == 0x2029 || c.toNat == 0x202F || c.toNat == 0x205F || c.toNat == 0x3000

/-- The characters without the white space in front. -/
def trimStart (cs : List Char) : List Char := cs.dropWhile isBlank

/-- The characters without the white space in front and behind. -/
def trim (cs : List Char) : List Char := (trimStart (trimStart cs).reverse).reverse

/-- Whether nothing but white space is left. -/
def isBlankText (text : String) : Bool := text.toList.all isBlank

theorem all_trimStart (cs : List Char) : (trimStart cs).all isBlank = cs.all isBlank := by
  induction cs with
  | nil => rfl
  | cons c cs ih => cases h : isBlank c <;> simp_all [trimStart]

theorem trimStart_eq_nil_iff {cs : List Char} : trimStart cs = [] ↔ cs.all isBlank = true := by
  induction cs with
  | nil => simp [trimStart]
  | cons c cs ih => cases h : isBlank c <;> simp_all [trimStart]

/-- A text has nothing but white space exactly if trimming leaves nothing of it. -/
theorem isBlankText_iff {text : String} : isBlankText text = true ↔ trim text.toList = [] := by
  rw [trim, List.reverse_eq_nil_iff, trimStart_eq_nil_iff, List.all_reverse, all_trimStart,
    isBlankText]

/-- What is left of `text` behind `start`, if `text` begins with it. -/
def dropStart? : (start text : List Char) → Option (List Char)
  | [], text => some text
  | c :: start, d :: text => if c = d then dropStart? start text else none
  | _ :: _, [] => none

theorem dropStart?_eq_some {start text rest : List Char} :
    dropStart? start text = some rest ↔ text = start ++ rest := by
  induction start generalizing text with
  | nil => simp [dropStart?, eq_comm]
  | cons c start ih =>
    cases text with
    | nil => simp [dropStart?]
    | cons d text =>
      by_cases h : c = d <;> simp [dropStart?, h, ih]
      exact fun hd => absurd hd.symm h

theorem isSome_dropStart? (start text : List Char) :
    (dropStart? start text).isSome = start.isPrefixOf text := by
  induction start generalizing text with
  | nil => simp [dropStart?]
  | cons c start ih =>
    cases text with
    | nil => rfl
    | cons d text => by_cases h : c = d <;> simp [dropStart?, List.isPrefixOf, h, ih]

end Flowscript.Text
