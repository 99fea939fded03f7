import Flowscript.Json.Printer

/-!
# Compact text

The compact text of a JSON value is one line, whatever strings are in the value: no character of it
is a control below the space. Strings escape these; digits, signs and brackets are none.
-/

namespace Flowscript

/-! ## Texts without controls -/

namespace Text

/-- No character stands below the space. -/
def NoControls (text : List Char) : Prop := ∀ c ∈ text, 0x20 ≤ c.toNat

namespace NoControls

variable {first second text : List Char}

theorem nil : NoControls [] := nofun

theorem cons {c : Char} (hc : 0x20 ≤ c.toNat) (h : NoControls text) : NoControls (c :: text) := by
  intro d hd
  rcases List.mem_cons.mp hd with rfl | hd
  · exact hc
  · exact h d hd

theorem append (h : NoControls first) (h' : NoControls second) : NoControls (first ++ second) := by
  intro c hc
  rcases List.mem_append.mp hc with hc | hc
  · exact h c hc
  · exact h' c hc

theorem of_subset (h : NoControls text) (hsub : first ⊆ text) : NoControls first :=
  fun c hc => h c (hsub hc)

theorem flatMap {α : Type} {items : List α} {f : α → List Char} (h : ∀ a, NoControls (f a)) :
    NoControls (items.flatMap f) := by
  intro c hc
  obtain ⟨a, -, hc⟩ := List.mem_flatMap.mp hc
  exact h a c hc

theorem replicate {c : Char} (hc : 0x20 ≤ c.toNat) (n : Nat) : NoControls (List.replicate n c) := by
  intro d hd
  rw [(List.mem_replicate.mp hd).2]
  exact hc

/-- Neither a line feed nor a carriage return is in the text. -/
theorem notMem (h : NoControls text) : '\n' ∉ text ∧ '\r' ∉ text :=
  ⟨fun hfeed => absurd (h _ hfeed) (by decide), fun hreturn => absurd (h _ hreturn) (by decide)⟩

theorem toDigits (n : Nat) : NoControls (Nat.toDigits 10 n) := by
  intro c hc
  have hdigit := Nat.isDigit_of_mem_toDigits (by omega) (by omega) hc
  simp only [Char.isDigit, Bool.and_eq_true, decide_eq_true_eq] at hdigit
  have hlow : 48 ≤ c.toNat := hdigit.1
  omega

end NoControls
end Text

open Text (NoControls)

/-! ## Numbers -/

namespace FloatLayout

theorem noControls_significantDigits (d : Nat) : NoControls (significantDigits d) := by
  apply (NoControls.toDigits d).of_subset
  intro c hc
  rw [significantDigits, List.mem_reverse] at hc
  have hmem := (List.dropWhile_sublist _).subset hc
  exact List.mem_reverse.mp hmem

theorem noControls_exponentText (layout : FloatLayout) (e : Int) :
    NoControls (layout.exponentText e) := by
  have hdigits := NoControls.toDigits e.natAbs
  unfold exponentText
  split
  · exact hdigits.cons (by decide)
  · split
    · exact hdigits.cons (by decide)
    · exact hdigits

theorem noControls_lay (layout : FloatLayout) {digits : List Char} (h : NoControls digits)
    (e : Int) : NoControls (layout.lay digits e) := by
  have htake (n : Nat) : NoControls (digits.take n) := h.of_subset (List.take_subset n digits)
  have hdrop (n : Nat) : NoControls (digits.drop n) := h.of_subset (List.drop_subset n digits)
  have hzeros (n : Nat) : NoControls (List.replicate n '0') := .replicate (by decide) n
  have hzero : NoControls ['0'] := hzeros 1
  unfold lay
  dsimp only
  split
  · split
    · exact (((hzeros _).append h).cons (by decide)).cons (by decide)
    · refine ((htake _).append (hzeros _)).append (.cons (by decide) ?_)
      split
      · exact hzero
      · exact hdrop _
  · refine ((htake _).append ?_).append ((layout.noControls_exponentText e).cons (by decide))
    split
    · exact .nil
    · exact (hdrop _).cons (by decide)

theorem noControls_text (layout : FloatLayout) (x : Double) :
    NoControls (layout.text x).toList := by
  have hbody : NoControls (if x.isZero then ['0', '.', '0'] else
      layout.lay (significantDigits x.shortest.1)
        (x.shortest.2 + (Nat.toDigits 10 x.shortest.1).length - 1)) := by
    split
    · simp [NoControls]
    · exact layout.noControls_lay (noControls_significantDigits _) _
  unfold text
  rw [String.toList_ofList]
  split
  · exact hbody.cons (by decide)
  · exact hbody

end FloatLayout

theorem Number.noControls_text (n : Number) : NoControls n.text.toList := by
  cases n with
  | real x => exact FloatLayout.json.noControls_text x
  | whole n =>
    show NoControls (toString n).toList
    rw [toList_toString]
    split
    · exact (NoControls.toDigits _).cons (by decide)
    · exact .toDigits _

/-! ## Values -/

namespace Json

theorem le_toNat_hexDigit {n : Nat} (h : n < 16) : 0x20 ≤ (hexDigit n).toNat := by
  have hall : ∀ n < 16, 0x20 ≤ (hexDigit n).toNat := by decide
  exact hall n h

theorem noControls_escapeChar (c : Char) : NoControls (escapeChar c) := by
  have hpair {d : Char} (hd : 0x20 ≤ d.toNat) : NoControls ['\\', d] :=
    .cons (by decide) (.cons hd .nil)
  unfold escapeChar
  split
  next hquote =>
    rw [Bool.or_eq_true, decide_eq_true_eq, decide_eq_true_eq] at hquote
    rcases hquote with rfl | rfl
    · exact hpair (by decide)
    · exact hpair (by decide)
  next =>
    split
    · exact hpair (by decide)
    split
    · exact hpair (by decide)
    split
    · exact hpair (by decide)
    split
    · exact hpair (by decide)
    split
    · exact hpair (by decide)
    split
    next hcontrol =>
      have hdigits : NoControls [hexDigit (c.toNat / 16), hexDigit (c.toNat % 16)] :=
        .cons (le_toNat_hexDigit (by omega)) (.cons (le_toNat_hexDigit (by omega)) .nil)
      exact ((((hdigits.cons (by decide)).cons (by decide)).cons (by decide))).cons (by decide)
    next hcontrol => exact .cons (Nat.not_lt.mp hcontrol) .nil

theorem noControls_quote (text : String) : NoControls (quote text).toList := by
  have htext : NoControls (text.toList.flatMap escapeChar) := .flatMap noControls_escapeChar
  rw [quote, String.toList_ofList]
  exact (htext.cons (by decide)).append (.cons (by decide) .nil)

theorem noControls_commaSeparated {texts : List String}
    (h : ∀ text ∈ texts, NoControls text.toList) :
    NoControls (commaSeparated "," texts).toList := by
  induction texts with
  | nil => exact .nil
  | cons text rest ih =>
    have htext := h text List.mem_cons_self
    have hrest := ih fun other hother => h other (List.mem_cons_of_mem _ hother)
    cases rest with
    | nil => exact htext
    | cons other rest =>
      rw [commaSeparated, String.toList_append, String.toList_append]
      · exact (htext.append (.cons (by decide) .nil)).append hrest
      · exact nofun

theorem noControls_bracketed {start stop text : String} (hstart : NoControls start.toList)
    (h : NoControls text.toList) (hstop : NoControls stop.toList) :
    NoControls (start ++ text ++ stop).toList := by
  rw [String.toList_append, String.toList_append]
  exact (hstart.append h).append hstop

mutual

/-- The compact text of a value is one line without controls. -/
theorem noControls_compact (value : Json) : NoControls value.compact.toList := by
  cases value with
  | null =>
    rw [compact]
    simp [NoControls]
  | bool b =>
    cases b <;> rw [compact] <;> simp [NoControls]
  | number n =>
    rw [compact]
    exact n.noControls_text
  | string s =>
    rw [compact]
    exact noControls_quote s
  | array items =>
    rw [compact]
    exact noControls_bracketed (.cons (by decide) .nil)
      (noControls_commaSeparated (noControls_compactItems items)) (.cons (by decide) .nil)
  | object fields =>
    rw [compact]
    exact noControls_bracketed (.cons (by decide) .nil)
      (noControls_commaSeparated (noControls_compactFields fields)) (.cons (by decide) .nil)

theorem noControls_compactItems (items : List Json) :
    ∀ text ∈ compactItems items, NoControls text.toList := by
  cases items with
  | nil =>
    rw [compactItems]
    exact nofun
  | cons item rest =>
    rw [compactItems]
    intro text htext
    rcases List.mem_cons.mp htext with rfl | htext
    · exact noControls_compact item
    · exact noControls_compactItems rest text htext

theorem noControls_compactFields (fields : List (String × Json)) :
    ∀ text ∈ compactFields fields, NoControls text.toList := by
  cases fields with
  | nil =>
    rw [compactFields]
    exact nofun
  | cons field rest =>
    obtain ⟨name, value⟩ := field
    rw [compactFields]
    intro text htext
    rcases List.mem_cons.mp htext with rfl | htext
    · exact noControls_bracketed (noControls_quote name) (.cons (by decide) .nil)
        (noControls_compact value)
    · exact noControls_compactFields rest text htext

end

end Json
end Flowscript
