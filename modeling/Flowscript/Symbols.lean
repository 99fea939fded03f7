import Flowscript.Entries

/-!
# Symbols

Generated names: a stem, an underscore and a number. Each stem has a counter of its own, so within
one stem no number comes twice.
-/

namespace Flowscript

/-- The next number of each stem that was used. -/
structure Symbols where
  counters : Entries String Nat := []
deriving DecidableEq

namespace Symbols

instance : Inhabited Symbols := ⟨{}⟩

/-- The stem that stands for an empty one. -/
def fallbackStem : String := "sym"

/-- The stem that a name is generated from. -/
def effectiveStem (stem : String) : String := if stem.isEmpty then fallbackStem else stem

/-- The next number of a stem. -/
def count (symbols : Symbols) (stem : String) : Nat := (symbols.counters.get? stem).getD 0

/-- The name with the given stem and number. -/
def name (stem : String) (number : Nat) : String := stem ++ "_" ++ toString number

/-- The next name of a stem. -/
def next (symbols : Symbols) (stem : String) : String × Symbols :=
  let stem := effectiveStem stem
  let number := symbols.count stem
  (name stem number, ⟨symbols.counters.insert stem (number + 1)⟩)

theorem count_next_self (symbols : Symbols) (stem : String) :
    (symbols.next stem).2.count (effectiveStem stem) = symbols.count (effectiveStem stem) + 1 := by
  simp [next, count, Entries.get?_insert_self]

theorem count_next_ne (symbols : Symbols) {stem other : String} (h : other ≠ effectiveStem stem) :
    (symbols.next stem).2.count other = symbols.count other := by
  simp [next, count, Entries.get?_insert_ne h]

end Symbols
end Flowscript
