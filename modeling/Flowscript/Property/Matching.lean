import Flowscript.Property
import Flowscript.Text.LowerCase

/-!
# Matching of abbreviated names

Finds the name that a written word means: the word itself in any case, or else the name that starts
most like the word. Of several names that fit equally well the first counts.
-/

namespace Flowscript

/-- How many characters two texts share at their start. -/
def sharedLength : List Char → List Char → Nat
  | c :: cs, d :: ds => if c = d then sharedLength cs ds + 1 else 0
  | _, _ => 0

/-- The first of the candidates with the greatest score, if that is positive. -/
def firstBest? {α : Type} (score : α → Nat) (candidates : List α) : Option α :=
  candidates.foldl (fun best candidate =>
    match best with
    | none => if 0 < score candidate then some candidate else none
    | some b => if score b < score candidate then some candidate else some b) none

/-- The candidate whose name a word means. -/
def bestMatch? {α : Type} (name : α → String) (candidates : List α) (word : String) : Option α :=
  let lower (text : String) := Text.lowerCase text.toList
  match candidates.find? fun candidate => lower (name candidate) = lower word with
  | some candidate => some candidate
  | none =>
    firstBest? (fun candidate => sharedLength (lower word) (lower (name candidate))) candidates

namespace Property

/-- The property that a key means. -/
def ofKey? (key : String) : Option Property := bestMatch? text canonical key

/-- Whether a key spells a property in full, in any case of its letters. -/
def isSpelledBy (p : Property) (key : String) : Bool :=
  p.text.toList.map Char.toLower = key.toList.map Char.toLower

end Property
end Flowscript
