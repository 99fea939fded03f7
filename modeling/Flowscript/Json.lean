import Flowscript.Entries
import Flowscript.Number

/-!
# JSON data

Data in the JSON sense, with the fields of an object in the order in which they were written.
Whether the names of an object's fields are distinct is a separate predicate, `Json.Distinct`.
-/

namespace Flowscript

/-- A JSON value. -/
inductive Json where
  | null
  | bool (value : Bool)
  | number (value : Number)
  | string (value : String)
  | array (items : List Json)
  | object (fields : List (String × Json))

namespace Json

instance : Inhabited Json := ⟨.null⟩

mutual

/-- In every object at every depth the names of the fields are distinct. -/
def Distinct : Json → Prop
  | .array items => DistinctItems items
  | .object fields => (Entries.keys fields).Nodup ∧ DistinctFields fields
  | _ => True

/-- `Distinct` for the members of an array. -/
def DistinctItems : List Json → Prop
  | [] => True
  | item :: rest => item.Distinct ∧ DistinctItems rest

/-- `Distinct` for the values of an object. -/
def DistinctFields : List (String × Json) → Prop
  | [] => True
  | (_, value) :: rest => value.Distinct ∧ DistinctFields rest

end

theorem distinctItems_iff {items : List Json} :
    DistinctItems items ↔ ∀ item ∈ items, item.Distinct := by
  induction items with
  | nil => simp [DistinctItems]
  | cons item rest ih => simp [DistinctItems, ih]

theorem distinctFields_iff {fields : List (String × Json)} :
    DistinctFields fields ↔ ∀ field ∈ fields, field.2.Distinct := by
  induction fields with
  | nil => simp [DistinctFields]
  | cons field rest ih =>
    obtain ⟨name, value⟩ := field
    simp [DistinctFields, ih]

theorem Distinct.item {items : List Json} (h : (array items).Distinct) {item : Json}
    (hitem : item ∈ items) : item.Distinct := distinctItems_iff.mp h item hitem

theorem Distinct.value {fields : List (String × Json)} (h : (object fields).Distinct)
    {field : String × Json} (hfield : field ∈ fields) : field.2.Distinct :=
  distinctFields_iff.mp h.2 field hfield

/-- The fields of an object; anything else has none. -/
def fields : Json → List (String × Json)
  | .object fields => fields
  | _ => []

/-- The field of the given name. -/
def get? (name : String) (value : Json) : Option Json := Entries.get? name value.fields

end Json
end Flowscript
