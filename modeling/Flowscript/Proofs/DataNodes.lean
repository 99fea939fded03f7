import Flowscript.Property.StateFields
import Flowscript.Proofs.Steps
import Flowscript.Proofs.Subnodes

/-!
# Data as nodes

A node that stands for JSON data has the shape of that data, and the data can be read back from it.
The nodes that stand for data are those without a tag. The main statement is that the two readings
are inverse to each other, and that the first tag is reported where there is one.
-/

namespace Flowscript.Node

mutual

/-- Data is read back from its node as it was. -/
theorem toJson_ofJson (value : Json) : (ofJson value).toJson = .ok value := by
  cases value with
  | array items => simp [ofJson, toJson, toJsonItems_ofJsonItems items, Except.map]
  | object fields => simp [ofJson, toJson, toJsonEntries_ofJsonFields fields, Except.map]
  | _ => rfl

theorem toJsonItems_ofJsonItems (items : List Json) :
    toJsonItems (ofJsonItems items) = .ok items := by
  cases items with
  | nil => rfl
  | cons item rest =>
    simp only [ofJsonItems, toJsonItems, toJson_ofJson item, toJsonItems_ofJsonItems rest]
    rfl

theorem toJsonEntries_ofJsonFields (fields : List (String × Json)) :
    toJsonEntries (ofJsonFields fields) = .ok fields := by
  cases fields with
  | nil => rfl
  | cons field rest =>
    obtain ⟨name, value⟩ := field
    simp only [ofJsonFields, toJsonEntries, toJson_ofJson value, toJsonEntries_ofJsonFields rest]
    rfl

end

mutual

/-- A node from which data is read stands for that data. -/
theorem eq_ofJson_of_toJson (node : Node) {value : Json} (h : node.toJson = .ok value) :
    node = ofJson value := by
  cases node with
  | sequence items =>
    rw [toJson] at h
    obtain ⟨values, hitems, rfl⟩ := ok_of_map h
    rw [ofJson, ← eq_ofJsonItems_of_toJsonItems items hitems]
  | mapping entries =>
    rw [toJson] at h
    obtain ⟨fields, hentries, rfl⟩ := ok_of_map h
    rw [ofJson, ← eq_ofJsonFields_of_toJsonEntries entries hentries]
  | tagged tag payload => cases h
  | _ =>
    cases h
    rfl

theorem eq_ofJsonItems_of_toJsonItems (items : List Node) {values : List Json}
    (h : toJsonItems items = .ok values) : items = ofJsonItems values := by
  cases items with
  | nil =>
    cases h
    rfl
  | cons item rest =>
    rw [toJsonItems] at h
    obtain ⟨value, hitem, h⟩ := ok_of_bind h
    obtain ⟨others, hrest, h⟩ := ok_of_bind h
    cases h
    rw [ofJsonItems, ← eq_ofJson_of_toJson item hitem, ← eq_ofJsonItems_of_toJsonItems rest hrest]

theorem eq_ofJsonFields_of_toJsonEntries (entries : List (String × Node))
    {fields : List (String × Json)} (h : toJsonEntries entries = .ok fields) :
    entries = ofJsonFields fields := by
  cases entries with
  | nil =>
    cases h
    rfl
  | cons entry rest =>
    obtain ⟨name, node⟩ := entry
    rw [toJsonEntries] at h
    obtain ⟨value, hnode, h⟩ := ok_of_bind h
    obtain ⟨others, hrest, h⟩ := ok_of_bind h
    cases h
    rw [ofJsonFields, ← eq_ofJson_of_toJson node hnode,
      ← eq_ofJsonFields_of_toJsonEntries rest hrest]

end

theorem eq_ofJson_of_readData {node : Node} {value : Json}
    (h : Property.readData node = .ok value) : node = ofJson value := by
  refine eq_ofJson_of_toJson node ?_
  simp only [Property.readData] at h
  split at h
  · cases h
    assumption
  · cases h

theorem readData_ofJson (value : Json) : Property.readData (ofJson value) = .ok value := by
  rw [Property.readData, toJson_ofJson]

theorem ofJsonFields_eq_map (fields : List (String × Json)) :
    ofJsonFields fields = fields.map fun field => (field.1, ofJson field.2) := by
  induction fields with
  | nil => rfl
  | cons field rest ih => simp [ofJsonFields, ih]

theorem get?_ofJsonFields (key : String) (fields : List (String × Json)) :
    Entries.get? key (ofJsonFields fields) = (Entries.get? key fields).map ofJson := by
  induction fields with
  | nil => rfl
  | cons field rest ih =>
    obtain ⟨name, value⟩ := field
    by_cases h : name = key
    · simp [ofJsonFields, Entries.get?, h]
    · simp [ofJsonFields, Entries.get?, h, ih]

/-- Data is a machine if it has a field `StartAt`. -/
theorem isMachine_ofJson (value : Json) :
    (ofJson value).isMachine = (value.get? "StartAt").isSome := by
  cases value with
  | object fields =>
    simp [ofJson, isMachine, Entries.has, get?_ofJsonFields, Json.get?, Json.fields]
  | _ => rfl

/-- Only null stands for null. -/
theorem isNull_ofJson {value : Json} (h : value ≠ .null) : (ofJson value).isNull = false := by
  cases value <;> first | rfl | exact absurd rfl h

/-! ## Tags -/

mutual

/-- Reading a node as data fails at the first tag in the order of the text. -/
theorem findSome?_tag?_subnodes (node : Node) :
    node.subnodes.findSome? tag? =
      match node.toJson with
      | .ok _ => none
      | .error tag => some tag := by
  cases node with
  | sequence items =>
    rw [subnodes, List.findSome?_cons, toJson]
    show (itemsSubnodes items).findSome? tag? = _
    rw [findSome?_tag?_itemsSubnodes items]
    cases toJsonItems items <;> rfl
  | mapping entries =>
    rw [subnodes, List.findSome?_cons, toJson]
    show (entriesSubnodes entries).findSome? tag? = _
    rw [findSome?_tag?_entriesSubnodes entries]
    cases toJsonEntries entries <;> rfl
  | _ => rfl

theorem findSome?_tag?_itemsSubnodes (items : List Node) :
    (itemsSubnodes items).findSome? tag? =
      match toJsonItems items with
      | .ok _ => none
      | .error tag => some tag := by
  cases items with
  | nil => rfl
  | cons item rest =>
    rw [itemsSubnodes, List.findSome?_append, findSome?_tag?_subnodes item,
      findSome?_tag?_itemsSubnodes rest, toJsonItems]
    cases item.toJson with
    | error tag => rfl
    | ok value => cases toJsonItems rest <;> rfl

theorem findSome?_tag?_entriesSubnodes (entries : List (String × Node)) :
    (entriesSubnodes entries).findSome? tag? =
      match toJsonEntries entries with
      | .ok _ => none
      | .error tag => some tag := by
  cases entries with
  | nil => rfl
  | cons entry rest =>
    obtain ⟨key, node⟩ := entry
    rw [entriesSubnodes, List.findSome?_append, findSome?_tag?_subnodes node,
      findSome?_tag?_entriesSubnodes rest, toJsonEntries]
    cases node.toJson with
    | error tag => rfl
    | ok value => cases toJsonEntries rest <;> rfl

end

/-- No tag stands anywhere in the node. -/
def TagFree (node : Node) : Prop := All (fun inner => inner.tag? = none) node

/-- A node stands for data exactly if there is no tag in it. -/
theorem tagFree_iff (node : Node) : node.TagFree ↔ ∃ value, ofJson value = node := by
  have hfirst := findSome?_tag?_subnodes node
  rw [TagFree, All, ← List.findSome?_eq_none_iff, hfirst]
  cases hdata : node.toJson with
  | ok value => simpa using ⟨value, (eq_ofJson_of_toJson node hdata).symm⟩
  | error tag =>
    simp only [reduceCtorEq, false_iff]
    rintro ⟨value, rfl⟩
    rw [toJson_ofJson] at hdata
    cases hdata

/-! ## Data and nodes without tags -/

/-- Data is read exactly from the nodes without a tag. -/
theorem readData_eq_ok_iff (node : Node) :
    (∃ value, Property.readData node = .ok value) ↔ node.TagFree := by
  rw [tagFree_iff]
  constructor
  · rintro ⟨value, h⟩
    exact ⟨value, (eq_ofJson_of_readData h).symm⟩
  · rintro ⟨value, rfl⟩
    exact ⟨value, readData_ofJson value⟩

/-- The failure to read data names a tag in the node, and there is none before it. -/
theorem exists_tag_of_readData {node : Node} {cause : SyntaxError}
    (h : Property.readData node = .error cause) :
    ∃ before tag payload after,
      node.subnodes = before ++ .tagged tag payload :: after ∧
        (∀ inner ∈ before, inner.tag? = none) ∧ cause = .tagInData tag := by
  have hfirst := findSome?_tag?_subnodes node
  unfold Property.readData at h
  cases hdata : node.toJson with
  | ok value =>
    rw [hdata] at h
    cases h
  | error tag =>
    rw [hdata] at h hfirst
    cases h
    obtain ⟨before, inner, after, hsplit, htag, hbefore⟩ := List.findSome?_eq_some_iff.mp hfirst
    cases inner with
    | tagged name payload =>
      cases htag
      exact ⟨before, tag, payload, after, hsplit, hbefore, rfl⟩
    | _ => cases htag

/-- Nodes and data are the same thing, tags apart. Data is read back from its node unchanged; a node
is read as data exactly if there is no tag in it, and is then the node of that data; and otherwise
the failure names the first tag in the order of the text. -/
theorem readData_exact :
    (∀ value, Property.readData (ofJson value) = .ok value) ∧
      ∀ node,
        ((∃ value, Property.readData node = .ok value) ↔
          ∀ inner ∈ node.subnodes, inner.tag? = none) ∧
        (∀ value, Property.readData node = .ok value → ofJson value = node) ∧
        ∀ cause, Property.readData node = .error cause →
          ∃ before tag payload after, node.subnodes = before ++ .tagged tag payload :: after ∧
            (∀ inner ∈ before, inner.tag? = none) ∧ cause = .tagInData tag ∧
            cause.message = "tag '!" ++ tag ++ "' is not allowed inside data" := by
  refine ⟨readData_ofJson, fun node => ⟨readData_eq_ok_iff node, ?_, ?_⟩⟩
  · intro value h
    exact (eq_ofJson_of_readData h).symm
  · intro cause h
    obtain ⟨before, tag, payload, after, hsplit, hbefore, rfl⟩ := exists_tag_of_readData h
    exact ⟨before, tag, payload, after, hsplit, hbefore, rfl, rfl⟩

example : Property.readData (.mapping [("Parameters", .sequence [.null, .tagged "pass" .null]),
    ("Result", .tagged "end" .null)]) = .error (.tagInData "pass") := rfl

end Flowscript.Node
