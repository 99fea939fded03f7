import Flowscript.Node

/-!
# Nodes inside a node

All nodes of a document at any depth, and properties that every one of them has. Such a property is
passed on to members, values, payloads and arguments.
-/

namespace Flowscript.Node

mutual

/-- The node itself and the nodes inside it, at any depth. -/
def subnodes : Node → List Node
  | .sequence items => .sequence items :: itemsSubnodes items
  | .mapping entries => .mapping entries :: entriesSubnodes entries
  | .tagged tag payload => .tagged tag payload :: payload.subnodes
  | node => [node]

/-- The nodes in the members of a sequence. -/
def itemsSubnodes : List Node → List Node
  | [] => []
  | item :: rest => item.subnodes ++ itemsSubnodes rest

/-- The nodes in the values of a mapping. -/
def entriesSubnodes : List (String × Node) → List Node
  | [] => []
  | (_, node) :: rest => node.subnodes ++ entriesSubnodes rest

end

/-- The keys of a mapping; no other node has keys. -/
def keys : Node → List String
  | .mapping entries => Entries.keys entries
  | _ => []

/-- The tag of a tagged node. -/
def tag? : Node → Option String
  | .tagged tag _ => some tag
  | _ => none

theorem self_mem_subnodes (node : Node) : node ∈ node.subnodes := by
  cases node <;> simp [subnodes]

theorem subnodes_subset_itemsSubnodes {item : Node} {items : List Node} (h : item ∈ items) :
    item.subnodes ⊆ itemsSubnodes items := by
  induction items with
  | nil => simp at h
  | cons first rest ih =>
    rcases List.mem_cons.mp h with rfl | h
    · exact List.subset_append_left _ _
    · exact List.Subset.trans (ih h) (List.subset_append_right _ _)

theorem exists_of_mem_itemsSubnodes {inner : Node} {items : List Node}
    (h : inner ∈ itemsSubnodes items) : ∃ item ∈ items, inner ∈ item.subnodes := by
  induction items with
  | nil => cases h
  | cons first rest ih =>
    rcases List.mem_append.mp h with h | h
    · exact ⟨first, List.mem_cons_self, h⟩
    · obtain ⟨item, hitem, h⟩ := ih h
      exact ⟨item, List.mem_cons_of_mem _ hitem, h⟩

theorem subnodes_subset_entriesSubnodes {key : String} {value : Node}
    {entries : List (String × Node)} (h : (key, value) ∈ entries) :
    value.subnodes ⊆ entriesSubnodes entries := by
  induction entries with
  | nil => simp at h
  | cons first rest ih =>
    rcases List.mem_cons.mp h with rfl | h
    · exact List.subset_append_left _ _
    · exact List.Subset.trans (ih h) (List.subset_append_right _ _)

theorem exists_of_mem_entriesSubnodes {inner : Node} {entries : List (String × Node)}
    (h : inner ∈ entriesSubnodes entries) :
    ∃ key value, (key, value) ∈ entries ∧ inner ∈ value.subnodes := by
  induction entries with
  | nil => cases h
  | cons first rest ih =>
    rcases List.mem_append.mp h with h | h
    · exact ⟨first.1, first.2, List.mem_cons_self, h⟩
    · obtain ⟨key, value, hvalue, h⟩ := ih h
      exact ⟨key, value, List.mem_cons_of_mem _ hvalue, h⟩

/-- What stands in a subnode stands in the node. -/
theorem subnodes_subset (node : Node) {inner : Node} (h : inner ∈ node.subnodes) :
    inner.subnodes ⊆ node.subnodes := by
  cases node with
  | sequence items =>
    rcases List.mem_cons.mp h with rfl | h
    · exact List.Subset.refl _
    · obtain ⟨item, hitem, h⟩ := exists_of_mem_itemsSubnodes h
      have hlow := height_le_itemsHeight hitem
      exact List.Subset.trans (item.subnodes_subset h)
        (List.subset_cons_of_subset _ (subnodes_subset_itemsSubnodes hitem))
  | mapping entries =>
    rcases List.mem_cons.mp h with rfl | h
    · exact List.Subset.refl _
    · obtain ⟨key, value, hvalue, h⟩ := exists_of_mem_entriesSubnodes h
      have hlow := height_le_entriesHeight hvalue
      exact List.Subset.trans (value.subnodes_subset h)
        (List.subset_cons_of_subset _ (subnodes_subset_entriesSubnodes hvalue))
  | tagged tag payload =>
    rcases List.mem_cons.mp h with rfl | h
    · exact List.Subset.refl _
    · exact List.Subset.trans (payload.subnodes_subset h) (List.subset_cons_self _ _)
  | _ =>
    obtain rfl := List.mem_singleton.mp h
    exact List.Subset.refl _
termination_by node.height
decreasing_by all_goals grind [Node.height]

/-- The property holds for the node and for every node inside it. -/
def All (P : Node → Prop) (node : Node) : Prop := ∀ inner ∈ node.subnodes, P inner

section All

variable {P : Node → Prop}

theorem All.self {node : Node} (h : All P node) : P node := h node node.self_mem_subnodes

theorem All.item {items : List Node} (h : All P (.sequence items)) {item : Node}
    (hitem : item ∈ items) : All P item := fun inner hinner =>
  h inner (List.mem_cons_of_mem _ (subnodes_subset_itemsSubnodes hitem hinner))

theorem All.value {entries : List (String × Node)} (h : All P (.mapping entries)) {key : String}
    {value : Node} (hvalue : (key, value) ∈ entries) : All P value := fun inner hinner =>
  h inner (List.mem_cons_of_mem _ (subnodes_subset_entriesSubnodes hvalue hinner))

theorem All.sequence {items : List Node} (h : P (.sequence items))
    (hitems : ∀ item ∈ items, All P item) : All P (.sequence items) := by
  intro inner hinner
  rcases List.mem_cons.mp hinner with rfl | hinner
  · exact h
  · obtain ⟨item, hitem, hinner⟩ := exists_of_mem_itemsSubnodes hinner
    exact hitems item hitem inner hinner

theorem All.payload {tag : String} {payload : Node} (h : All P (.tagged tag payload)) :
    All P payload := fun inner hinner => h inner (List.mem_cons_of_mem _ hinner)

theorem All.of_mem_arguments {node : Node} (h : All P node) {item : Node}
    (hitem : item ∈ node.arguments) : All P item := by
  cases node with
  | sequence items => exact h.item hitem
  | null => simp [arguments] at hitem
  | _ =>
    obtain rfl := List.mem_singleton.mp hitem
    exact h

theorem All.null (h : P .null) : All P .null := by
  intro inner hinner
  obtain rfl := List.mem_singleton.mp hinner
  exact h

theorem All.argument {node : Node} (h : All P node) (hnull : P .null) (index : Nat) :
    All P (node.argument index) := by
  simp only [Node.argument, List.getD_eq_getElem?_getD]
  cases hitem : node.arguments[index]? with
  | none => exact .null hnull
  | some item => exact h.of_mem_arguments (List.mem_of_getElem? hitem)

end All
end Flowscript.Node
