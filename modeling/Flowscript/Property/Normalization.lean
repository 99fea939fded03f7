import Flowscript.Notice
import Flowscript.Property.Matching

/-!
# Normalization of keys

Turns the entries of a mapping into properties of a state. A key that is spelled in full counts
more than abbreviations of the same property; among equals the later counts. A result that is a
path, and a resource that is data, move to the properties where they belong.
-/

namespace Flowscript

/-- Values of properties, in the order in which the properties first came in. -/
abbrev Properties := Entries Property Node

namespace Properties

/-- Properties that were read from keys so far. -/
structure Draft where
  properties : Properties := []
  /-- The properties that were spelled in full. -/
  spelled : List Property := []
  /-- Notices, the latest first. -/
  journal : List Notice := []

/-- Reads one entry of a mapping. -/
def Draft.add (draft : Draft) (key : String) (value : Node) : Draft :=
  match Property.ofKey? key with
  | none => { draft with journal := .propertyDropped key :: draft.journal }
  | some p =>
    let present := draft.properties.has p
    if present && draft.spelled.contains p && !p.isSpelledBy key then
      { draft with journal := .propertyIgnored key p :: draft.journal }
    else
      let overridden := if present then [Notice.propertyOverridden key p] else []
      let renamed := if key ≠ p.text then [Notice.propertyNormalized key p] else []
      { properties := draft.properties.insert p value
        spelled := if p.isSpelledBy key then p :: draft.spelled else draft.spelled
        journal := renamed ++ overridden ++ draft.journal }

/-- The properties that the keys of a mapping name. -/
def named (entries : Entries String Node) : Draft :=
  entries.foldl (fun draft entry => draft.add entry.1 entry.2) {}

/-- Whether a node is a path into the state's data. -/
def isPath : Node → Bool
  | .string text => (Text.dropStart? ['$', '.'] text.toList).isSome
  | _ => false

/-- Whether a node is data and no reference. -/
def isLiteral : Node → Bool
  | .string _ | .null => false
  | _ => true

/-- Gives the value of one property to another if it is of the given kind. -/
def move (source target : Property) (kind : Node → Bool) (properties : Properties) : Properties :=
  match properties.get? source with
  | some value =>
    if kind value then Entries.insert target value (properties.erase source) else properties
  | none => properties

/-- Moves a result that is a path, then a resource that is data. -/
def relocate (properties : Properties) : Properties :=
  move .resource .result isLiteral (move .result .resultPath isPath properties)

/-- The properties that a mapping means. -/
def ofEntries (entries : Entries String Node) : Properties := relocate (named entries).properties

/-! ## Values are kept -/

/-- Every value of a draft's properties comes from one of the given entries. -/
def Draft.From (entries : Entries String Node) (draft : Draft) : Prop :=
  ∀ p node, (p, node) ∈ draft.properties → ∃ key, (key, node) ∈ entries

theorem Draft.From.add {entries : Entries String Node} {draft : Draft} {key : String} {value : Node}
    (h : draft.From entries) (hv : (key, value) ∈ entries) :
    (draft.add key value).From entries := by
  intro p node hp
  simp only [Draft.add] at hp
  split at hp
  · exact h p node hp
  · split at hp
    · exact h p node hp
    · rcases Entries.mem_insert hp with rfl | hp
      · exact ⟨key, hv⟩
      · exact h p node hp

theorem named_from (entries : Entries String Node) : (named entries).From entries := by
  suffices ∀ (part : Entries String Node) (draft : Draft), draft.From entries → part ⊆ entries →
      (part.foldl (fun draft entry => draft.add entry.1 entry.2) draft).From entries from
    this entries {} (by intro p node hp; simp at hp) (List.Subset.refl _)
  intro part
  induction part with
  | nil => intro draft h _; exact h
  | cons entry rest ih =>
    intro draft h hsub
    exact ih _ (h.add (hsub (List.mem_cons_self ..))) fun e he => hsub (List.mem_cons_of_mem _ he)

theorem mem_move {source target : Property} {kind : Node → Bool} {properties : Properties}
    {p : Property} {node : Node} (h : (p, node) ∈ move source target kind properties) :
    ∃ q, (q, node) ∈ properties := by
  simp only [move] at h
  split at h
  · rename_i value hv
    split at h
    · rcases Entries.mem_insert h with rfl | h
      · exact ⟨source, Entries.mem_of_get? hv⟩
      · exact ⟨p, Entries.mem_of_mem_erase h⟩
    · exact ⟨p, h⟩
  · exact ⟨p, h⟩

/-- Every property's value is the value of some entry. -/
theorem exists_mem_of_get? {entries : Entries String Node} {p : Property} {node : Node}
    (h : (ofEntries entries).get? p = some node) : ∃ key, (key, node) ∈ entries := by
  obtain ⟨q, hq⟩ := mem_move (Entries.mem_of_get? h)
  obtain ⟨r, hr⟩ := mem_move hq
  exact named_from entries r node hr

end Properties
end Flowscript
