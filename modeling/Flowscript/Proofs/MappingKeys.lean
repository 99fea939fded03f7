import Mathlib.Data.List.Nodup
import Flowscript.Node.OfYaml
import Flowscript.Proofs.NumberTexts
import Flowscript.Proofs.Steps

/-!
# Keys of mappings

The keys of a YAML mapping become texts, and the entries are written to the node one after the
other. Keys of the same kind keep apart, numbers among them: only a key that is a text can have the
text of another key. The main statement is that a document loses an entry exactly if one of its
mappings has two such keys.
-/

namespace Flowscript

namespace Yaml.Value

/-! ## Mappings of a value -/

mutual

/-- The mappings in a value, at any depth. -/
def mappings : Value → List (List (Value × Value))
  | .scalar _ => []
  | .sequence items => itemsMappings items
  | .mapping entries => entries :: entriesMappings entries
  | .tagged _ payload => payload.mappings

/-- The mappings in the members of a sequence. -/
def itemsMappings : List Value → List (List (Value × Value))
  | [] => []
  | item :: rest => item.mappings ++ itemsMappings rest

/-- The mappings in the values of a mapping. -/
def entriesMappings : List (Value × Value) → List (List (Value × Value))
  | [] => []
  | (_, value) :: rest => value.mappings ++ entriesMappings rest

end

/-- Whether a value is a text. -/
def isText : Value → Bool
  | .scalar (.text _) => true
  | _ => false

theorem hasRepeat_eq_false_iff {keys : List Value} :
    hasRepeat keys = false ↔ keys.Pairwise fun key other => key.same other = false := by
  induction keys with
  | nil => simp [hasRepeat]
  | cons key rest ih => simp [hasRepeat, ih]

/-! ### Mappings that were read -/

theorem mappings_underTag (tag : Option (List UInt8)) (value : Value) :
    (underTag tag value).mappings = value.mappings := by
  unfold underTag
  split <;> rfl

mutual

/-- In what is read from a document, keys are distinct in each mapping. -/
theorem hasRepeat_of_ofContent (content : Content) {value : Value}
    (h : ofContent content = .ok value) :
    ∀ entries ∈ value.mappings, hasRepeat (entries.map Prod.fst) = false := by
  cases content with
  | scalar tag text plain =>
    obtain ⟨scalar, _, h⟩ := ok_of_bind h
    cases h
    simp [mappings_underTag, mappings]
  | sequence tag items =>
    obtain ⟨values, hvalues, h⟩ := ok_of_bind h
    cases h
    rw [mappings_underTag, mappings]
    exact hasRepeat_of_ofItems items hvalues
  | mapping tag contents =>
    obtain ⟨entries, hentries, h⟩ := ok_of_bind h
    cases hrepeat : hasRepeat (entries.map Prod.fst) <;> rw [hrepeat] at h <;> cases h
    rw [mappings_underTag, mappings, List.forall_mem_cons]
    exact ⟨hrepeat, hasRepeat_of_ofEntries contents hentries⟩

theorem hasRepeat_of_ofItems (contents : List Content) {items : List Value}
    (h : ofItems contents = .ok items) :
    ∀ entries ∈ itemsMappings items, hasRepeat (entries.map Prod.fst) = false := by
  cases contents with
  | nil =>
    cases h
    simp [itemsMappings]
  | cons content rest =>
    obtain ⟨item, hitem, h⟩ := ok_of_bind h
    obtain ⟨others, hothers, h⟩ := ok_of_bind h
    cases h
    rw [itemsMappings, List.forall_mem_append]
    exact ⟨hasRepeat_of_ofContent content hitem, hasRepeat_of_ofItems rest hothers⟩

theorem hasRepeat_of_ofEntries (contents : List (Content × Content))
    {entries : List (Value × Value)} (h : ofEntries contents = .ok entries) :
    ∀ inner ∈ entriesMappings entries, hasRepeat (inner.map Prod.fst) = false := by
  cases contents with
  | nil =>
    cases h
    simp [entriesMappings]
  | cons entry rest =>
    obtain ⟨first, second⟩ := entry
    obtain ⟨key, _, h⟩ := ok_of_bind h
    obtain ⟨value, hvalue, h⟩ := ok_of_bind h
    obtain ⟨others, hothers, h⟩ := ok_of_bind h
    cases h
    rw [entriesMappings, List.forall_mem_append]
    exact ⟨hasRepeat_of_ofContent second hvalue, hasRepeat_of_ofEntries rest hothers⟩

end

end Yaml.Value

namespace Node

open Yaml (Value Quantity Scalar)

/-! ## Texts of keys -/

/-- The scalars that are neither numbers nor texts. -/
def wordScalars : List Scalar := [.null, .bool true, .bool false]

theorem number_or_mem_wordScalars {a : Scalar} (h : (Value.scalar a).isText = false) :
    (∃ q, a = .number q) ∨ a ∈ wordScalars := by
  cases a with
  | null => exact .inr (by decide)
  | bool b => cases b <;> exact .inr (by decide)
  | number q => exact .inl ⟨q, rfl⟩
  | text s => cases h

/-- The words for such scalars are no quantity's text. -/
theorem text_ne_word (q : Quantity) :
    ∀ a ∈ wordScalars, keyOfYaml (.scalar a) ≠ .ok q.text := by
  have hwords : ∀ a ∈ wordScalars, ∃ word, keyOfYaml (.scalar a) = .ok word ∧
      Decimal.ofChars? word.toList = none ∧ ∀ q ∈ Quantity.words, q.text ≠ word := by
    simp only [wordScalars, List.forall_mem_cons]
    exact ⟨⟨"null", rfl, by decide, by decide⟩, ⟨"true", rfl, by decide, by decide⟩,
      ⟨"false", rfl, by decide, by decide⟩, by simp⟩
  intro a ha heq
  obtain ⟨word, hword, hread, hapart⟩ := hwords a ha
  obtain rfl := Except.ok.inj (hword.symm.trans heq)
  rcases q.exists_number_or_mem_words with ⟨n, rfl⟩ | hq
  · obtain ⟨numeral, hnumeral⟩ := Quantity.ofChars?_text_number n
    rw [hread] at hnumeral
    cases hnumeral
  · exact hapart q hq rfl

/-- Only scalars are keys. -/
theorem exists_scalar_of_keyOfYaml {key : Value} {text : String} (h : keyOfYaml key = .ok text) :
    ∃ a, key = .scalar a := by
  cases key with
  | scalar a => exact ⟨a, rfl⟩
  | _ => cases h

/-- Scalars with one text are equal, unless one of them is a text and the other is not. -/
theorem eq_of_keyOfYaml {a b : Scalar} (h : keyOfYaml (.scalar a) = keyOfYaml (.scalar b))
    (hkind : (Value.scalar a).isText = (Value.scalar b).isText) : a = b := by
  cases htext : (Value.scalar a).isText with
  | true =>
    have hb := hkind.symm.trans htext
    cases a <;> cases htext
    cases b <;> cases hb
    exact congrArg Scalar.text (Except.ok.inj h)
  | false =>
    rcases number_or_mem_wordScalars htext with ⟨p, rfl⟩ | ha <;>
      rcases number_or_mem_wordScalars (hkind.symm.trans htext) with ⟨q, rfl⟩ | hb
    · exact congrArg Scalar.number (Quantity.text_injective (Except.ok.inj h))
    · exact absurd h.symm (text_ne_word p b hb)
    · exact absurd h (text_ne_word q a ha)
    · have hapart : ∀ a ∈ wordScalars, ∀ b ∈ wordScalars,
          (keyOfYaml (.scalar a)).toOption = (keyOfYaml (.scalar b)).toOption → a = b := by
        decide
      exact hapart a ha b hb (congrArg Except.toOption h)

theorem same_scalar_self (a : Scalar) : (Value.scalar a).same (.scalar a) = true := by
  cases a with
  | number q =>
    cases q with
    | number n => cases n <;> simp [Value.same, Quantity.same, Double.same]
    | _ => simp [Value.same, Quantity.same]
  | _ => simp [Value.same]

/-- Keys with one text are the same, unless one of them is a text and the other is not. -/
theorem same_of_keyOfYaml {key other : Value} {text : String} (hkey : keyOfYaml key = .ok text)
    (hother : keyOfYaml other = .ok text) (hkind : key.isText = other.isText) :
    key.same other = true := by
  obtain ⟨a, rfl⟩ := exists_scalar_of_keyOfYaml hkey
  obtain ⟨b, rfl⟩ := exists_scalar_of_keyOfYaml hother
  rw [eq_of_keyOfYaml (hkey.trans hother.symm) hkind]
  exact same_scalar_self b

/-- A text among the keys is the text of a key that is none. -/
def Clashes (entries : List (Value × Value)) : Prop :=
  ∃ key ∈ entries.map Prod.fst, ∃ other ∈ entries.map Prod.fst,
    key.isText = true ∧ other.isText = false ∧ keyOfYaml key = keyOfYaml other

theorem toOption_keyOfYaml_eq_iff {key : Value} (h : key.isText = true) (other : Value) :
    (keyOfYaml key).toOption = (keyOfYaml other).toOption ↔ keyOfYaml key = keyOfYaml other := by
  obtain ⟨text, rfl⟩ : ∃ text, key = .scalar (.text text) := by
    cases key with
    | scalar a => cases a <;> cases h; exact ⟨_, rfl⟩
    | _ => cases h
  refine ⟨fun hsame => ?_, congrArg Except.toOption⟩
  cases hother : keyOfYaml other with
  | ok found =>
    rw [hother] at hsame
    exact congrArg Except.ok (Option.some.inj hsame)
  | error cause =>
    rw [hother] at hsame
    cases hsame

instance (entries : List (Value × Value)) : Decidable (Clashes entries) :=
  decidable_of_iff
    (∃ key ∈ entries.map Prod.fst, ∃ other ∈ entries.map Prod.fst,
      key.isText = true ∧ other.isText = false ∧
        (keyOfYaml key).toOption = (keyOfYaml other).toOption) <|
    exists_congr fun _ => and_congr_right fun _ => exists_congr fun other =>
      and_congr_right fun _ => and_congr_right fun h => and_congr_right fun _ =>
        toOption_keyOfYaml_eq_iff h other

/-! ## Entries -/

/-- The pairs are the entries: each key as its text, and each value as its node. -/
def Rendered : List (Value × Value) → Entries String Node → Prop :=
  List.Forall₂ fun entry pair => keyOfYaml entry.1 = .ok pair.1 ∧ ofYaml entry.2 = .ok pair.2

theorem ofYamlEntries_eq_ok_iff {entries : List (Value × Value)}
    {known others : Entries String Node} :
    ofYamlEntries known entries = .ok others ↔ ∃ pairs, Rendered entries pairs ∧
      pairs.foldl (fun others pair => Entries.insert pair.1 pair.2 others) known = others := by
  induction entries generalizing known with
  | nil =>
    constructor
    · intro h
      cases h
      exact ⟨[], .nil, rfl⟩
    · rintro ⟨pairs, hpairs, rfl⟩
      cases hpairs
      rfl
  | cons entry rest ih =>
    obtain ⟨key, value⟩ := entry
    constructor
    · intro h
      obtain ⟨text, htext, h⟩ := ok_of_bind h
      obtain ⟨node, hnode, h⟩ := ok_of_bind h
      obtain ⟨pairs, hpairs, hothers⟩ := ih.mp h
      exact ⟨(text, node) :: pairs, .cons ⟨htext, hnode⟩ hpairs, hothers⟩
    · rintro ⟨pairs, hpairs, hothers⟩
      cases hpairs with
      | cons hentry hrest =>
        rw [ofYamlEntries, hentry.1, hentry.2]
        exact ih.mpr ⟨_, hrest, hothers⟩

/-- The entries of a mapping are written one after the other. -/
theorem ofYaml_mapping_eq_ok_iff {entries : List (Value × Value)} {node : Node} :
    ofYaml (.mapping entries) = .ok node ↔
      ∃ pairs, Rendered entries pairs ∧ node = .mapping (Entries.ofPairs pairs) := by
  rw [ofYaml]
  constructor
  · intro h
    obtain ⟨others, hothers, h⟩ := ok_of_bind h
    cases h
    obtain ⟨pairs, hpairs, rfl⟩ := ofYamlEntries_eq_ok_iff.mp hothers
    exact ⟨pairs, hpairs, rfl⟩
  · rintro ⟨pairs, hpairs, rfl⟩
    rw [ofYamlEntries_eq_ok_iff.mpr ⟨pairs, hpairs, rfl⟩]
    rfl

theorem Rendered.keys {entries : List (Value × Value)} {pairs : Entries String Node}
    (h : Rendered entries pairs) :
    (entries.map Prod.fst).map keyOfYaml = pairs.keys.map .ok := by
  induction h with
  | nil => rfl
  | cons hentry _ ih =>
    rw [List.map_cons, List.map_cons, ih, hentry.1]
    rfl

theorem Rendered.exists_text {entries : List (Value × Value)} {pairs : Entries String Node}
    (h : Rendered entries pairs) {key : Value} (hkey : key ∈ entries.map Prod.fst) :
    ∃ text, keyOfYaml key = .ok text := by
  have hmem := List.mem_map_of_mem (f := keyOfYaml) hkey
  rw [h.keys] at hmem
  obtain ⟨text, _, htext⟩ := List.mem_map.mp hmem
  exact ⟨text, htext.symm⟩

/-- The texts of the keys are distinct exactly if none of them is the text of a key of another
kind. -/
theorem Rendered.distinct_iff {entries : List (Value × Value)} {pairs : Entries String Node}
    (h : Rendered entries pairs)
    (hdistinct : Value.hasRepeat (entries.map Prod.fst) = false) :
    pairs.Distinct ↔ ¬ Clashes entries := by
  have htexts : ((entries.map Prod.fst).map keyOfYaml).Nodup ↔ pairs.Distinct := by
    rw [h.keys, List.nodup_map_iff fun _ _ => Except.ok.inj, Entries.Distinct]
  rw [← htexts]
  constructor
  · rintro hnodup ⟨key, hkey, other, hother, htext, hother', hsame⟩
    rw [List.inj_on_of_nodup_map hnodup hkey hother hsame, hother'] at htext
    cases htext
  · intro hclash
    rw [List.Nodup, List.pairwise_map]
    refine (Value.hasRepeat_eq_false_iff.mp hdistinct).imp_of_mem ?_
    intro key other hkey hother hdifferent hsame
    obtain ⟨text, htext⟩ := h.exists_text hkey
    by_cases hkind : key.isText = other.isText
    · rw [same_of_keyOfYaml htext (hsame ▸ htext) hkind] at hdifferent
      cases hdifferent
    · -- one of the two is a text, the other is not
      cases hfirst : key.isText <;> cases hsecond : other.isText <;> rw [hfirst, hsecond] at hkind
      · exact hkind rfl
      · exact hclash ⟨other, hother, key, hkey, hsecond, hfirst, hsame.symm⟩
      · exact hclash ⟨key, hkey, other, hother, hfirst, hsecond, hsame⟩
      · exact hkind rfl

/-! ## Documents -/

mutual

/-- The node says what the value says: each mapping has as many entries, in the same order, with the
texts of the keys and the nodes of the values. -/
def Mirrors : Value → Node → Prop
  | .scalar value, node => ofScalar value = .ok node
  | .sequence items, .sequence nodes => MirrorsItems items nodes
  | .mapping entries, .mapping others => MirrorsEntries entries others
  | .tagged tag payload, .tagged name node =>
    name = String.ofList (tag.toList.dropWhile (· = '!')) ∧ Mirrors payload node
  | _, _ => False

/-- `Mirrors` for the members of a sequence. -/
def MirrorsItems : List Value → List Node → Prop
  | [], [] => True
  | item :: rest, node :: nodes => Mirrors item node ∧ MirrorsItems rest nodes
  | _, _ => False

/-- `Mirrors` for the entries of a mapping. -/
def MirrorsEntries : List (Value × Value) → Entries String Node → Prop
  | [], [] => True
  | (key, value) :: rest, (name, node) :: others =>
    keyOfYaml key = .ok name ∧ Mirrors value node ∧ MirrorsEntries rest others
  | _, _ => False

end

theorem MirrorsEntries.keys {entries : List (Value × Value)} {others : Entries String Node}
    (h : MirrorsEntries entries others) :
    (entries.map Prod.fst).map keyOfYaml = others.keys.map .ok := by
  induction entries generalizing others with
  | nil =>
    cases others with
    | nil => rfl
    | cons other others => simp [MirrorsEntries] at h
  | cons entry rest ih =>
    cases others with
    | nil => simp [MirrorsEntries] at h
    | cons other others =>
      rw [MirrorsEntries] at h
      rw [List.map_cons, List.map_cons, h.1, ih h.2.2]
      rfl

/-- What is written of the pairs mirrors the entries exactly if it is the pairs and they do. -/
theorem Rendered.mirrors_iff {entries : List (Value × Value)} {pairs : Entries String Node}
    (h : Rendered entries pairs) :
    MirrorsEntries entries (Entries.ofPairs pairs) ↔
      pairs.Distinct ∧ MirrorsEntries entries pairs := by
  constructor
  · intro hmirrors
    have hkeys : (Entries.ofPairs pairs).keys = pairs.keys :=
      List.map_injective_iff.mpr (fun _ _ => Except.ok.inj) (hmirrors.keys.symm.trans h.keys)
    have hdistinct : pairs.Distinct := by
      rw [Entries.Distinct, ← hkeys]
      exact Entries.distinct_ofPairs pairs
    rw [Entries.ofPairs_eq_self_iff.mpr hdistinct] at hmirrors
    exact ⟨hdistinct, hmirrors⟩
  · rintro ⟨hdistinct, hmirrors⟩
    rwa [Entries.ofPairs_eq_self_iff.mpr hdistinct]

section Local

/-! ## From each mapping to the document -/

variable {P : List (Value × Value) → Prop}

mutual

/-- A document loses nothing exactly if none of its mappings does. -/
theorem mirrors_iff_forall_mappings (value : Value) {node : Node}
    (hlocal : ∀ entries ∈ value.mappings, ∀ pairs : Entries String Node,
      Rendered entries pairs → (pairs.Distinct ↔ P entries))
    (h : ofYaml value = .ok node) : Mirrors value node ↔ ∀ entries ∈ value.mappings, P entries := by
  cases value with
  | scalar value =>
    rw [ofYaml] at h
    simp [Mirrors, Value.mappings, h]
  | sequence items =>
    rw [ofYaml] at h
    obtain ⟨nodes, hnodes, h⟩ := ok_of_bind h
    cases h
    rw [Mirrors, Value.mappings]
    exact mirrorsItems_iff_forall_mappings items hlocal hnodes
  | mapping entries =>
    obtain ⟨pairs, hpairs, rfl⟩ := ofYaml_mapping_eq_ok_iff.mp h
    rw [Value.mappings, List.forall_mem_cons] at hlocal ⊢
    rw [Mirrors, hpairs.mirrors_iff, hlocal.1 pairs hpairs,
      mirrorsEntries_iff_forall_mappings entries hlocal.2 hpairs]
  | tagged tag payload =>
    rw [ofYaml] at h
    obtain ⟨node, hnode, h⟩ := ok_of_bind h
    cases h
    simp only [Mirrors, true_and, Value.mappings]
    exact mirrors_iff_forall_mappings payload hlocal hnode

theorem mirrorsItems_iff_forall_mappings (items : List Value) {nodes : List Node}
    (hlocal : ∀ entries ∈ Value.itemsMappings items, ∀ pairs : Entries String Node,
      Rendered entries pairs → (pairs.Distinct ↔ P entries))
    (h : ofYamlItems items = .ok nodes) :
    MirrorsItems items nodes ↔ ∀ entries ∈ Value.itemsMappings items, P entries := by
  cases items with
  | nil =>
    cases h
    simp [MirrorsItems, Value.itemsMappings]
  | cons item rest =>
    rw [ofYamlItems] at h
    obtain ⟨node, hnode, h⟩ := ok_of_bind h
    obtain ⟨nodes, hnodes, h⟩ := ok_of_bind h
    cases h
    rw [Value.itemsMappings, List.forall_mem_append] at hlocal ⊢
    rw [MirrorsItems, mirrors_iff_forall_mappings item hlocal.1 hnode,
      mirrorsItems_iff_forall_mappings rest hlocal.2 hnodes]

theorem mirrorsEntries_iff_forall_mappings (entries : List (Value × Value))
    {pairs : Entries String Node}
    (hlocal : ∀ inner ∈ Value.entriesMappings entries, ∀ pairs : Entries String Node,
      Rendered inner pairs → (pairs.Distinct ↔ P inner))
    (h : Rendered entries pairs) :
    MirrorsEntries entries pairs ↔ ∀ inner ∈ Value.entriesMappings entries, P inner := by
  cases entries with
  | nil =>
    cases h
    simp [MirrorsEntries, Value.entriesMappings]
  | cons entry rest =>
    obtain ⟨key, value⟩ := entry
    cases h with
    | cons hentry hrest =>
      rw [Value.entriesMappings, List.forall_mem_append] at hlocal ⊢
      rw [MirrorsEntries, mirrors_iff_forall_mappings value hlocal.1 hentry.2,
        mirrorsEntries_iff_forall_mappings rest hlocal.2 hrest]
      exact and_iff_right hentry.1

end

end Local

/-- Of a document with distinct keys no entry is lost exactly if none of its mappings has a text
among its keys that is the text of a key of another kind. -/
theorem ofYaml_mirrors_iff {value : Value} {node : Node}
    (hdistinct : ∀ entries ∈ value.mappings, Value.hasRepeat (entries.map Prod.fst) = false)
    (h : ofYaml value = .ok node) :
    Mirrors value node ↔ ∀ entries ∈ value.mappings, ¬ Clashes entries :=
  mirrors_iff_forall_mappings value
    (fun entries hentries _ hpairs => hpairs.distinct_iff (hdistinct entries hentries)) h

/-- Texts and numbers may meet in different mappings. -/
theorem ofYaml_mirrors_nested :
    Mirrors
      (.mapping [(.scalar (.number (.number (.whole 1))), .sequence [.mapping [
        (.scalar .null, .scalar .null), (.scalar (.text "1"), .scalar (.bool true))]])])
      (.mapping [("1", .sequence [.mapping [("null", .null), ("1", .bool true)]])]) :=
  (ofYaml_mirrors_iff (by decide) rfl).mpr (by decide)

/-- The number one and its text are two keys, but one takes the other's place. -/
theorem ofYaml_number_overwritten :
    (∀ entries ∈ Value.mappings (.mapping [(.scalar (.number (.number (.whole 1))),
      .scalar (.text "a")), (.scalar (.text "1"), .scalar (.text "b"))]),
        Value.hasRepeat (entries.map Prod.fst) = false) ∧
    ofYaml (.mapping [(.scalar (.number (.number (.whole 1))), .scalar (.text "a")),
      (.scalar (.text "1"), .scalar (.text "b"))]) = .ok (.mapping [("1", .string "b")]) ∧
    ¬ Mirrors (.mapping [(.scalar (.number (.number (.whole 1))), .scalar (.text "a")),
      (.scalar (.text "1"), .scalar (.text "b"))]) (.mapping [("1", .string "b")]) := by
  refine ⟨by decide, rfl, ?_⟩
  simp [Mirrors, MirrorsEntries]

end Node
end Flowscript
