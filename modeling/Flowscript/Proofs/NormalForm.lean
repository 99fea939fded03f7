import Mathlib.Data.List.Induction
import Flowscript.Proofs.Fields
import Flowscript.Proofs.Properties

/-!
# The normal form of a mapping

The keys of a mapping are read one after the other, each with a look at what was read before it.
Here the outcome is told from the whole mapping: the entries whose keys mean the same property form
a group, one entry of each group decides about the value, and the groups stand in the order of their
first entries. Then a path and a piece of data move to the properties where they belong. The main
statement is that both are the same, and that the outcome is a normal form.
-/

namespace Flowscript

/-! ## Meanings of keys -/

theorem mem_of_firstBest? {α : Type} {score : α → Nat} {candidates : List α} {a : α}
    (h : firstBest? score candidates = some a) : a ∈ candidates := by
  have hbest : ∀ b, firstBest? score candidates = some b → b ∈ candidates := by
    unfold firstBest?
    apply List.foldlRecOn candidates _ (motive := fun best => ∀ b, best = some b → b ∈ candidates)
    · exact nofun
    · intro best hbest candidate hcandidate b hb
      -- the candidate takes the place of the best one before it, or that stays
      cases best with
      | none =>
        dsimp only at hb
        split at hb
        · cases hb
          exact hcandidate
        · cases hb
      | some c =>
        dsimp only at hb
        split at hb
        · cases hb
          exact hcandidate
        · cases hb
          exact hbest _ rfl
  exact hbest a h

theorem Property.mem_canonical_of_ofKey? {key : String} {p : Property} (h : ofKey? key = some p) :
    p ∈ canonical := by
  unfold ofKey? bestMatch? at h
  dsimp only at h
  split at h
  next candidate hfound =>
    cases h
    exact List.mem_of_find?_eq_some hfound
  next => exact mem_of_firstBest? h

namespace Properties

/-! ## Groups -/

/-- The entries whose keys mean a property. -/
def group (p : Property) (entries : Entries String Node) : Entries String Node :=
  entries.filter fun entry => Property.ofKey? entry.1 = some p

/-- The entry of a property's group that decides about its value: the last one whose key spells the
property in full, or the last one if there is none. -/
def deciding? (p : Property) (group : Entries String Node) : Option (String × Node) :=
  (group.filter fun entry => p.isSpelledBy entry.1).getLast?.or group.getLast?

/-- The properties that keys mean, in the order in which they are met. -/
def meant (entries : Entries String Node) : List Property :=
  (entries.filterMap fun entry => Property.ofKey? entry.1).eraseDups

/-- Each property that is meant, with the value about which its group decides. -/
def grouped (entries : Entries String Node) : Properties :=
  (meant entries).filterMap fun p =>
    ((deciding? p (group p entries)).map Prod.snd).map fun node => (p, node)

/-- Gives the value of one property to another one, if it is of the given kind: there it takes the
place of the value that it finds, or comes last. -/
def handOver (source target : Property) (kind : Node → Bool) (properties : Properties) :
    Properties :=
  match (properties.get? source).filter kind with
  | none => properties
  | some node =>
    let others := properties.filter fun entry => entry.1 ≠ source
    if target ∈ Entries.keys others then
      others.map fun entry => if entry.1 = target then (target, node) else entry
    else others ++ [(target, node)]

/-- What a mapping means, told from its groups. -/
def normalForm (entries : Entries String Node) : Properties :=
  handOver .resource .result (fun node => node.string?.isNone && !node.isNull)
    (handOver .result .resultPath
      (fun node => node.string?.any fun text => "$.".toList.isPrefixOf text.toList)
      (grouped entries))

/-! ## One entry more -/

theorem named_append (entries : Entries String Node) (key : String) (node : Node) :
    named (entries ++ [(key, node)]) = (named entries).add key node := by
  simp [named]

theorem group_append (p : Property) (entries : Entries String Node) (key : String) (node : Node) :
    group p (entries ++ [(key, node)]) =
      if Property.ofKey? key = some p then group p entries ++ [(key, node)]
      else group p entries := by
  unfold group
  rw [List.filter_append]
  by_cases hkey : Property.ofKey? key = some p <;> simp [hkey]

/-- A new entry decides, unless the property was spelled in full before and is not any more. -/
theorem deciding?_append (p : Property) (group : Entries String Node) (key : String) (node : Node) :
    deciding? p (group ++ [(key, node)]) =
      if (group.any fun entry => p.isSpelledBy entry.1) && !p.isSpelledBy key then
        deciding? p group
      else some (key, node) := by
  unfold deciding?
  rw [List.filter_append, List.getLast?_concat]
  by_cases hkey : p.isSpelledBy key = true
  · simp [hkey]
  · simp only [List.filter_cons, hkey, Bool.false_eq_true, if_false, List.filter_nil,
      List.append_nil]
    cases hspelled : group.any fun entry => p.isSpelledBy entry.1 with
    | true =>
      obtain ⟨entry, hentry, hfull⟩ := List.any_eq_true.mp hspelled
      have hne : group.filter (fun entry => p.isSpelledBy entry.1) ≠ [] :=
        List.ne_nil_of_mem (List.mem_filter.mpr ⟨hentry, hfull⟩)
      rw [List.getLast?_eq_some_getLast hne, if_pos (by simp)]
      rfl
    | false =>
      have hnone : group.filter (fun entry => p.isSpelledBy entry.1) = [] := by
        rw [List.filter_eq_nil_iff]
        simpa using hspelled
      simp [hnone]

theorem meant_append (entries : Entries String Node) (key : String) (node : Node) :
    meant (entries ++ [(key, node)]) =
      match Property.ofKey? key with
      | none => meant entries
      | some p => if p ∈ meant entries then meant entries else meant entries ++ [p] := by
  unfold meant
  rw [List.filterMap_append, List.eraseDups_append]
  cases hkey : Property.ofKey? key with
  | none => simp [hkey, List.removeAll]
  | some p =>
    simp only [List.filterMap_cons, hkey, List.filterMap_nil, List.mem_eraseDups]
    by_cases hmem : p ∈ entries.filterMap fun entry => Property.ofKey? entry.1
    · rw [if_pos hmem]
      simp [List.removeAll, hmem]
    · rw [if_neg hmem]
      simp [List.removeAll, hmem, List.eraseDups_cons]

/-! ## Reading key by key -/

theorem mem_meant {p : Property} {entries : Entries String Node} :
    p ∈ meant entries ↔ group p entries ≠ [] := by
  simp [meant, group, List.mem_filterMap, List.filter_eq_nil_iff]

/-- What is known behind the entries that were read: which properties are meant, in their order,
what their values are, and which of them were spelled in full. -/
structure Draft.Groups (draft : Draft) (entries : Entries String Node) : Prop where
  keys : draft.properties.keys = meant entries
  value : ∀ p, draft.properties.get? p = (deciding? p (group p entries)).map Prod.snd
  spelled : ∀ p, draft.spelled.contains p =
    (group p entries).any fun entry => p.isSpelledBy entry.1

/-- An entry without a meaning changes nothing that is known. -/
theorem Draft.Groups.drop {draft next : Draft} {entries : Entries String Node}
    (h : draft.Groups entries) {key : String} (hkey : Property.ofKey? key = none) (node : Node)
    (hproperties : next.properties = draft.properties) (hspelled : next.spelled = draft.spelled) :
    next.Groups (entries ++ [(key, node)]) := by
  have hgroup (p : Property) : group p (entries ++ [(key, node)]) = group p entries := by
    rw [group_append, hkey, if_neg nofun]
  refine ⟨?_, fun p => ?_, fun p => ?_⟩
  · rw [hproperties, meant_append, hkey]
    exact h.keys
  · rw [hproperties, hgroup]
    exact h.value p
  · rw [hspelled, hgroup]
    exact h.spelled p

/-- An entry with a meaning joins the group of its property, and leaves the others alone. -/
theorem Draft.Groups.join {draft next : Draft} {entries : Entries String Node}
    (h : draft.Groups entries) {key : String} {p : Property} (hkey : Property.ofKey? key = some p)
    {node : Node}
    (hkeys : next.properties.keys =
      if p ∈ meant entries then meant entries else meant entries ++ [p])
    (hvalue : next.properties.get? p =
      (deciding? p (group p entries ++ [(key, node)])).map Prod.snd)
    (hspelled : next.spelled.contains p =
      (group p entries ++ [(key, node)]).any fun entry => p.isSpelledBy entry.1)
    (hothers : ∀ q ≠ p, next.properties.get? q = draft.properties.get? q ∧
      next.spelled.contains q = draft.spelled.contains q) :
    next.Groups (entries ++ [(key, node)]) := by
  have hself : group p (entries ++ [(key, node)]) = group p entries ++ [(key, node)] := by
    rw [group_append, hkey, if_pos rfl]
  have hother {q : Property} (hq : q ≠ p) :
      group q (entries ++ [(key, node)]) = group q entries := by
    rw [group_append, hkey, if_neg (by simpa using hq.symm)]
  refine ⟨?_, fun q => ?_, fun q => ?_⟩
  · rw [meant_append, hkey]
    exact hkeys
  · by_cases hq : q = p
    · rw [hq, hself]
      exact hvalue
    · rw [hother hq, (hothers q hq).1]
      exact h.value q
  · by_cases hq : q = p
    · rw [hq, hself]
      exact hspelled
    · rw [hother hq, (hothers q hq).2]
      exact h.spelled q

/-- An entry more keeps what is known. -/
theorem Draft.Groups.add {draft : Draft} {entries : Entries String Node}
    (h : draft.Groups entries) (key : String) (node : Node) :
    (draft.add key node).Groups (entries ++ [(key, node)]) := by
  unfold Draft.add
  cases hkey : Property.ofKey? key with
  | none => exact h.drop hkey node rfl rfl
  | some p =>
    have hpresent : draft.properties.has p = decide (p ∈ meant entries) := by
      rw [Entries.has_eq_mem, ← h.keys]
      rfl
    dsimp only
    rw [hpresent, h.spelled p]
    split
    next hignored =>
      -- the property was spelled in full before, so neither its value nor its place changes
      obtain ⟨⟨hmeant, hspelled⟩, habbreviated⟩ : (p ∈ meant entries ∧
          ((group p entries).any fun entry => p.isSpelledBy entry.1) = true) ∧
          p.isSpelledBy key = false := by simpa using hignored
      apply h.join hkey
      · rw [if_pos hmeant]
        exact h.keys
      · rw [deciding?_append, if_pos (by simp [hspelled, habbreviated])]
        exact h.value p
      · rw [List.any_append, hspelled]
        simpa [hspelled] using h.spelled p
      · intro q hq
        exact ⟨rfl, rfl⟩
    next hcounts =>
      have hdecides : ¬ (((group p entries).any fun entry => p.isSpelledBy entry.1) &&
          !p.isSpelledBy key) = true := by
        intro hspelled
        apply hcounts
        have hne : group p entries ≠ [] := by
          intro hnil
          simp [hnil] at hspelled
        simp only [mem_meant.mpr hne, decide_true, Bool.true_and]
        exact hspelled
      apply h.join hkey
      · rw [Entries.keys_insert, h.keys]
      · rw [Entries.get?_insert_self, deciding?_append, if_neg hdecides]
        rfl
      · rw [List.any_append, ← h.spelled p]
        cases hfull : p.isSpelledBy key <;> simp [hfull]
      · intro q hq
        refine ⟨Entries.get?_insert_ne hq _ _, ?_⟩
        cases hfull : p.isSpelledBy key <;> simp [hq]

theorem groups_named (entries : Entries String Node) : (named entries).Groups entries := by
  induction entries using List.reverseRecOn with
  | nil => exact ⟨rfl, fun p => rfl, fun p => rfl⟩
  | append_singleton entries entry ih =>
    rw [named_append]
    exact ih.add entry.1 entry.2

/-- The properties that keys mean, read one after the other, are those of the groups. -/
theorem properties_named (entries : Entries String Node) :
    (named entries).properties = grouped entries := by
  have hgroups := groups_named entries
  rw [← Entries.filterMap_keys (distinct_named entries), hgroups.keys]
  unfold grouped
  congr
  funext p
  rw [hgroups.value]

/-! ## Moves -/

theorem move_eq_handOver (source target : Property) (kind : Node → Bool) {properties : Properties}
    (h : properties.Distinct) :
    move source target kind properties = handOver source target kind properties := by
  unfold move handOver
  cases hvalue : properties.get? source with
  | none => rfl
  | some node =>
    cases hkind : kind node with
    | false => simp [Option.filter, hkind]
    | true =>
      have hothers : Entries.Distinct (properties.erase source) := by
        rw [Entries.Distinct, Entries.keys_erase]
        exact List.Nodup.erase _ h
      simp only [Option.filter, hkind, if_true]
      rw [Entries.insert_eq_map hothers, Entries.erase_eq_filter h]

/-- A path starts with a dollar sign and a point. -/
theorem isPath_eq (node : Node) :
    isPath node = node.string?.any fun text => "$.".toList.isPrefixOf text.toList := by
  cases node with
  | string text => exact Text.isSome_dropStart? _ _
  | _ => rfl

theorem isLiteral_eq (node : Node) : isLiteral node = (node.string?.isNone && !node.isNull) := by
  cases node <;> rfl

theorem ofEntries_eq_normalForm (entries : Entries String Node) :
    ofEntries entries = normalForm entries := by
  have hdistinct := distinct_named entries
  unfold ofEntries relocate normalForm
  rw [move_eq_handOver _ _ _ (distinct_move hdistinct), move_eq_handOver _ _ _ hdistinct,
    properties_named]
  simp only [funext isPath_eq, funext isLiteral_eq]

theorem move_of_kind {source target : Property} {kind : Node → Bool}
    {properties : Properties}
    (h : ∀ node, properties.get? source = some node → kind node = false) :
    move source target kind properties = properties := by
  unfold move
  split
  · rename_i node hnode
    rw [if_neg (by simp [h node hnode])]
  · rfl

/-- A resource is never data: that would be the result. -/
theorem isLiteral_of_mem_ofEntries {entries : Entries String Node} {node : Node}
    (h : (Property.resource, node) ∈ ofEntries entries) : isLiteral node = false :=
  mem_move_source (by decide) (distinct_move (distinct_named entries)) h

/-! ## Keys that are spelled in full -/

/-- A key that spells a property in full adds that property, if it is not there yet. -/
theorem Draft.add_text {draft : Draft} {p : Property} (hp : p ∈ Property.canonical)
    (hfresh : p ∉ Entries.keys draft.properties) (node : Node) :
    (draft.add p.text node).properties = draft.properties ++ [(p, node)] ∧
      (draft.add p.text node).journal = draft.journal := by
  have habsent : Entries.has p draft.properties = false := by
    rw [Entries.has_eq_mem]
    simpa [Entries.keys] using hfresh
  rw [Draft.add, Property.ofKey?_text hp]
  simp [habsent, Entries.insert_of_notMem hfresh]

/-- Keys that spell distinct properties in full mean just these, and nothing is to be reported. -/
theorem named_spelled {properties : Properties} (hdistinct : properties.Distinct)
    (hcanonical : ∀ entry ∈ properties, entry.1 ∈ Property.canonical) :
    (named (properties.map fun entry => (entry.1.text, entry.2))).properties = properties ∧
      (named (properties.map fun entry => (entry.1.text, entry.2))).journal = [] := by
  suffices ∀ (rest : Properties) (draft : Draft), draft.journal = [] →
      Entries.Distinct (draft.properties ++ rest) →
      (∀ entry ∈ rest, entry.1 ∈ Property.canonical) →
      ((rest.map fun entry => (entry.1.text, entry.2)).foldl
          (fun draft entry => draft.add entry.1 entry.2) draft).properties =
        draft.properties ++ rest ∧
      ((rest.map fun entry => (entry.1.text, entry.2)).foldl
          (fun draft entry => draft.add entry.1 entry.2) draft).journal = [] from
    this properties {} rfl hdistinct hcanonical
  intro rest
  induction rest with
  | nil =>
    intro draft hjournal _ _
    simp [hjournal]
  | cons entry rest ih =>
    obtain ⟨p, node⟩ := entry
    intro draft hjournal hdistinct hcanonical
    -- the property is not there yet, so its key neither overrides nor is ignored
    have hfresh : p ∉ Entries.keys draft.properties := by
      intro hmem
      rw [Entries.Distinct, Entries.keys, List.map_append, List.nodup_append] at hdistinct
      exact hdistinct.2.2 p hmem p (by simp) rfl
    obtain ⟨hproperties, hkept⟩ := Draft.add_text (hcanonical (p, node) (by simp)) hfresh node
    have hrest := ih (draft.add p.text node) (hkept.trans hjournal)
      (by simpa [hproperties] using hdistinct)
      fun entry hentry => hcanonical entry (List.mem_cons_of_mem _ hentry)
    simpa [hproperties] using hrest

/-- Properties of which none would move mean themselves under their own names. -/
theorem ofEntries_text (properties : Properties) (hdistinct : properties.Distinct)
    (hcanonical : ∀ entry ∈ properties, entry.1 ∈ Property.canonical)
    (hresult : ∀ node, properties.get? .result = some node → isPath node = false)
    (hresource : ∀ node, properties.get? .resource = some node → isLiteral node = false) :
    ofEntries (properties.map fun entry => (entry.1.text, entry.2)) = properties := by
  rw [ofEntries, (named_spelled hdistinct hcanonical).1, relocate, move_of_kind hresult,
    move_of_kind hresource]

/-- Whatever a key means has a meaning. -/
theorem mem_canonical_of_mem_ofEntries {entries : Entries String Node} {p : Property} {node : Node}
    (h : (p, node) ∈ ofEntries entries) : p ∈ Property.canonical := by
  rcases mem_ofEntries h with rfl | rfl | ⟨key, -, hkey⟩
  · decide
  · decide
  · exact Property.mem_canonical_of_ofKey? hkey

/-! ## The main statement -/

/-- The properties of a mapping are those that its groups tell. They are a normal form: no property
stands twice, a resource is a text or null, a result is no path, and written out under their own
names they mean themselves. -/
theorem ofEntries_normal (entries : Entries String Node) :
    ofEntries entries = normalForm entries ∧
    (ofEntries entries).Distinct ∧
    (∀ node, (ofEntries entries).get? .resource = some node →
      node = .null ∨ ∃ text, node = .string text) ∧
    (∀ rest, (ofEntries entries).get? .result ≠ some (.string ("$." ++ rest))) ∧
    ofEntries ((ofEntries entries).map fun entry => (entry.1.text, entry.2)) =
      ofEntries entries := by
  have hdistinct := distinct_ofEntries entries
  have hresource : ∀ node, (ofEntries entries).get? .resource = some node →
      isLiteral node = false :=
    fun node hnode => isLiteral_of_mem_ofEntries (Entries.mem_of_get? hnode)
  have hresult : ∀ node, (ofEntries entries).get? .result = some node → isPath node = false :=
    fun node hnode => isPath_of_mem_ofEntries (Entries.mem_of_get? hnode)
  refine ⟨ofEntries_eq_normalForm entries, hdistinct, fun node hnode => ?_,
    fun rest hrest => ?_, ?_⟩
  · have hkind := hresource node hnode
    cases node with
    | null => exact .inl rfl
    | string text => exact .inr ⟨text, rfl⟩
    | _ => cases hkind
  · have hkind := hresult _ hrest
    rw [isPath_eq] at hkind
    simp [Node.string?] at hkind
  · exact ofEntries_text _ hdistinct (fun entry hentry => mem_canonical_of_mem_ofEntries hentry)
      hresult hresource

end Properties
end Flowscript
