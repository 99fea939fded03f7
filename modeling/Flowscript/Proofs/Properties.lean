import Flowscript.Property.Defaults
import Flowscript.Proofs.Steps

/-!
# Properties of a mapping

From which entries of a mapping its properties come, what completing them adds, in place and as a
step that gives the completed properties, and what holds of a state that is read from properties one
after the other.
-/

namespace Flowscript

namespace Properties

theorem Draft.mem_add {draft : Draft} {key : String} {value : Node} {p : Property} {node : Node}
    (h : (p, node) ∈ (draft.add key value).properties) :
    (Property.ofKey? key = some p ∧ node = value) ∨ (p, node) ∈ draft.properties := by
  simp only [Draft.add] at h
  split at h
  · exact .inr h
  · rename_i q hq
    split at h
    · exact .inr h
    · rcases Entries.eq_or_mem_of_mem_insert h with h | h
      · cases h
        exact .inl ⟨hq, rfl⟩
      · exact .inr h

theorem Draft.distinct_add {draft : Draft} (key : String) (value : Node)
    (h : draft.properties.Distinct) : (draft.add key value).properties.Distinct := by
  simp only [Draft.add]
  split
  · exact h
  · split
    · exact h
    · exact Entries.distinct_insert h

/-- A property that is named is meant by the key of some entry. -/
theorem mem_named {entries : Entries String Node} {p : Property} {node : Node}
    (h : (p, node) ∈ (named entries).properties) :
    ∃ key, (key, node) ∈ entries ∧ Property.ofKey? key = some p := by
  suffices ∀ (rest : Entries String Node) (draft : Draft),
      (∀ p node, (p, node) ∈ draft.properties →
        ∃ key, (key, node) ∈ entries ∧ Property.ofKey? key = some p) → rest ⊆ entries →
      ∀ p node,
        (p, node) ∈ (rest.foldl (fun draft entry => draft.add entry.1 entry.2) draft).properties →
        ∃ key, (key, node) ∈ entries ∧ Property.ofKey? key = some p from
    this entries {} (by intro p node hp; simp at hp) (List.Subset.refl _) p node h
  -- generalized over the entries that are left and what was read before them
  intro rest
  induction rest with
  | nil => intro draft hdraft _ p node hp; exact hdraft p node hp
  | cons entry rest ih =>
    intro draft hdraft hrest
    refine ih (draft.add entry.1 entry.2) ?_ (fun e he => hrest (List.mem_cons_of_mem _ he))
    intro p node hp
    rcases Draft.mem_add hp with ⟨hkey, rfl⟩ | hp
    · exact ⟨entry.1, hrest List.mem_cons_self, hkey⟩
    · exact hdraft p node hp

theorem distinct_named (entries : Entries String Node) : (named entries).properties.Distinct := by
  suffices ∀ draft : Draft, draft.properties.Distinct →
      (entries.foldl (fun draft entry => draft.add entry.1 entry.2) draft).properties.Distinct from
    this {} (by simp [Entries.Distinct, Entries.keys])
  induction entries with
  | nil => intro draft h; exact h
  | cons entry rest ih =>
    intro draft h
    exact ih _ (Draft.distinct_add _ _ h)

theorem distinct_move {source target : Property} {kind : Node → Bool} {properties : Properties}
    (h : properties.Distinct) : (move source target kind properties).Distinct := by
  unfold move
  split
  · split
    · refine Entries.distinct_insert ?_
      rw [Entries.Distinct, Entries.keys_erase]
      exact List.Nodup.erase _ h
    · exact h
  · exact h

theorem distinct_ofEntries (entries : Entries String Node) : (ofEntries entries).Distinct :=
  distinct_move (distinct_move (distinct_named entries))

/-- Moving a value takes it away from its property, unless it is of another kind. -/
theorem mem_move_source {source target : Property} (hne : source ≠ target) {kind : Node → Bool}
    {properties : Properties} (hd : properties.Distinct) {node : Node}
    (h : (source, node) ∈ move source target kind properties) : kind node = false := by
  simp only [move] at h
  split at h
  · rename_i value hvalue
    split at h
    · rcases Entries.eq_or_mem_of_mem_insert h with h | h
      · cases h
        exact absurd rfl hne
      · have hkey : source ∈ (properties.erase source).keys := List.mem_map.mpr ⟨_, h, rfl⟩
        rw [Entries.keys_erase] at hkey
        exact absurd hkey (List.Nodup.not_mem_erase hd)
    · rename_i hkind
      have hget := Entries.get?_eq_of_mem hd h
      rw [hvalue] at hget
      cases hget
      simpa using hkind
  · rename_i hnone
    have hget := Entries.get?_eq_of_mem hd h
    rw [hnone] at hget
    cases hget

/-- Moving a value adds nothing but that value under the property to which it moves. -/
theorem mem_move_target {source target : Property} {kind : Node → Bool} {properties : Properties}
    {p : Property} {node : Node} (h : (p, node) ∈ move source target kind properties) :
    (p = target ∧ kind node = true) ∨ (p, node) ∈ properties := by
  simp only [move] at h
  split at h
  · split at h
    · rename_i hkind
      rcases Entries.eq_or_mem_of_mem_insert h with h | h
      · cases h
        exact .inl ⟨rfl, hkind⟩
      · exact .inr (Entries.mem_of_mem_erase h)
    · exact .inr h
  · exact .inr h

/-- What the properties of a mapping are: those that its keys mean, and moved values. -/
theorem mem_ofEntries {entries : Entries String Node} {p : Property} {node : Node}
    (h : (p, node) ∈ ofEntries entries) :
    p = .result ∨ p = .resultPath ∨
      ∃ key, (key, node) ∈ entries ∧ Property.ofKey? key = some p := by
  rcases mem_move_target h with ⟨rfl, -⟩ | h
  · exact .inl rfl
  · rcases mem_move_target h with ⟨rfl, -⟩ | h
    · exact .inr (.inl rfl)
    · exact .inr (.inr (mem_named h))

/-- A result is never a path: that would be the result's path. -/
theorem isPath_of_mem_ofEntries {entries : Entries String Node} {node : Node}
    (h : (Property.result, node) ∈ ofEntries entries) : isPath node = false := by
  rcases mem_move_target h with ⟨-, hliteral⟩ | h
  · cases node <;> first | rfl | simp [isLiteral] at hliteral
  · exact mem_move_source (by decide) (distinct_named entries) h

/-- The properties of a mapping, with the type that is forced on it. -/
def ofMapping (forced : Option StateType) (entries : Entries String Node) : Properties :=
  match forced with
  | some type => Entries.insert .type (.string type.name) (ofEntries entries)
  | none => ofEntries entries

section OfMapping

variable (forced : Option StateType) (entries : Entries String Node)

theorem distinct_ofMapping : (ofMapping forced entries).Distinct := by
  cases forced with
  | none => exact distinct_ofEntries entries
  | some type => exact Entries.distinct_insert (distinct_ofEntries entries)

theorem get?_ofMapping {p : Property} (h : p ≠ .type) :
    (ofMapping forced entries).get? p = (ofEntries entries).get? p := by
  cases forced with
  | none => rfl
  | some type => exact Entries.get?_insert_ne h _ _

end OfMapping

/-- Forcing a type adds nothing but its text. -/
theorem mem_ofMapping {forced : Option StateType} {entries : Entries String Node} {p : Property}
    {node : Node} (h : (p, node) ∈ ofMapping forced entries) :
    (p = .type ∧ ∃ text, node = .string text) ∨ (p, node) ∈ ofEntries entries := by
  cases forced with
  | none => exact .inr h
  | some type =>
    rcases Entries.eq_or_mem_of_mem_insert h with h | h
    · cases h
      exact .inl ⟨rfl, _, rfl⟩
    · exact .inr h

/-- Completing properties writes texts under three of them. -/
theorem mem_complete {outline : Outline} {name : String} {properties : Properties} {p : Property}
    {node : Node} (h : (p, node) ∈ properties.complete outline name) :
    ((p = .name ∨ p = .type ∨ p = .resource) ∧ ∃ text, node = .string text) ∨
      (p, node) ∈ properties := by
  have htyped : ∀ {p node}, (p, node) ∈ ((Entries.insert .name (.string name) properties).insert
      .type (.string outline.finalType.name) : Properties) →
      ((p = .name ∨ p = .type ∨ p = .resource) ∧ ∃ text, node = .string text) ∨
        (p, node) ∈ properties := by
    intro p node h
    rcases Entries.eq_or_mem_of_mem_insert h with h | h
    · cases h
      exact .inl ⟨by simp, _, rfl⟩
    · rcases Entries.eq_or_mem_of_mem_insert h with h | h
      · cases h
        exact .inl ⟨by simp, _, rfl⟩
      · exact .inr h
  simp only [complete] at h
  split at h
  · split at h
    · exact htyped h
    · rcases Entries.eq_or_mem_of_mem_insert h with h | h
      · cases h
        exact .inl ⟨by simp, _, rfl⟩
      · exact htyped h
  · exact htyped h

/-- Completed properties have one name, the given one. -/
theorem complete_named (outline : Outline) (name : String) {properties : Properties}
    (h : properties.Distinct) :
    (properties.complete outline name).Distinct ∧
      (properties.complete outline name).get? .name = some (.string name) := by
  have htyped : Entries.Distinct ((Entries.insert .name (.string name) properties).insert .type
        (.string outline.finalType.name)) ∧
      Entries.get? .name ((Entries.insert .name (.string name) properties).insert .type
        (.string outline.finalType.name)) = some (.string name) :=
    ⟨Entries.distinct_insert (Entries.distinct_insert h), by
      rw [Entries.get?_insert_ne (by decide), Entries.get?_insert_self]⟩
  unfold complete
  dsimp only
  split
  · split
    · exact htyped
    · exact ⟨Entries.distinct_insert htyped.1, by
        rw [Entries.get?_insert_ne (by decide), htyped.2]⟩
  · exact htyped

/-! ## Defaults in place -/

namespace InPlace

variable {α β : Type}

@[simp] theorem outcome_get (properties : Properties) (memory : Memory) :
    (get : InPlace Properties).outcome properties memory = (.ok properties, properties, memory) :=
  rfl

@[simp] theorem outcome_modify (f : Properties → Properties) (properties : Properties)
    (memory : Memory) :
    (modify f : InPlace Unit).outcome properties memory = (.ok (), f properties, memory) := rfl

@[simp] theorem outcome_ofCompile (step : Compile α) (properties : Properties) (memory : Memory) :
    (ofCompile step).outcome properties memory =
      ((step.outcome memory).1, properties, (step.outcome memory).2) := rfl

/-- Two steps in a row: the second starts from the properties that the first leaves. If the first
fails, they stay as it left them. -/
theorem outcome_bind (step : InPlace α) (next : α → InPlace β) (properties : Properties)
    (memory : Memory) :
    (step >>= next).outcome properties memory =
      match step.outcome properties memory with
      | (.ok a, changed, after) => (next a).outcome changed after
      | (.error cause, changed, after) => (.error cause, changed, after) := by
  simp only [outcome, ExceptT.run_bind, StateT.run_bind]
  rcases ((ExceptT.run step).run properties).run memory with ⟨⟨_ | a, changed⟩, after⟩ <;> rfl

end InPlace

/-- Adding defaults, told without what is changed in place: what is left are the properties that an
outline and a name complete, or else those that came in. -/
theorem outcome_applyDefaults (properties : Properties) (memory : Memory) :
    applyDefaults.outcome properties memory =
      match Compile.outcome (do
        let outline ← Compile.ofExcept properties.outline
        let name ← outline.naming
        return properties.complete outline name) memory with
      | (.ok completed, after) => (.ok (), completed, after)
      | (.error cause, after) => (.error cause, properties, after) := by
  simp only [applyDefaults, InPlace.outcome_bind, InPlace.outcome_get, InPlace.outcome_ofCompile,
    InPlace.outcome_modify, Compile.outcome_bind]
  rcases (Compile.ofExcept properties.outline).outcome memory with ⟨cause | outline, between⟩
  · rfl
  · dsimp only
    rcases outline.naming.outcome between with ⟨cause | name, after⟩ <;> rfl

/-- Properties with their defaults are those that an outline and a name complete. -/
theorem withDefaults_eq (properties : Properties) :
    properties.withDefaults = (do
      let outline ← Compile.ofExcept properties.outline
      let name ← outline.naming
      return properties.complete outline name) := by
  funext memory
  have hrun : properties.withDefaults.outcome memory =
      ((applyDefaults.outcome properties memory).1.map
          fun _ => (applyDefaults.outcome properties memory).2.1,
        (applyDefaults.outcome properties memory).2.2) := rfl
  refine hrun.trans ?_
  rw [outcome_applyDefaults]
  change _ = Compile.outcome _ memory
  split
  next completed after hcompleted => exact hcompleted.symm
  next cause after hfailed => exact hfailed.symm

/-! ## Defaults and states -/

/-- Defaults complete the properties by their outline and a name. -/
theorem withDefaults_yields (properties : Properties) :
    properties.withDefaults.Yields fun completed =>
      ∃ outline name, properties.outline = .ok outline ∧
        completed = properties.complete outline name := by
  rw [withDefaults_eq]
  have houtline : (Compile.ofExcept properties.outline).Yields fun outline =>
      properties.outline = .ok outline := .ofExcept fun outline h => h
  refine houtline.bind fun outline houtline => ?_
  exact .after fun name => .pure ⟨outline, name, houtline, rfl⟩

/-- An outline says what is written of the type and the name, and takes a task to have a resource if
it has a name. Of no other state a resource is read that is not a text. -/
theorem outline_eq_ok {properties : Properties} {outline : Outline}
    (h : properties.outline = .ok outline) :
    properties.type? = .ok outline.written ∧ properties.text? .name = .ok outline.name ∧
      (outline.type = .task → outline.hasResource = outline.name.isSome) ∧
      (outline.type ≠ .task → ∃ resource, properties.text? .resource = .ok resource) := by
  obtain ⟨written, htype, h⟩ := ok_of_bind h
  obtain ⟨name, hname, h⟩ := ok_of_bind h
  dsimp only [bind, Except.bind] at h
  split at h
  · rename_i htask
    cases h
    exact ⟨htype, hname, fun _ => rfl, fun hother => absurd htask hother⟩
  · rename_i hother
    obtain ⟨resource, hresource, h⟩ := ok_of_bind h
    cases h
    exact ⟨htype, hname, fun htask => absurd htask hother, fun _ => ⟨resource, hresource⟩⟩

/-- A name that is written is the one by which the properties are completed. -/
theorem withDefaults_named {properties : Properties} {name : String}
    (hname : properties.get? .name = some (.string name)) :
    properties.withDefaults.Yields fun completed =>
      ∃ outline, completed = properties.complete outline name := by
  have htext : properties.text? .name = .ok (some name) := by
    rw [text?, hname]
    rfl
  have houtline : (Compile.ofExcept properties.outline).Yields (·.name = some name) :=
    .ofExcept fun outline h => Except.ok.inj ((outline_eq_ok h).2.1.symm.trans htext)
  rw [withDefaults_eq]
  refine houtline.bind fun outline houtline => ?_
  rw [Outline.naming, houtline]
  exact .pure ⟨outline, rfl⟩

/-- What every property that is read keeps holds of the state that the properties describe. -/
theorem toState_keeps {I : State → Prop} {properties : Properties} (hstart : I {})
    (hread : ∀ {p node s t}, (p, node) ∈ properties → node.isNull = false → I s →
      s.read p node = .ok t → I t) {s : State} (h : properties.toState = .ok s) : I s := by
  suffices ∀ (rest : Properties) (before : State), rest ⊆ properties → I before →
      rest.foldlM (fun s entry => if entry.2.isNull then .ok s else s.read entry.1 entry.2) before =
        Except.ok (ε := SyntaxError) s → I s from
    this properties {} (List.Subset.refl _) hstart h
  intro rest
  induction rest with
  | nil =>
    intro before _ hbefore hs
    cases hs
    exact hbefore
  | cons entry rest ih =>
    obtain ⟨p, node⟩ := entry
    intro before hsub hbefore hs
    have hrest : rest ⊆ properties := fun e he => hsub (List.mem_cons_of_mem _ he)
    simp only [List.foldlM_cons] at hs
    by_cases hnull : node.isNull = true
    · rw [if_pos hnull] at hs
      exact ih before hrest hbefore hs
    · rw [if_neg hnull] at hs
      cases ht : before.read p node with
      | error cause =>
        rw [ht] at hs
        cases hs
      | ok t =>
        rw [ht] at hs
        exact ih t hrest (hread (hsub List.mem_cons_self) (by simpa using hnull) hbefore ht) hs

end Properties

end Flowscript
