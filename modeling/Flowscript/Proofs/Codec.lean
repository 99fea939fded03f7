import Flowscript.Proofs.Fields

/-!
# Machines as JSON and back

A machine is decoded from its JSON form as it was, if the form can tell everything about it: a null
that is written reads as nothing, and the names of states are no fields of theirs.
-/

namespace Flowscript

/-! ## Decoders of what is written -/

namespace Decoder

theorem mapM_map {α : Type} {decode : Decoder α} (encode : α → Json)
    (h : ∀ a, decode (encode a) = .ok a) (items : List α) :
    (items.map encode).mapM decode = .ok items := by
  induction items with
  | nil => rfl
  | cons item rest ih =>
    rw [List.map_cons, List.mapM_cons, h, ih]
    rfl

theorem list_array {α : Type} {decode : Decoder α} (encode : α → Json)
    (h : ∀ a, decode (encode a) = .ok a) (items : List α) :
    list decode (.array (items.map encode)) = .ok items := mapM_map encode h items

theorem list_textArray (texts : List String) : list string (textArray texts) = .ok texts :=
  list_array Json.string (fun _ => rfl) texts

theorem count32_countNumber (n : UInt32) : count32 (countNumber n.toNat) = .ok n := by
  have hbound : (n.toNat : Int) < UInt32.size := by exact_mod_cast n.toNat_lt
  simp only [countNumber, count32]
  rw [if_pos ⟨by omega, hbound⟩]
  simp

theorem count64_countNumber (n : UInt64) : count64 (countNumber n.toNat) = .ok n := by
  have hbound : (n.toNat : Int) < UInt64.size := by exact_mod_cast n.toNat_lt
  simp only [countNumber, count64]
  rw [if_pos ⟨by omega, hbound⟩]
  simp

/-- A field that is there is decoded, unless null is written for it. -/
theorem optional_of_map {α : Type} (decode : Decoder α) {encode : α → Json}
    (h : ∀ a, decode (encode a) = .ok a) {field : Option α} {value : Json}
    (hfield : field.map encode = some value) (hnull : value ≠ .null) :
    optional decode value = .ok field ∧ ∀ other, field.or other = field := by
  obtain ⟨a, rfl, rfl⟩ := Option.map_eq_some_iff.mp hfield
  have hdecode : optional decode (encode a) = (decode (encode a)).map some := by
    generalize encode a = value at hnull
    cases value <;> first | rfl | exact absurd rfl hnull
  rw [hdecode, h]
  exact ⟨rfl, fun _ => rfl⟩

end Decoder

/-! ## Clauses -/

/-- The clause of four fields that are decoded on their own. -/
theorem RetryClause.ofJson_object {errors attempts interval backoff : Json} {c : RetryClause}
    (herrors : Decoder.list .string errors = .ok c.errorEquals)
    (hattempts : Decoder.count32 attempts = .ok c.maxAttempts)
    (hinterval : Decoder.count64 interval = .ok c.intervalSeconds)
    (hbackoff : Decoder.real backoff = .ok c.backoffRate) :
    ofJson (.object [("ErrorEquals", errors), ("MaxAttempts", attempts),
      ("IntervalSeconds", interval), ("BackoffRate", backoff)]) = .ok c := by
  simp [ofJson, Draft.set, herrors, hattempts, hinterval, hbackoff, Draft.finish, requireField,
    Except.map, bind, Except.bind, pure, Except.pure]

theorem RetryClause.ofJson_toJson (c : RetryClause) : ofJson c.toJson = .ok c :=
  ofJson_object (Decoder.list_textArray _) (Decoder.count32_countNumber _)
    (Decoder.count64_countNumber _) rfl

theorem CatchClause.ofJson_toJson (c : CatchClause) : ofJson c.toJson = .ok c := by
  obtain ⟨errorEquals, resultPath, next⟩ := c
  cases resultPath <;>
    simp [ofJson, toJson, Draft.set, Draft.finish, requireField, Decoder.list_textArray,
      Decoder.string, Decoder.optional, Except.map, bind, Except.bind, pure, Except.pure]

/-- The name of a predicate says which one it is. -/
theorem Predicate.ofName?_name (p : Predicate) : ofName? p.name = some p := by
  obtain ⟨type, relation⟩ := p
  cases type <;> cases relation <;> decide +kernel

/-- No predicate has the name of the target's field. -/
theorem Predicate.name_ne (p : Predicate) : p.name ≠ "Next" := by
  obtain ⟨type, relation⟩ := p
  cases type <;> cases relation <;> decide

theorem ChoiceClause.ofJson_toJson (c : ChoiceClause) : ofJson c.toJson = .ok c := by
  have hnext := c.predicate.name_ne
  simp [ofJson, toJson, textField, Entries.get?, Entries.erase, hnext,
    Predicate.ofName?_name, bind, Except.bind, pure, Except.pure]

/-! ## Fields of a state -/

theorem Property.ofText_text {p : Property} (h : p ∈ canonical) : ofText p.text = p := by
  have hall : ∀ p ∈ canonical, ofText p.text = p := by decide +kernel
  exact hall p h

theorem State.mem_canonical_of_mem_fieldOrder {p : Property} (h : p ∈ fieldOrder) :
    p ∈ Property.canonical := by
  have hall : ∀ p ∈ fieldOrder, p ∈ Property.canonical := by decide
  exact hall p h

namespace State

/-- Free-form data of a state is not null, which would read as nothing. -/
structure NullFree (s : State) : Prop where
  parameters : s.parameters ≠ some .null
  result : s.result ≠ some .null

/-- Nothing is written as null. -/
theorem NullFree.fieldJson_ne_null {s : State} (h : s.NullFree) {branches : Option Json}
    (hbranches : branches ≠ some .null) (p : Property) : s.fieldJson branches p ≠ some .null := by
  cases p with
  | branches => exact hbranches
  | parameters => exact h.parameters
  | result => exact h.result
  | _ => simp [fieldJson, countNumber]

/-- A field that is not written is not adopted either. -/
theorem adopt_of_fieldJson {s source : State} {branches : Option Json} {p : Property}
    (hp : p ∈ fieldOrder) (hbranches : branches = none → source.branches = none)
    (h : source.fieldJson branches p = none) : s.adopt p source = s := by
  cases p <;> simp_all [fieldJson, adopt, fieldOrder] <;> cases s <;> rfl

/-- A written field is taken up as it was. -/
theorem Draft.set_fieldJson {source : State} {branches : Option Json} {p : Property}
    (hp : p ∈ fieldOrder) (hbranches : p ≠ .branches) {value : Json} (hnull : value ≠ .null)
    (h : source.fieldJson branches p = some value) (draft : Draft) :
    draft.set p value = .ok ⟨draft.state.adopt p source, draft.typed || decide (.type = p)⟩ := by
  cases p with
  | type =>
    cases h
    have htype : StateType.ofJson (.string source.type.name) = .ok source.type := by
      simp [StateType.ofJson, StateType.decodeName]
    simp [Draft.set, htype, adopt, Except.map]
  | comment | resource | inputPath | outputPath | resultPath | next | default | secondsPath |
      timestamp | timestampPath | cause | error =>
    obtain ⟨hdecode, hor⟩ := Decoder.optional_of_map Decoder.string (fun _ => rfl) h hnull
    simp [Draft.set, hdecode, hor, adopt, Except.map]
  | parameters | result =>
    simp only [fieldJson] at h
    obtain ⟨hdecode, -⟩ := Decoder.optional_of_map Decoder.data
      (fun _ => rfl : ∀ a, Decoder.data (id a) = .ok a)
      (show (some value).map id = some value from rfl) hnull
    simp [Draft.set, hdecode, h, adopt, Except.map]
  | finish =>
    obtain ⟨hdecode, hor⟩ := Decoder.optional_of_map Decoder.boolean (fun _ => rfl) h hnull
    simp [Draft.set, hdecode, hor, adopt, Except.map]
  | timeoutSeconds | heartbeatSeconds | seconds =>
    obtain ⟨hdecode, hor⟩ :=
      Decoder.optional_of_map Decoder.count64 Decoder.count64_countNumber h hnull
    simp [Draft.set, hdecode, hor, adopt, Except.map]
  | retry =>
    obtain ⟨hdecode, hor⟩ := Decoder.optional_of_map (.list RetryClause.ofJson)
      (Decoder.list_array _ RetryClause.ofJson_toJson) h hnull
    simp [Draft.set, hdecode, hor, adopt, Except.map]
  | catches =>
    obtain ⟨hdecode, hor⟩ := Decoder.optional_of_map (.list CatchClause.ofJson)
      (Decoder.list_array _ CatchClause.ofJson_toJson) h hnull
    simp [Draft.set, hdecode, hor, adopt, Except.map]
  | choices =>
    obtain ⟨hdecode, hor⟩ := Decoder.optional_of_map (.list ChoiceClause.ofJson)
      (Decoder.list_array _ ChoiceClause.ofJson_toJson) h hnull
    simp [Draft.set, hdecode, hor, adopt, Except.map]
  | branches => exact absurd rfl hbranches
  | name | other => simp [fieldJson] at h

/-- The written fields of a state, without those that have no value, are taken up as they were. -/
theorem ofFields_fields {source : State} (hsource : source.NullFree) {branches : Option Json}
    (hnone : branches = none → source.branches = none)
    (hsome : ∀ value, branches = some value → value ≠ .null ∧
      ∃ decoded, source.branches = some decoded ∧ optionalBranches value = .ok (some decoded))
    (ps : List Property) (hps : ps ⊆ fieldOrder) (draft : Draft) :
    State.ofFields draft
        (ps.filterMap fun p => (source.fieldJson branches p).map fun value => (p.text, value)) =
      .ok ⟨ps.foldl (fun s p => s.adopt p source) draft.state,
        draft.typed || decide (.type ∈ ps)⟩ := by
  induction ps generalizing draft with
  | nil => simp [State.ofFields]
  | cons p ps ih =>
    have hp : p ∈ fieldOrder := hps List.mem_cons_self
    have hrest := ih fun q hq => hps (List.mem_cons_of_mem _ hq)
    cases hvalue : source.fieldJson branches p with
    | none =>
      -- the field is not written, and there is nothing to adopt
      have htype : p ≠ .type := by
        rintro rfl
        cases hvalue
      rw [List.filterMap_cons_none (by simp [hvalue]), hrest, List.foldl_cons,
        adopt_of_fieldJson hp hnone hvalue]
      simp [Ne.symm htype]
    | some value =>
      simp only [List.filterMap_cons, hvalue, Option.map_some]
      rw [State.ofFields]
      by_cases hb : p = .branches
      -- the branches are decoded apart from the other fields
      · subst hb
        obtain ⟨-, decoded, hdecoded, hvalue⟩ := hsome value hvalue
        have hadopt : draft.state.adopt .branches source =
            { draft.state with branches := some decoded } := by
          simp [adopt, hdecoded]
        rw [if_pos (show Property.branches.text = "Branches" from rfl), hvalue, List.foldl_cons,
          hadopt]
        simp [bind, Except.bind, hrest]
      · have hnull : value ≠ .null := by
          rintro rfl
          exact hsource.fieldJson_ne_null (fun h => (hsome .null h).1 rfl) p hvalue
        have hcanonical := mem_canonical_of_mem_fieldOrder hp
        have htext : p.text ≠ "Branches" := fun h => hb (by
          rw [← Property.ofText_text hcanonical, h]
          rfl)
        rw [if_neg htext, Property.ofText_text hcanonical, Draft.set_fieldJson hp hb hnull hvalue]
        simp [bind, Except.bind, hrest, Bool.or_assoc]

end State

/-! ## States and branches -/

mutual

/-- A state that its JSON form tells everything about, apart from its name. -/
inductive State.Storable : State → Prop
  | intro {s : State} : s.NullFree →
    (∀ branches, s.branches = some branches → ∀ b ∈ branches, Branch.Storable b) → State.Storable s

/-- A branch that its JSON form tells everything about. -/
inductive Branch.Storable : Branch → Prop
  | intro {b : Branch} : (∀ entry ∈ b.states, entry.2.name = none) →
    (∀ entry ∈ b.states, State.Storable entry.2) → Branch.Storable b

end

theorem branchesOfJson_branchesToJson {branches : List Branch}
    (h : ∀ b ∈ branches, Branch.ofJson b.toJson = .ok b) :
    branchesOfJson (branchesToJson branches) = .ok branches := by
  induction branches with
  | nil => rfl
  | cons b rest ih =>
    rw [branchesToJson, branchesOfJson, h b (by simp),
      ih fun other hother => h other (by simp [hother])]
    rfl

theorem stateEntriesOfJson_statesToJson {states : List (String × State)}
    (h : ∀ entry ∈ states, State.ofJson entry.2.toJson = .ok entry.2) :
    stateEntriesOfJson (statesToJson states) = .ok states := by
  induction states with
  | nil => rfl
  | cons entry rest ih =>
    obtain ⟨name, s⟩ := entry
    rw [statesToJson, stateEntriesOfJson, h (name, s) (by simp),
      ih fun other hother => h other (by simp [hother])]
    rfl

/-- A state is decoded from its fields if its branches are. -/
theorem State.NullFree.ofJson_toJson {s : State} (h : s.NullFree)
    (hbranches : ∀ branches, s.branches = some branches →
      ∀ b ∈ branches, Branch.ofJson b.toJson = .ok b) :
    State.ofJson s.toJson = .ok { s with name := none } := by
  have hfields : State.ofFields {}
      (s.fields (s.branches.map fun bs => .array (branchesToJson bs))) =
      .ok ⟨{ s with name := none }, true⟩ := by
    rw [State.fields, State.ofFields_fields h (by simp) ?_ _ (List.Subset.refl _),
      State.foldl_adopt_fieldOrder]
    · simp [State.fieldOrder]
    · intro value hvalue
      obtain ⟨decoded, hdecoded, rfl⟩ := Option.map_eq_some_iff.mp hvalue
      refine ⟨by simp, decoded, hdecoded, ?_⟩
      rw [optionalBranches, branchesOfJson_branchesToJson (hbranches decoded hdecoded)]
      rfl
  rw [State.toJson_eq, State.ofJson, hfields]
  rfl

mutual

/-- A state is decoded from its JSON form as it was, but for its name. -/
theorem State.Storable.ofJson_toJson {s : State} :
    s.Storable → State.ofJson s.toJson = .ok { s with name := none }
  | .intro hfree hbranches =>
    hfree.ofJson_toJson fun branches h b hb =>
      Branch.Storable.ofJson_toJson (hbranches branches h b hb)

/-- A branch is decoded from its JSON form as it was. -/
theorem Branch.Storable.ofJson_toJson {b : Branch} :
    b.Storable → Branch.ofJson b.toJson = .ok b
  | .intro hnames hstates => by
    have hdecoded : ∀ entry ∈ b.states, State.ofJson entry.2.toJson = .ok entry.2 := by
      intro entry hentry
      rw [State.Storable.ofJson_toJson (hstates entry hentry)]
      obtain ⟨name, s⟩ := entry
      have hname : s.name = none := hnames (name, s) hentry
      cases s
      simp_all
    obtain ⟨startAt, states⟩ := b
    rw [Branch.toJson, Branch.ofJson]
    simp [Branch.ofFields, Decoder.string, statesOfJson, stateEntriesOfJson_statesToJson hdecoded,
      requireField, bind, Except.bind, pure, Except.pure]

end

end Flowscript
