import Mathlib.Data.List.Basic
import Flowscript.Proofs.Kept
import Flowscript.Proofs.Storable
import Flowscript.Source

/-!
# Machines that pass through

A machine that is written out in full is not compiled: it is decoded, and encoded again when it is
printed. Of what is written in it, exactly that is kept which has a meaning where it stands and is
written in the form that is chosen for it.
-/

namespace Flowscript

/-! ## The fields of a state -/

namespace State

/-- A field of a state is found under its name. -/
theorem get?_fields (s : State) (branches : Option Json) (name : String) :
    Entries.get? name (s.fields branches) = s.fieldJson branches (Property.ofText name) := by
  have hfields : s.fields branches = (fieldOrder.map Property.text).filterMap fun name =>
      (s.fieldJson branches (Property.ofText name)).map fun value => (name, value) := by
    rw [fields, List.filterMap_map]
    refine List.filterMap_congr fun p hp => ?_
    simp [Property.ofText_text (mem_canonical_of_mem_fieldOrder hp)]
  rw [hfields, Entries.get?_filterMap]
  split
  · rfl
  · rename_i hname
    cases hp : Property.ofText name with
    | name | other => rfl
    | _ =>
      rw [← Property.text_ofText name, hp] at hname
      exact absurd (by decide) hname

/-- Only one field depends on the branches. -/
theorem fieldJson_branches {p : Property} (h : p ≠ .branches) (s : State)
    (branches others : Option Json) (held : Option (List Branch)) :
    ({ s with branches := held }).fieldJson branches p = s.fieldJson others p := by
  cases p <;> first | rfl | exact absurd rfl h

/-- Taking up a value takes over one field, and taking up null clears it. -/
theorem Draft.adopt_of_set {draft d : Draft} {p : Property} {value : Json}
    (h : draft.set p value = .ok d) :
    d.state = draft.state.adopt p d.state ∨ draft.state = d.state.adopt p draft.state := by
  obtain ⟨⟨⟩, typed⟩ := draft
  cases p with
  | branches | name | other =>
    cases h
    exact .inl (by simp [adopt])
  | type =>
    obtain ⟨type, -, rfl⟩ := ok_of_map h
    exact .inl rfl
  | _ =>
    obtain ⟨s, hs, rfl⟩ := ok_of_map h
    obtain ⟨field, -, rfl⟩ := ok_of_map hs
    cases field with
    | none => exact .inr (by simp [adopt])
    | some a => exact .inl rfl

theorem Draft.fieldJson_set {draft d : Draft} {p q : Property} {value : Json}
    (h : draft.set p value = .ok d) (hq : q ≠ p) (branches : Option Json) :
    d.state.fieldJson branches q = draft.state.fieldJson branches q := by
  rcases Draft.adopt_of_set h with hadopt | hadopt
  · rw [hadopt, fieldJson_adopt hq]
  · rw [hadopt, fieldJson_adopt hq]

/-- Takes up a field of an object. -/
def Draft.take (draft : Draft) (entry : String × Json) : Except DecodeError Draft :=
  if entry.1 = "Branches" then
    (optionalBranches entry.2).map fun branches =>
      { draft with state := { draft.state with branches } }
  else draft.set (Property.ofText entry.1) entry.2

theorem ofFields_eq_foldlM (draft : Draft) (fields : List (String × Json)) :
    ofFields draft fields = fields.foldlM Draft.take draft := by
  induction fields generalizing draft with
  | nil => rfl
  | cons entry rest ih =>
    obtain ⟨name, value⟩ := entry
    rw [ofFields, List.foldlM_cons, Draft.take]
    split
    · cases optionalBranches value with
      | error fault => rfl
      | ok branches => exact ih _
    · cases draft.set (Property.ofText name) value with
      | error fault => rfl
      | ok d => exact ih d

/-- The JSON form of the branches that a state holds. -/
def branchesJson (s : State) : Option Json :=
  s.branches.map fun branches => .array (branchesToJson branches)

/-- What is known of a field. -/
def Draft.field? (name : String) (draft : Draft) : Option Json :=
  draft.state.fieldJson draft.state.branchesJson (Property.ofText name)

theorem Draft.field?_take {before after : Draft} {entry : String × Json} {name : String}
    (h : before.take entry = .ok after) (hname : name ≠ entry.1) :
    after.field? name = before.field? name := by
  have hproperty {other : String} (hne : name ≠ other) :
      Property.ofText name ≠ Property.ofText other := by
    intro hsame
    exact hne (by rw [← Property.text_ofText name, hsame, Property.text_ofText])
  unfold Draft.take at h
  split at h
  · rename_i hbranches
    obtain ⟨branches, -, rfl⟩ := ok_of_map h
    exact fieldJson_branches (hproperty (hbranches ▸ hname)) before.state _ _ branches
  · rw [Draft.field?, Draft.field?, branchesJson, (Draft.eq_of_set h).2.1, ← branchesJson]
    exact Draft.fieldJson_set h (hproperty hname) _

end State

section

variable {all : Bool} {others : List (String × Json)} {name : String} {value : Json}

/-- A field of a state other than the type is absent if null is written for it. -/
theorem Settled.optional {α : Type} {decode : Decoder α} {encode : α → Json} {part : Part}
    {field : Option α} (hpart : Record.state.field? name = some part)
    (htype : Property.ofText name ≠ .type) (hfield : Decoder.optional decode value = .ok field)
    (hothers : Entries.get? name others = field.map encode)
    (h : ∀ a, decode value = .ok a → Faithful all part value (encode a)) :
    Settled all .state others name value := by
  obtain ⟨hnull, -⟩ | ⟨a, rfl, ha⟩ := Decoder.cases_optional hfield
  · refine .absent ?_ hnull
    have hknown : Part.ofProperty? (Property.ofText name) = some part := hpart
    simp [Record.takesNull, hknown, htype]
  · exact .written hpart hothers (h a ha)

/-- Each field of a state that is not its branches is settled when it is taken up. -/
theorem State.Draft.settled {before after : Draft} (hdistinct : value.Distinct)
    (hset : before.set (Property.ofText name) value = .ok after)
    (hbranches : Property.ofText name ≠ .branches)
    (hothers : Entries.get? name others = after.field? name) :
    Settled all .state others name value := by
  have hpart : Record.state.field? name = Part.ofProperty? (Property.ofText name) := rfl
  rw [Draft.field?] at hothers
  cases hp : Property.ofText name <;> rw [hp] at hpart hset hothers
  case branches => exact absurd hp hbranches
  case name | other => exact .unknown hpart hothers
  case type =>
    obtain ⟨type, htype, rfl⟩ := ok_of_map hset
    exact .written hpart hothers (.type htype)
  -- the values of all other fields may be absent
  all_goals
    have htype : Property.ofText name ≠ .type := by simp [hp]
    obtain ⟨s, hs, rfl⟩ := ok_of_map hset
    obtain ⟨field, hfield, rfl⟩ := ok_of_map hs
  case parameters | result =>
    refine .optional hpart htype hfield (hothers.trans Option.map_id'.symm) fun data hdata => ?_
    cases hdata
    exact .data value
  case finish => exact .optional hpart htype hfield hothers fun _ => .boolean
  case timeoutSeconds | heartbeatSeconds | seconds =>
    exact .optional hpart htype hfield hothers fun _ => .count64
  case retry =>
    exact .optional hpart htype hfield hothers fun _ h => .ofList hdistinct h .retryClause
  case catches =>
    exact .optional hpart htype hfield hothers fun _ h => .ofList hdistinct h .catchClause
  case choices =>
    exact .optional hpart htype hfield hothers fun _ h => .ofList hdistinct h .choiceClause
  all_goals exact .optional hpart htype hfield hothers fun _ => .string

end

/-! ## States and branches -/

theorem branchesOfJson_eq_mapM (items : List Json) :
    branchesOfJson items = items.mapM Branch.ofJson := by
  induction items with
  | nil => rfl
  | cons item rest ih =>
    rw [branchesOfJson, List.mapM_cons, ih]

theorem branchesToJson_eq_map (branches : List Branch) :
    branchesToJson branches = branches.map Branch.toJson := by
  induction branches with
  | nil => rfl
  | cons b rest ih => rw [branchesToJson, List.map_cons, ih]

/-- Each state of a branch is decoded under its own name. -/
theorem exists_state_of_stateEntries {fields : List (String × Json)} {states : List (String × State)}
    (h : stateEntriesOfJson fields = .ok states) (hdistinct : (Entries.keys fields).Nodup)
    {entry : String × Json} (hentry : entry ∈ fields) :
    ∃ s, State.ofJson entry.2 = .ok s ∧
      Entries.get? entry.1 (statesToJson states) = some s.toJson := by
  induction fields generalizing states with
  | nil => cases hentry
  | cons first rest ih =>
    obtain ⟨name, value⟩ := first
    rw [stateEntriesOfJson] at h
    obtain ⟨s, hs, h⟩ := ok_of_bind h
    obtain ⟨others, hothers, h⟩ := ok_of_bind h
    cases h
    rw [Entries.keys, List.map_cons, List.nodup_cons] at hdistinct
    rcases List.mem_cons.mp hentry with rfl | hentry
    · exact ⟨s, hs, by simp [statesToJson, Entries.get?]⟩
    · obtain ⟨found, hfound, hget⟩ := ih hothers hdistinct.2 hentry
      have hmem : entry.1 ∈ rest.map Prod.fst := List.mem_map_of_mem hentry
      have hne : name ≠ entry.1 := fun hname => hdistinct.1 (hname ▸ hmem)
      exact ⟨found, hfound, by simpa [statesToJson, Entries.get?, hne] using hget⟩

namespace Branch

/-- The fields of a branch that are known so far. -/
abbrev Known : Type := Option String × Option (List (String × State))

/-- Takes up a field of an object. -/
def Known.take (known : Known) (entry : String × Json) : Except DecodeError Known :=
  if entry.1 = "StartAt" then
    (Decoder.string entry.2).map fun startAt => (some startAt, known.2)
  else if entry.1 = "States" then
    (statesOfJson entry.2).map fun states => (known.1, some states)
  else .ok known

theorem ofFields_eq_foldlM (known : Known) (fields : List (String × Json)) :
    ofFields known.1 known.2 fields = fields.foldlM Known.take known := by
  induction fields generalizing known with
  | nil => rfl
  | cons entry rest ih =>
    obtain ⟨name, value⟩ := entry
    rw [ofFields, List.foldlM_cons, Known.take]
    split
    · cases Decoder.string value with
      | error fault => rfl
      | ok startAt => exact ih (some startAt, known.2)
    split
    · cases statesOfJson value with
      | error fault => rfl
      | ok states => exact ih (known.1, some states)
    · exact ih known

/-- What is known of a field. -/
def Known.field? (name : String) (known : Known) : Option Json :=
  if name = "StartAt" then known.1.map .string
  else if name = "States" then known.2.map fun states => .object (statesToJson states)
  else none

theorem Known.field?_take {before after : Known} {entry : String × Json} {name : String}
    (h : before.take entry = .ok after) (hname : name ≠ entry.1) :
    after.field? name = before.field? name := by
  unfold Known.take at h
  split at h
  · obtain ⟨startAt, -, rfl⟩ := ok_of_map h
    simp_all [Known.field?]
  split at h
  · obtain ⟨states, -, rfl⟩ := ok_of_map h
    simp_all [Known.field?]
  · cases h
    rfl

/-- What is known of a field is written into it. -/
theorem get?_toJson {known : Known} {startAt : String} {states : List (String × State)}
    (hstart : known.1 = some startAt) (hstates : known.2 = some states) (name : String) :
    (Branch.mk startAt states).toJson.get? name = known.field? name := by
  simp only [Known.field?, hstart, hstates, Option.map_some, toJson, Json.get?, Json.fields,
    Entries.get?, eq_comm]

theorem eq_some_of_requireField {α : Type} {name : String} {field : Option α} {a : α}
    (h : requireField name field = .ok a) : field = some a := by
  cases field <;> cases h
  rfl

end Branch

theorem sizeOf_lt_of_mem_items {items : List Json} {item : Json} (h : item ∈ items) :
    sizeOf item < sizeOf (Json.array items) := by
  have := List.sizeOf_lt_of_mem h
  rw [Json.array.sizeOf_spec]
  omega

theorem sizeOf_lt_of_mem_fields {fields : List (String × Json)} {name : String} {value : Json}
    (h : (name, value) ∈ fields) : sizeOf value < sizeOf (Json.object fields) := by
  have := List.sizeOf_lt_of_mem h
  rw [Prod.mk.sizeOf_spec] at this
  rw [Json.object.sizeOf_spec]
  omega

mutual

/-- What is written in a state is kept if it fits, and not otherwise. -/
theorem Faithful.state (all : Bool) (written : Json) (hdistinct : written.Distinct) {s : State}
    (h : State.ofJson written = .ok s) : Faithful all (.record .state) written s.toJson := by
  -- the equation is kept: it is what makes the branches smaller than `written`
  refine .of_object fun fields hwritten => ?_
  rw [hwritten] at h hdistinct
  rw [State.ofJson, State.ofFields_eq_foldlM] at h
  obtain ⟨draft, hdraft, hfinish⟩ := ok_of_bind h
  have hstate : draft.state = s := by
    unfold State.Draft.finish at hfinish
    split at hfinish <;> cases hfinish
    rfl
  rw [← hstate, State.toJson_eq]
  refine .record ?_
  rintro ⟨name, value⟩ hentry
  have hvalue : value.Distinct := hdistinct.value hentry
  obtain ⟨before, after, htake, hfield⟩ :=
    exists_set_of_foldlM State.Draft.field?_take hdistinct.1 hdraft hentry
  have hothers := (State.get?_fields draft.state draft.state.branchesJson name).trans hfield
  dsimp only at htake hothers ⊢
  unfold State.Draft.take at htake
  split at htake
  · rename_i hname
    obtain rfl : name = "Branches" := hname
    obtain ⟨branches, hbranches, rfl⟩ := ok_of_map htake
    cases value with
    | null => exact .absent rfl rfl
    | array items =>
      have hlow : sizeOf (Json.array items) < sizeOf written :=
        hwritten ▸ sizeOf_lt_of_mem_fields hentry
      rw [optionalBranches, branchesOfJson_eq_mapM] at hbranches
      obtain ⟨decoded, hdecoded, rfl⟩ := ok_of_map hbranches
      refine .written rfl hothers ?_
      dsimp only
      rw [branchesToJson_eq_map]
      -- a branch is smaller than the state that holds it
      refine .list hdecoded fun item hitem b hb => ?_
      have hitemLow := sizeOf_lt_of_mem_items hitem
      exact Faithful.branch all item (hvalue.item hitem) hb
    | _ => cases hbranches
  · rename_i hname
    refine State.Draft.settled hvalue htake (fun hbranches => hname ?_) hothers
    rw [← Property.text_ofText name, hbranches]
    rfl
termination_by sizeOf written
decreasing_by omega

/-- What is written in a branch is kept if it fits, and not otherwise. -/
theorem Faithful.branch (all : Bool) (written : Json) (hdistinct : written.Distinct) {b : Branch}
    (h : Branch.ofJson written = .ok b) : Faithful all (.record .machine) written b.toJson := by
  refine .of_object fun fields hwritten => ?_
  rw [hwritten] at h hdistinct
  rw [Branch.ofJson, Branch.ofFields_eq_foldlM (none, none)] at h
  obtain ⟨known, hknown, h⟩ := ok_of_bind h
  obtain ⟨startAt, hstart, h⟩ := ok_of_bind h
  obtain ⟨states, hstates, h⟩ := ok_of_bind h
  cases h
  have hget := Branch.get?_toJson (Branch.eq_some_of_requireField hstart)
    (Branch.eq_some_of_requireField hstates)
  refine .record ?_
  rintro ⟨name, value⟩ hentry
  have hvalue : value.Distinct := hdistinct.value hentry
  obtain ⟨before, after, htake, hfield⟩ :=
    exists_set_of_foldlM Branch.Known.field?_take hdistinct.1 hknown hentry
  have hothers := (hget name).trans hfield
  dsimp only at htake hothers ⊢
  unfold Branch.Known.take at htake
  split at htake
  · rename_i hname
    obtain rfl : name = "StartAt" := hname
    obtain ⟨startAt, hvalue, rfl⟩ := ok_of_map htake
    exact .written rfl hothers (.string hvalue)
  split at htake
  · rename_i hname
    obtain rfl : name = "States" := hname
    obtain ⟨found, hfound, rfl⟩ := ok_of_map htake
    cases value with
    | object entries =>
      have hlow : sizeOf (Json.object entries) < sizeOf written :=
        hwritten ▸ sizeOf_lt_of_mem_fields hentry
      rw [statesOfJson] at hfound
      refine .written rfl hothers (.record ?_)
      rintro ⟨stateName, stateValue⟩ hstate
      have hstateLow := sizeOf_lt_of_mem_fields hstate
      obtain ⟨s, hs, hgetState⟩ := exists_state_of_stateEntries hfound hvalue.1 hstate
      exact .written rfl hgetState (Faithful.state all stateValue (hvalue.value hstate) hs)
    | _ => cases hfound
  · rename_i hisStart hisStates
    refine .unknown ?_ (hothers.trans ?_)
    · rw [Record.field?, if_neg hisStart, if_neg hisStates]
    · rw [Branch.Known.field?, if_neg hisStart, if_neg hisStates]
termination_by sizeOf written
decreasing_by omega

end

/-! ## Machines as nodes -/

section

variable {setting : Setting} {node : Node} {written : Json} {memory after : Memory} {b : Branch}

/-- A machine is decoded, and nothing is remembered. -/
theorem Setting.outcome_branch_machine (hmachine : node.isMachine = true)
    (hwritten : node.toJson = .ok written) :
    (setting.branch node).outcome memory = (.ok b, after) ↔
      Branch.ofJson written = .ok b ∧ memory = after := by
  rw [branch, if_pos hmachine, readMachine, Property.readData, hwritten]
  cases hdecoded : Branch.ofJson written with
  | error fault =>
    simp only [bind, Except.bind, hdecoded]
    constructor
    · intro h
      cases h
    · rintro ⟨h, -⟩
      cases h
  | ok machine =>
    simp only [bind, Except.bind, hdecoded]
    constructor
    · intro h
      cases h
      exact ⟨rfl, rfl⟩
    · rintro ⟨h, rfl⟩
      cases h
      rfl

/-- A lone machine is compiled on its own. -/
theorem Setting.branch_of_compileDocuments (hmachine : node.isMachine = true)
    {documents : List Node} (hdocuments : documents.flatMap documentItems = [node])
    (h : (setting.compileDocuments documents).outcome memory = (.ok b, after)) :
    ∃ between, (setting.branch node).outcome between = (.ok b, after) := by
  simp only [compileDocuments, hdocuments, List.isEmpty_cons, if_pos hmachine] at h
  obtain ⟨-, between, -, h⟩ := Compile.ok_of_bind h
  exact ⟨between, h⟩

/-- What is written in a machine that passes through, on its own or as the only item of a source,
is kept if it fits, and not otherwise. This is so if only the fields with a meaning count, and also
if all fields count. -/
theorem machine_kept_iff (hmachine : node.isMachine = true) (hwritten : node.toJson = .ok written)
    (hdistinct : written.Distinct)
    (h : (setting.branch node).outcome memory = (.ok b, after) ∨
      ∃ documents, documents.flatMap documentItems = [node] ∧
        (setting.compileDocuments documents).outcome memory = (.ok b, after)) (all : Bool) :
    Keeps all (.record .machine) written b.toJson ↔
      Part.fits all (.record .machine) written = true := by
  have hdecoded : Branch.ofJson written = .ok b := by
    rcases h with h | ⟨documents, hdocuments, h⟩
    · exact ((Setting.outcome_branch_machine hmachine hwritten).mp h).1
    · obtain ⟨between, h⟩ := Setting.branch_of_compileDocuments hmachine hdocuments h
      exact ((Setting.outcome_branch_machine hmachine hwritten).mp h).1
  exact Faithful.branch all written hdistinct hdecoded

end

/-- A rate that is written as a whole number comes back as another number. -/
theorem machine_kept_iff_rate :
    let written : Json := .object [("StartAt", .string "a"), ("States", .object [("a", .object
      [("Type", .string "Task"), ("Comment", .null), ("End", .bool true), ("Retry", .array
        [.object [("ErrorEquals", .array [.string "States.ALL"]),
          ("BackoffRate", .number (.whole 2))]])])])]
    (Node.ofJson written).isMachine = true ∧ (Node.ofJson written).toJson = .ok written ∧
    written.Distinct ∧
    ∃ b after, (({} : Setting).branch (.ofJson written)).outcome {} = (.ok b, after) ∧
      ¬ Keeps false (.record .machine) written b.toJson := by
  intro written
  have hmachine : (Node.ofJson written).isMachine = true := by rw [Node.isMachine_ofJson]; rfl
  have hwritten := Node.toJson_ofJson written
  have hdistinct : written.Distinct := by
    simp [written, Json.Distinct, Json.DistinctFields, Json.DistinctItems, Entries.keys]
  obtain ⟨b, hb⟩ : ∃ b, Branch.ofJson written = .ok b := ⟨_, rfl⟩
  have hrun : (({} : Setting).branch (.ofJson written)).outcome {} = (.ok b, {}) :=
    (Setting.outcome_branch_machine hmachine hwritten).mpr ⟨hb, rfl⟩
  refine ⟨hmachine, hwritten, hdistinct, b, {}, hrun, ?_⟩
  rw [machine_kept_iff hmachine hwritten hdistinct (.inl hrun) false]
  decide +kernel

/-- A comment that stands beside the states is missing behind that. -/
theorem machine_kept_not_comment :
    let written : Json := .object [("StartAt", .string "a"), ("Comment", .string "nightly"),
      ("States", .object [("a", .object [("Type", .string "Pass"), ("End", .bool true)])])]
    ∃ b after, (({} : Setting).branch (.ofJson written)).outcome {} = (.ok b, after) ∧
      ¬ Keeps true (.record .machine) written b.toJson := by
  intro written
  obtain ⟨b, hb⟩ : ∃ b, Branch.ofJson written = .ok b := ⟨_, rfl⟩
  have hrun : (({} : Setting).branch (.ofJson written)).outcome {} = (.ok b, {}) :=
    (Setting.outcome_branch_machine (by rw [Node.isMachine_ofJson]; rfl)
      (Node.toJson_ofJson written)).mpr ⟨hb, rfl⟩
  refine ⟨b, {}, hrun, fun hkept => ?_⟩
  obtain ⟨startAt, states⟩ := b
  obtain ⟨-, hcomment, -⟩ := hkept
  obtain ⟨hall, -⟩ | ⟨hnull, -⟩ | ⟨output, houtput, -⟩ := hcomment
  · cases hall
  · cases hnull
  · simp [Entries.get?] at houtput

end Flowscript
