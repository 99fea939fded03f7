import Flowscript.Proofs.Absence
import Flowscript.Proofs.Origin
import Flowscript.Proofs.Transitions

/-!
# Tasks with resources, parallel states with branches

What a state needs to be run, it has by its origin: shorthand tasks have a resource, and what runs
side by side is refused if it is nothing. Only the states of mappings may lack it. A task of a
mapping lacks a resource if it is declared a task without a name, or if its resource is null; a
parallel state of a mapping lacks branches if none are written, or an empty list of them.
-/

namespace Flowscript

/-! ## States of mappings -/

namespace Properties

/-- The resource of a mapping is a text or null. -/
theorem resource_ofMapping {forced : Option StateType} {entries : Entries String Node} {node : Node}
    (h : (ofMapping forced entries).get? .resource = some node) :
    node = .null ∨ ∃ text, node = .string text := by
  rw [get?_ofMapping _ _ (by decide)] at h
  have hkind := isLiteral_of_mem_ofEntries (Entries.mem_of_get? h)
  cases node with
  | null => exact .inl rfl
  | string text => exact .inr ⟨text, rfl⟩
  | _ => cases hkind

/-- The state of a mapping is read from its properties, completed by their outline. -/
theorem explicitState_completed (forced : Option StateType) (entries : Entries String Node) :
    (explicitState forced entries).Yields fun s =>
      ∃ outline name, (ofMapping forced entries).outline = .ok outline ∧
        ((ofMapping forced entries).complete outline name).toState = .ok s := by
  rw [explicitState_eq]
  refine .after fun _ => (withDefaults_yields _).bind fun completed hcompleted => ?_
  obtain ⟨outline, name, houtline, rfl⟩ := hcompleted
  exact .ofExcept fun s hs => ⟨outline, name, houtline, hs⟩

variable {properties : Properties} {outline : Outline} {name : String} {s : State}

/-- The state has the type that the outline tells. -/
theorem type_of_complete (h : properties.Distinct)
    (hs : (properties.complete outline name).toState = .ok s) : s.type = outline.finalType := by
  rw [toState_complete h] at hs
  obtain ⟨t, ht, rfl⟩ := ok_of_map hs
  rw [toState_typed h] at ht
  obtain ⟨u, -, rfl⟩ := ok_of_map ht
  split <;> rfl

/-- A state has the text of its resource for a resource. -/
theorem resource_of_toState_text (h : properties.Distinct) {resource : String}
    (hresource : properties.get? .resource = some (.string resource))
    (hs : properties.toState = .ok s) : s.resource = some resource := by
  have hread : ({} : State).read .resource (.string resource) =
      .ok { resource := some resource } := rfl
  have hinsert := State.foldlM_insert rfl hread h {}
  rw [Entries.insert_of_get? hresource] at hinsert
  obtain ⟨t, -, rfl⟩ := ok_of_map (hinsert.symm.trans hs)
  rfl

/-- A state has no resource if null is written for it. -/
theorem resource_of_toState_null (h : properties.Distinct)
    (hresource : properties.get? .resource = some .null) (hs : properties.toState = .ok s) :
    s.resource = none := by
  rw [← toState_withoutNulls] at hs
  refine resource_of_toState ?_ hs
  rw [get?_withoutNulls h, hresource]
  rfl

/-- A type of a task is written, or there is a name. -/
theorem type?_of_finalType (houtline : properties.outline = .ok outline)
    (htask : outline.finalType = .task) (hname : outline.name = none) :
    properties.type? = .ok (some .task) := by
  obtain ⟨htype, -, hresource, -⟩ := outline_eq_ok houtline
  rw [htype]
  unfold Outline.finalType Outline.type at htask
  unfold Outline.type at hresource
  cases hwritten : outline.written with
  | none =>
    rw [hwritten] at htask hresource
    simp [hresource rfl, hname] at htask
  | some type =>
    rw [hwritten] at htask
    simpa using htask

/-- What a mapping gives that is declared a task, and says neither what to run nor a name that could
stand for it. -/
structure BareTask (properties : Properties) : Prop where
  type : properties.type? = .ok (some .task)
  name : properties.text? .name = .ok none
  resource : properties.get? .resource = none

/-- A task of a mapping lacks a resource in two cases only: it is a bare one, or null is written for
its resource. -/
theorem resource_of_complete (h : properties.Distinct)
    (htext : ∀ node, properties.get? .resource = some node →
      node = .null ∨ ∃ text, node = .string text)
    (houtline : properties.outline = .ok outline)
    (hs : (properties.complete outline name).toState = .ok s) (htask : s.type = .task) :
    s.resource = none ↔ properties.BareTask ∨ properties.get? .resource = some .null := by
  have hfinal : outline.finalType = .task := (type_of_complete h hs).symm.trans htask
  have htype : outline.type = .task := by
    unfold Outline.finalType at hfinal
    split at hfinal
    · cases hfinal
    · exact hfinal
  rw [toState_complete h] at hs
  obtain ⟨t, ht, rfl⟩ := ok_of_map hs
  have hdistinct := distinct_typed h outline name
  have hkept : (properties.typed outline name).get? .resource = properties.get? .resource :=
    get?_typed (by decide) (by decide) outline name properties
  cases hresource : properties.get? .resource with
  | none =>
    -- the name stands for the resource
    have hhas : properties.has .resource = false := by simp [Entries.has, hresource]
    have hgiven : outline.resource? = outline.name := by rw [Outline.resource?, if_pos htype]
    simp only [hhas, Bool.false_eq_true, if_false, hgiven, reduceCtorEq, or_false]
    constructor
    · intro hname
      exact ⟨type?_of_finalType houtline hfinal hname,
        hname ▸ (outline_eq_ok houtline).2.1, hresource⟩
    · intro hbare
      exact Except.ok.inj ((outline_eq_ok houtline).2.1.symm.trans hbare.name)
  | some node =>
    have hhas : properties.has .resource = true := by simp [Entries.has, hresource]
    rw [hresource] at hkept
    simp only [hhas, if_true]
    rcases htext node hresource with rfl | ⟨text, rfl⟩
    · exact ⟨fun _ => .inr rfl, fun _ => resource_of_toState_null hdistinct hkept ht⟩
    · rw [resource_of_toState_text hdistinct hkept ht]
      constructor
      · intro hnone
        cases hnone
      · rintro (hbare | hnull)
        · have hnone := hbare.resource
          rw [hresource] at hnone
          cases hnone
        · cases hnull

end Properties

/-- A task of a mapping lacks a resource exactly if it is a bare one, or null is written for its
resource. -/
theorem explicitState_resource (forced : Option StateType) (entries : Entries String Node) :
    (explicitState forced entries).Yields fun s => s.type = .task →
      (s.resource = none ↔ (Properties.ofMapping forced entries).BareTask ∨
        (Properties.ofMapping forced entries).get? .resource = some .null) := by
  refine (Properties.explicitState_completed forced entries).mono fun s hs htask => ?_
  obtain ⟨outline, name, houtline, hs⟩ := hs
  exact Properties.resource_of_complete (Properties.distinct_ofMapping forced entries)
    (fun _ => Properties.resource_ofMapping) houtline hs htask

/-- Without a name a mapping is a task exactly if it is declared one. -/
theorem explicitState_task {forced : Option StateType} {entries : Entries String Node}
    (hname : (Properties.ofMapping forced entries).text? .name = .ok none) :
    (explicitState forced entries).Yields fun s =>
      s.type = .task ↔ (Properties.ofMapping forced entries).type? = .ok (some .task) := by
  refine (Properties.explicitState_completed forced entries).mono fun s hs => ?_
  obtain ⟨outline, name, houtline, hs⟩ := hs
  obtain ⟨htype, hname', -⟩ := Properties.outline_eq_ok houtline
  have hnone : outline.name = none := Except.ok.inj (hname'.symm.trans hname)
  rw [Properties.type_of_complete (Properties.distinct_ofMapping forced entries) hs]
  refine ⟨fun htask => Properties.type?_of_finalType houtline htask hnone, fun hdeclared => ?_⟩
  have hwritten : outline.written = some .task := Except.ok.inj (htype.symm.trans hdeclared)
  simp [Properties.Outline.finalType, Properties.Outline.type, hwritten]

/-! ## Tasks -/

/-- In a machine that is compiled from a node in which no machine is written out, where no reference
stands for one either, each task has a resource, at any depth, unless a mapping is declared a task
and gives neither a name nor a resource, or its resource is null. Without a name a mapping becomes a
task only if it is declared one, and then it stays without a resource if it gives none. -/
theorem task_resource {setting : Setting} (hreaders : setting.readers.BuiltIn)
    (hresolver : ∀ reference value, setting.resolver reference = .ok (some value) →
      value.get? "StartAt" = none)
    {document : Node} (hmachine : ∀ inner ∈ document.subnodes, inner.isMachine = false)
    {memory after : Memory} {b : Branch}
    (h : (setting.branch document).outcome memory = (.ok b, after)) :
    (∀ inner : Branch, inner.Inside b → ∀ entry ∈ inner.states, entry.2.type = .task →
      entry.2.resource = none →
      ∃ forced entries, setting.Describes document forced entries ∧
        entry.2.DescribedBy forced entries ∧
        ((Properties.ofMapping forced entries).BareTask ∨
          (Properties.ofMapping forced entries).get? .resource = some .null)) ∧
    (∀ forced entries, (Properties.ofMapping forced entries).text? .name = .ok none →
      (setting.mappingState forced entries).Yields fun s =>
        s.type = .task ↔ (Properties.ofMapping forced entries).type? = .ok (some .task)) ∧
    ∀ forced entries, (Properties.ofMapping forced entries).BareTask →
      (setting.mappingState forced entries).Yields fun s =>
        s.type = .task ∧ s.resource = none := by
  refine ⟨?_, fun forced entries hname => ?_, fun forced entries hbare => ?_⟩
  · intro inner hinside entry hentry htask hnone
    have hcompiled := (Setting.sourced_branch hreaders hmachine h).compiles hresolver hinside
    cases hcompiled.origin hreaders hmachine hentry with
    | described hdescribes hstate _ =>
      obtain ⟨before, described, later, hrun, hbody⟩ := hstate
      refine ⟨_, _, hdescribes, ⟨before, described, later, hrun, hbody⟩, ?_⟩
      rw [State.type_of_body hbody] at htask
      rw [State.resource_of_body hbody] at hnone
      exact (explicitState_resource _ _ before described later hrun htask).mp hnone
    | task _ hsome => exact absurd hnone hsome
    | parallel htype _ =>
      rw [htask] at htype
      cases htype
    | plain htype =>
      rw [htask] at htype
      rcases htype with htype | htype <;> cases htype
  · exact setting.mappingState_yields (explicitState_task hname) fun _ _ hs => hs
  · refine setting.mappingState_yields ?_ fun _ _ hs => hs
    refine ((explicitState_task hbare.name).and (explicitState_resource forced entries)).mono ?_
    rintro s ⟨htask, hresource⟩
    have htask := htask.mpr hbare.type
    exact ⟨htask, (hresource htask).mpr (.inl hbare)⟩

/-- Without a mapping or a tag all tasks have a resource, also those in branches side by side. -/
theorem task_resource_shorthand :
    ∃ b after, (({} : Setting).branch (.sequence [.string "arn:fetch",
        .sequence [.string "arn:left", .string "arn:right"]])).outcome {} = (.ok b, after) ∧
      ∀ inner : Branch, inner.Inside b → ∀ entry ∈ inner.states, entry.2.type = .task →
        entry.2.resource ≠ none := by
  have hok : ((({} : Setting).branch (.sequence [.string "arn:fetch",
      .sequence [.string "arn:left", .string "arn:right"]])).outcome {}).1.toOption.any
        (fun _ => true) = true := by
    simp only [Setting.branch, Setting.sequence, Setting.itemState, Setting.state,
      Setting.branchList, Node.arguments]
    decide +kernel
  obtain ⟨b, after, hrun, -⟩ := Compile.exists_of_any hok
  refine ⟨b, after, hrun, fun inner hinside entry hentry htask hnone => ?_⟩
  obtain ⟨forced, entries, hdescribes, -⟩ := (task_resource ReaderTable.standard_builtIn
    (by simp [Resolver.identity])
    (by simp [Node.subnodes, Node.itemsSubnodes, Node.isMachine]) hrun).1
      inner hinside entry hentry htask hnone
  -- nothing in the document describes a state
  cases hdescribes with
  | mapping hmapping => simp [Node.subnodes, Node.itemsSubnodes] at hmapping
  | tagged htagged => simp [Node.subnodes, Node.itemsSubnodes] at htagged

/-- A mapping that is declared a task, and gives nothing else, is a task without a resource. -/
theorem bare_task_compiled :
    ∃ b after, (({} : Setting).branch (.mapping [("Type", .string "Task")])).outcome {} =
        (.ok b, after) ∧
      ∃ entry ∈ b.states, entry.2.type = .task ∧ entry.2.resource = none := by
  have hok : ((explicitState none [("Type", .string "Task")]).outcome {}).1.toOption.any
      (fun s => s.name = some "task_0" ∧ s.type = .task ∧ s.resource = none) = true := by
    decide +kernel
  have hbranches :
      ((Properties.ofEntries [("Type", .string "Task")]).get? .branches).isNone = true := by
    decide +kernel
  obtain ⟨s, between, hs, hstate⟩ := Compile.exists_of_any hok
  obtain ⟨hname, htype, hresource⟩ := of_decide_eq_true hstate
  obtain ⟨after, hrun⟩ := Setting.outcome_branch_mapping {} rfl
    (Option.isNone_iff_eq_none.mp hbranches) hs hname
  refine ⟨_, after, hrun, _, List.mem_singleton_self _, ?_, ?_⟩
  · rw [State.settle_eq]
    exact htype
  · rw [State.settle_eq]
    exact hresource

/-! ## Parallel states -/

/-- Branches that are missing or none are the only ones of which no item is compiled. -/
theorem Properties.branches?_eq_empty {entries : Entries String Node} {node : Node}
    (h : (ofEntries entries).branches? = some node) (hempty : node.arguments = []) :
    node = .sequence [] := by
  have hnull : (!node.isNull) = true := (Option.filter_eq_some_iff.mp h).2
  cases node with
  | null => cases hnull
  | sequence items => exact congrArg Node.sequence hempty
  | _ => cases hempty

/-- In a machine that is compiled from a node in which no machine is written out, every branch, at
any depth, is compiled from the document or stands in a machine that a reference stands for. In the
compiled ones each parallel state has a branch, unless a mapping writes none or an empty list of
them. An empty list is refused as an item and behind a tag; in a mapping it is compiled to a state
without a branch. -/
theorem parallel_branches {setting : Setting} (hreaders : setting.readers.BuiltIn)
    {document : Node} (hmachine : ∀ inner ∈ document.subnodes, inner.isMachine = false)
    {memory after : Memory} {b : Branch}
    (h : (setting.branch document).outcome memory = (.ok b, after)) :
    (∀ inner : Branch, inner.Inside b →
      setting.Compiles document inner ∨ setting.Fetches document inner) ∧
    (∀ inner : Branch, inner.Inside b → setting.Compiles document inner →
      ∀ entry ∈ inner.states, entry.2.type = .parallel →
      (∃ first others, entry.2.branches = some (first :: others)) ∨
      ∃ forced entries, setting.Describes document forced entries ∧
        entry.2.DescribedBy forced entries ∧
        ((Properties.ofEntries entries).branches? = none ∨
          (Properties.ofEntries entries).branches? = some (.sequence []))) ∧
    (∀ later, (setting.itemState (.sequence [])).outcome later =
        (.error (.refused .emptyParallel), later) ∧
      ∀ payload, payload.arguments = [] → (setting.read .parallel payload).outcome later =
        (.error (.refused .emptyParallel), later)) ∧
    ∀ forced entries later,
      (Properties.ofEntries entries).branches? = some (.sequence []) →
      (setting.mappingState forced entries).outcome later = (do
        let s ← explicitState forced entries
        return { s with branches := some [] }).outcome later := by
  refine ⟨Setting.sourced_branch hreaders hmachine h, ?_, fun later => ⟨?_, ?_⟩, ?_⟩
  · intro inner _ hcompiled entry hentry htype
    cases hcompiled.origin hreaders hmachine hentry with
    | @described forced entries hdescribes hstate hcount =>
      cases hbranches : (Properties.ofEntries entries).branches? with
      | none => exact .inr ⟨forced, entries, hdescribes, hstate, .inl hbranches⟩
      | some node =>
        rw [hbranches] at hcount
        obtain ⟨branches, hown, hlength⟩ := Option.map_eq_some_iff.mp hcount
        cases branches with
        | cons first others => exact .inl ⟨first, others, hown⟩
        | nil =>
          have hempty : node.arguments = [] := List.eq_nil_of_length_eq_zero hlength.symm
          have hnode := Properties.branches?_eq_empty hbranches hempty
          exact .inr ⟨forced, entries, hdescribes, hstate, .inr (hnode ▸ hbranches)⟩
    | task htask _ =>
      rw [htype] at htask
      cases htask
    | @parallel first others _ hsome => exact .inl ⟨first, others, hsome⟩
    | plain hplain =>
      rw [htype] at hplain
      rcases hplain with hplain | hplain <;> cases hplain
  · rw [Setting.itemState, Setting.branchList]
    rfl
  · intro payload hempty
    rw [Setting.read, hempty, Setting.branchList]
    rfl
  · intro forced entries later hbranches
    rw [Setting.mappingState_eq, hbranches]
    congr
    funext s
    rw [Setting.giveBranches, Node.arguments, Setting.branchList]
    rfl

/-- A mapping with the branches that it lists, alone in a branch. -/
theorem Setting.outcome_branch_listed (setting : Setting) {entries : Entries String Node}
    {items : List Node} {name : String} {memory between after : Memory} {s t : State}
    (hmachine : (Node.mapping entries).isMachine = false)
    (hbranches : (Properties.ofEntries entries).branches? = some (.sequence items))
    (hs : (explicitState none entries).outcome memory = (.ok s, between))
    (ht : (setting.giveBranches (some (.sequence items)) s).outcome between = (.ok t, after))
    (hname : t.name = some name) :
    ∃ later, (setting.branch (.mapping entries)).outcome memory =
      (.ok (Branch.ofItems [(name, t)]), later) := by
  have hstate : (setting.mappingState none entries).outcome memory = (.ok t, after) := by
    rw [mappingState_eq, hbranches, Compile.outcome_bind_ok hs, ht]
  exact setting.outcome_branch_single hmachine hstate hname

/-- A mapping of three branches: two tasks side by side, another list behind a tag, and a reference
that stands for a machine. -/
theorem parallel_branches_fork :
    let machine : Json := .object [("StartAt", .string "only"), ("States", .object
      [("only", .object [("Type", .string "Pass"), ("End", .bool true)])])]
    let setting : Setting := { resolver := .ofTable [("machine", machine)] }
    let document : Node := .mapping [("Name", .string "fork"), ("Type", .string "Parallel"),
      ("Branches", .sequence [.sequence [.sequence [.string "arn:left", .string "arn:right"]],
        .tagged "parallel" (.string "arn:other"), .string "machine"])]
    ∃ b after, (setting.branch document).outcome {} = (.ok b, after) ∧
      ∀ inner : Branch, inner.Inside b → setting.Compiles document inner →
        ∀ entry ∈ inner.states, entry.2.type = .parallel →
          ∃ first others, entry.2.branches = some (first :: others) := by
  intro machine setting document
  let items : List Node := [.sequence [.sequence [.string "arn:left", .string "arn:right"]],
    .tagged "parallel" (.string "arn:other"), .string "machine"]
  let properties : Properties :=
    [(.name, .string "fork"), (.type, .string "Parallel"), (.branches, .sequence items)]
  let entries : Entries String Node := properties.map fun entry => (entry.1.text, entry.2)
  have hbranches : (Properties.ofEntries entries).branches? = some (.sequence items) := by
    have htext := Properties.ofEntries_text properties
      (by simp [properties, Entries.Distinct, Entries.keys]) (by decide)
      (by simp [properties, Entries.get?]) (by simp [properties, Entries.get?])
    exact (congrArg Properties.branches? htext).trans rfl
  have hstate : ((explicitState none entries).outcome {}).1.toOption.any
      (fun s => s.name = some "fork") = true := by
    decide +kernel
  have hlist : ((setting.branchList items).outcome
      ((explicitState none entries).outcome {}).2).1.toOption.any (fun _ => true) = true := by
    have hreader : setting.readers.get? "parallel" = some .parallel := rfl
    simp only [items, Setting.branchList, Setting.branch, Setting.sequence, Setting.itemState,
      Setting.state, Setting.read, hreader, Node.arguments]
    decide +kernel
  obtain ⟨s, between, hs, hname⟩ := Compile.exists_of_any hstate
  rw [hs] at hlist
  obtain ⟨branches, last, hbranchList, -⟩ := Compile.exists_of_any hlist
  have hgiven : (setting.giveBranches (some (.sequence items)) s).outcome between =
      (.ok { s with branches := some branches }, last) := by
    rw [Setting.giveBranches, Node.arguments, Compile.outcome_bind_ok hbranchList]
    rfl
  obtain ⟨after, hrun⟩ :=
    setting.outcome_branch_listed rfl hbranches hs hgiven (of_decide_eq_true hname)
  refine ⟨_, after, hrun, fun inner hinside hcompiled entry hentry hparallel => ?_⟩
  have hmachine : ∀ inner ∈ document.subnodes, inner.isMachine = false := by
    simp [document, Node.subnodes, Node.itemsSubnodes, Node.entriesSubnodes, Node.isMachine,
      Entries.has, Entries.get?]
  rcases (parallel_branches ReaderTable.standard_builtIn hmachine hrun).2.1
    inner hinside hcompiled entry hentry hparallel with
    hsome | ⟨forced, others, hdescribes, -, hlacks⟩
  · exact hsome
  -- the only mapping lists branches, and the only tag is not one for a type
  · cases hdescribes with
    | mapping hmapping =>
      simp only [document, Node.subnodes, Node.itemsSubnodes, Node.entriesSubnodes, List.mem_cons,
        List.append_nil, List.mem_append, List.not_mem_nil, or_false, Node.mapping.injEq,
        reduceCtorEq] at hmapping
      have hlisted : (Properties.ofEntries others).branches? = some (.sequence items) :=
        hmapping ▸ hbranches
      rw [hlisted] at hlacks
      simp [items] at hlacks
    | @tagged tag type payload _ htagged hreader _ =>
      obtain ⟨rfl, -⟩ : tag = "parallel" ∧ payload = .string "arn:other" := by
        simpa [document, Node.subnodes, Node.itemsSubnodes, Node.entriesSubnodes] using htagged
      cases hreader

/-- A parallel state of an empty list of branches is compiled. -/
theorem empty_branches_compiled :
    ∃ b after, (({} : Setting).branch
        (.mapping [("Type", .string "Parallel"), ("Branches", .sequence [])])).outcome {} =
          (.ok b, after) ∧
      ∃ entry ∈ b.states, entry.2.type = .parallel ∧ entry.2.branches = some [] := by
  have hbranches : (Properties.ofEntries
      [("Type", .string "Parallel"), ("Branches", .sequence [])]).branches? =
        some (.sequence []) := by
    have htext := Properties.ofEntries_text
      [(.type, .string "Parallel"), (.branches, .sequence [])]
      (by simp [Entries.Distinct, Entries.keys]) (by decide) (by simp [Entries.get?])
      (by simp [Entries.get?])
    exact (congrArg Properties.branches? htext).trans rfl
  have hok : ((explicitState none
      [("Type", .string "Parallel"), ("Branches", .sequence [])]).outcome {}).1.toOption.any
        (fun s => s.name = some "parallel_0" ∧ s.type = .parallel) = true := by
    decide +kernel
  obtain ⟨s, between, hs, hstate⟩ := Compile.exists_of_any hok
  obtain ⟨hname, htype⟩ := of_decide_eq_true hstate
  have hgiven : (Setting.giveBranches {} (some (.sequence [])) s).outcome between =
      (.ok { s with branches := some [] }, between) := by
    rw [Setting.giveBranches, Node.arguments, Setting.branchList]
    rfl
  obtain ⟨after, hrun⟩ := Setting.outcome_branch_listed {} rfl hbranches hs hgiven hname
  refine ⟨_, after, hrun, _, List.mem_singleton_self _, ?_, ?_⟩
  · rw [State.settle_eq]
    exact htype
  · rw [State.settle_eq]

end Flowscript
