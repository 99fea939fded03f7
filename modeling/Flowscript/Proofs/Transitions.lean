import Flowscript.Proofs.WellFormed

/-!
# Transitions of compiled machines

Linking leaves a state alone that has a next state or an end mark of either value, and the check of
a machine takes an end mark that is false for none. So a compiled state lacks its transition in one
case, which is characterized here: it is marked as not ending and has no next state. Without such
a mark in the document every compiled state goes on or ends, at any depth.
-/

namespace Flowscript

open Node (All)

/-! ## Linked branches -/

/-- Every state in a branch, at any depth, has control flow of its own or a transition of either
kind. If the document is `plain`, no state is marked as not ending. -/
def Branch.Linked (plain : Prop) (b : Branch) : Prop :=
  ∀ inner : Branch, inner.Inside b → ∀ entry ∈ inner.states,
    (entry.2.isTerminal = false → entry.2.hasTransition = true) ∧
    (plain → entry.2.finish ≠ some false)

/-- What a state must be like before it is linked so that its branch is linked behind that. -/
structure State.Linkable (plain : Prop) (s : State) : Prop where
  finish : plain → s.finish ≠ some false
  branches : ∀ branches, s.branches = some branches → ∀ b ∈ branches, b.Linked plain

theorem State.hasTransition_settle {s : State} (following : Option String)
    (hterminal : s.isTerminal = false) : (s.settle following).hasTransition = true := by
  have hterminal : s.type.isTerminal = false := hterminal
  unfold State.settle
  split
  · rename_i hwritten
    simpa [hterminal, State.hasTransition] using hwritten
  · split <;> simp [State.hasTransition]

theorem State.finish_settle {s : State} (following : Option String)
    (hfinish : s.finish ≠ some false) : (s.settle following).finish ≠ some false := by
  unfold State.settle
  split
  · exact hfinish
  · split
    · exact hfinish
    · simp

section Linking

variable {plain : Prop}

/-- The branch of linkable states is linked. -/
theorem Branch.linked_ofItems {items : List (String × State)}
    (h : ∀ entry ∈ items, entry.2.Linkable plain) : (Branch.ofItems items).Linked plain := by
  intro inner hinside entry hentry
  cases hinside with
  | self =>
    obtain ⟨s, following, hitem, -, hsettled⟩ := Branch.mem_settleAll hentry
    rw [hsettled]
    refine ⟨fun hterminal => ?_, fun hplain => ?_⟩
    · refine State.hasTransition_settle following ?_
      rw [State.settle_eq] at hterminal
      exact hterminal
    · exact State.finish_settle following ((h _ hitem).finish hplain)
  | member hdeep hmember =>
    obtain ⟨outer, houter, branches, hbranches, hinner⟩ := hmember
    obtain ⟨s, following, hitem, -, hsettled⟩ := Branch.mem_settleAll houter
    rw [hsettled, State.settle_eq] at hbranches
    exact (h _ hitem).branches branches hbranches _ hinner inner hdeep entry hentry

theorem State.Linkable.of_none {s : State} (hfinish : s.finish = none)
    (hbranches : s.branches = none) : s.Linkable plain where
  finish _ := by simp [hfinish]
  branches := by simp [hbranches]

end Linking

/-! ## Compiled states are linkable -/

/-- What a node must be like, the nodes inside it apart: no machine, and if the document is `plain`,
no key that means an end has the value false. -/
structure Node.Linkable (plain : Prop) (node : Node) : Prop where
  machine : node.isMachine = false
  finish : plain → ∀ entries, node = .mapping entries →
    ∀ key, (key, .bool false) ∈ entries → Property.ofKey? key ≠ some .finish

section Compiling

variable {plain : Prop}

/-- A state is marked as not ending only if a key that means an end has the value false. -/
theorem explicitState_finish {entries : Entries String Node}
    (hfinish : ∀ key, (key, .bool false) ∈ entries → Property.ofKey? key ≠ some .finish)
    (forced : Option StateType) :
    (explicitState forced entries).Yields fun s => s.finish ≠ some false := by
  have hsame : ∀ {p : Property} {node : Node} {s t : State}, p ≠ .finish → s.read p node = .ok t →
      t.finish = s.finish := by
    intro p node s t hp hread
    have hfield := State.fieldJson_read hread (Ne.symm hp)
    cases hs : s.finish <;> cases ht : t.finish <;> simp_all [State.fieldJson]
  refine explicitState_yields forced (by simp) ?_ ?_
  · intro p text s t hp hs hread
    rw [hsame (by rcases hp with rfl | rfl | rfl <;> simp) hread]
    exact hs
  · intro p node s t hmem _ hs hread
    by_cases hp : p = .finish
    · subst hp
      rcases Properties.mem_ofEntries hmem with hother | hother | ⟨key, hkey, hmeans⟩
      · cases hother
      · cases hother
      · obtain ⟨b, hb, hread⟩ := ok_of_bind hread
        cases hread
        rintro ⟨rfl⟩
        -- only the truth value itself is read as one
        cases node with
        | bool value =>
          cases hb
          exact hfinish key hkey hmeans
        | _ => cases hb
    · rw [hsame hp hread]
      exact hs

/-- Every way in which a state or a branch is compiled keeps them linked. -/
theorem invariant_linked {setting : Setting} (hreaders : setting.readers.BuiltIn)
    (hresolver : ∀ reference value, setting.resolver reference = .ok (some value) →
      value.get? "StartAt" = none) (plain : Prop) :
    setting.Invariant (Node.Linkable plain) (fun reader _ => reader.isBuiltIn = true)
      (State.Linkable plain) (Branch.Linked plain) where
  null := ⟨rfl, by rintro - entries h; cases h⟩
  reader _ hreader := hreaders.reader hreader
  shorthand fresh node hn := by
    refine Setting.shorthand_yields fresh node
      (fun reference _ => Setting.resolve_sound hresolver reference) hn.self.machine ?_ ?_
    · intro name resource parameters inputPath resultPath _
      exact .of_none rfl rfl
    · intro resolved name machine cause hresolved hmachine _
      rw [hresolved] at hmachine
      cases hmachine
  explicit {forced entries} hwritten := by
    intro memory s after h
    have hn : (Node.mapping entries).Linkable plain :=
      hwritten.self ⟨rfl, by rintro - entries ⟨rfl⟩; simp⟩
        fun name => ⟨rfl, by rintro - entries ⟨rfl⟩; simp⟩
    have hbranches : s.branches = none := explicitState_branches forced entries memory s after h
    have hs : s.Linkable plain := ⟨fun hplain =>
      explicitState_finish (hn.finish hplain entries rfl) forced memory s after h,
      by simp [hbranches]⟩
    exact .of_kept hs (fun _ hb => { hs with
      branches := by
        rintro branches ⟨rfl⟩
        exact hb }) entries
  choice payload _ := by
    refine (choiceState_yields payload).mono ?_
    rintro s ⟨name, rules, default, rfl⟩
    exact .of_none rfl rfl
  parameters payload := by
    refine (parametersState_yields payload).mono ?_
    rintro s (⟨name, path, rfl⟩ | ⟨name, fields, rfl⟩)
    · exact .of_none rfl rfl
    · exact .of_none rfl rfl
  custom payload hr := by
    cases hr
  parallel name branches _ hb := by
    refine ⟨?_, ?_⟩
    · rintro - h
      cases h
    · rintro branches ⟨rfl⟩
      exact hb
  guard _ s hs clauses := { hs with }
  retry hs clauses := { hs with }
  next _ s hs target := { hs with finish := by rintro - h; cases h }
  finish hs := { hs with finish := by rintro - h; cases h }
  machine hn hmachine := by
    rw [hn.self.machine] at hmachine
    cases hmachine
  sequenced _ _ hs _ := Branch.linked_ofItems hs

end Compiling

/-! ## Missing transitions -/

/-- In a linked branch a transition is missing exactly where a state is marked as not ending and
has no next state. -/
theorem Branch.Linked.mem_missingTransition {plain : Prop} {b : Branch} (h : b.Linked plain)
    {name : String} :
    .missingTransition name ∈ b.problems ↔
      ∃ inner : Branch, inner.Inside b ∧ ∃ s, (name, s) ∈ inner.states ∧ s.isTerminal = false ∧
        s.next = none ∧ s.finish = some false := by
  rw [Branch.mem_problems]
  constructor
  · rintro ⟨inner, hinside, s, hs, hterminal, hnext, hfinish⟩
    refine ⟨inner, hinside, s, hs, hterminal, hnext, ?_⟩
    have htransition := (h inner hinside _ hs).1 hterminal
    rcases hmark : s.finish with _ | (_ | _)
    · simp [State.hasTransition, hnext, hmark] at htransition
    · rfl
    · exact absurd hmark hfinish
  · rintro ⟨inner, hinside, s, hs, hterminal, hnext, hfinish⟩
    exact ⟨inner, hinside, s, hs, hterminal, hnext, by simp [hfinish]⟩

/-- A mapping without branches is compiled to the state that it describes. -/
theorem Setting.outcome_mappingState (setting : Setting) {forced : Option StateType}
    {entries : Entries String Node} {memory after : Memory} {s : State}
    (hbranches : (Properties.ofEntries entries).get? .branches = none)
    (hs : (explicitState forced entries).outcome memory = (.ok s, after)) :
    (setting.mappingState forced entries).outcome memory = (.ok s, after) := by
  rw [mappingState, Compile.outcome_bind_ok hs]
  split
  · rfl
  · rename_i node hfound
    rw [hbranches] at hfound
    cases hfound

/-- A mapping alone in a branch, which takes its name from the state. -/
theorem Setting.outcome_branch_single (setting : Setting) {entries : Entries String Node}
    {memory after : Memory} {name : String} {s : State}
    (hmachine : (Node.mapping entries).isMachine = false)
    (hs : (setting.mappingState none entries).outcome memory = (.ok s, after))
    (hname : s.name = some name) :
    ∃ later, (setting.branch (.mapping entries)).outcome memory =
      (.ok (Branch.ofItems [(name, s)]), later) := by
  have hstate : (setting.state false (.mapping entries)).outcome memory = (.ok s, after) := by
    rw [state]
    exact hs
  have hnamed : (setting.namedItem (.mapping entries)).outcome memory = (.ok (name, s), after) := by
    rw [namedItem, show setting.compileItem (.mapping entries) =
      setting.state false (.mapping entries) from rfl, Compile.outcome_bind_ok hstate, hname]
    rfl
  rw [outcome_branch _ hmachine, branchInPhases]
  simp [Node.arguments, compileItems, hnamed]

/-- A mapping without branches, alone in a branch. -/
theorem Setting.outcome_branch_mapping (setting : Setting) {entries : Entries String Node}
    {memory after : Memory} {name : String} {s : State}
    (hmachine : (Node.mapping entries).isMachine = false)
    (hbranches : (Properties.ofEntries entries).get? .branches = none)
    (hs : (explicitState none entries).outcome memory = (.ok s, after))
    (hname : s.name = some name) :
    ∃ later, (setting.branch (.mapping entries)).outcome memory =
      (.ok (Branch.ofItems [(name, s)]), later) :=
  setting.outcome_branch_single hmachine (setting.outcome_mappingState hbranches hs) hname

/-- A pass state that is marked as not ending, alone in its branch, is left without a transition. -/
theorem outcome_branch_not_ending :
    ∃ s after, (({} : Setting).branch
        (.mapping [("Type", .string "Pass"), ("End", .bool false)])).outcome {} =
          (.ok (Branch.ofItems [("pass_0", s)]), after) ∧
      .missingTransition "pass_0" ∈ (Branch.ofItems [("pass_0", s)]).problems := by
  have hok : ((explicitState none
      [("Type", .string "Pass"), ("End", .bool false)]).outcome {}).1.toOption.any
        (fun s => s.name = some "pass_0" ∧ s.type = .pass ∧ s.next = none ∧
          s.finish = some false) = true := by
    decide +kernel
  have hbranches : ((Properties.ofEntries
      [("Type", .string "Pass"), ("End", .bool false)]).get? .branches).isNone = true := by
    decide +kernel
  obtain ⟨s, between, hs, hstate⟩ := Compile.exists_of_any hok
  obtain ⟨hname, htype, hnext, hfinish⟩ := of_decide_eq_true hstate
  obtain ⟨after, hrun⟩ := Setting.outcome_branch_mapping {} rfl
    (Option.isNone_iff_eq_none.mp hbranches) hs hname
  refine ⟨s, after, hrun,
    Branch.mem_problems_step.mpr (.inl ⟨_, List.mem_singleton_self _, ?_⟩)⟩
  simp [State.settle, State.isTerminal, StateType.isTerminal, htype, hnext, hfinish]

/-! ## Compiled machines -/

/-- A machine that is compiled from a node in which no machine is written out lacks a transition,
at any depth, exactly where a state is marked as not ending and has no next state. If no key that
means an end has the value false, no transition is missing. -/
theorem missingTransition_branch {setting : Setting} (hreaders : setting.readers.BuiltIn)
    (hresolver : ∀ reference value, setting.resolver reference = .ok (some value) →
      value.get? "StartAt" = none)
    {node : Node} (hmachine : ∀ inner ∈ node.subnodes, inner.isMachine = false)
    {memory after : Memory} {b : Branch}
    (h : (setting.branch node).outcome memory = (.ok b, after)) :
    (∀ name, .missingTransition name ∈ b.problems ↔
      ∃ inner : Branch, inner.Inside b ∧ ∃ s, (name, s) ∈ inner.states ∧ s.isTerminal = false ∧
        s.next = none ∧ s.finish = some false) ∧
    ((∀ entries, .mapping entries ∈ node.subnodes → ∀ key, (key, .bool false) ∈ entries →
        Property.ofKey? key ≠ some .finish) →
      ∀ name, .missingTransition name ∉ b.problems) := by
  constructor
  · intro name
    have hn : All (Node.Linkable False) node := fun inner hinner =>
      ⟨hmachine inner hinner, False.elim⟩
    exact ((invariant_linked hreaders hresolver False).branch node hn memory b after
      h).mem_missingTransition
  · intro hfinish name hmissing
    have hn : All (Node.Linkable True) node := fun inner hinner =>
      ⟨hmachine inner hinner, by rintro - entries rfl; exact hfinish entries hinner⟩
    have hlinked := (invariant_linked hreaders hresolver True).branch node hn memory b after h
    obtain ⟨inner, hinside, s, hs, -, -, hmark⟩ := hlinked.mem_missingTransition.mp hmissing
    exact (hlinked inner hinside _ hs).2 trivial hmark

/-- A pass state that is marked as not ending, alone in its branch. -/
theorem missingTransition_branch_pass :
    ∃ b after, (({} : Setting).branch
        (.mapping [("Type", .string "Pass"), ("End", .bool false)])).outcome {} = (.ok b, after) ∧
      ∃ inner : Branch, inner.Inside b ∧ ∃ s, ("pass_0", s) ∈ inner.states ∧
        s.isTerminal = false ∧ s.next = none ∧ s.finish = some false := by
  obtain ⟨s, after, hrun, hmissing⟩ := outcome_branch_not_ending
  refine ⟨_, after, hrun, ?_⟩
  exact ((missingTransition_branch ReaderTable.standard_builtIn (by simp [Resolver.identity])
    (by simp [Node.subnodes, Node.entriesSubnodes, Node.isMachine, Entries.has, Entries.get?])
    hrun).1 "pass_0").mp hmissing

/-- An end mark that is false keeps a state from being linked: here the last state of a branch
neither goes on nor ends. -/
theorem missingTransition_not_ending :
    ∃ b after, (({} : Setting).branch
        (.mapping [("Type", .string "Pass"), ("End", .bool false)])).outcome {} = (.ok b, after) ∧
      .missingTransition "pass_0" ∈ b.problems := by
  obtain ⟨s, after, hrun, hmissing⟩ := outcome_branch_not_ending
  exact ⟨_, after, hrun, hmissing⟩

end Flowscript
