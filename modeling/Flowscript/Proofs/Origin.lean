import Flowscript.Proofs.WellFormed

/-!
# Where compiled states come from

Every state of a compiled branch is one of a few kinds: it is described by a mapping of the document
or behind a tag for a type, it is a shorthand task, it runs branches side by side, or it is a choice
or reshapes its input. Every branch inside a compiled one is itself compiled from a node of the
document, unless it stands in a machine that a reference stands for.
-/

namespace Flowscript

open Node (All)

/-! ## Kinds of states -/

/-- What a state does by itself: the state without its name and its branches, and without what may
be written around it, its transition and its clauses for failures. -/
def State.body (s : State) : State :=
  { s with
    name := none
    next := none
    finish := none
    retry := none
    catches := none
    branches := none }

/-- A document describes a state: by a mapping, or by the payload of a tag for a type, which is then
forced. -/
inductive Setting.Describes (setting : Setting) (document : Node) :
    Option StateType → Entries String Node → Prop
  | mapping {entries : Entries String Node} :
    .mapping entries ∈ document.subnodes → setting.Describes document none entries
  | tagged {tag : String} {type : StateType} {payload : Node} {entries : Entries String Node} :
    .tagged tag payload ∈ document.subnodes → setting.readers.get? tag = some (.terminal type) →
    payload.description? = some entries → setting.Describes document (some type) entries

/-- The state does what the entries describe. -/
def State.DescribedBy (s : State) (forced : Option StateType) (entries : Entries String Node) :
    Prop :=
  ∃ memory described after, (explicitState forced entries).outcome memory = (.ok described, after) ∧
    s.body = described.body

/-- How a state of a compiled branch came about. -/
inductive Setting.Origin (setting : Setting) (document : Node) (s : State) : Prop
  | described {forced : Option StateType} {entries : Entries String Node} :
    setting.Describes document forced entries → s.DescribedBy forced entries →
    s.branches.map List.length =
      (Properties.ofEntries entries).branches?.map (·.arguments.length) →
    setting.Origin document s
  | task : s.type = .task → s.resource ≠ none → setting.Origin document s
  | parallel {first : Branch} {others : List Branch} : s.type = .parallel →
    s.branches = some (first :: others) → setting.Origin document s
  | plain : s.type = .choice ∨ s.type = .pass → setting.Origin document s

/-- A branch is compiled from a node of the document, from some memory on. -/
def Setting.Compiles (setting : Setting) (document : Node) (b : Branch) : Prop :=
  ∃ node ∈ document.subnodes, ∃ memory after, (setting.branch node).outcome memory = (.ok b, after)

/-- A branch stands in a machine that a reference of the document stands for. -/
def Setting.Fetches (setting : Setting) (document : Node) (b : Branch) : Prop :=
  ∃ reference value machine, .string reference ∈ document.subnodes ∧
    setting.resolver reference = .ok (some value) ∧ value.get? "StartAt" ≠ none ∧
    Branch.ofJson value = .ok machine ∧ b.Inside machine

/-- Every branch inside a branch, at any depth, is compiled or fetched. -/
def Setting.Sourced (setting : Setting) (document : Node) (b : Branch) : Prop :=
  ∀ inner : Branch, inner.Inside b →
    setting.Compiles document inner ∨ setting.Fetches document inner

/-- What is known of a state before it is linked: its kind, and whence the branches are that it
runs. -/
structure Setting.Traced (setting : Setting) (document : Node) (s : State) : Prop where
  origin : setting.Origin document s
  branches : ∀ branches, s.branches = some branches → ∀ b ∈ branches, setting.Sourced document b

section Origin

variable {setting : Setting} {document : Node}

theorem State.type_of_body {s t : State} (h : t.body = s.body) : t.type = s.type :=
  congrArg (·.type) h

theorem State.resource_of_body {s t : State} (h : t.body = s.body) : t.resource = s.resource :=
  congrArg (·.resource) h

/-- The kind of a state does not depend on what is written around it. -/
theorem Setting.Origin.congr {s t : State} (h : setting.Origin document s)
    (hbody : t.body = s.body) (hbranches : t.branches = s.branches) :
    setting.Origin document t := by
  have htype : t.type = s.type := State.type_of_body hbody
  have hresource : t.resource = s.resource := State.resource_of_body hbody
  cases h with
  | described hdescribes hstate hcount =>
    obtain ⟨memory, described, after, hrun, hsame⟩ := hstate
    exact .described hdescribes ⟨memory, described, after, hrun, hbody.trans hsame⟩
      (hbranches ▸ hcount)
  | task htask hsome => exact .task (htype.trans htask) (hresource ▸ hsome)
  | parallel hparallel hsome => exact .parallel (htype.trans hparallel) (hbranches.trans hsome)
  | plain hplain => exact .plain (htype ▸ hplain)

theorem Setting.Traced.congr {s t : State} (h : setting.Traced document s)
    (hbody : t.body = s.body) (hbranches : t.branches = s.branches) :
    setting.Traced document t where
  origin := h.origin.congr hbody hbranches
  branches := hbranches ▸ h.branches

theorem State.body_settle (s : State) (following : Option String) :
    (s.settle following).body = s.body := by
  rw [State.settle_eq]
  rfl

theorem State.branches_settle (s : State) (following : Option String) :
    (s.settle following).branches = s.branches := by
  rw [State.settle_eq]

/-- A state without branches is traced as far as its kind is known. -/
theorem Setting.Origin.traced {s : State} (h : setting.Origin document s)
    (hbranches : s.branches = none) : setting.Traced document s :=
  ⟨h, by simp [hbranches]⟩

/-! ## Kinds are kept -/

/-- What the compiler knows of a node: it stands in the document, or is the null that stands for a
missing argument. -/
def Node.StandsIn (document node : Node) : Prop := node ∈ document.subnodes ∨ node = .null

/-- A branch that is compiled from nodes of the document is one of its branches. -/
theorem Setting.CompilesFrom.compiles {b : Branch}
    (h : setting.CompilesFrom (Node.StandsIn document) b) : setting.Compiles document b := by
  obtain ⟨node, hnode, memory, after, hrun⟩ := h
  rcases hnode.self with hin | rfl
  · exact ⟨node, hin, memory, after, hrun⟩
  -- nothing is compiled from null
  · rw [branch, if_neg (by simp [Node.isMachine]), if_pos (by rfl)] at hrun
    cases hrun

/-- The branch of traced states is sourced if it is compiled itself. -/
theorem Branch.sourced_ofItems {items : List (String × State)}
    (h : ∀ entry ∈ items, setting.Traced document entry.2)
    (hcompiled : setting.Compiles document (Branch.ofItems items)) :
    setting.Sourced document (Branch.ofItems items) := by
  intro inner hinside
  cases hinside with
  | self => exact .inl hcompiled
  | member hdeep hmember =>
    obtain ⟨entry, hentry, branches, hbranches, hinner⟩ := hmember
    obtain ⟨s, following, hitem, -, hsettled⟩ := Branch.mem_settleAll hentry
    rw [hsettled] at hbranches
    have hown : s.branches = some branches := (s.branches_settle following).symm.trans hbranches
    exact (h _ hitem).branches branches hown _ hinner inner hdeep

/-- Every way in which a state or a branch is compiled is one of the kinds. -/
theorem invariant_traced (hreaders : setting.readers.BuiltIn)
    (hmachine : ∀ inner ∈ document.subnodes, inner.isMachine = false) :
    setting.Invariant (Node.StandsIn document)
      (fun reader payload => ∃ tag, .tagged tag payload ∈ document.subnodes ∧
        setting.readers.get? tag = some reader)
      (setting.Traced document) (setting.Sourced document) where
  null := .inr rfl
  reader hn hreader := ⟨_, hn.resolve_right nofun, hreader⟩
  shorthand fresh node hn := by
    have hplain : node.isMachine = false := by
      rcases hn.self with hin | rfl
      · exact hmachine node hin
      · rfl
    refine Setting.shorthand_yields (Q := fun resolved => resolved.isMachine = true →
      ∃ reference value, .string reference ∈ document.subnodes ∧
        setting.resolver reference = .ok (some value) ∧ resolved = .ofJson value) fresh node
      ?_ ?_ ?_ ?_
    · rintro reference rfl
      refine (setting.resolve_yields reference).mono fun resolved hresolved hread => ?_
      obtain ⟨value, hvalue⟩ := hresolved hread
      exact ⟨reference, value, hn.self.resolve_right nofun, hvalue⟩
    · intro hread
      rw [hplain] at hread
      cases hread
    · intro name resource parameters inputPath resultPath _
      exact Setting.Origin.traced (.task rfl nofun) rfl
    · intro resolved name machine cause hresolved hread hdecoded
      obtain ⟨reference, value, hreference, hvalue, rfl⟩ := hresolved hread
      obtain ⟨data, hdata, hdecoded⟩ := exists_of_readMachine hdecoded
      rw [Node.readData_ofJson] at hdata
      cases hdata
      rw [Node.isMachine_ofJson] at hread
      refine ⟨.parallel rfl rfl, ?_⟩
      rintro branches ⟨rfl⟩ b hb inner hinside
      obtain rfl := List.mem_singleton.mp hb
      exact .inr ⟨reference, value, b, hreference, hvalue, Option.isSome_iff_ne_none.mp hread,
        hdecoded, hinside⟩
  explicit {forced entries} hwritten := by
    have hdescribes : setting.Describes document forced entries := by
      cases hwritten with
      | mapping hn => exact .mapping (hn.self.resolve_right nofun)
      | payload hr _ hentries =>
        obtain ⟨tag, htagged, hreader⟩ := hr
        exact .tagged htagged hreader hentries
    intro memory s after hrun
    have hnone : s.branches = none := explicitState_branches forced entries memory s after hrun
    unfold State.Filled
    split
    · rename_i hbranches
      refine Setting.Origin.traced (.described hdescribes ⟨memory, s, after, hrun, rfl⟩ ?_) hnone
      rw [hnone, hbranches]
      rfl
    · rename_i node hbranches
      intro branches hcount hsourced
      refine ⟨.described hdescribes ⟨memory, s, after, hrun, rfl⟩ ?_, ?_⟩
      · rw [hbranches]
        exact congrArg some hcount
      · rintro other ⟨rfl⟩
        exact hsourced
  choice payload _ := by
    refine (choiceState_yields payload).mono ?_
    rintro s ⟨name, rules, default, rfl⟩
    exact Setting.Origin.traced (.plain (.inl rfl)) rfl
  parameters payload := by
    refine (parametersState_yields payload).mono ?_
    rintro s (⟨name, path, rfl⟩ | ⟨name, fields, rfl⟩)
    · exact Setting.Origin.traced (.plain (.inr rfl)) rfl
    · exact Setting.Origin.traced (.plain (.inr rfl)) rfl
  custom payload hr := by
    obtain ⟨tag, -, hreader⟩ := hr
    cases hreaders.reader hreader
  parallel name branches hempty hb := by
    obtain ⟨first, others, rfl⟩ := List.exists_cons_of_ne_nil hempty
    refine ⟨.parallel rfl rfl, ?_⟩
    rintro branches ⟨rfl⟩
    exact hb
  guard _ s hs clauses := hs.congr rfl rfl
  retry hs clauses := hs.congr rfl rfl
  next _ s hs target := hs.congr rfl rfl
  finish hs := hs.congr rfl rfl
  machine {node b} hn hread := by
    rcases hn.self with hin | rfl
    · rw [hmachine node hin] at hread
      cases hread
    · cases hread
  sequenced _ _ hs hcompiled := Branch.sourced_ofItems hs hcompiled.compiles

/-! ## Compiled branches -/

theorem Node.all_standsIn {node : Node} (h : node ∈ document.subnodes) :
    All (Node.StandsIn document) node :=
  fun _ hinner => .inl (document.subnodes_subset h hinner)

/-- Every state of a compiled branch is of one of the kinds. -/
theorem Setting.Compiles.origin (hreaders : setting.readers.BuiltIn)
    (hmachine : ∀ inner ∈ document.subnodes, inner.isMachine = false) {b : Branch}
    (h : setting.Compiles document b) {entry : String × State} (hentry : entry ∈ b.states) :
    setting.Origin document entry.2 := by
  obtain ⟨node, hnode, memory, after, hrun⟩ := h
  have hinvariant := invariant_traced hreaders hmachine
  obtain ⟨items, -, -, hitems, rfl⟩ := exists_items (hmachine node hnode)
    (fun item hitem =>
      hinvariant.itemState item ((Node.all_standsIn hnode).of_mem_arguments hitem)) hrun
  obtain ⟨s, following, hitem, -, hsettled⟩ := Branch.mem_settleAll hentry
  rw [hsettled]
  exact (hitems _ hitem).origin.congr (s.body_settle following) (s.branches_settle following)

/-- Every branch inside a compiled branch is compiled or fetched. -/
theorem Setting.sourced_branch (hreaders : setting.readers.BuiltIn)
    (hmachine : ∀ inner ∈ document.subnodes, inner.isMachine = false) {memory after : Memory}
    {b : Branch} (h : (setting.branch document).outcome memory = (.ok b, after)) :
    setting.Sourced document b :=
  (invariant_traced hreaders hmachine).branch document
    (Node.all_standsIn document.self_mem_subnodes) memory b after h

/-- Where no reference stands for a machine, all branches are compiled. -/
theorem Setting.Sourced.compiles {b : Branch} (h : setting.Sourced document b)
    (hresolver : ∀ reference value, setting.resolver reference = .ok (some value) →
      value.get? "StartAt" = none) {inner : Branch} (hinside : inner.Inside b) :
    setting.Compiles document inner := by
  refine (h inner hinside).resolve_right ?_
  rintro ⟨reference, value, machine, -, hvalue, hstart, -, -⟩
  exact hstart (hresolver reference value hvalue)

end Origin

end Flowscript
