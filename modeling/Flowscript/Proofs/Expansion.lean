import Flowscript.Proofs.NormalForm
import Flowscript.Proofs.RoundTrip

/-!
# Machines that are written out in full

A branch that is compiled from items can be written in the notation itself, each state as a mapping
of its name and all its fields. Every stage of the compiler leaves such a mapping as it is: the keys
mean what they spell, nothing has to move, no default is missing, and each state already has its
transition. So the branch is compiled to itself, and no name is generated.
-/

namespace Flowscript

/-! ## Writing out -/

/-- A state of a branch as a mapping of its name and its fields. -/
def writtenState (name : String) (s : State) : Node :=
  .mapping (("Name", .string name) :: Node.ofJsonFields s.toJson.fields)

/-- A branch as the list of its states. -/
def Branch.written (b : Branch) : Node :=
  .sequence (b.states.map fun (name, s) => writtenState name s)

/-- The value of a state's field as a node. -/
def State.fieldNode (s : State) (p : Property) : Option Node :=
  (s.fieldJson (s.branches.map fun branches => .array (branchesToJson branches)) p).map .ofJson

/-- The written fields of a state under the properties that they mean. -/
def State.written (name : String) (s : State) : Properties :=
  (.name, .string name) :: State.fieldOrder.filterMap fun p =>
    (s.fieldNode p).map fun node => (p, node)

theorem writtenState_eq (name : String) (s : State) :
    writtenState name s = .mapping ((s.written name).map fun entry => (entry.1.text, entry.2)) := by
  have hfields : Node.ofJsonFields s.toJson.fields =
      (State.fieldOrder.filterMap fun p => (s.fieldNode p).map fun node => (p, node)).map
        fun entry => (entry.1.text, entry.2) := by
    rw [State.toJson_eq, Json.fields, State.fields, Node.ofJsonFields_eq_map, List.map_filterMap,
      List.map_filterMap]
    simp [State.fieldNode, Function.comp_def]
  rw [writtenState, hfields]
  rfl

/-! ## Keys -/

namespace State

theorem keys_written (name : String) (s : State) :
    Entries.keys (s.written name) =
      .name :: fieldOrder.filter fun p => (s.fieldNode p).isSome := by
  rw [← Entries.keys_filterMap]
  rfl

theorem distinct_written (name : String) (s : State) : (s.written name).Distinct := by
  rw [Entries.Distinct, keys_written, List.nodup_cons]
  constructor
  · intro h
    exact absurd (List.mem_filter.mp h).1 (by decide)
  · exact List.filter_sublist.nodup (by decide)

theorem canonical_of_mem_written {name : String} {s : State} {entry : Property × Node}
    (h : entry ∈ s.written name) : entry.1 ∈ Property.canonical := by
  have hkey : entry.1 ∈ Entries.keys (s.written name) := List.mem_map_of_mem h
  rw [keys_written, List.mem_cons] at hkey
  rcases hkey with hkey | hkey
  · rw [hkey]
    decide
  · exact mem_canonical_of_mem_fieldOrder (List.mem_filter.mp hkey).1

theorem get?_written {p : Property} (hp : p ∈ fieldOrder) (name : String) (s : State) :
    Entries.get? p (s.written name) = s.fieldNode p := by
  have hne : Property.name ≠ p := by
    rintro rfl
    exact absurd hp (by decide)
  rw [written, Entries.get?, if_neg hne, Entries.get?_filterMap, if_pos hp]

theorem get?_name_written (name : String) (s : State) :
    Entries.get? .name (s.written name) = some (.string name) := by
  simp [written, Entries.get?]

end State

/-! ## Moves and defaults -/

namespace State

/-- The properties of a mapping that is written out are those that were written. -/
theorem ofEntries_written {s : State} (h : s.PlainResult) (name : String) :
    (Properties.ofEntries ((s.written name).map fun entry => (entry.1.text, entry.2)) =
        s.written name) ∧
      (Properties.named ((s.written name).map fun entry => (entry.1.text, entry.2))).journal =
        [] := by
  have hdistinct := s.distinct_written name
  refine ⟨?_, (Properties.named_spelled hdistinct fun _ => canonical_of_mem_written).2⟩
  have hresult : ∀ node, (s.written name).get? .result = some node →
      Properties.isPath node = false := by
    intro node hnode
    rw [get?_written (by decide)] at hnode
    obtain ⟨value, hvalue, rfl⟩ := Option.map_eq_some_iff.mp hnode
    exact h value hvalue
  have hresource : ∀ node, (s.written name).get? .resource = some node →
      Properties.isLiteral node = false := by
    intro node hnode
    rw [get?_written (by decide)] at hnode
    obtain ⟨value, hvalue, rfl⟩ := Option.map_eq_some_iff.mp hnode
    obtain ⟨resource, -, rfl⟩ := Option.map_eq_some_iff.mp hvalue
    rfl
  exact Properties.ofEntries_text _ hdistinct (fun _ => canonical_of_mem_written) hresult hresource

theorem get?_type_written (name : String) (s : State) :
    Entries.get? .type (s.written name) = some (.string s.type.name) := by
  rw [get?_written (by decide)]
  rfl

theorem get?_resource_written (name : String) (s : State) :
    Entries.get? .resource (s.written name) = s.resource.map .string := by
  rw [get?_written (by decide)]
  cases hresource : s.resource <;> simp [fieldNode, fieldJson, hresource, Node.ofJson]

/-- All that the defaults depend on is written. -/
theorem outline_written {s : State} (h : s.type = .task → s.resource.isSome) (name : String) :
    (s.written name).outline = .ok ⟨some s.type, some name, s.resource.isSome⟩ := by
  have hread : Property.readType (.string s.type.name) = .ok s.type := by
    simp [Property.readType, Property.readText, bind, Except.bind, pure, Except.pure]
  simp only [Properties.outline, Properties.type?, Properties.text?, get?_type_written,
    get?_name_written, get?_resource_written, hread]
  by_cases htask : s.type = .task
  · simp [htask, h htask, Property.readText, bind, Except.bind, pure, Except.pure, Except.map]
  · cases s.resource <;>
      simp [htask, Property.readText, bind, Except.bind, pure, Except.pure, Except.map]

/-- Properties that are written out are complete. -/
theorem complete_written {s : State} (h : s.type = .task → s.resource.isSome) (name : String) :
    (s.written name).complete ⟨some s.type, some name, s.resource.isSome⟩ name =
      s.written name := by
  simp only [Properties.complete, Properties.Outline.finalType, Properties.Outline.type,
    Properties.Outline.resource?, Entries.insert_of_get? (get?_name_written name s),
    Option.isNone_some, Bool.and_false, Bool.false_eq_true, if_false, Option.getD_some,
    Entries.insert_of_get? (get?_type_written name s)]
  -- the name would become the resource of a task that has none
  by_cases htask : s.type = .task
  · have hpresent : Entries.has .resource (s.written name) = true := by
      simp [Entries.has, get?_resource_written, h htask]
    simp [htask, hpresent]
  · simp [htask]

/-- A state that is written out lacks no default. -/
theorem outcome_withDefaults_written {s : State} (h : s.type = .task → s.resource.isSome)
    (name : String) (memory : Memory) :
    (s.written name).withDefaults.outcome memory = (.ok (s.written name), memory) := by
  rw [Properties.withDefaults_eq, outline_written h]
  simp [Compile.ofExcept, Properties.Outline.naming, complete_written h]

end State

/-! ## Reading back -/

theorem Property.readSeconds_number (p : Property) {number : Number} {n : UInt64}
    (h : number.toUInt64? = some n) : p.readSeconds (.number number) = .ok n := by
  simp [readSeconds, h]

/-- A written count is read as it was. -/
theorem Property.readSeconds_of_map {field : Option UInt64} {value : Json}
    (h : field.map (fun n => countNumber n.toNat) = some value) :
    ∃ n, field = some n ∧ ∀ p : Property, p.readSeconds (.ofJson value) = .ok n := by
  obtain ⟨n, hn, rfl⟩ := Option.map_eq_some_iff.mp h
  have hbound : (n.toNat : Int) < UInt64.size := by exact_mod_cast n.toNat_lt
  have hcount : (Number.whole n.toNat).toUInt64? = some n := by
    rw [Number.toUInt64?, if_pos ⟨by omega, hbound⟩]
    simp
  exact ⟨n, hn, fun p => p.readSeconds_number hcount⟩

theorem Property.readClauses_array {α : Type} {decode : Decoder α} {encode : α → Json}
    (h : ∀ a, decode (encode a) = .ok a) (p : Property) (clauses : List α) :
    Property.readClauses decode p (.ofJson (.array (clauses.map encode))) = .ok clauses := by
  simp [readClauses, Node.readData_ofJson, Decoder.mapM_map encode h, bind, Except.bind, pure,
    Except.pure]

namespace State

/-- A written field other than the branches is read as it was. -/
theorem read_fieldJson {source : State} {branches : Option Json} {p : Property}
    (hbranches : p ≠ .branches) {value : Json}
    (h : source.fieldJson branches p = some value) (s : State) :
    s.read p (.ofJson value) = .ok (s.adopt p source) := by
  cases p with
  | type =>
    cases h
    simp [read, adopt, Node.ofJson, Property.readType, Property.readText, bind, Except.bind, pure,
      Except.pure]
  | comment | resource | inputPath | outputPath | resultPath | next | default | secondsPath |
      timestamp | timestampPath | cause | error =>
    obtain ⟨text, htext, rfl⟩ := Option.map_eq_some_iff.mp h
    simp [read, adopt, Node.ofJson, Property.readText, htext, bind, Except.bind, pure, Except.pure]
  | parameters | result =>
    simp only [fieldJson] at h
    simp [read, adopt, Node.readData_ofJson, h, bind, Except.bind, pure, Except.pure]
  | finish =>
    obtain ⟨b, hb, rfl⟩ := Option.map_eq_some_iff.mp h
    simp [read, adopt, Node.ofJson, Property.readBool, hb, bind, Except.bind, pure, Except.pure]
  | timeoutSeconds | heartbeatSeconds | seconds =>
    obtain ⟨n, hn, hread⟩ := Property.readSeconds_of_map h
    simp [read, adopt, hread, hn, bind, Except.bind, pure, Except.pure]
  | retry =>
    obtain ⟨clauses, hclauses, rfl⟩ := Option.map_eq_some_iff.mp h
    simp [read, adopt, Property.readClauses_array RetryClause.ofJson_toJson, hclauses, bind,
      Except.bind, pure, Except.pure]
  | catches =>
    obtain ⟨clauses, hclauses, rfl⟩ := Option.map_eq_some_iff.mp h
    simp [read, adopt, Property.readClauses_array CatchClause.ofJson_toJson, hclauses, bind,
      Except.bind, pure, Except.pure]
  | choices =>
    obtain ⟨clauses, hclauses, rfl⟩ := Option.map_eq_some_iff.mp h
    simp [read, adopt, Property.readClauses_array ChoiceClause.ofJson_toJson, hclauses, bind,
      Except.bind, pure, Except.pure]
  | branches => exact absurd rfl hbranches
  | name | other => simp [fieldJson] at h

/-- The written fields of a state are read as they were, but for the branches. -/
theorem foldlM_written {source : State} (hfree : source.NullFree) (ps : List Property)
    (hps : ps ⊆ fieldOrder) (s : State) :
    (ps.filterMap fun p => (source.fieldNode p).map fun node => (p, node)).foldlM
        (fun s entry => if entry.2.isNull then .ok s else s.read entry.1 entry.2) s =
      Except.ok (ε := SyntaxError)
        (ps.foldl (fun s p => s.adopt p { source with branches := none }) s) := by
  induction ps generalizing s with
  | nil => rfl
  | cons p ps ih =>
    have hrest := ih fun q hq => hps (List.mem_cons_of_mem _ hq)
    have hsame : ({ source with branches := none } : State).fieldJson
        (source.branches.map fun branches => .array (branchesToJson branches)) p =
          source.fieldJson
            (source.branches.map fun branches => .array (branchesToJson branches)) p := by
      cases p <;> rfl
    cases hvalue : source.fieldJson
        (source.branches.map fun branches => .array (branchesToJson branches)) p with
    | none =>
      have hnode : source.fieldNode p = none := by rw [fieldNode, hvalue, Option.map_none]
      have hadopt : s.adopt p { source with branches := none } = s :=
        adopt_of_fieldJson (hps List.mem_cons_self) (fun _ => rfl) (hsame.trans hvalue)
      simp [hnode, hadopt, hrest]
    | some value =>
      have hnode : source.fieldNode p = some (.ofJson value) := by
        rw [fieldNode, hvalue, Option.map_some]
      have hnull : (Node.ofJson value).isNull = false := by
        refine Node.isNull_ofJson ?_
        rintro rfl
        exact hfree.fieldJson_ne_null (by simp) p hvalue
      -- the branches are not read here: they are left to be compiled
      have hread : s.read p (.ofJson value) = .ok (s.adopt p { source with branches := none }) := by
        by_cases hbranches : p = .branches
        · subst hbranches
          cases s
          rfl
        · exact read_fieldJson hbranches (hsame.trans hvalue) s
      simp [hnode, hnull, hread, hrest, bind, Except.bind]

theorem toState_written {s : State} (h : s.NullFree) (name : String) :
    (s.written name).toState = .ok { s with name := some name, branches := none } := by
  have hfields := foldlM_written h fieldOrder (List.Subset.refl _) { name := some name }
  rw [foldl_adopt_fieldOrder] at hfields
  exact hfields

end State

/-! ## Compiling what is written out -/

/-- The states whose written form is compiled to the state itself. -/
structure State.Expanded (s : State) : Prop where
  storable : s.Storable
  result : s.PlainResult
  resource : s.type = .task → s.resource.isSome

namespace Setting

variable (setting : Setting)

theorem outcome_branchList_toJson {branches : List Branch} (h : ∀ b ∈ branches, b.Storable)
    (memory : Memory) :
    (setting.branchList (Node.ofJsonItems (branchesToJson branches))).outcome memory =
      (.ok branches, memory) := by
  induction branches with
  | nil =>
    rw [branchesToJson, Node.ofJsonItems, branchList]
    rfl
  | cons b rest ih =>
    rw [branchesToJson, Node.ofJsonItems, branchList,
      Compile.outcome_bind_ok (outcome_branch_toJson (h b (by simp)) memory),
      Compile.outcome_bind_ok (ih fun other hother => h other (by simp [hother]))]
    rfl

theorem outcome_explicitState_written {s : State} (h : s.Expanded) (name : String)
    (memory : Memory) :
    (explicitState none
        ((s.written name).map fun entry => (entry.1.text, entry.2))).outcome memory =
      (.ok { s with name := some name, branches := none }, memory) := by
  obtain ⟨hproperties, hjournal⟩ := State.ofEntries_written h.result name
  simp only [explicitState, hjournal, hproperties]
  have hnotes : (([] : List Notice).reverse.forM Compile.note).outcome memory =
      (.ok (), memory) := rfl
  rw [Compile.outcome_bind_ok hnotes,
    Compile.outcome_bind_ok (State.outcome_withDefaults_written h.resource name memory),
    Compile.outcome_ofExcept_ok (State.toState_written h.storable.nullFree name)]

/-- A state that is written out is compiled to itself, under its name. -/
theorem outcome_state_written {s : State} (h : s.Expanded) (name : String) (memory : Memory) :
    (setting.state false (writtenState name s)).outcome memory =
      (.ok { s with name := some name }, memory) := by
  rw [writtenState_eq, state, mappingState,
    Compile.outcome_bind_ok (outcome_explicitState_written h name memory)]
  have hbranches : (Properties.ofEntries
      ((s.written name).map fun entry => (entry.1.text, entry.2))).get? .branches =
        s.fieldNode .branches := by
    rw [(State.ofEntries_written h.result name).1, State.get?_written (by decide)]
  split
  · rename_i hnone
    have habsent : s.branches = none := by
      simpa [State.fieldNode, State.fieldJson] using hbranches.symm.trans hnone
    obtain ⟨_, _, _, _, _, _, _, _, _, _, _, _, _, branches, _⟩ := s
    cases habsent
    rfl
  · rename_i node hnode
    obtain ⟨branches, hpresent, rfl⟩ : ∃ branches, s.branches = some branches ∧
        node = .sequence (Node.ofJsonItems (branchesToJson branches)) := by
      obtain ⟨value, hvalue, rfl⟩ := Option.map_eq_some_iff.mp (hbranches.symm.trans hnode)
      obtain ⟨branches, hpresent, rfl⟩ := Option.map_eq_some_iff.mp hvalue
      exact ⟨branches, hpresent, rfl⟩
    rw [if_neg (by simp [Node.isNull])]
    have hcompiled := setting.outcome_branchList_toJson (h.storable.branches hpresent) memory
    rw [Node.arguments, Compile.outcome_bind_ok hcompiled, Compile.outcome_pure, ← hpresent]

theorem outcome_namedItem_written {s : State} (h : s.Expanded) (name : String) (memory : Memory) :
    (setting.namedItem (writtenState name s)).outcome memory =
      (.ok (name, { s with name := some name }), memory) := by
  rw [namedItem, show setting.compileItem (writtenState name s) =
    setting.state false (writtenState name s) from rfl,
    Compile.outcome_bind_ok (setting.outcome_state_written h name memory)]
  rfl

/-- States that are written out are compiled to themselves, and nothing is remembered. -/
theorem compileItems_written {states : List (String × State)}
    (h : ∀ entry ∈ states, entry.2.Expanded) {taken : List String}
    (hnames : (taken ++ states.map Prod.fst).Nodup) (memory : Memory) :
    setting.compileItems taken (states.map fun (name, s) => writtenState name s) memory =
      (.ok (states.map fun (name, s) => (name, { s with name := some name })), memory) := by
  induction states generalizing taken with
  | nil => rfl
  | cons entry rest ih =>
    obtain ⟨name, s⟩ := entry
    have hfree : name ∉ taken := fun hmem =>
      (List.nodup_append.mp hnames).2.2 name hmem name (by simp) rfl
    have hnames : (taken ++ [name] ++ rest.map Prod.fst).Nodup := by simpa using hnames
    have hrest := ih (fun other hother => h other (by simp [hother])) hnames
    rw [List.map_cons, compileItems, setting.outcome_namedItem_written (h (name, s) (by simp))]
    simp [hfree, hrest]

end Setting

/-! ## Linking what is linked -/

theorem State.settled_settle (s : State) (following : Option String) :
    ((s.settle following).type.isTerminal || (s.settle following).next.isSome ||
      (s.settle following).finish.isSome) = true := by
  unfold settle
  split
  · assumption
  · split <;> simp

/-- A state whose transition is settled keeps it, whatever its name is. -/
theorem State.settle_settle (s : State) (name following other : Option String) :
    ({ s.settle following with name := name } : State).settle other =
      { s.settle following with name := name } := by
  have hsettled := s.settled_settle following
  generalize s.settle following = t at hsettled
  exact if_pos hsettled

/-- Linking a linked branch changes nothing. -/
theorem Branch.ofItems_ofItems (items : List (String × State)) :
    Branch.ofItems ((Branch.ofItems items).states.map fun (name, s) =>
      (name, { s with name := some name })) = Branch.ofItems items := by
  have hstates : ∀ items : List (String × State),
      Branch.settleAll ((Branch.settleAll items).map fun (name, s) =>
        (name, { s with name := some name })) = Branch.settleAll items := by
    intro items
    induction items with
    | nil => rfl
    | cons item rest ih =>
      obtain ⟨name, s⟩ := item
      simp only [Branch.settleAll, List.map_cons, ih, List.cons.injEq, Prod.mk.injEq, true_and,
        and_true]
      rw [State.settle_settle]
  have hhead : (((Branch.settleAll items).map fun (name, s) =>
      (name, ({ s with name := some name } : State))).head?.map Prod.fst) =
        items.head?.map Prod.fst := by
    cases items <;> rfl
  rw [Branch.ofItems, Branch.ofItems, hstates, hhead]

/-! ## The fixed point -/

namespace Setting

/-- A branch that is compiled from items, all tasks of which have a resource, is what its written
form is compiled to, by any compiler and from any memory. Nothing is remembered but the notice that
a branch was assembled. -/
theorem outcome_branch_written {setting : Setting} (hreaders : setting.readers.BuiltIn)
    {node : Node} (hnode : node.isMachine = false) {memory after : Memory} {b : Branch}
    (h : (setting.branch node).outcome memory = (.ok b, after))
    (hresource : ∀ entry ∈ b.states, entry.2.type = .task → entry.2.resource.isSome)
    (other : Setting) (later : Memory) :
    (other.branch b.written).outcome later =
      (.ok b, { later with
        journal := .branchAssembled b.states.length b.startAt :: later.journal }) := by
  have hinvariant : setting.Invariant _ _ (State.Compiled True) Branch.Storable :=
    invariant_compiled fun tag compile hreader => by cases hreaders.reader hreader
  obtain ⟨items, hempty, hnodup, hitems, rfl⟩ := exists_items hnode
    (fun item _ => hinvariant.itemState item fun _ _ => trivial) h
  have hexpanded : ∀ entry ∈ (Branch.ofItems items).states, entry.2.Expanded := by
    intro entry hentry
    obtain ⟨s, following, hitem, -, hsettled⟩ := Branch.mem_settleAll hentry
    have hs := hitems _ hitem
    refine ⟨?_, ?_, hresource entry hentry⟩
    · rw [hsettled]
      exact (hs.storable.settle following).congr rfl rfl rfl
    · rw [hsettled, State.settle_eq]
      exact hs.result trivial
  have hnames : ([] ++ (Branch.ofItems items).states.map Prod.fst).Nodup := by
    have hkeys : (Branch.ofItems items).states.map Prod.fst = items.map Prod.fst :=
      Branch.keys_settleAll items
    rw [List.nil_append, hkeys]
    exact hnodup
  rw [outcome_branch _ rfl, branchInPhases, if_neg ?_]
  · rw [Branch.written, Node.arguments, other.compileItems_written hexpanded hnames]
    simp only [Branch.ofItems_ofItems]
  · have hlength : (Branch.ofItems items).states.length ≠ 0 := by
      simpa [Branch.ofItems, Branch.length_settleAll] using hempty
    simpa [Branch.written, Node.arguments] using hlength

/-- Two tasks and two branches side by side, written out in full. -/
theorem outcome_branch_written_parallel :
    ∃ b after, (({} : Setting).branch (.sequence [.string "arn:fetch",
        .sequence [.string "arn:left", .string "arn:right"]])).outcome {} = (.ok b, after) ∧
      (({} : Setting).branch b.written).outcome {} =
        (.ok b, { journal := [.branchAssembled b.states.length b.startAt] }) := by
  have hok : ((({} : Setting).branch (.sequence [.string "arn:fetch",
      .sequence [.string "arn:left", .string "arn:right"]])).outcome {}).1.toOption.any
        (fun b => b.states.all fun entry => entry.2.type ≠ .task || entry.2.resource.isSome) =
          true := by
    simp only [branch, sequence, itemState, state, branchList, Node.arguments]
    decide +kernel
  obtain ⟨b, after, hrun, hresource⟩ := Compile.exists_of_any hok
  refine ⟨b, after, hrun, ?_⟩
  refine outcome_branch_written ReaderTable.standard_builtIn rfl hrun ?_ {} {}
  intro entry hentry htask
  have hentry := List.all_eq_true.mp hresource entry hentry
  simpa [htask] using hentry

end Setting

end Flowscript
