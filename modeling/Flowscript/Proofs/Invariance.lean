import Flowscript.Proofs.Fields
import Flowscript.Proofs.Properties
import Flowscript.Proofs.Sequencing
import Flowscript.Proofs.Subnodes

/-!
# Invariants of compiled states and branches

A property of states and one of branches that the parts of the compiler keep, each on its own, hold
for everything that is compiled. The compiler is opened here once, along its recursion; a later
proof says what single states and the branch of finished items are like and no more.
-/

namespace Flowscript

open Node (All)

/-- Whether a reader belongs to the notation itself. -/
def Reader.isBuiltIn : Reader → Bool
  | .custom _ => false
  | _ => true

/-- Tags have meanings of the notation only. -/
def ReaderTable.BuiltIn (readers : ReaderTable) : Prop :=
  ∀ entry ∈ readers, entry.2.isBuiltIn = true

theorem ReaderTable.BuiltIn.reader {readers : ReaderTable} (h : readers.BuiltIn) {tag : String}
    {reader : Reader} (hreader : readers.get? tag = some reader) : reader.isBuiltIn = true :=
  h (tag, reader) (Entries.mem_of_get? hreader)

theorem ReaderTable.standard_builtIn : ReaderTable.standard.BuiltIn := by
  simp [ReaderTable.BuiltIn, ReaderTable.standard, Reader.isBuiltIn]

/-- The entries for which the payload of a tag for a type stands: its own, a name, or none. -/
def Node.description? : Node → Option (Entries String Node)
  | .null => some []
  | .string name => some [("Name", .string name)]
  | .mapping entries => some entries
  | _ => none

/-- The entries that are compiled to a state, with the type that is forced on them: those of a
mapping, or those for which the payload of a tag for a type stands. -/
inductive Written (P : Node → Prop) (R : Reader → Node → Prop) :
    Option StateType → Entries String Node → Prop
  | mapping {entries : Entries String Node} : All P (.mapping entries) → Written P R none entries
  | payload {type : StateType} {payload : Node} {entries : Entries String Node} :
    R (.terminal type) payload → All P payload → payload.description? = some entries →
    Written P R (some type) entries

section Written

variable {P : Node → Prop} {R : Reader → Node → Prop} {forced : Option StateType}
  {entries : Entries String Node}

/-- A mapping has the property if it is one of the document, and else if that of a mere name and
the empty one have it. -/
theorem Written.self (h : Written P R forced entries) (hbare : P (.mapping []))
    (hnamed : ∀ name, P (.mapping [("Name", .string name)])) : P (.mapping entries) := by
  cases h with
  | mapping hn => exact hn.self
  | @payload type payload entries _ hn hentries =>
    cases payload <;> cases hentries
    · exact hbare
    · exact hnamed _
    · exact hn.self

/-- A value that is written is a node of the document. -/
theorem Written.value (h : Written P R forced entries) {key : String} {value : Node}
    (hvalue : (key, value) ∈ entries) : All P value := by
  cases h with
  | mapping hn => exact hn.value hvalue
  | @payload type payload entries _ hn hentries =>
    cases payload <;> cases hentries
    · cases hvalue
    · cases List.mem_singleton.mp hvalue
      exact hn
    · exact hn.value hvalue

/-- A mapping may stand as it is, or behind a tag for a type. -/
theorem Written.of_all
    (hforced : ∀ type, forced = some type → R (.terminal type) (.mapping entries))
    (hn : All P (.mapping entries)) : Written P R forced entries := by
  cases forced with
  | none => exact .mapping hn
  | some type => exact .payload (hforced type rfl) hn rfl

end Written

/-- A state that a mapping describes has the property `S` once it has the branches of the mapping,
one for each item, if these have the property `B`. -/
def State.Filled (S : State → Prop) (B : Branch → Prop) (entries : Entries String Node)
    (s : State) : Prop :=
  match (Properties.ofEntries entries).branches? with
  | none => S s
  | some node => ∀ branches : List Branch, branches.length = node.arguments.length →
    (∀ b ∈ branches, B b) → S { s with branches := some branches }

/-- Branches that may always be added may be those of a mapping. -/
theorem State.Filled.of_kept {S : State → Prop} {B : Branch → Prop} {s : State} (hs : S s)
    (hkept : ∀ branches, (∀ b ∈ branches, B b) → S { s with branches := some branches })
    (entries : Entries String Node) : s.Filled S B entries := by
  unfold Filled
  split
  · exact hs
  · exact fun branches _ hb => hkept branches hb

/-- The branch is compiled from a node whose subnodes all have the property `P`. -/
def Setting.CompilesFrom (setting : Setting) (P : Node → Prop) (b : Branch) : Prop :=
  ∃ node, All P node ∧ ∃ memory after, (setting.branch node).outcome memory = (.ok b, after)

/-- A property `S` of states and `B` of branches that a compiler keeps on nodes whose subnodes all
have the property `P`. Among them only tags of readers occur that have the property `R` with what
stands behind the tag. -/
structure Setting.Invariant (setting : Setting) (P : Node → Prop) (R : Reader → Node → Prop)
    (S : State → Prop) (B : Branch → Prop) : Prop where
  null : P .null
  reader : ∀ {tag payload reader}, P (.tagged tag payload) →
    setting.readers.get? tag = some reader → R reader payload
  shorthand : ∀ fresh {node}, All P node → (setting.shorthand fresh node).Yields S
  explicit : ∀ {forced entries}, Written P R forced entries →
    (explicitState forced entries).Yields (State.Filled S B entries)
  choice : ∀ payload, R .choice payload → (choiceState payload).Yields S
  parameters : ∀ payload, (parametersState payload).Yields S
  custom : ∀ {compile} payload, R (.custom compile) payload → (compile payload).Yields S
  parallel : ∀ name {branches}, branches ≠ [] → (∀ b ∈ branches, B b) →
    S { State.named name .parallel with branches := some branches }
  guard : ∀ {payload}, R .guard payload → ∀ {s}, S s → ∀ clauses,
    S { s with catches := some clauses }
  retry : ∀ {s}, S s → ∀ clauses, S { s with retry := some clauses }
  next : ∀ {payload}, R .next payload → ∀ {s}, S s → ∀ target, S (s.forceNext target)
  finish : ∀ {s}, S s → S s.forceEnd
  machine : ∀ {node b}, All P node → node.isMachine = true →
    readMachine .invalidBranch node = .ok b → B b
  sequenced : ∀ {items : List (String × State)}, items ≠ [] → (items.map Prod.fst).Nodup →
    (∀ entry ∈ items, S entry.2) → setting.CompilesFrom P (Branch.ofItems items) →
    B (Branch.ofItems items)

namespace Setting

variable {setting : Setting} {P : Node → Prop} {R : Reader → Node → Prop} {S : State → Prop}
  {B : Branch → Prop}

theorem Invariant.parallelState (h : setting.Invariant P R S B) {branches : List Branch}
    (hb : ∀ b ∈ branches, B b) : (parallelState branches).Yields S := by
  unfold Flowscript.parallelState
  split
  · exact .refuse _
  · rename_i hempty
    exact .after fun name => .pure (h.parallel name (by simpa using hempty) hb)

/-- A state of a mapping without branches to compile has the property as it is. -/
theorem Invariant.yields_explicit (h : setting.Invariant P R S B) {forced : Option StateType}
    {entries : Entries String Node} (hwritten : Written P R forced entries)
    (hbranches : (Properties.ofEntries entries).branches? = none) :
    (explicitState forced entries).Yields S := by
  refine (h.explicit hwritten).mono fun s hs => ?_
  rw [State.Filled, hbranches] at hs
  exact hs

/-- A name alone gives no branches. -/
theorem branches?_named (name : String) :
    (Properties.ofEntries [("Name", .string name)]).branches? = none := by
  have habsent : (Properties.ofEntries [("Name", .string name)]).get? .branches = none := by
    rw [Option.eq_none_iff_forall_ne_some]
    intro node hnode
    rcases Properties.mem_ofEntries (Entries.mem_of_get? hnode) with h | h | ⟨key, hkey, hmeans⟩
    · cases h
    · cases h
    · cases List.mem_singleton.mp hkey
      have hname : Property.ofKey? "Name" = some .name :=
        Property.ofKey?_text (p := .name) (by decide)
      rw [hname] at hmeans
      cases hmeans
  rw [Properties.branches?, habsent]
  rfl

/-- As many branches are compiled as there are items. -/
theorem length_branchList (setting : Setting) (items : List Node) :
    (setting.branchList items).Yields fun branches => branches.length = items.length := by
  induction items with
  | nil =>
    rw [Setting.branchList]
    exact .pure rfl
  | cons item rest ih =>
    rw [Setting.branchList]
    refine .after fun first => ih.bind fun others hothers => .pure ?_
    rw [List.length_cons, List.length_cons, hothers]

/-- The items of a branch that is not written out in full, before they are linked. -/
theorem exists_items {node : Node} (hmachine : node.isMachine = false)
    (hitems : ∀ item ∈ node.arguments, (setting.itemState item).Yields S) {memory after : Memory}
    {b : Branch} (hb : (setting.branch node).outcome memory = (.ok b, after)) :
    ∃ items : List (String × State), items ≠ [] ∧ (items.map Prod.fst).Nodup ∧
      (∀ entry ∈ items, S entry.2) ∧ b = Branch.ofItems items := by
  obtain ⟨items, last, hcompiled, hempty, rfl⟩ := setting.items_of_branch hmachine hb
  obtain ⟨-, hnodup, -⟩ := setting.names_compileItems hcompiled
  refine ⟨items, hempty, hnodup, fun entry hentry => ?_, rfl⟩
  obtain ⟨item, hitem, before, between, hnamed⟩ := setting.mem_compileItems hcompiled hentry
  have hyields : (setting.namedItem item).Yields fun entry => S entry.2 := by
    rw [namedItem, ← itemState_eq]
    refine (hitems item hitem).bind fun s hs => ?_
    split
    · exact .pure hs
    · exact .after fun _ => .pure hs
  exact hyields before entry between hnamed

/-- A branch has the property if the states of all its items have theirs. -/
theorem yields_branch_of_items (h : setting.Invariant P R S B) {node : Node} (hn : All P node)
    (hitems : ∀ item ∈ node.arguments, (setting.itemState item).Yields S) :
    (setting.branch node).Yields B := by
  intro memory b after hb
  by_cases hmachine : node.isMachine = true
  · rw [branch, if_pos hmachine] at hb
    exact Compile.Yields.ofExcept (fun _ hread => h.machine hn hmachine hread) memory b after hb
  · obtain ⟨items, hempty, hnodup, hstates, rfl⟩ := exists_items (by simpa using hmachine) hitems hb
    exact h.sequenced hempty hnodup hstates ⟨node, hn, memory, after, hb⟩

mutual

theorem Invariant.state (h : setting.Invariant P R S B) (fresh : Bool) (node : Node)
    (hn : All P node) : (setting.state fresh node).Yields S := by
  rw [Setting.state.eq_def]
  cases node with
  | tagged tag payload =>
    dsimp only
    split
    · exact .refuse _
    · rename_i reader hreader
      exact .after fun _ => h.read reader payload (h.reader hn.self hreader) hn.payload
  | string text => exact h.shorthand fresh hn
  | sequence items => exact h.shorthand fresh hn
  | mapping entries => exact h.mappingState (.mapping hn)
  | null => exact .refuse _
  | bool b => exact .refuse _
  | number n => exact .refuse _
termination_by (node.height, 0, 0)
decreasing_by all_goals grind [Node.height]

theorem Invariant.mappingState (h : setting.Invariant P R S B) {forced : Option StateType}
    {entries : Entries String Node} (hwritten : Written P R forced entries) :
    (setting.mappingState forced entries).Yields S := by
  rw [Setting.mappingState]
  refine (h.explicit hwritten).bind fun s hs => ?_
  unfold State.Filled Properties.branches? at hs
  split
  · rename_i hnone
    rw [hnone] at hs
    exact .pure hs
  · rename_i node hfound
    rw [hfound] at hs
    -- the branches are the value of some entry, so they stand lower than the mapping
    obtain ⟨key, hkey⟩ := Properties.exists_mem_of_get? hfound
    have hlow := Node.height_le_entriesHeight hkey
    have harguments := Node.itemsHeight_arguments_le node
    split
    · rename_i hnull
      simp only [Option.filter, hnull, Bool.not_true, Bool.false_eq_true, if_false] at hs
      exact .pure hs
    · rename_i hnull
      simp only [Option.filter, hnull, Bool.not_false, if_true] at hs
      have hbranches : (setting.branchList node.arguments).Yields fun branches =>
          ∀ b ∈ branches, B b :=
        h.branchList node.arguments fun item hitem => (hwritten.value hkey).of_mem_arguments hitem
      refine (hbranches.and (setting.length_branchList _)).bind fun branches hb => ?_
      exact .pure (hs branches hb.2 hb.1)
termination_by (Node.entriesHeight entries, 5, 0)
decreasing_by grind

theorem Invariant.branchList (h : setting.Invariant P R S B) (items : List Node)
    (hn : ∀ item ∈ items, All P item) :
    (setting.branchList items).Yields fun branches => ∀ b ∈ branches, B b := by
  rw [Setting.branchList.eq_def]
  cases items with
  | nil => exact .pure (by simp)
  | cons item rest =>
    refine (h.branch item (hn item (by simp))).bind fun first hfirst => ?_
    refine (h.branchList rest fun other hother => hn other (by simp [hother])).bind
      fun others hothers => ?_
    refine .pure fun b hb => ?_
    rcases List.mem_cons.mp hb with rfl | hb
    · exact hfirst
    · exact hothers b hb
termination_by (Node.itemsHeight items, 4, items.length)
decreasing_by all_goals grind [Node.itemsHeight]

theorem Invariant.branch (h : setting.Invariant P R S B) (node : Node) (hn : All P node) :
    (setting.branch node).Yields B := by
  refine yields_branch_of_items h hn fun item hitem => ?_
  have hlow := Node.height_le_itemsHeight hitem
  have harguments := Node.itemsHeight_arguments_le node
  exact h.itemState item (hn.of_mem_arguments hitem)
termination_by (node.height, 3, 0)
decreasing_by grind

theorem Invariant.itemState (h : setting.Invariant P R S B) (node : Node) (hn : All P node) :
    (setting.itemState node).Yields S := by
  cases node with
  | sequence members =>
    rw [Setting.itemState]
    exact (h.branchList members fun item hitem => hn.item hitem).bind
      fun _ hb => h.parallelState hb
  | _ =>
    rw [Setting.itemState]
    · exact h.state false _ hn
    · simp
termination_by (node.height, 1, 0)
decreasing_by all_goals grind [Node.height]

theorem Invariant.typedState (h : setting.Invariant P R S B) {type : StateType}
    (node : Node) (hr : R (.terminal type) node) (hn : All P node) :
    (setting.typedState type node).Yields S := by
  cases node with
  | null =>
    rw [Setting.typedState]
    exact h.yields_explicit (.payload hr hn rfl) rfl
  | string name =>
    rw [Setting.typedState]
    exact h.yields_explicit (.payload hr hn rfl) (branches?_named name)
  | mapping entries =>
    rw [Setting.typedState]
    exact h.mappingState (.payload hr hn rfl)
  | _ =>
    rw [Setting.typedState] <;> first | exact .refuse _ | simp
termination_by (node.height, 0, 0)
decreasing_by all_goals grind [Node.height]

theorem Invariant.read (h : setting.Invariant P R S B) (reader : Reader)
    (payload : Node) (hr : R reader payload) (hn : All P payload) :
    (setting.read reader payload).Yields S := by
  have hargument := hn.argument h.null 0
  have hlow := Node.height_argument_le 0 payload
  have harguments := Node.itemsHeight_arguments_le payload
  rw [Setting.read.eq_def]
  cases reader with
  | terminal type => exact h.typedState payload hr hn
  | state => exact h.state false payload hn
  | dupe => exact h.state true payload hn
  | parallel =>
    exact (h.branchList payload.arguments fun item hitem => hn.of_mem_arguments hitem).bind
      fun _ hb => h.parallelState hb
  | choice => exact h.choice payload hr
  | guard =>
    refine .after fun _ => .after fun _ => (h.state false _ hargument).bind fun s hs => ?_
    exact .after fun _ => .pure (h.guard hr hs _)
  | retry =>
    refine .after fun _ => (h.state false _ hargument).bind fun s hs => ?_
    exact .pure (h.retry hs _)
  | next =>
    refine .after fun _ => .after fun _ => (h.state false _ hargument).bind fun s hs => ?_
    exact .pure (h.next hr hs _)
  | finish => exact (h.state false payload hn).bind fun s hs => .pure (h.finish hs)
  | parameters => exact h.parameters payload
  | custom compile => exact h.custom payload hr
termination_by (payload.height, 6, 0)
decreasing_by all_goals grind [Node.height]

end

theorem Invariant.yields_parallel (h : setting.Invariant P R S B) (node : Node) (hn : All P node) :
    (setting.parallel node).Yields S :=
  (h.branchList node.arguments fun _ hitem => hn.of_mem_arguments hitem).bind
    fun _ hb => h.parallelState hb

end Setting
end Flowscript
