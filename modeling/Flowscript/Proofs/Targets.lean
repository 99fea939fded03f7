import Flowscript.Proofs.Runs
import Flowscript.Proofs.SingleStates

/-!
# Targets and the states that they mean

A choice and a guard name other states for targets that are written as references, before or behind
the items that those states are compiled from. The target and the item are named apart: a target
for what is written, a task for what the reference stands for, and a state that is written out by
the very text of its name. Here both are told as the last segment of the reference, from every
memory that a compiler comes to.
-/

namespace Flowscript

open Compile (Ensures Keeps lastSegment)

/-! ## Where targets stand -/

/-- A place in a state where another state is named. -/
inductive TargetPlace where
  | consequent | alternate | failure
deriving DecidableEq

/-- A state goes on with the state of the given name by way of a place. -/
def State.Targets (s : State) (name : String) : TargetPlace → Prop
  | .consequent => ∃ rules, s.choices = some rules ∧ rules ≠ [] ∧ ∀ rule ∈ rules, rule.next = name
  | .alternate => s.default = some name
  | .failure => ∃ clause, s.catches = some [clause] ∧ clause.next = name

/-- The node from whose state a reader starts. -/
def Reader.inner? (payload : Node) : Reader → Option Node
  | .state | .dupe | .finish => some payload
  | .guard | .retry | .next => some (payload.argument 0)
  | _ => none

/-- A reference is written as the target of a place in the state of a node: by a choice or a guard,
or by a node inside from whose state the node's own state is made. -/
inductive Setting.Writes (setting : Setting) (reference : String) : TargetPlace → Node → Prop
  | consequent {tag : String} {payload : Node} :
    setting.readers.get? tag = some .choice → payload.argument 1 = .string reference →
      Writes setting reference .consequent (.tagged tag payload)
  | alternate {tag : String} {payload : Node} :
    setting.readers.get? tag = some .choice → payload.argument 2 = .string reference →
      Writes setting reference .alternate (.tagged tag payload)
  | failure {tag : String} {payload : Node} :
    setting.readers.get? tag = some .guard → payload.argument 1 = .string reference →
      Writes setting reference .failure (.tagged tag payload)
  | inner {place : TargetPlace} {tag : String} {payload node : Node} {reader : Reader} :
    setting.readers.get? tag = some reader → reader.inner? payload = some node →
      (reader = .guard → place ≠ .failure) → Writes setting reference place node →
      Writes setting reference place (.tagged tag payload)

/-! ## Choices -/

theorem next_of_comparison {operator path next : String} {value : Json} {rules : List ChoiceClause}
    {notices : List Notice} (h : comparison operator path value next = .ok (rules, notices)) :
    rules ≠ [] ∧ ∀ rule ∈ rules, rule.next = next := by
  unfold comparison at h
  split at h
  · cases h
  · cases h
    simp
  · split at h
    · cases h
    · cases h
      -- every value can be read as text
      have htext : ValueType.string ∈ value.readings := by
        simp [Json.readings, Json.readsAs, ValueType.all]
      simp [List.ne_nil_of_mem htext]

/-- A choice names its targets by their last segments. -/
theorem choiceState_targets (payload : Node) :
    (choiceState payload).Ensures Memory.Coherent fun s =>
      (∀ reference, payload.argument 1 = .string reference →
        s.Targets (lastSegment reference) .consequent) ∧
      ∀ reference, payload.argument 2 = .string reference →
        s.Targets (lastSegment reference) .alternate := by
  have hI := Memory.lasting_coherent
  refine (Compile.keeps_check _ _).bind fun _ => (Compile.keeps_check _ _).bind fun _ => ?_
  refine (Compile.ensures_text _ _).bind fun path _ => ?_
  refine (Compile.ensures_text _ _).bind fun operator _ => ?_
  refine (Compile.ensures_text _ _).bind fun consequent hconsequent => ?_
  refine (Compile.ensures_shortName _).bind fun next hnext => ?_
  refine Keeps.bind (.ofExcept fun _ _ => trivial) fun value => ?_
  refine Ensures.bind (P := (comparison operator path value next = .ok ·))
    (.ofExcept fun _ h => h) fun (rules, notices) hcompared => ?_
  obtain ⟨hrules, hnexts⟩ := next_of_comparison hcompared
  refine (hI.forM_note (allocates_comparison hcompared)).bind fun _ => ?_
  refine (hI.generateName _).bind fun name => ?_
  have htargets (default : Option String) (reference : String)
      (hreference : payload.argument 1 = .string reference) :
      ({ State.named name .choice with choices := some rules, default } : State).Targets
        (lastSegment reference) .consequent := by
    rw [hconsequent] at hreference
    cases hreference
    exact ⟨rules, rfl, hrules, fun rule hrule => (hnexts rule hrule).trans hnext⟩
  split
  · rename_i hnull
    refine Keeps.bind (.pure trivial) fun alternate => .pure ⟨htargets alternate, ?_⟩
    intro reference hreference
    rw [hnull] at hreference
    cases hreference
  · refine (Compile.ensures_text _ _).bind fun alternate halternate => ?_
    refine (Compile.ensures_shortName _).bind fun default hdefault => ?_
    refine Ensures.bind (P := (· = some default)) (.pure rfl) ?_
    rintro alternate rfl
    refine .pure ⟨htargets (some default), ?_⟩
    intro reference hreference
    rw [halternate] at hreference
    cases hreference
    exact congrArg some hdefault

/-! ## Targets of compiled states -/

section Writing

variable {setting : Setting} {reference : String}

/-- A target is named by the last segment of its reference, wherever it is written. -/
theorem Setting.Writes.targets (hreaders : setting.readers.Keep Memory.Coherent)
    {place : TargetPlace} {node : Node} (h : setting.Writes reference place node) (fresh : Bool) :
    (setting.state fresh node).Ensures Memory.Coherent
      (·.Targets (lastSegment reference) place) := by
  have hI := Memory.lasting_coherent
  induction h generalizing fresh with
  | consequent hreader hwritten =>
    rw [state, hreader]
    refine (hI.note rfl).bind fun _ => ?_
    rw [read]
    exact (choiceState_targets _).mono fun s hs => hs.1 reference hwritten
  | alternate hreader hwritten =>
    rw [state, hreader]
    refine (hI.note rfl).bind fun _ => ?_
    rw [read]
    exact (choiceState_targets _).mono fun s hs => hs.2 reference hwritten
  | failure hreader hwritten =>
    rw [state, hreader]
    refine (hI.note rfl).bind fun _ => ?_
    rw [read]
    refine (Compile.keeps_check _ _).bind fun _ => ?_
    refine (Compile.ensures_text _ _).bind fun target htarget => ?_
    refine (Setting.keeps_state hI hreaders false _).bind fun s => ?_
    refine (Compile.ensures_shortName _).bind fun name hname => .pure ?_
    rw [htarget] at hwritten
    cases hwritten
    exact ⟨_, rfl, hname⟩
  | @inner place tag payload node reader hreader hinner hguard _ ih =>
    rw [state, hreader]
    refine (hI.note rfl).bind fun _ => ?_
    rw [read.eq_def]
    cases reader with
    | state =>
      cases hinner
      exact ih false
    | dupe =>
      cases hinner
      exact ih true
    | guard =>
      cases hinner
      refine (Compile.keeps_check _ _).bind fun _ => ?_
      refine (Compile.ensures_text _ _).bind fun target _ => ?_
      refine (ih false).bind fun s hs => (hI.shortName _ _).bind fun name => .pure ?_
      cases place with
      | failure => exact absurd rfl (hguard rfl)
      | _ => exact hs
    | retry =>
      cases hinner
      refine (Compile.keeps_retry _).bind fun clause => (ih false).bind fun s hs => .pure ?_
      cases place <;> exact hs
    | next =>
      cases hinner
      refine (Compile.keeps_check _ _).bind fun _ => ?_
      refine (Compile.ensures_text _ _).bind fun target _ => (ih false).bind fun s hs => .pure ?_
      cases place <;> exact hs
    | finish =>
      cases hinner
      refine (ih false).bind fun s hs => .pure ?_
      cases place <;> exact hs
    | _ => cases hinner

theorem Setting.Writes.item (hreaders : setting.readers.Keep Memory.Coherent)
    {place : TargetPlace} {node : Node} (h : setting.Writes reference place node) :
    (setting.compileItem node).Ensures Memory.Coherent
      (·.Targets (lastSegment reference) place) := by
  have htargets := h.targets hreaders false
  cases h <;> exact htargets

end Writing

/-! ## Items that a reference names -/

/-- An item that is written for the target of a reference. A reference that stands for another text
has the same last segment, and one that is the very name of a state has no colon. -/
inductive Setting.Names (setting : Setting) (reference : String) : Node → Prop
  | plain :
    setting.resolver reference = .ok none → Names setting reference (.string reference)
  | answered {answer : String} :
    setting.resolver reference = .ok (some (.string answer)) →
      lastSegment answer = lastSegment reference → Names setting reference (.string reference)
  | terminal {tag : String} {type : StateType} :
    setting.readers.get? tag = some (.terminal type) → ':' ∉ reference.toList →
      Names setting reference (.tagged tag (.string reference))
  | mapping {entries : Entries String Node} :
    (Properties.ofEntries entries).get? .name = some (.string reference) →
      ':' ∉ reference.toList → Names setting reference (.mapping entries)

section Naming

variable {setting : Setting} {reference : String}

theorem Setting.resolve_answered {value : Json}
    (h : setting.resolver reference = .ok (some value)) :
    (setting.resolve reference).Yields (· = .ofJson value) := by
  rw [resolve, h]
  exact .after fun _ => .pure rfl

/-- A task has the last segment of its resource for a name. -/
theorem taskState_name (resource : String) :
    (taskState false { resource := .string resource }).Ensures Memory.Coherent
      (·.name = some (lastSegment resource)) :=
  (Compile.ensures_shortName resource).bind fun _ hname => .pure (congrArg some hname)

theorem Setting.Names.name (hreaders : setting.readers.Keep Memory.Coherent) {node : Node}
    (h : setting.Names reference node) :
    (setting.state false node).Ensures Memory.Coherent
      (·.name = some (lastSegment reference)) := by
  have hI := Memory.lasting_coherent
  cases h with
  | plain hresolver =>
    rw [state, shorthand, resolve, hresolver]
    exact taskState_name reference
  | @answered answer hresolver hsegment =>
    rw [state, shorthand, ← hsegment]
    refine ((hI.resolve setting reference).ensures (resolve_answered hresolver)).bind ?_
    rintro resolved rfl
    exact taskState_name answer
  | terminal hreader hcolon =>
    rw [state, hreader]
    refine (hI.note rfl).bind fun _ => ?_
    rw [read, typedState, Compile.lastSegment_eq hcolon]
    exact (hI.explicitState _ _).ensures (explicitState_name (Properties.ofEntries_name reference) _)
  | mapping hname hcolon =>
    rw [state, Compile.lastSegment_eq hcolon]
    exact (keeps_mappingState hI hreaders none _).ensures (setting.mappingState_name hname none)

theorem Setting.Names.item (hreaders : setting.readers.Keep Memory.Coherent) {node : Node}
    (h : setting.Names reference node) :
    (setting.compileItem node).Ensures Memory.Coherent
      (·.name = some (lastSegment reference)) := by
  have hname := h.name hreaders
  cases h <;> exact hname

end Naming

/-! ## Items of a branch -/

namespace Setting

variable {setting : Setting} {I : Memory → Prop}

theorem ensures_namedItem (hI : Memory.Lasting I) {item : Node} {P : State → Prop}
    (h : (setting.compileItem item).Ensures I P) :
    (setting.namedItem item).Ensures I fun entry =>
      P entry.2 ∧ ∀ name, entry.2.name = some name → entry.1 = name := by
  refine h.bind fun s hs => ?_
  split
  · rename_i name hname
    refine .pure ⟨hs, fun other hother => ?_⟩
    rw [hname] at hother
    exact Option.some.inj hother
  · rename_i hname
    refine (hI.generateName _).bind fun name => .pure ⟨hs, fun other hother => ?_⟩
    rw [hname] at hother
    cases hother

/-- What an item ensures holds of the compiled item at its place. -/
theorem getElem?_compileItems {taken : List String} {nodes : List Node} {memory after : Memory}
    {items : List (String × State)} (hmemory : I memory)
    (hkeeps : ∀ node ∈ nodes, (setting.namedItem node).Keeps I)
    (h : setting.compileItems taken nodes memory = (.ok items, after)) {i : Nat} {node : Node}
    (hnode : nodes[i]? = some node) {P : String × State → Prop}
    (hP : (setting.namedItem node).Ensures I P) : ∃ entry, items[i]? = some entry ∧ P entry := by
  induction nodes generalizing taken memory items i with
  | nil => simp at hnode
  | cons first rest ih =>
    have hbetween := (hkeeps first List.mem_cons_self memory hmemory).1
    rw [compileItems] at h
    split at h
    · cases h
    · rename_i name s between hfirst
      rw [hfirst] at hbetween
      split at h
      · cases h
      · split at h
        · cases h
        · rename_i others last hrest
          cases h
          cases i with
          | zero =>
            cases hnode
            exact ⟨(name, s), rfl, (hP memory hmemory).2 _ (by rw [hfirst])⟩
          | succ i =>
            exact ih hbetween (fun other hother => hkeeps other (List.mem_cons_of_mem _ hother))
              hrest hnode

/-- What an item ensures holds, up to its transition, of the state at its place in the branch. -/
theorem getElem?_branch (hI : Memory.Lasting I) (hreaders : setting.readers.Keep I)
    {memory after : Memory} (hmemory : I memory) {node : Node} (hmachine : node.isMachine = false)
    {b : Branch} (h : (setting.branch node).outcome memory = (.ok b, after)) {i : Nat} {item : Node}
    (hi : node.arguments[i]? = some item) {P : State → Prop}
    (hP : (setting.compileItem item).Ensures I P) :
    ∃ name s following, b.states[i]? = some (name, { s.settle following with name := none }) ∧
      P s ∧ ∀ other, s.name = some other → name = other := by
  obtain ⟨items, last, hcompiled, -, rfl⟩ := setting.items_of_branch hmachine h
  obtain ⟨⟨name, s⟩, hitem, hs, hname⟩ := getElem?_compileItems hmemory
    (fun inner _ => keeps_namedItem hI hreaders inner) hcompiled hi (ensures_namedItem hI hP)
  refine ⟨name, s, items[i + 1]?.map Prod.fst, ?_, hs, hname⟩
  rw [Branch.ofItems, Branch.getElem?_settleAll, hitem]
  rfl

end Setting

/-- Linking a state changes none of its targets. -/
theorem State.Targets.settle {s : State} {name : String} {place : TargetPlace}
    (h : s.Targets name place) (following : Option String) :
    ({ s.settle following with name := none } : State).Targets name place := by
  rw [State.settle_eq]
  cases place <;> exact h

/-- A target that is written in an item of a branch names the state of every item of that branch
which is written for it, wherever the two stand. The name is the last segment of the reference. -/
theorem target_names_state {setting : Setting} (hreaders : setting.readers.Keep Memory.Coherent)
    {memory after : Memory} (hmemory : memory.Reachable) {node : Node}
    (hmachine : node.isMachine = false) {b : Branch}
    (h : (setting.branch node).outcome memory = (.ok b, after)) {reference : String}
    {place : TargetPlace} {i j : Nat} {source item : Node}
    (hi : node.arguments[i]? = some source) (hsource : setting.Writes reference place source)
    (hj : node.arguments[j]? = some item) (hitem : setting.Names reference item) :
    ∃ origin target, b.states[i]? = some origin ∧ b.states[j]? = some target ∧
      target.1 = lastSegment reference ∧ origin.2.Targets target.1 place := by
  have hI := Memory.lasting_coherent
  obtain ⟨key, s, following, horigin, htargets, -⟩ :=
    Setting.getElem?_branch hI hreaders hmemory.coherent hmachine h hi (hsource.item hreaders)
  obtain ⟨name, t, other, htarget, hname, hkey⟩ :=
    Setting.getElem?_branch hI hreaders hmemory.coherent hmachine h hj (hitem.item hreaders)
  have hname : name = lastSegment reference := hkey _ hname
  refine ⟨_, _, horigin, htarget, hname, ?_⟩
  rw [hname]
  exact htargets.settle following

/-- A task and a choice that goes to it, which stands in front. -/
theorem target_names_state_task :
    ∃ b after, (({} : Setting).branch (.sequence [
        .tagged "if" (.sequence [
          .sequence [.string "$.x", .string "=", .bool true], .string "arn:x:done"]),
        .string "arn:x:done"])).outcome {} = (.ok b, after) ∧
      ∃ origin target, b.states[0]? = some origin ∧ b.states[1]? = some target ∧
        target.1 = lastSegment "arn:x:done" ∧ origin.2.Targets target.1 .consequent := by
  have hok : ((({} : Setting).branch (.sequence [
      .tagged "if" (.sequence [
        .sequence [.string "$.x", .string "=", .bool true], .string "arn:x:done"]),
      .string "arn:x:done"])).outcome {}).1.toOption.any (fun _ => true) = true := by
    have hreader : ReaderTable.standard.get? "if" = some .choice := rfl
    simp only [Setting.branch, Setting.sequence, Setting.itemState, Setting.state, Setting.read,
      hreader, Node.arguments]
    decide +kernel
  obtain ⟨b, after, h, -⟩ := Compile.exists_of_any hok
  refine ⟨b, after, h, ?_⟩
  exact target_names_state (ReaderTable.standard_builtIn.keep _) (.start {}) rfl h rfl
    (.consequent rfl rfl) rfl (.plain rfl)

theorem Setting.outcome_compileItem_tagged (setting : Setting) {tag : String} {reader : Reader}
    (hreader : setting.readers.get? tag = some reader) {payload : Node} {memory : Memory} :
    (setting.compileItem (.tagged tag payload)).outcome memory =
      (setting.read reader payload).outcome (memory.noting (.readerChosen tag)) := by
  rw [compileItem, state, hreader]
  · rfl
  · simp

/-- A branch of two items with names of their own. -/
theorem Setting.outcome_branch_pair (setting : Setting) {first second : Node} {s t : State}
    {name other : String} {memory between after : Memory}
    (hfirst : (setting.compileItem first).outcome memory = (.ok s, between))
    (hname : s.name = some name)
    (hsecond : (setting.compileItem second).outcome between = (.ok t, after))
    (hother : t.name = some other) (hne : other ≠ name) :
    ∃ last, (setting.branch (.sequence [first, second])).outcome memory =
      (.ok (Branch.ofItems [(name, s), (other, t)]), last) := by
  have hfirst : (setting.namedItem first).outcome memory = (.ok (name, s), between) := by
    rw [namedItem, Compile.outcome_bind_ok hfirst, hname]
    rfl
  have hsecond : (setting.namedItem second).outcome between = (.ok (other, t), after) := by
    rw [namedItem, Compile.outcome_bind_ok hsecond, hother]
    rfl
  rw [outcome_branch _ rfl, branchInPhases]
  simp [Node.arguments, compileItems, hfirst, hsecond, hne]

/-- A choice, and behind it a pass state that is written out by its name. -/
theorem outcome_branch_choice_pass (payload : Node) (name : String)
    (hchoice : ((choiceState payload).outcome
      (({} : Memory).noting (.readerChosen "if"))).1.toOption.any
        (fun s => s.name = some "choice_0") = true)
    (hpass : ((explicitState (some .pass) [("Name", .string name)]).outcome
      (((choiceState payload).outcome (({} : Memory).noting (.readerChosen "if"))).2.noting
        (.readerChosen "pass"))).1.toOption.any (fun s => s.name = some name) = true)
    (hne : name ≠ "choice_0") :
    ∃ b after, (({} : Setting).branch (.sequence [
        .tagged "if" payload, .tagged "pass" (.string name)])).outcome {} = (.ok b, after) ∧
      b.stateNames = ["choice_0", name] := by
  obtain ⟨s, between, hs, hsname⟩ := Compile.exists_of_any hchoice
  rw [hs] at hpass
  obtain ⟨t, after, ht, htname⟩ := Compile.exists_of_any hpass
  have hfirst : (({} : Setting).compileItem (.tagged "if" payload)).outcome {} =
      (.ok s, between) := by
    rw [Setting.outcome_compileItem_tagged {} rfl, Setting.read]
    exact hs
  have hsecond : (({} : Setting).compileItem (.tagged "pass" (.string name))).outcome between =
      (.ok t, after) := by
    rw [Setting.outcome_compileItem_tagged {} rfl, Setting.read, Setting.typedState]
    exact ht
  obtain ⟨last, h⟩ := Setting.outcome_branch_pair {} hfirst (of_decide_eq_true hsname) hsecond
    (of_decide_eq_true htname) hne
  exact ⟨_, last, h, rfl⟩

/-- A state that is written out keeps the colons of its name, and a task has the name of what its
reference stands for; a target has neither. -/
theorem target_differs_from_state :
    (∃ b after, (({} : Setting).branch (.sequence [
        .tagged "if" (.sequence [
          .sequence [.string "$.x", .string "=", .bool true], .string "arn:x:done"]),
        .tagged "pass" (.string "arn:x:done")])).outcome {} = (.ok b, after) ∧
      b.stateNames = ["choice_0", "arn:x:done"] ∧
      ∃ origin, b.states[0]? = some origin ∧ origin.2.Targets "done" .consequent) ∧
    ∃ b after, (({ resolver := .ofTable [("done", .string "arn:x:other")] } : Setting).branch
        (.sequence [
          .tagged "if" (.sequence [
            .sequence [.string "$.x", .string "=", .bool true], .string "done"]),
          .string "done"])).outcome {} = (.ok b, after) ∧
      b.stateNames = ["choice_0", "other"] ∧
      ∃ origin, b.states[0]? = some origin ∧ origin.2.Targets "done" .consequent := by
  have htarget {setting : Setting} (hreaders : setting.readers = .standard) {node source : Node}
      {b : Branch} {after : Memory} (hmachine : node.isMachine = false)
      (h : (setting.branch node).outcome {} = (.ok b, after)) (hi : node.arguments[0]? = some source)
      {reference : String} (hsource : setting.Writes reference .consequent source)
      (hsegment : lastSegment reference = "done") :
      ∃ origin, b.states[0]? = some origin ∧ origin.2.Targets "done" .consequent := by
    have hkeep : setting.readers.Keep Memory.Coherent :=
      hreaders ▸ ReaderTable.standard_builtIn.keep _
    obtain ⟨key, s, following, horigin, htargets, -⟩ := Setting.getElem?_branch
      Memory.lasting_coherent hkeep (Memory.Reachable.start {}).coherent hmachine h hi
      (hsource.item hkeep)
    exact ⟨_, horigin, hsegment ▸ htargets.settle following⟩
  constructor
  · obtain ⟨b, after, h, hnames⟩ := outcome_branch_choice_pass
      (.sequence [.sequence [.string "$.x", .string "=", .bool true], .string "arn:x:done"])
      "arn:x:done" (by decide +kernel) (by decide +kernel) (by decide)
    exact ⟨b, after, h, hnames, htarget rfl rfl h rfl (.consequent rfl rfl) (by decide +kernel)⟩
  · have hok : ((({ resolver := .ofTable [("done", .string "arn:x:other")] } : Setting).branch
        (.sequence [
          .tagged "if" (.sequence [
            .sequence [.string "$.x", .string "=", .bool true], .string "done"]),
          .string "done"])).outcome {}).1.toOption.any
        (fun b => b.stateNames = ["choice_0", "other"]) = true := by
      have hreader : ReaderTable.standard.get? "if" = some .choice := rfl
      simp only [Setting.branch, Setting.sequence, Setting.itemState, Setting.state, Setting.read,
        hreader, Node.arguments]
      decide +kernel
    obtain ⟨b, after, h, hnames⟩ := Compile.exists_of_any hok
    exact ⟨b, after, h, of_decide_eq_true hnames,
      htarget rfl rfl h rfl (.consequent rfl rfl) (by decide +kernel)⟩

end Flowscript
