import Flowscript.Proofs.DataNodes
import Flowscript.Proofs.Invariance
import Flowscript.Proofs.SingleStates
import Flowscript.Source

/-!
# Structure of compiled machines

Machines that are compiled without any part written out in full break at most one rule of a
machine's structure: they may go on with a state that their branch lacks, and not even that if no
target is written. The rules that matter are kept by every state before it is linked, and linking
gives each state the one transition that it needs.
-/

namespace Flowscript

open Node (All)

/-! ## Problems, one state at a time -/

theorem mem_branchProblems {branches : List Branch} {problem : Problem} :
    problem ∈ branchProblems branches ↔ ∃ b ∈ branches, problem ∈ b.problems := by
  induction branches with
  | nil => simp [branchProblems]
  | cons b rest ih => simp [branchProblems, ih]

theorem State.mem_nestedProblems {s : State} {problem : Problem} :
    problem ∈ s.nestedProblems ↔ ∃ b ∈ s.branches.getD [], problem ∈ b.problems := by
  obtain ⟨_, _, _, _, _, _, _, _, _, _, _, _, _, branches, _, _, _, _, _, _, _, _, _, _⟩ := s
  cases branches with
  | none => simp [State.nestedProblems]
  | some branches => simp [State.nestedProblems, mem_branchProblems]

theorem mem_stateProblems {names : List String} {states : List (String × State)}
    {problem : Problem} :
    problem ∈ stateProblems names states ↔
      ∃ entry ∈ states, problem ∈ entry.2.ownProblems names entry.1 ∨
        problem ∈ entry.2.nestedProblems := by
  induction states with
  | nil => simp [stateProblems]
  | cons entry rest ih =>
    obtain ⟨name, s⟩ := entry
    simp [stateProblems, ih, or_assoc]

/-! ## Sound states and branches -/

/-- Whether a problem may remain: only that of a target that is no state, and only if targets are
`free` to be written. -/
def Problem.Tolerated (free : Prop) (problem : Problem) : Prop :=
  free ∧ ∃ state target, problem = .danglingReference state target

/-- All problems of a branch, at any depth, may remain. -/
def Branch.Sound (free : Prop) (b : Branch) : Prop :=
  ∀ problem ∈ b.problems, problem.Tolerated free

/-- What a state must be like before it is linked so that it is sound behind that. -/
structure State.Sound (free : Prop) (s : State) : Prop where
  finish : s.finish ≠ some false
  single : s.next = none ∨ s.finish = none
  targets : free ∨ s.targets = []
  branches : ∀ branches, s.branches = some branches → ∀ b ∈ branches, b.Sound free

section Linking

variable {free : Prop} {names : List String}

/-- A linked state has one transition if it needs one. -/
theorem State.Sound.settle_transition {s : State} (h : s.Sound free) (following : Option String)
    (hterminal : s.isTerminal = false) :
    (s.settle following).next.isSome ≠ ((s.settle following).finish == some true) := by
  have hterminal : s.type.isTerminal = false := hterminal
  rcases hfinish : s.finish with _ | b
  · rcases hnext : s.next with _ | next
    · cases following <;> simp [State.settle, hterminal, hfinish, hnext]
    · simp [State.settle, hfinish, hnext]
  · have hnext : s.next = none := h.single.resolve_right (by simp [hfinish])
    have hb : b = true := by
      cases b with
      | true => rfl
      | false => exact absurd hfinish h.finish
    simp [State.settle, hfinish, hnext, hb]

/-- Linking adds no target but the name that follows. -/
theorem State.targets_settle {s : State} {following : Option String} {target : String}
    (h : target ∈ (s.settle following).targets) : target ∈ s.targets ∨ following = some target := by
  unfold State.settle at h
  split at h
  · exact .inl h
  · rename_i hopen
    split at h
    · have hnext : s.next = none := by
        rw [Bool.or_eq_true, Bool.or_eq_true, not_or, not_or] at hopen
        simpa using hopen.1.2
      simp only [State.targets, Option.toList_some, List.cons_append, List.nil_append,
        List.mem_cons] at h
      rcases h with rfl | h
      · exact .inr rfl
      · exact .inl (by simpa [State.targets, hnext] using h)
    · exact .inl h

/-- A sound state among sound ones breaks no rule but that of its targets. -/
theorem State.Sound.ownProblems_settle {s : State} (h : s.Sound free) {following : Option String}
    (hfollowing : ∀ name ∈ following, name ∈ names) {name : String} {problem : Problem}
    (hproblem :
      problem ∈ ({ s.settle following with name := none } : State).ownProblems names name) :
    problem.Tolerated free := by
  simp only [State.ownProblems, List.mem_append] at hproblem
  rcases hproblem with hproblem | hproblem
  · obtain ⟨target, htarget, rfl⟩ := List.mem_map.mp hproblem
    obtain ⟨htarget, hmissing⟩ := List.mem_filter.mp htarget
    have htarget : target ∈ (s.settle following).targets := htarget
    have hmissing : target ∉ names := by simpa using hmissing
    rcases State.targets_settle htarget with hown | hfollows
    · refine ⟨h.targets.resolve_right fun hnone => ?_, name, target, rfl⟩
      rw [hnone] at hown
      simp at hown
    · exact absurd (hfollowing target hfollows) hmissing
  · have hsame : ({ s.settle following with name := none } : State).isTerminal = s.isTerminal := by
      rw [State.settle_eq]
      rfl
    rw [hsame] at hproblem
    cases hterminal : s.isTerminal with
    | true => simp [hterminal] at hproblem
    | false =>
      -- exactly one of the two is there, so neither of the two problems is
      have hone := h.settle_transition following hterminal
      simp only [hterminal, Bool.false_eq_true, if_false] at hproblem
      split at hproblem
      · rename_i hnext hfinish
        exact absurd (hnext.trans hfinish.symm) hone
      · rename_i hnext hfinish
        exact absurd (hnext.trans hfinish.symm) hone
      · simp at hproblem

theorem State.Sound.nestedProblems {s : State} (h : s.Sound free) {problem : Problem}
    (hproblem : problem ∈ s.nestedProblems) : problem.Tolerated free := by
  obtain ⟨b, hb, hproblem⟩ := State.mem_nestedProblems.mp hproblem
  cases hbranches : s.branches with
  | none => simp [hbranches] at hb
  | some branches =>
    exact h.branches branches hbranches b (by simpa [hbranches] using hb) problem hproblem

/-- Linked states break no rule but that of their targets. -/
theorem tolerated_settleAll {items : List (String × State)}
    (h : ∀ entry ∈ items, entry.2.Sound free) {problem : Problem}
    (hproblem : problem ∈ stateProblems (items.map Prod.fst) (Branch.settleAll items)) :
    problem.Tolerated free := by
  obtain ⟨entry, hentry, hproblem⟩ := mem_stateProblems.mp hproblem
  obtain ⟨s, following, hitem, hfollowing, hsettled⟩ := Branch.mem_settleAll hentry
  have hs : s.Sound free := h _ hitem
  rw [hsettled] at hproblem
  rcases hproblem with hown | hnested
  · exact hs.ownProblems_settle hfollowing hown
  · obtain ⟨b, hb, hproblem⟩ := State.mem_nestedProblems.mp hnested
    refine hs.nestedProblems (State.mem_nestedProblems.mpr ⟨b, ?_, hproblem⟩)
    rw [State.settle_eq] at hb
    exact hb

theorem Branch.sound_ofItems {items : List (String × State)} (hempty : items ≠ [])
    (h : ∀ entry ∈ items, entry.2.Sound free) : (Branch.ofItems items).Sound free := by
  obtain ⟨⟨name, s⟩, rest, rfl⟩ := List.exists_cons_of_ne_nil hempty
  have hkeys : Entries.keys (Branch.settleAll ((name, s) :: rest)) =
      ((name, s) :: rest).map Prod.fst := Branch.keys_settleAll _
  intro problem hproblem
  have hstart : Branch.startProblems name (((name, s) :: rest).map Prod.fst) = [] := by
    simp [Branch.startProblems]
  have hproblem : problem ∈ Branch.startProblems name (((name, s) :: rest).map Prod.fst) ++
      stateProblems (((name, s) :: rest).map Prod.fst) (Branch.settleAll ((name, s) :: rest)) := by
    rw [← hkeys]
    exact hproblem
  rw [hstart, List.nil_append] at hproblem
  exact tolerated_settleAll h hproblem

end Linking

/-! ## Sound nodes -/

/-- The readers and properties that write targets. -/
def Reader.targeting : List Reader := [.next, .choice, .guard]

/-- The properties whose values name states to go on with. -/
def Property.targeting : List Property := [.next, .default, .catches, .choices]

/-- What a node must be like, the nodes inside it apart, for a machine to be sound. -/
structure Node.Sound (readers : ReaderTable) (free : Prop) (node : Node) : Prop where
  machine : node.isMachine = false
  finish : ∀ key ∈ node.keys, Property.ofKey? key ≠ some .finish
  readers : free ∨ ∀ tag reader, node.tag? = some tag → readers.get? tag = some reader →
    reader ∉ Reader.targeting
  keys : free ∨ ∀ key ∈ node.keys, ∀ p ∈ Property.targeting, Property.ofKey? key ≠ some p

section Compiling

variable {free : Prop} {readers : ReaderTable}

theorem Node.sound_of_keys {node : Node} (htag : node.tag? = none)
    (hmachine : node.isMachine = false)
    (hkeys : ∀ key ∈ node.keys, Property.ofKey? key = some .name) :
    node.Sound readers free where
  machine := hmachine
  finish key hkey := by simp [hkeys key hkey]
  readers := .inr fun tag reader hnone => by simp [htag] at hnone
  keys := .inr fun key hkey p hp => by
    rw [hkeys key hkey]
    rintro ⟨rfl⟩
    simp [Property.targeting] at hp

theorem State.sound_named (name : String) (type : StateType) :
    (State.named name type).Sound free where
  finish := by simp [State.named]
  single := .inl rfl
  targets := .inr rfl
  branches := by simp [State.named]

/-- A state that a mapping of sound keys describes has no transition of its own to end, and no
branches yet. -/
theorem explicitState_sound {entries : Entries String Node}
    (hn : (Node.mapping entries).Sound readers free) (forced : Option StateType) :
    (explicitState forced entries).Yields (State.Sound free) := by
  intro memory s after h
  have hfinish : s.finish = none := by
    simpa [State.fieldJson] using
      explicitState_absent (by decide) hn.finish forced memory s after h
  have hbranches : s.branches = none := explicitState_branches forced entries memory s after h
  refine ⟨by simp [hfinish], .inr hfinish, ?_, by simp [hbranches]⟩
  rcases hn.keys with hfree | hkeys
  · exact .inl hfree
  · refine .inr ?_
    have habsent : ∀ p ∈ Property.targeting, s.fieldJson none p = none := by
      intro p hp
      refine explicitState_absent ?_ (fun key hkey => hkeys key hkey p hp) forced memory s after h
      intro hsupplied
      exact absurd hsupplied (by revert p; decide)
    have hnext := habsent .next (by decide)
    have hdefault := habsent .default (by decide)
    have hcatches := habsent .catches (by decide)
    have hchoices := habsent .choices (by decide)
    simp only [State.fieldJson, Option.map_eq_none_iff] at hnext hdefault hcatches hchoices
    simp [State.targets, hnext, hdefault, hcatches, hchoices]

theorem Setting.resolve_sound {setting : Setting}
    (hresolver : ∀ reference value, setting.resolver reference = .ok (some value) →
      value.get? "StartAt" = none) (reference : String) :
    (setting.resolve reference).Yields fun node => node.isMachine = false := by
  refine (setting.resolve_yields reference).mono fun node hnode => ?_
  rw [← Bool.not_eq_true]
  intro hmachine
  obtain ⟨value, hvalue, rfl⟩ := hnode hmachine
  simp [Node.isMachine_ofJson, hresolver reference value hvalue] at hmachine

/-- Every way in which a state or a branch is compiled keeps them sound. -/
theorem invariant_sound {setting : Setting} (hreaders : setting.readers.BuiltIn)
    (hresolver : ∀ reference value, setting.resolver reference = .ok (some value) →
      value.get? "StartAt" = none) (free : Prop) :
    setting.Invariant (Node.Sound setting.readers free)
      (fun reader _ => reader.isBuiltIn = true ∧ (free ∨ reader ∉ Reader.targeting))
      (State.Sound free) (Branch.Sound free) where
  null := Node.sound_of_keys rfl rfl (by simp [Node.keys])
  reader hn hreader := ⟨hreaders.reader hreader, hn.readers.imp id fun h => h _ _ rfl hreader⟩
  shorthand fresh node hn := by
    refine Setting.shorthand_yields fresh node
      (fun reference _ => Setting.resolve_sound hresolver reference) hn.self.machine ?_ ?_
    · intro name resource parameters inputPath resultPath _
      exact { State.sound_named name .task with }
    · intro resolved name machine cause hresolved hmachine _
      rw [hresolved] at hmachine
      cases hmachine
  explicit {forced entries} hwritten := by
    have hn : (Node.mapping entries).Sound setting.readers free := by
      refine hwritten.self (Node.sound_of_keys rfl rfl nofun) fun name => ?_
      refine Node.sound_of_keys rfl rfl fun key hkey => ?_
      obtain rfl : key = "Name" := by simpa [Node.keys, Entries.keys] using hkey
      exact Property.ofKey?_text (p := .name) (by decide)
    exact (explicitState_sound hn forced).mono fun s hs => .of_kept hs (fun _ hb => { hs with
      branches := by
        rintro branches ⟨rfl⟩
        exact hb }) entries
  choice payload hr := by
    have hfree : free := hr.2.resolve_right fun h => h (by simp [Reader.targeting])
    refine (choiceState_yields payload).mono ?_
    rintro s ⟨name, rules, default, rfl⟩
    exact { State.sound_named name .choice with targets := .inl hfree }
  parameters payload := by
    refine (parametersState_yields payload).mono ?_
    rintro s (⟨name, path, rfl⟩ | ⟨name, fields, rfl⟩)
    · exact { State.sound_named name .pass with }
    · exact { State.sound_named name .pass with }
  custom payload hr := by
    cases hr.1
  parallel name branches _ hb := { State.sound_named name .parallel with
    branches := by
      rintro branches ⟨rfl⟩
      exact hb }
  guard hr s hs clauses :=
    { hs with targets := .inl (hr.2.resolve_right fun h => h (by simp [Reader.targeting])) }
  retry hs clauses := { hs with }
  next hr s hs target :=
    { hs with
      finish := by simp [State.forceNext]
      single := .inr rfl
      targets := .inl (hr.2.resolve_right fun h => h (by simp [Reader.targeting])) }
  finish := @fun s hs =>
    { hs with
      finish := by simp [State.forceEnd]
      single := .inl rfl
      targets := hs.targets.imp id fun hnone => by
        have htargets : s.next.toList ++ s.forceEnd.targets = [] := by
          simpa [State.targets, State.forceEnd] using hnone
        exact (List.append_eq_nil_iff.mp htargets).2 }
  machine hn hmachine := by
    rw [hn.self.machine] at hmachine
    cases hmachine
  sequenced hempty hnodup hs _ := Branch.sound_ofItems hempty hs

end Compiling

/-! ## Sound machines -/

/-- Checking a machine without problems succeeds. -/
theorem outcome_validate {b : Branch} (h : b.problems = []) (memory : Memory) :
    ((validate b).outcome memory).1 = .ok () := by
  simp [validate, Compile.outcome_bind, h]

/-- A machine that is compiled from a node in which no machine is written out and no key means an
end breaks no rule but that its targets are states, at any depth. If neither a tag nor a key writes
a target, it is valid. -/
theorem problems_branch_dangling {setting : Setting} (hreaders : setting.readers.BuiltIn)
    (hresolver : ∀ reference value, setting.resolver reference = .ok (some value) →
      value.get? "StartAt" = none)
    {node : Node} (hmachine : ∀ inner ∈ node.subnodes, inner.isMachine = false)
    (hfinish : ∀ inner ∈ node.subnodes, ∀ key ∈ inner.keys, Property.ofKey? key ≠ some .finish)
    {memory after : Memory} {b : Branch}
    (h : (setting.branch node).outcome memory = (.ok b, after)) :
    (∀ problem ∈ b.problems, ∃ state target, problem = .danglingReference state target) ∧
    ((∀ inner ∈ node.subnodes, ∀ tag reader, inner.tag? = some tag →
        setting.readers.get? tag = some reader → reader ∉ Reader.targeting) →
      (∀ inner ∈ node.subnodes, ∀ key ∈ inner.keys, ∀ p ∈ Property.targeting,
        Property.ofKey? key ≠ some p) →
      ∀ later, ((validate b).outcome later).1 = .ok ()) := by
  constructor
  · intro problem hproblem
    have hsound : All (Node.Sound setting.readers True) node := fun inner hinner =>
      ⟨hmachine inner hinner, hfinish inner hinner, .inl trivial, .inl trivial⟩
    exact ((invariant_sound hreaders hresolver True).branch node hsound memory b after h problem
      hproblem).2
  · intro htags hkeys later
    have hsound : All (Node.Sound setting.readers False) node := fun inner hinner =>
      ⟨hmachine inner hinner, hfinish inner hinner, .inr (htags inner hinner),
        .inr (hkeys inner hinner)⟩
    refine outcome_validate (List.eq_nil_iff_forall_not_mem.mpr fun problem hproblem => ?_) later
    exact ((invariant_sound hreaders hresolver False).branch node hsound memory b after h problem
      hproblem).1

/-- A new value, then two branches side by side. -/
theorem problems_branch_dangling_parallel :
    ∃ b after, (({} : Setting).branch (.sequence [
        .tagged "params" (.mapping [("rate", .number (.whole 5))]),
        .sequence [.string "arn:left", .string "arn:right"]])).outcome {} = (.ok b, after) ∧
      (∀ problem ∈ b.problems, ∃ state target, problem = .danglingReference state target) ∧
      ∀ later, ((validate b).outcome later).1 = .ok () := by
  have hrate : Property.ofKey? "rate" ≠ some .finish ∧
      ∀ p ∈ Property.targeting, Property.ofKey? "rate" ≠ some p := by
    decide +kernel
  have hok : ((({} : Setting).branch (.sequence [
      .tagged "params" (.mapping [("rate", .number (.whole 5))]),
      .sequence [.string "arn:left", .string "arn:right"]])).outcome {}).1.toOption.any
        (fun _ => true) = true := by
    have hreader : ReaderTable.standard.get? "params" = some .parameters := rfl
    -- the recursion is opened by its equations, and what is left computes
    simp only [Setting.branch, Setting.sequence, Setting.itemState, Setting.state,
      Setting.branchList, Setting.read, hreader, Node.arguments]
    decide +kernel
  obtain ⟨b, after, hrun, -⟩ := Compile.exists_of_any hok
  have hsound := problems_branch_dangling ReaderTable.standard_builtIn
    (by simp [Resolver.identity])
    (by simp [Node.subnodes, Node.itemsSubnodes, Node.entriesSubnodes, Node.isMachine, Entries.has,
      Entries.get?])
    (by simpa [Node.subnodes, Node.itemsSubnodes, Node.entriesSubnodes, Node.keys, Entries.keys]
      using hrate.1) hrun
  refine ⟨b, after, hrun, hsound.1, hsound.2 ?_ ?_⟩
  · simp only [Node.subnodes, Node.itemsSubnodes, Node.entriesSubnodes, List.mem_cons,
      List.append_nil, List.mem_append, List.not_mem_nil, or_false]
    rintro inner hinner tag reader htag hreader
    obtain rfl : inner = .tagged "params" (.mapping [("rate", .number (.whole 5))]) := by
      rcases hinner with rfl | (rfl | rfl | rfl) | rfl | rfl | rfl <;>
        first | rfl | cases htag
    cases htag
    cases hreader
    simp [Reader.targeting]
  · simpa [Node.subnodes, Node.itemsSubnodes, Node.entriesSubnodes, Node.keys, Entries.keys]
      using hrate.2

end Flowscript
