import Flowscript.Compiler
import Flowscript.Proofs.Steps

/-!
# Sequencing in two phases

The compiler links the state before an item while it takes that item up. Here the same branch is
described in two phases: first all items are compiled, one after the other, and nothing is linked;
then every state gets its transition, which depends on the name behind it alone. The main statement
is that both give the same outcome from every memory of the compiler, failures included.
-/

namespace Flowscript

/-! ## The first phase -/

namespace Setting

variable (setting : Setting)

/-- Compiles an item of a branch. A list is compiled to a state that runs its members side by
side. -/
def compileItem (item : Node) : Compile State :=
  match item with
  | .sequence _ => setting.parallel item
  | _ => setting.state false item

/-- Compiles an item of a branch, and names its state if it has no name. -/
def namedItem (item : Node) : Compile (String × State) := do
  let s ← setting.compileItem item
  match s.name with
  | some name => return (name, s)
  | none => return (← Compile.generateName s.type.stem, s)

/-- Compiles items from a memory on, until one fails or has the name of one before it. The memory
behind a failure is what was remembered until then. -/
def compileItems (taken : List String) :
    List Node → Memory → Except CompileError (List (String × State)) × Memory
  | [], memory => (.ok [], memory)
  | item :: rest, memory =>
    match (setting.namedItem item).outcome memory with
    | (.error cause, after) => (.error cause, after)
    | (.ok (name, s), after) =>
      if name ∈ taken then (.error (.refused (.repeatedState name)), after)
      else
        match compileItems (taken ++ [name]) rest after with
        | (.error cause, last) => (.error cause, last)
        | (.ok others, last) => (.ok ((name, s) :: others), last)

end Setting

/-! ## The second phase -/

/-- The state with its transition, if it lacks one: it goes on with the state of the name that
follows, and ends if none does. -/
def State.settle (following : Option String) (s : State) : State :=
  if s.type.isTerminal || s.next.isSome || s.finish.isSome then s
  else
    match following with
    | some name => { s with next := some name }
    | none => { s with finish := some true }

/-- Only the transition of a state changes. -/
theorem State.settle_eq (following : Option String) (s : State) :
    s.settle following = { s with
      next := (s.settle following).next
      finish := (s.settle following).finish } := by
  unfold settle
  split
  · cases s
    rfl
  · split <;> rfl

namespace Branch

/-- The states of a branch under their names, each with the transition that its place gives it. -/
def settleAll : List (String × State) → List (String × State)
  | [] => []
  | (name, s) :: rest =>
    (name, { s.settle (rest.head?.map Prod.fst) with name := none }) :: settleAll rest

/-- The branch of compiled items: it starts at the first of them. -/
def ofItems (items : List (String × State)) : Branch :=
  ⟨(items.head?.map Prod.fst).getD "", settleAll items⟩

end Branch

/-- The branch of a node's items in two phases. -/
def Setting.branchInPhases (setting : Setting) (node : Node) (memory : Memory) :
    Except CompileError Branch × Memory :=
  if node.arguments.isEmpty then (.error (.refused .emptyBranch), memory)
  else
    match setting.compileItems [] node.arguments memory with
    | (.error cause, after) => (.error cause, after)
    | (.ok items, after) =>
      let branch := Branch.ofItems items
      (.ok branch, { after with
        journal := .branchAssembled branch.states.length branch.startAt :: after.journal })

/-! ## Half-linked states -/

namespace Branch

/-- Compiled items of which all but the last have their transitions, as they stand in a branch
before the next item is taken up. -/
def chain : List (String × State) → List (String × State)
  | [] => []
  | [(name, s)] => [(name, { s with name := none })]
  | (name, s) :: (next, t) :: rest =>
    (name, { s.settle (some next) with name := none }) :: chain ((next, t) :: rest)

theorem linkTo_unnamed (s : State) (next : String) :
    ({ s with name := none } : State).linkTo next =
      { s.settle (some next) with name := none } := by
  cases hn : s.next <;> cases hf : s.finish <;> cases ht : s.type.isTerminal <;>
    simp [State.linkTo, State.isOpen, State.isTerminal, State.hasTransition, State.settle, hn, hf,
      ht]

theorem close_unnamed (s : State) :
    ({ s with name := none } : State).close = { s.settle none with name := none } := by
  cases hn : s.next <;> cases hf : s.finish <;> cases ht : s.type.isTerminal <;>
    simp [State.close, State.isOpen, State.isTerminal, State.hasTransition, State.settle, hn, hf,
      ht]

theorem keys_chain (items : List (String × State)) :
    (chain items).map Prod.fst = items.map Prod.fst := by
  fun_induction chain items with
  | case1 => rfl
  | case2 => rfl
  | case3 name s next t rest ih => simpa using ih

theorem chain_cons (name : String) (s : State) (rest : List (String × State)) :
    ∃ entry others, chain ((name, s) :: rest) = entry :: others := by
  cases rest <;> simp [chain]

theorem append_chain (items : List (String × State)) (name : String) (s : State) :
    append (chain items) name s = chain (items ++ [(name, s)]) := by
  fun_induction chain items with
  | case1 => rfl
  | case2 key t => simp [append, changeLast, chain, linkTo_unnamed]
  | case3 key t next u rest ih =>
    -- only the last of the rest changes, and there is one
    obtain ⟨entry, others, hchain⟩ := chain_cons next u rest
    rw [hchain] at ih ⊢
    simp only [append, changeLast, List.cons_append, chain] at ih ⊢
    rw [ih]

theorem close_chain (items : List (String × State)) :
    changeLast (fun (name, last) => (name, last.close)) (chain items) = settleAll items := by
  fun_induction chain items with
  | case1 => rfl
  | case2 name s => simp [changeLast, settleAll, close_unnamed]
  | case3 name s next t rest ih =>
    obtain ⟨entry, others, hchain⟩ := chain_cons next t rest
    rw [hchain] at ih ⊢
    simp only [changeLast]
    rw [ih]
    rfl

theorem ofLinked_chain (items : List (String × State)) :
    ofLinked (chain items) = ofItems items := by
  have hhead : (chain items).head?.map Prod.fst = items.head?.map Prod.fst := by
    rw [← List.head?_map, keys_chain, List.head?_map]
  simp only [ofLinked, ofItems, hhead, close_chain]

/-- Every item has its state in the branch, at its own place. -/
theorem getElem?_settleAll (items : List (String × State)) (i : Nat) :
    (settleAll items)[i]? =
      items[i]?.map fun (name, s) =>
        (name, { s.settle (items[i + 1]?.map Prod.fst) with name := none }) := by
  induction items generalizing i with
  | nil => rfl
  | cons item rest ih =>
    cases i with
    | zero => simp [settleAll, List.head?_eq_getElem?]
    | succ i => simpa [settleAll] using ih i

/-- Every state of the branch is an item with its transition, to another item or none. -/
theorem mem_settleAll {items : List (String × State)} {entry : String × State}
    (h : entry ∈ settleAll items) :
    ∃ s following, (entry.1, s) ∈ items ∧ (∀ name ∈ following, name ∈ items.map Prod.fst) ∧
      entry.2 = { s.settle following with name := none } := by
  obtain ⟨i, hi⟩ := List.getElem?_of_mem h
  rw [getElem?_settleAll] at hi
  obtain ⟨⟨name, s⟩, hitem, rfl⟩ := Option.map_eq_some_iff.mp hi
  refine ⟨s, items[i + 1]?.map Prod.fst, List.mem_of_getElem? hitem, ?_, rfl⟩
  intro next hnext
  obtain ⟨following, hfollowing, rfl⟩ := Option.map_eq_some_iff.mp hnext
  exact List.mem_map_of_mem (List.mem_of_getElem? hfollowing)

theorem keys_settleAll (items : List (String × State)) :
    (settleAll items).map Prod.fst = items.map Prod.fst := by
  induction items with
  | nil => rfl
  | cons item rest ih => simp [settleAll, ih]

theorem length_settleAll (items : List (String × State)) :
    (settleAll items).length = items.length := by
  induction items with
  | nil => rfl
  | cons item rest ih => simp [settleAll, ih]

end Branch

/-! ## Both ways agree -/

namespace Setting

variable (setting : Setting)

theorem itemState_eq (item : Node) : setting.itemState item = setting.compileItem item := by
  cases item with
  | sequence members =>
    rw [itemState]
    rfl
  | _ => rw [itemState, compileItem] <;> simp

/-- Taking up an item is compiling and naming it, and then linking. -/
theorem sequence_cons (states : List (String × State)) (item : Node) (rest : List Node) :
    setting.sequence states (item :: rest) = (do
      let (name, s) ← setting.namedItem item
      if Entries.has name states then Compile.refuse (.repeatedState name)
      else setting.sequence (Branch.append states name s) rest) := by
  rw [sequence, namedItem, itemState_eq, bind_assoc]
  congr 1
  funext s
  cases hname : s.name with
  | some name =>
    simp only [appendState, hname, pure_bind]
    split <;> rfl
  | none =>
    simp only [appendState, hname, bind_assoc, pure_bind]
    congr 1
    funext name
    split <;> rfl

/-- The loop invariant: behind compiled items, of which the last has no transition yet, the loop
goes on as the first phase does, and keeps them linked up to the last. -/
theorem outcome_sequence (earlier : List (String × State)) (items : List Node) (memory : Memory) :
    (setting.sequence (Branch.chain earlier) items).outcome memory =
      match setting.compileItems (earlier.map Prod.fst) items memory with
      | (.error cause, after) => (.error cause, after)
      | (.ok more, after) => (.ok (Branch.chain (earlier ++ more)), after) := by
  induction items generalizing earlier memory with
  | nil => simp [sequence, compileItems]
  | cons item rest ih =>
    rw [sequence_cons, Compile.outcome_bind, compileItems]
    cases hitem : (setting.namedItem item).outcome memory with
    | mk result after =>
      cases result with
      | error cause => rfl
      | ok named =>
        obtain ⟨name, s⟩ := named
        by_cases hmem : name ∈ earlier.map Prod.fst
        -- both refuse the name before anything is linked
        · simp [Entries.has_eq_mem, Branch.keys_chain, hmem]
        -- the last of the earlier items is linked now, and the new one comes last
        · have hrest := ih (earlier ++ [(name, s)]) after
          simp only [Entries.has_eq_mem, Branch.keys_chain, hmem, Branch.append_chain, hrest,
            decide_false, Bool.false_eq_true, if_false, List.map_append, List.map_cons,
            List.map_nil, List.append_assoc, List.singleton_append]
          split <;> simp_all

/-- Compiled items have distinct names, none of which was taken before. -/
theorem names_compileItems {taken : List String} {nodes : List Node} {memory after : Memory}
    {items : List (String × State)}
    (h : setting.compileItems taken nodes memory = (.ok items, after)) :
    items.length = nodes.length ∧ (items.map Prod.fst).Nodup ∧
      ∀ name ∈ items.map Prod.fst, name ∉ taken := by
  induction nodes generalizing taken memory items with
  | nil =>
    cases h
    simp
  | cons node rest ih =>
    rw [compileItems] at h
    split at h
    · cases h
    · rename_i name s between hitem
      split at h
      · cases h
      · rename_i hfree
        split at h
        · cases h
        · rename_i others last hrest
          cases h
          obtain ⟨hlength, hnodup, hnew⟩ := ih hrest
          refine ⟨by simp [hlength], ?_, ?_⟩
          · rw [List.map_cons, List.nodup_cons]
            exact ⟨fun hmem => hnew name hmem (by simp), hnodup⟩
          · intro other hother
            rcases List.mem_cons.mp hother with rfl | hother
            · exact hfree
            · exact fun htaken => hnew other hother (by simp [htaken])

/-- Every compiled item is what some node among the items was compiled to. -/
theorem mem_compileItems {taken : List String} {nodes : List Node} {memory after : Memory}
    {items : List (String × State)}
    (h : setting.compileItems taken nodes memory = (.ok items, after)) {entry : String × State}
    (hentry : entry ∈ items) :
    ∃ node ∈ nodes, ∃ before between,
      (setting.namedItem node).outcome before = (.ok entry, between) := by
  induction nodes generalizing taken memory items with
  | nil =>
    cases h
    simp at hentry
  | cons node rest ih =>
    rw [compileItems] at h
    split at h
    · cases h
    · rename_i name s between hitem
      split at h
      · cases h
      · split at h
        · cases h
        · rename_i others last hrest
          cases h
          rcases List.mem_cons.mp hentry with rfl | hentry
          · exact ⟨node, by simp, memory, between, hitem⟩
          · obtain ⟨found, hfound, hcompiled⟩ := ih hrest hentry
            exact ⟨found, by simp [hfound], hcompiled⟩

/-- A branch that is not written out in full has the outcome of the two phases. -/
theorem outcome_branch {node : Node} (h : node.isMachine = false) (memory : Memory) :
    (setting.branch node).outcome memory = setting.branchInPhases node memory := by
  rw [branch, branchInPhases]
  simp only [h, Bool.false_eq_true, if_false]
  by_cases hempty : node.arguments.isEmpty
  · simp [hempty]
  · simp only [hempty, Bool.false_eq_true, if_false, Compile.outcome_bind]
    have hloop := setting.outcome_sequence [] node.arguments memory
    simp only [Branch.chain, List.map_nil, List.nil_append] at hloop
    rw [hloop]
    cases hitems : setting.compileItems [] node.arguments memory with
    | mk result after =>
      cases result with
      | error cause => rfl
      | ok items =>
        have hlength : (Branch.chain items).length = (Branch.settleAll items).length := by
          rw [Branch.length_settleAll, ← List.length_map Prod.fst, Branch.keys_chain,
            List.length_map]
        simp [assembleBranch, Compile.outcome_map, Branch.ofLinked_chain, hlength, Branch.ofItems]

/-- A branch that is not written out in full is the branch of its compiled items. -/
theorem items_of_branch {node : Node} (h : node.isMachine = false) {memory after : Memory}
    {b : Branch} (hb : (setting.branch node).outcome memory = (.ok b, after)) :
    ∃ items last, setting.compileItems [] node.arguments memory = (.ok items, last) ∧
      items ≠ [] ∧ b = Branch.ofItems items := by
  rw [outcome_branch _ h, branchInPhases] at hb
  split at hb
  · cases hb
  · rename_i hempty
    split at hb
    · cases hb
    · rename_i items last hcompiled
      cases hb
      refine ⟨items, last, hcompiled, ?_, rfl⟩
      rintro rfl
      exact hempty (by simpa using (setting.names_compileItems hcompiled).1.symm)

/-- Compiling a branch is compiling all its items first, up to the first failure or repeated name,
and giving each state the transition of its place afterwards. -/
theorem branch_in_two_phases {node : Node} (h : node.isMachine = false) (memory : Memory) :
    (setting.branch node).outcome memory = setting.branchInPhases node memory ∧
      ∀ items after, setting.compileItems [] node.arguments memory = (.ok items, after) →
        items.length = node.arguments.length ∧ (items.map Prod.fst).Nodup ∧
        ∀ i : Nat, (Branch.ofItems items).states[i]? =
          items[i]?.map fun (name, s) =>
            (name, { s.settle (items[i + 1]?.map Prod.fst) with name := none }) := by
  refine ⟨setting.outcome_branch h memory, ?_⟩
  intro items after hitems
  obtain ⟨hlength, hnodup, _⟩ := setting.names_compileItems hitems
  exact ⟨hlength, hnodup, Branch.getElem?_settleAll items⟩

/-- Two references, compiled one after the other and linked behind that. -/
theorem branch_in_two_phases_distinct :
    ∃ items after, ({} : Setting).compileItems [] [.string "arn:first", .string "arn:second"] {} =
        (.ok items, after) ∧
      items.length = 2 ∧ (items.map Prod.fst).Nodup ∧
      (({} : Setting).branch (.sequence [.string "arn:first", .string "arn:second"])).outcome {} =
        ({} : Setting).branchInPhases
          (.sequence [.string "arn:first", .string "arn:second"]) {} := by
  have hok : (({} : Setting).compileItems []
      [.string "arn:first", .string "arn:second"] {}).1.toOption.isSome = true := by
    -- the recursion is opened by its equations, and what is left computes
    simp only [compileItems, namedItem, compileItem, state]
    decide +kernel
  obtain ⟨hbranch, hstates⟩ := branch_in_two_phases {}
    (rfl : (Node.sequence [.string "arn:first", .string "arn:second"]).isMachine = false) {}
  cases hitems : ({} : Setting).compileItems []
      [.string "arn:first", .string "arn:second"] {} with
  | mk result after =>
    cases result with
    | error cause =>
      rw [hitems] at hok
      cases hok
    | ok items =>
      obtain ⟨hlength, hnodup, -⟩ := hstates items after hitems
      exact ⟨items, after, rfl, hlength, hnodup, hbranch⟩

end Setting
end Flowscript
