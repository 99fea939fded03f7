import Flowscript.Proofs.Invariance

/-!
# Two compilers side by side

Two compilers with the same readers work on the same node, from memories that may differ. If the
memories are in a relation that lasts through every change which both compilers make, and the
resolvers say the same of every string in the node, then both give back the same, whether they
succeed or fail, and their memories are in the relation behind that.
-/

namespace Flowscript

open Node (All)

/-! ## Steps that agree -/

namespace Compile

variable {α β : Type} {R : Memory → Memory → Prop}

/-- From related memories both steps give back the same and lead to related memories. -/
def Agree (step : Compile α) (R : Memory → Memory → Prop) (other : Compile α) : Prop :=
  ∀ first second, R first second →
    (step.outcome first).1 = (other.outcome second).1 ∧
      R (step.outcome first).2 (other.outcome second).2

theorem Agree.pure (a : α) : Agree (Pure.pure a : Compile α) R (Pure.pure a) :=
  fun _ _ hR => ⟨rfl, hR⟩

theorem Agree.throw (cause : CompileError) :
    Agree (throwThe CompileError cause : Compile α) R (throwThe CompileError cause) :=
  fun _ _ hR => ⟨rfl, hR⟩

theorem Agree.refuse (cause : SyntaxError) :
    Agree (Compile.refuse cause : Compile α) R (Compile.refuse cause) := .throw _

theorem Agree.ofExcept (value : Except SyntaxError α) :
    (Compile.ofExcept value).Agree R (Compile.ofExcept value) := by
  cases value with
  | ok a => exact .pure a
  | error cause => exact .refuse cause

theorem Agree.bind {step other : Compile α} {next following : α → Compile β}
    (h : step.Agree R other) (hn : ∀ a, (next a).Agree R (following a)) :
    (step >>= next).Agree R (other >>= following) := by
  intro first second hR
  obtain ⟨hresult, hafter⟩ := h first second hR
  rw [outcome_bind, outcome_bind]
  rcases hs : step.outcome first with ⟨cause | a, after⟩ <;>
    rcases ho : other.outcome second with ⟨fault | b, later⟩ <;>
    rw [hs, ho] at hresult hafter <;> cases hresult
  · exact ⟨rfl, hafter⟩
  · exact hn a after later hafter

/-- A value that is read without a look at the memory. -/
theorem Agree.ofExcept_bind {value : Except SyntaxError α} {next following : α → Compile β}
    (hn : ∀ a, value = .ok a → (next a).Agree R (following a)) :
    (Compile.ofExcept value >>= next).Agree R (Compile.ofExcept value >>= following) := by
  cases value with
  | ok a => exact hn a rfl
  | error cause => exact .refuse cause

/-- Steps whose failures are handled. -/
theorem Agree.tryCatch {step other : Compile α} {handle handler : CompileError → Compile α}
    (h : step.Agree R other) (hn : ∀ cause, (handle cause).Agree R (handler cause)) :
    (MonadExcept.tryCatch step handle : Compile α).Agree R (MonadExcept.tryCatch other handler) := by
  intro first second hR
  obtain ⟨hresult, hafter⟩ := h first second hR
  rw [outcome_tryCatch, outcome_tryCatch]
  rcases hs : step.outcome first with ⟨cause | a, after⟩ <;>
    rcases ho : other.outcome second with ⟨fault | b, later⟩ <;>
    rw [hs, ho] at hresult hafter <;> cases hresult
  · exact hn cause after later hafter
  · exact ⟨rfl, hafter⟩

/-! ### Arguments -/

theorem agree_check (list : ArgumentList) (payload : Node) :
    (list.check payload).Agree R (list.check payload) := by
  unfold ArgumentList.check
  dsimp only
  split
  · exact .refuse _
  · exact .pure _

theorem agree_text (argument : TextArgument) (node : Node) :
    (argument.read node).Agree R (argument.read node) := by
  unfold TextArgument.read
  split
  · exact .pure _
  · exact .refuse _

theorem agree_count (argument : CountArgument) (default : UInt64) (node : Node) :
    (argument.read default node).Agree R (argument.read default node) := by
  unfold CountArgument.read
  split
  · exact .pure _
  · split
    · exact .pure _
    · exact .refuse _
  · exact .refuse _

theorem agree_backoff (node : Node) : (readBackoff node).Agree R (readBackoff node) := by
  unfold readBackoff
  split
  · exact .pure _
  · split
    · exact .pure _
    · exact .refuse _
  · exact .refuse _

theorem agree_retry (payload : Node) : (readRetry payload).Agree R (readRetry payload) := by
  refine (agree_check _ _).bind fun _ => (agree_count _ _ _).bind fun attempts => ?_
  split
  · exact .refuse _
  · exact (agree_count _ _ _).bind fun interval => (agree_backoff _).bind fun backoff => .pure _

end Compile

/-! ## Notices that report no name -/

/-- Whether a notice reports a generated name. -/
def Notice.allocates : Notice → Bool
  | .symbolAllocated _ => true
  | _ => false

theorem Properties.allocates_add {draft : Draft} (key : String) (value : Node)
    (h : ∀ notice ∈ draft.journal, notice.allocates = false) :
    ∀ notice ∈ (draft.add key value).journal, notice.allocates = false := by
  unfold Draft.add
  split
  · simpa [Notice.allocates] using h
  · dsimp only
    split
    · simpa [Notice.allocates] using h
    · intro notice hnotice
      simp only [List.mem_append] at hnotice
      rcases hnotice with (hnotice | hnotice) | hnotice
      · split at hnotice <;> simp_all [Notice.allocates]
      · split at hnotice <;> simp_all [Notice.allocates]
      · exact h notice hnotice

theorem Properties.allocates_named (entries : Entries String Node) :
    ∀ notice ∈ (named entries).journal, notice.allocates = false := by
  suffices ∀ draft : Draft, (∀ notice ∈ draft.journal, notice.allocates = false) →
      ∀ notice ∈ (entries.foldl (fun draft entry => draft.add entry.1 entry.2) draft).journal,
        notice.allocates = false from this {} (by simp)
  induction entries with
  | nil => exact fun draft h => h
  | cons entry rest ih => exact fun draft h => ih _ (allocates_add entry.1 entry.2 h)

theorem allocates_comparison {operator path next : String} {value : Json}
    {compared : List ChoiceClause × List Notice}
    (h : comparison operator path value next = .ok compared) :
    ∀ notice ∈ compared.2, notice.allocates = false := by
  unfold comparison at h
  split at h
  · cases h
  · cases h
    simp
  · split at h
    · cases h
    · cases h
      simp [Notice.allocates]

/-! ## Other resolvers -/

/-- The setting with another resolver. -/
def Setting.withResolver (setting : Setting) (resolver : Resolver) : Setting :=
  { setting with resolver }

/-- Another resolver says the same of a node if it is a string. -/
def Setting.SaysAlike (setting : Setting) (resolver : Resolver) (node : Node) : Prop :=
  ∀ reference, node = .string reference → setting.resolver reference = resolver reference

/-! ## Memories in lockstep -/

/-- A relation of memories that lasts through every change which compilers make to both. -/
structure Memory.Lockstep (R : Memory → Memory → Prop) : Prop where
  noting : ∀ {first second notice}, R first second → Notice.allocates notice = false →
    R (first.noting notice) (second.noting notice)
  generating : ∀ stem, (Compile.generateName stem).Agree R (Compile.generateName stem)
  naming : ∀ reference, (Compile.shortName false reference).Agree R
    (Compile.shortName false reference)

namespace Memory.Lockstep

open Compile (Agree)

variable {R : Memory → Memory → Prop} (hR : Memory.Lockstep R)

include hR

theorem note {notice : Notice} (h : notice.allocates = false) :
    (Compile.note notice).Agree R (Compile.note notice) :=
  fun _ _ hmemory => ⟨rfl, hR.noting hmemory h⟩

theorem forM_note {notices : List Notice} (h : ∀ notice ∈ notices, notice.allocates = false) :
    (notices.forM Compile.note).Agree R (notices.forM Compile.note) := by
  induction notices with
  | nil => exact .pure _
  | cons notice rest ih =>
    have hrest := ih fun other hother => h other (List.mem_cons_of_mem _ hother)
    exact (hR.note (h notice List.mem_cons_self)).bind fun _ => hrest

theorem shortName (fresh : Bool) (reference : String) :
    (Compile.shortName fresh reference).Agree R (Compile.shortName fresh reference) := by
  cases fresh with
  | true => exact hR.generating _
  | false => exact hR.naming reference

/-! ### Parts that compile no other node -/

theorem withDefaults (properties : Properties) :
    properties.withDefaults.Agree R properties.withDefaults := by
  rw [Properties.withDefaults_eq]
  refine (Agree.ofExcept _).bind fun outline => Agree.bind ?_ fun name => .pure _
  rw [Properties.Outline.naming]
  split
  · exact .pure _
  · exact hR.generating _

theorem explicitState (forced : Option StateType) (entries : Entries String Node) :
    (explicitState forced entries).Agree R (explicitState forced entries) := by
  have hjournal := Properties.allocates_named entries
  refine (hR.forM_note fun notice hnotice => hjournal notice (by simpa using hnotice)).bind
    fun _ => ?_
  exact (hR.withDefaults _).bind fun properties => .ofExcept _

theorem taskState (fresh : Bool) (outline : TaskOutline) :
    (taskState fresh outline).Agree R (taskState fresh outline) := by
  unfold Flowscript.taskState
  split
  · exact (hR.shortName fresh _).bind fun name => .pure _
  · exact .refuse _

theorem submachineState (reference : String) (machine : Node) :
    (submachineState reference machine).Agree R (submachineState reference machine) :=
  (Agree.ofExcept _).bind fun _ => (hR.generating _).bind fun _ => .pure _

theorem parallelState (branches : List Branch) :
    (parallelState branches).Agree R (parallelState branches) := by
  unfold Flowscript.parallelState
  split
  · exact .refuse _
  · exact (hR.generating _).bind fun name => .pure _

theorem choiceState (payload : Node) : (choiceState payload).Agree R (choiceState payload) := by
  refine (Compile.agree_check _ _).bind fun _ => (Compile.agree_check _ _).bind fun _ => ?_
  refine (Compile.agree_text _ _).bind fun path => (Compile.agree_text _ _).bind fun operator => ?_
  refine (Compile.agree_text _ _).bind fun consequent => (hR.shortName _ _).bind fun next => ?_
  refine (Agree.ofExcept _).bind fun value => ?_
  refine Agree.ofExcept_bind fun compared hcompared => ?_
  refine (hR.forM_note (allocates_comparison hcompared)).bind fun _ => ?_
  refine (hR.generating _).bind fun name => ?_
  split
  · exact (Agree.pure _).bind fun alternate => .pure _
  · refine (Compile.agree_text _ _).bind fun alternate => (hR.shortName _ _).bind fun _ => ?_
    exact (Agree.pure _).bind fun alternate => .pure _

theorem parametersState (payload : Node) :
    (parametersState payload).Agree R (parametersState payload) := by
  refine (hR.generating _).bind fun name => ?_
  dsimp only
  split
  · exact .pure _
  · exact .pure _
  · exact (Agree.ofExcept _).bind fun parameters => .pure _
  · exact .refuse _

theorem appendState (states : List (String × State)) (s : State) :
    (appendState states s).Agree R (appendState states s) := by
  unfold Flowscript.appendState
  have hnamed (name : String) : Agree (if Entries.has name states then
      Compile.refuse (.repeatedState name) else return Branch.append states name s) R
      (if Entries.has name states then
        Compile.refuse (.repeatedState name) else return Branch.append states name s) := by
    split
    · exact .refuse _
    · exact .pure _
  split
  · exact (Agree.pure _).bind hnamed
  · exact (hR.generating _).bind hnamed

theorem assembleBranch (states : List (String × State)) :
    (assembleBranch states).Agree R (assembleBranch states) :=
  (hR.note rfl).bind fun _ => .pure _

/-! ### References -/

theorem resolve {setting : Setting} {resolver : Resolver} {reference : String}
    (h : setting.resolver reference = resolver reference) :
    (setting.resolve reference).Agree R ((setting.withResolver resolver).resolve reference) := by
  unfold Setting.resolve Setting.withResolver
  dsimp only
  rw [← h]
  split
  · exact .throw _
  · exact .pure _
  · exact (hR.note rfl).bind fun _ => .pure _

theorem shorthand {setting : Setting} {resolver : Resolver} (fresh : Bool) {node : Node}
    (h : setting.SaysAlike resolver node) :
    (setting.shorthand fresh node).Agree R ((setting.withResolver resolver).shorthand fresh node) := by
  have hresolved (resolved : Node) :
      Agree (if resolved.isMachine then Flowscript.submachineState (node.string?.getD "") resolved
        else do
          let outline ← Compile.ofExcept (TaskOutline.ofNode resolved)
          Flowscript.taskState fresh outline) R
        (if resolved.isMachine then Flowscript.submachineState (node.string?.getD "") resolved
        else do
          let outline ← Compile.ofExcept (TaskOutline.ofNode resolved)
          Flowscript.taskState fresh outline) := by
    split
    · exact hR.submachineState _ _
    · exact (Agree.ofExcept _).bind fun outline => hR.taskState fresh outline
  unfold Setting.shorthand
  dsimp only
  split
  · exact (hR.resolve (h _ rfl)).bind hresolved
  · exact (Agree.pure _).bind hresolved

end Memory.Lockstep

/-! ## The compiler -/

/-- The readers from outside the notation agree with themselves. -/
def ReaderTable.Agree (readers : ReaderTable) (R : Memory → Memory → Prop) : Prop :=
  ∀ tag compile, readers.get? tag = some (.custom compile) →
    ∀ payload, (compile payload).Agree R (compile payload)

theorem ReaderTable.BuiltIn.agree {readers : ReaderTable} (h : readers.BuiltIn)
    (R : Memory → Memory → Prop) : readers.Agree R := by
  intro tag compile hreader
  cases h.reader hreader

namespace Setting

open Compile (Agree)

variable {setting : Setting} {resolver : Resolver} {R : Memory → Memory → Prop}

theorem SaysAlike.null : setting.SaysAlike resolver .null := nofun

theorem SaysAlike.sequence {items : List Node} : setting.SaysAlike resolver (.sequence items) :=
  nofun

/-- A resolver says the same as itself. -/
theorem saysAlike_self (setting : Setting) {node : Node} :
    All (setting.SaysAlike setting.resolver) node := fun _ _ _ _ => rfl

theorem agree_sequence (hR : Memory.Lockstep R) {items : List Node}
    (hitems : ∀ item ∈ items,
      (setting.itemState item).Agree R ((setting.withResolver resolver).itemState item))
    (states : List (String × State)) :
    (setting.sequence states items).Agree R
      ((setting.withResolver resolver).sequence states items) := by
  induction items generalizing states with
  | nil =>
    rw [sequence, sequence]
    exact .pure _
  | cons item rest ih =>
    rw [sequence.eq_def setting, sequence.eq_def (setting.withResolver resolver)]
    refine (hitems item List.mem_cons_self).bind fun s => ?_
    refine (hR.appendState states s).bind fun states => ?_
    exact ih (fun other hother => hitems other (List.mem_cons_of_mem _ hother)) states

mutual

theorem agree_state (hR : Memory.Lockstep R) (hreaders : setting.readers.Agree R) (fresh : Bool)
    (node : Node) (hn : All (setting.SaysAlike resolver) node) :
    (setting.state fresh node).Agree R ((setting.withResolver resolver).state fresh node) := by
  rw [state.eq_def setting, state.eq_def (setting.withResolver resolver)]
  cases node with
  | tagged tag payload =>
    dsimp only [withResolver]
    split
    · exact .refuse _
    · rename_i reader hreader
      refine (hR.note rfl).bind fun _ => agree_read hR hreaders reader ?_ payload hn.payload
      rintro compile rfl
      exact hreaders tag compile hreader
  | string text => exact hR.shorthand fresh hn.self
  | sequence items => exact hR.shorthand fresh hn.self
  | mapping entries => exact agree_mappingState hR hreaders none entries hn
  | null => exact .refuse _
  | bool b => exact .refuse _
  | number n => exact .refuse _
termination_by (node.height, 0, 0)
decreasing_by all_goals grind [Node.height]

theorem agree_mappingState (hR : Memory.Lockstep R) (hreaders : setting.readers.Agree R)
    (forced : Option StateType) (entries : Entries String Node)
    (hn : All (setting.SaysAlike resolver) (.mapping entries)) :
    (setting.mappingState forced entries).Agree R
      ((setting.withResolver resolver).mappingState forced entries) := by
  rw [mappingState.eq_def setting, mappingState.eq_def (setting.withResolver resolver)]
  refine (hR.explicitState forced entries).bind fun s => ?_
  split
  · exact .pure _
  · rename_i node hfound
    -- the branches are the value of some entry, so they stand lower than the mapping
    obtain ⟨key, hkey⟩ := Properties.exists_mem_of_get? hfound
    have hlow := Node.height_le_entriesHeight hkey
    have harguments := Node.itemsHeight_arguments_le node
    split
    · exact .pure _
    · exact (agree_branchList hR hreaders node.arguments fun item hitem =>
        (hn.value hkey).of_mem_arguments hitem).bind fun branches => .pure _
termination_by (Node.entriesHeight entries, 5, 0)
decreasing_by grind

theorem agree_branchList (hR : Memory.Lockstep R) (hreaders : setting.readers.Agree R)
    (items : List Node) (hn : ∀ item ∈ items, All (setting.SaysAlike resolver) item) :
    (setting.branchList items).Agree R ((setting.withResolver resolver).branchList items) := by
  rw [branchList.eq_def setting, branchList.eq_def (setting.withResolver resolver)]
  cases items with
  | nil => exact .pure _
  | cons item rest =>
    refine (agree_branch hR hreaders item (hn item (by simp))).bind fun first => ?_
    exact (agree_branchList hR hreaders rest fun other hother => hn other (by simp [hother])).bind
      fun others => .pure _
termination_by (Node.itemsHeight items, 4, items.length)
decreasing_by all_goals grind [Node.itemsHeight]

theorem agree_branch (hR : Memory.Lockstep R) (hreaders : setting.readers.Agree R) (node : Node)
    (hn : All (setting.SaysAlike resolver) node) :
    (setting.branch node).Agree R ((setting.withResolver resolver).branch node) := by
  rw [branch.eq_def setting, branch.eq_def (setting.withResolver resolver)]
  split
  · exact .ofExcept _
  · split
    · exact .refuse _
    · refine (agree_sequence hR (fun item hitem => ?_) []).bind hR.assembleBranch
      have hlow := Node.height_le_itemsHeight hitem
      have harguments := Node.itemsHeight_arguments_le node
      exact agree_itemState hR hreaders item (hn.of_mem_arguments hitem)
termination_by (node.height, 3, 0)
decreasing_by grind

theorem agree_itemState (hR : Memory.Lockstep R) (hreaders : setting.readers.Agree R)
    (node : Node) (hn : All (setting.SaysAlike resolver) node) :
    (setting.itemState node).Agree R ((setting.withResolver resolver).itemState node) := by
  rw [itemState.eq_def setting, itemState.eq_def (setting.withResolver resolver)]
  cases node with
  | sequence members =>
    exact (agree_branchList hR hreaders members fun item hitem => hn.item hitem).bind
      hR.parallelState
  | _ => exact agree_state hR hreaders false _ hn
termination_by (node.height, 1, 0)
decreasing_by all_goals grind [Node.height]

theorem agree_typedState (hR : Memory.Lockstep R) (hreaders : setting.readers.Agree R)
    (type : StateType) (node : Node) (hn : All (setting.SaysAlike resolver) node) :
    (setting.typedState type node).Agree R
      ((setting.withResolver resolver).typedState type node) := by
  rw [typedState.eq_def setting, typedState.eq_def (setting.withResolver resolver)]
  cases node with
  | null => exact hR.explicitState _ _
  | string name => exact hR.explicitState _ _
  | mapping entries => exact agree_mappingState hR hreaders _ entries hn
  | _ => exact .refuse _
termination_by (node.height, 0, 0)
decreasing_by all_goals grind [Node.height]

theorem agree_read (hR : Memory.Lockstep R) (hreaders : setting.readers.Agree R) (reader : Reader)
    (hreader : ∀ compile, reader = .custom compile →
      ∀ payload, (compile payload).Agree R (compile payload))
    (payload : Node) (hn : All (setting.SaysAlike resolver) payload) :
    (setting.read reader payload).Agree R
      ((setting.withResolver resolver).read reader payload) := by
  have hlow := Node.height_argument_le 0 payload
  have harguments := Node.itemsHeight_arguments_le payload
  have hinner := hn.argument SaysAlike.null 0
  rw [read.eq_def setting, read.eq_def (setting.withResolver resolver)]
  cases reader with
  | terminal type => exact agree_typedState hR hreaders type payload hn
  | state => exact agree_state hR hreaders false payload hn
  | dupe => exact agree_state hR hreaders true payload hn
  | parallel =>
    exact (agree_branchList hR hreaders payload.arguments fun item hitem =>
      hn.of_mem_arguments hitem).bind hR.parallelState
  | choice => exact hR.choiceState payload
  | guard =>
    refine (Compile.agree_check _ _).bind fun _ => (Compile.agree_text _ _).bind fun target => ?_
    refine (agree_state hR hreaders false _ hinner).bind fun s => ?_
    exact (hR.shortName _ _).bind fun target => .pure _
  | retry =>
    refine (Compile.agree_retry _).bind fun clause => ?_
    exact (agree_state hR hreaders false _ hinner).bind fun s => .pure _
  | next =>
    refine (Compile.agree_check _ _).bind fun _ => (Compile.agree_text _ _).bind fun target => ?_
    exact (agree_state hR hreaders false _ hinner).bind fun s => .pure _
  | finish => exact (agree_state hR hreaders false payload hn).bind fun s => .pure _
  | parameters => exact hR.parametersState payload
  | custom compile => exact hreader compile rfl payload
termination_by (payload.height, 6, 0)
decreasing_by all_goals grind [Node.height]

end

theorem agree_parallel (hR : Memory.Lockstep R) (hreaders : setting.readers.Agree R) (node : Node)
    (hn : All (setting.SaysAlike resolver) node) :
    (setting.parallel node).Agree R ((setting.withResolver resolver).parallel node) :=
  (agree_branchList hR hreaders node.arguments fun _ hitem => hn.of_mem_arguments hitem).bind
    hR.parallelState

end Setting
end Flowscript
