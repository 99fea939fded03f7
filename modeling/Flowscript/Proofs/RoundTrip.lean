import Flowscript.Proofs.Storable
import Flowscript.Stream

/-!
# Machines that are read back

Every machine that an operation of the compiler gives back is told completely by its JSON form, and
the compiler takes that form as the machine that it is: written as a node, or as what a reference
stands for.
-/

namespace Flowscript

/-- The readers from outside the notation give back storable states only. -/
def ReaderTable.Storable (readers : ReaderTable) : Prop :=
  ∀ tag compile, readers.get? tag = some (.custom compile) →
    ∀ payload, (compile payload).Yields State.Storable

theorem ReaderTable.BuiltIn.storable {readers : ReaderTable} (h : readers.BuiltIn) :
    readers.Storable := by
  intro tag compile hreader
  cases h.reader hreader

namespace Setting

variable {setting : Setting}

/-! ## What the compiler gives back -/

/-- The states that operations of the compiler give back. -/
inductive ReturnsState (setting : Setting) : State → Prop
  | state {fresh : Bool} {node : Node} {memory after : Memory} {s : State} :
    (setting.state fresh node).outcome memory = (.ok s, after) → ReturnsState setting s
  | shorthand {fresh : Bool} {node : Node} {memory after : Memory} {s : State} :
    (setting.shorthand fresh node).outcome memory = (.ok s, after) → ReturnsState setting s
  | mapping {forced : Option StateType} {entries : Entries String Node} {memory after : Memory}
      {s : State} :
    (setting.mappingState forced entries).outcome memory = (.ok s, after) → ReturnsState setting s
  | parallel {node : Node} {memory after : Memory} {s : State} :
    (setting.parallel node).outcome memory = (.ok s, after) → ReturnsState setting s

/-- The machines that operations of the compiler give back, on their own or in the branches of
others. -/
inductive Returns (setting : Setting) : Branch → Prop
  | branch {node : Node} {memory after : Memory} {b : Branch} :
    (setting.branch node).outcome memory = (.ok b, after) → Returns setting b
  | documents {documents : List Node} {memory after : Memory} {b : Branch} :
    (setting.compileDocuments documents).outcome memory = (.ok b, after) → Returns setting b
  | text {text : String} {memory after : Memory} {b : Branch} :
    (setting.compileText text).outcome memory = (.ok b, after) → Returns setting b
  | line {number : Nat} {line : String} {memory after : Memory} {b : Branch} :
    (setting.compileLine number line).outcome memory = (.ok (some b), after) → Returns setting b
  | state {s : State} {branches : List Branch} {b : Branch} :
    ReturnsState setting s → s.branches = some branches → b ∈ branches → Returns setting b
  | nested {outer b : Branch} {entry : String × State} {branches : List Branch} :
    Returns setting outer → entry ∈ outer.states → entry.2.branches = some branches →
      b ∈ branches → Returns setting b

theorem invariant_storable (hreaders : setting.readers.Storable) :
    setting.Invariant (fun _ => True)
      (fun reader _ => ∀ compile, reader = .custom compile →
        ∀ payload, (compile payload).Yields (State.Compiled False))
      (State.Compiled False) Branch.Storable :=
  invariant_compiled fun tag compile hreader payload =>
    (hreaders tag compile hreader payload).mono fun _ hs => ⟨hs, False.elim⟩

theorem storable_compileDocuments (hreaders : setting.readers.Storable) (documents : List Node) :
    (setting.compileDocuments documents).Yields Branch.Storable := by
  have hbranch : ∀ node, (setting.branch node).Yields Branch.Storable := fun node =>
    (invariant_storable hreaders).branch node fun _ _ => trivial
  unfold compileDocuments
  dsimp only
  split
  · exact .refuse _
  · refine .after fun _ => ?_
    split
    · split
      · exact hbranch _
      · exact hbranch _
    · exact hbranch _

theorem ReturnsState.storable (hreaders : setting.readers.Storable) {s : State}
    (h : setting.ReturnsState s) : s.Storable := by
  have hall : ∀ node, Node.All (fun _ => True) node := fun _ _ _ => trivial
  have hinvariant := invariant_storable hreaders
  cases h with
  | state h => exact (hinvariant.state _ _ (hall _) _ _ _ h).storable
  | shorthand h => exact (hinvariant.shorthand _ (hall _) _ _ _ h).storable
  | mapping h =>
    exact (hinvariant.mappingState (.of_all (fun _ _ => nofun) (hall _)) _ _ _ h).storable
  | parallel h => exact (hinvariant.yields_parallel _ (hall _) _ _ _ h).storable

theorem storable_compileLine (hreaders : setting.readers.Storable) (number : Nat) (line : String) :
    (setting.compileLine number line).Yields fun found => ∀ b, found = some b → b.Storable := by
  unfold compileLine
  split
  · exact .throw _
  · split
    · exact .after fun _ => .pure nofun
    · refine (storable_compileDocuments hreaders _).bind fun found hfound => .pure ?_
      rintro b ⟨rfl⟩
      exact hfound

/-- Every machine that the compiler gives back is storable. -/
theorem Returns.storable (hreaders : setting.readers.Storable) {b : Branch}
    (h : setting.Returns b) : b.Storable := by
  induction h with
  | branch h =>
    exact (invariant_storable hreaders).branch _ (fun _ _ => trivial) _ _ _ h
  | documents h => exact storable_compileDocuments hreaders _ _ _ _ h
  | text h =>
    obtain ⟨documents, between, -, h⟩ := Compile.ok_of_bind h
    obtain ⟨-, between, -, h⟩ := Compile.ok_of_bind h
    exact storable_compileDocuments hreaders _ _ _ _ h
  | line h => exact storable_compileLine hreaders _ _ _ _ _ h _ rfl
  | state hs hbranches hb => exact (hs.storable hreaders).branches hbranches _ hb
  | nested _ hentry hbranches hb ih =>
    cases ih with
    | intro _ hstates => exact (hstates _ hentry).branches hbranches _ hb

/-! ## Machines in their JSON form -/

theorem isMachine_toJson (b : Branch) : (Node.ofJson b.toJson).isMachine = true := by
  obtain ⟨startAt, states⟩ := b
  rw [Node.isMachine_ofJson, Branch.toJson]
  rfl

theorem readMachine_toJson {b : Branch} (h : b.Storable) (cause : DecodeError → SyntaxError) :
    readMachine cause (.ofJson b.toJson) = .ok b := by
  rw [readMachine, Node.readData_ofJson]
  simp [bind, Except.bind, h.ofJson_toJson, pure, Except.pure]

/-- A machine that is written out is the branch itself, and nothing is remembered. -/
theorem outcome_branch_toJson {b : Branch} (h : b.Storable) (memory : Memory) :
    (setting.branch (.ofJson b.toJson)).outcome memory = (.ok b, memory) := by
  rw [branch, if_pos (isMachine_toJson b)]
  exact Compile.outcome_ofExcept_ok (readMachine_toJson h _) memory

/-- A reference that stands for a machine is compiled to a state that runs the machine. -/
theorem outcome_shorthand_toJson {b : Branch} (h : b.Storable) {reference : String}
    (hresolver : setting.resolver reference = .ok (some b.toJson)) (fresh : Bool)
    (memory : Memory) :
    ∃ name after, (setting.shorthand fresh (.string reference)).outcome memory =
      (.ok { State.named name .parallel with branches := some [b], outputPath := lastOutput },
        after) := by
  have hresolve : (setting.resolve reference).outcome memory =
      (.ok (.ofJson b.toJson), { memory with
        journal := .referenceResolved reference b.toJson :: memory.journal }) := by
    rw [resolve, hresolver]
    rfl
  obtain ⟨name, after, hname⟩ : ∃ name after,
      (Compile.generateName reference).outcome { memory with
        journal := .referenceResolved reference b.toJson :: memory.journal } =
          (.ok name, after) := ⟨_, _, rfl⟩
  refine ⟨name, after, ?_⟩
  have hsubmachine : (submachineState reference (.ofJson b.toJson)).outcome { memory with
      journal := .referenceResolved reference b.toJson :: memory.journal } =
        (.ok { State.named name .parallel with branches := some [b], outputPath := lastOutput },
          after) := by
    rw [submachineState,
      Compile.outcome_bind_ok (Compile.outcome_ofExcept_ok (readMachine_toJson h _) _),
      Compile.outcome_bind_ok hname]
    rfl
  rw [shorthand, Compile.outcome_bind_ok hresolve]
  simp only [isMachine_toJson, if_true]
  exact hsubmachine

/-- Whatever machine the compiler gives back is read back from its JSON form as it was, by the
decoder, by any compiler as a node, and by any compiler as what a reference stands for. -/
theorem Returns.read_back (hreaders : setting.readers.Storable) {b : Branch}
    (h : setting.Returns b) :
    Branch.ofJson b.toJson = .ok b ∧
    (∀ (other : Setting) (memory : Memory),
      (other.branch (.ofJson b.toJson)).outcome memory = (.ok b, memory)) ∧
    ∀ (other : Setting) (reference : String), other.resolver reference = .ok (some b.toJson) →
      ∀ (fresh : Bool) (memory : Memory),
        ∃ name after, (other.shorthand fresh (.string reference)).outcome memory =
          (.ok { State.named name .parallel with branches := some [b], outputPath := lastOutput },
            after) := by
  have hb := h.storable hreaders
  exact ⟨hb.ofJson_toJson, fun other => outcome_branch_toJson hb,
    fun other reference hresolver => outcome_shorthand_toJson hb hresolver⟩

/-- A machine of two branches side by side, and a reference that stands for it. -/
theorem Returns.read_back_nested :
    ∃ b, ({} : Setting).Returns b ∧ Branch.ofJson b.toJson = .ok b ∧
      (({} : Setting).branch (.ofJson b.toJson)).outcome {} = (.ok b, {}) ∧
      ∃ name after, (({ resolver := fun _ => .ok (some b.toJson) } : Setting).shorthand false
        (.string "machine")).outcome {} =
          (.ok { State.named name .parallel with branches := some [b], outputPath := lastOutput },
            after) := by
  have hok : ((({} : Setting).branch (.sequence [.string "arn:fetch",
      .sequence [.string "arn:left", .string "arn:right"]])).outcome {}).1.toOption.any
        (fun _ => true) = true := by
    simp only [Setting.branch, Setting.sequence, Setting.itemState, Setting.state, branchList,
      Node.arguments]
    decide +kernel
  obtain ⟨b, after, hrun, -⟩ := Compile.exists_of_any hok
  have hreturns : ({} : Setting).Returns b := .branch hrun
  obtain ⟨hjson, hnode, hreference⟩ :=
    Returns.read_back ReaderTable.standard_builtIn.storable hreturns
  exact ⟨b, hreturns, hjson, hnode {} {},
    hreference { resolver := fun _ => .ok (some b.toJson) } "machine" rfl false {}⟩

end Setting
end Flowscript
