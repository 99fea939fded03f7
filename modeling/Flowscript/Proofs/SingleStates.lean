import Flowscript.Compiler
import Flowscript.Proofs.DataNodes
import Flowscript.Proofs.Fields
import Flowscript.Proofs.Properties

/-!
# States that need no other state

What can be said of the states that are compiled without compiling another node: those that a
mapping writes out, shorthand tasks, choices, and states that reshape their input.
-/

namespace Flowscript

/-! ## The state of a mapping -/

/-- The state of a mapping is read from its properties behind their defaults. -/
theorem explicitState_eq (forced : Option StateType) (entries : Entries String Node) :
    explicitState forced entries = (do
      (Properties.named entries).journal.reverse.forM Compile.note
      let completed ← (Properties.ofMapping forced entries).withDefaults
      Compile.ofExcept completed.toState) := by
  cases forced <;> rfl

/-- What holds of a state that is written out, if it is kept by the texts that stand for a name, a
type or a resource and by the properties of the mapping. -/
theorem explicitState_yields {I : State → Prop} {entries : Entries String Node}
    (forced : Option StateType) (hstart : I {})
    (htext : ∀ {p text s t}, p = .name ∨ p = .type ∨ p = .resource → I s →
      s.read p (.string text) = .ok t → I t)
    (hread : ∀ {p node s t}, (p, node) ∈ Properties.ofEntries entries → node.isNull = false → I s →
      s.read p node = .ok t → I t) :
    (explicitState forced entries).Yields I := by
  rw [explicitState_eq]
  refine .after fun _ => (Properties.withDefaults_yields _).bind fun completed hcompleted => ?_
  obtain ⟨outline, name, -, rfl⟩ := hcompleted
  refine .ofExcept fun s hs => Properties.toState_keeps hstart ?_ hs
  intro p node s t hmem hnull hs ht
  rcases Properties.mem_complete hmem with ⟨hp, text, rfl⟩ | hmem
  · exact htext hp hs ht
  · rcases Properties.mem_ofMapping hmem with ⟨rfl, text, rfl⟩ | hmem
    · exact htext (.inr (.inl rfl)) hs ht
    · exact hread hmem hnull hs ht

/-- The properties that may come into a state without a key of their own. -/
def Property.supplied : List Property := [.name, .type, .resource, .result, .resultPath]

/-- A field is absent if no key of the mapping means it, except for those that are supplied. -/
theorem explicitState_absent {entries : Entries String Node} {p : Property}
    (hsupplied : p ∉ Property.supplied)
    (hkeys : ∀ key ∈ Entries.keys entries, Property.ofKey? key ≠ some p)
    (forced : Option StateType) :
    (explicitState forced entries).Yields fun s => s.fieldJson none p = none := by
  refine explicitState_yields forced ?_ ?_ ?_
  · cases p <;> first | rfl | simp [Property.supplied] at hsupplied
  -- each step reads another property, and so leaves the field alone
  · intro q text s t hq hs hread
    rw [State.fieldJson_read hread, hs]
    rintro rfl
    rcases hq with rfl | rfl | rfl <;> simp [Property.supplied] at hsupplied
  · intro q node s t hmem _ hs hread
    rw [State.fieldJson_read hread, hs]
    rintro rfl
    rcases Properties.mem_ofEntries hmem with rfl | rfl | ⟨key, hkey, hmeans⟩
    · simp [Property.supplied] at hsupplied
    · simp [Property.supplied] at hsupplied
    · exact hkeys key (List.mem_map_of_mem hkey) hmeans

/-- Branches are left to be compiled. -/
theorem explicitState_branches (forced : Option StateType) (entries : Entries String Node) :
    (explicitState forced entries).Yields fun s => s.branches = none := by
  refine explicitState_yields forced rfl ?_ ?_
  · intro p text s t _ hs hread
    rw [(State.eq_adopt_of_read hread).2, hs]
  · intro p node s t _ _ hs hread
    rw [(State.eq_adopt_of_read hread).2, hs]

/-- The name of a state is the one among its properties. -/
theorem Properties.name_of_toState {properties : Properties} (hdistinct : properties.Distinct)
    {name : String} (hname : properties.get? .name = some (.string name)) {s : State}
    (h : properties.toState = .ok s) : s.name = some name := by
  suffices ∀ (rest : Properties) (before : State),
      (∀ node, (Property.name, node) ∈ rest → node = .string name) →
      (before.name = some name ∨ (Property.name, .string name) ∈ rest) →
      rest.foldlM (fun s entry => if entry.2.isNull then .ok s else s.read entry.1 entry.2) before =
        Except.ok (ε := SyntaxError) s → s.name = some name by
    refine this properties {} (fun node hnode => ?_) (.inr (Entries.mem_of_get? hname)) h
    have hnode := Entries.get?_eq_of_mem hdistinct hnode
    exact Option.some.inj (hnode.symm.trans hname)
  intro rest
  induction rest with
  | nil =>
    rintro before - (hbefore | hmem) hs
    · cases hs
      exact hbefore
    · cases hmem
  | cons entry rest ih =>
    obtain ⟨p, node⟩ := entry
    intro before hnames hbefore hs
    rw [List.foldlM_cons] at hs
    obtain ⟨t, ht, hs⟩ := ok_of_bind hs
    refine ih t (fun node hnode => hnames node (List.mem_cons_of_mem _ hnode)) ?_ hs
    by_cases hp : p = .name
    · subst hp
      obtain rfl := hnames node List.mem_cons_self
      cases ht
      exact .inl rfl
    · have hsame : t.name = before.name := by
        dsimp only at ht
        split at ht
        · cases ht
          rfl
        · exact State.name_read ht hp
      rw [hsame]
      refine hbefore.imp_right fun hmem => (List.mem_cons.mp hmem).resolve_left ?_
      exact fun heq => hp (congrArg Prod.fst heq).symm

/-- A state that is written out has the text of its name for a name, whatever stands in it. -/
theorem explicitState_name {entries : Entries String Node} {name : String}
    (hname : (Properties.ofEntries entries).get? .name = some (.string name))
    (forced : Option StateType) :
    (explicitState forced entries).Yields (·.name = some name) := by
  rw [← Properties.get?_ofMapping forced entries (by decide)] at hname
  rw [explicitState_eq]
  refine .after fun _ => (Properties.withDefaults_named hname).bind fun completed hcompleted => ?_
  obtain ⟨outline, rfl⟩ := hcompleted
  obtain ⟨hdistinct, hname⟩ :=
    Properties.complete_named outline name (Properties.distinct_ofMapping forced entries)
  exact .ofExcept fun s hs => Properties.name_of_toState hdistinct hname hs

/-- What holds of the state of a mapping, if compiled branches may be added to it. -/
theorem Setting.mappingState_yields (setting : Setting) {I : State → Prop}
    {forced : Option StateType} {entries : Entries String Node}
    (h : (explicitState forced entries).Yields I)
    (hbranches : ∀ s branches, I s → I { s with branches := some branches }) :
    (setting.mappingState forced entries).Yields I := by
  rw [mappingState]
  refine h.bind fun s hs => ?_
  split
  · exact .pure hs
  · split
    · exact .pure hs
    · exact .after fun branches => .pure (hbranches s branches hs)

theorem Setting.mappingState_name (setting : Setting) {entries : Entries String Node}
    {name : String} (hname : (Properties.ofEntries entries).get? .name = some (.string name))
    (forced : Option StateType) :
    (setting.mappingState forced entries).Yields (·.name = some name) :=
  setting.mappingState_yields (explicitState_name hname forced) fun _ _ hs => hs

theorem Properties.ofEntries_name (name : String) :
    (ofEntries [("Name", .string name)]).get? .name = some (.string name) := by
  have hkey : Property.ofKey? "Name" = some .name :=
    Property.ofKey?_text (by decide : Property.name ∈ Property.canonical)
  simp [ofEntries, relocate, named, Draft.add, hkey, move, Entries.insert, Entries.get?,
    Entries.has]

/-! ## Shorthand tasks -/

theorem exists_object_of_readData {entries : Entries String Node} {value : Json}
    (h : Property.readData (.mapping entries) = .ok value) : ∃ fields, value = .object fields := by
  have hnode := Node.eq_ofJson_of_readData h
  cases value with
  | object fields => exact ⟨fields, rfl⟩
  | _ => cases hnode

/-- What the first part of a task is tells what the others are. -/
theorem TaskOutline.ofParts_cases {first second third : Node} {outline : TaskOutline}
    (h : TaskOutline.ofParts first second third = .ok outline) :
    (∃ entries value path, first = .mapping entries ∧ Property.readData first = .ok value ∧
        readPath third = .ok path ∧
        outline = { resource := second, parameters := some value, resultPath := path }) ∨
      (∃ input path, first = .string input ∧ startsPath input = true ∧ readPath third = .ok path ∧
        outline = { resource := second, inputPath := some input, resultPath := path }) ∨
      ((∀ input, first = .string input → startsPath input = false) ∧ third = .null ∧
        ∃ path, readPath second = .ok path ∧
          outline = { resource := first, resultPath := path }) := by
  have hplain : (if !third.isNull then .error .misplacedThird
        else do return { resource := first, resultPath := ← readPath second } :
          Except SyntaxError TaskOutline) = .ok outline →
      third = .null ∧ ∃ path, readPath second = .ok path ∧
        outline = { resource := first, resultPath := path } := by
    intro h
    split at h
    · cases h
    · rename_i hnull
      obtain ⟨path, hpath, h⟩ := ok_of_bind h
      cases h
      refine ⟨?_, path, hpath, rfl⟩
      cases third <;> first | rfl | exact absurd rfl hnull
  unfold TaskOutline.ofParts at h
  dsimp only at h
  split at h
  · obtain ⟨value, hvalue, h⟩ := ok_of_bind h
    obtain ⟨path, hpath, h⟩ := ok_of_bind h
    cases h
    exact .inl ⟨_, value, path, rfl, hvalue, hpath, rfl⟩
  · rename_i input
    split at h
    · rename_i hstarts
      obtain ⟨path, hpath, h⟩ := ok_of_bind h
      cases h
      exact .inr (.inl ⟨input, path, rfl, hstarts, hpath, rfl⟩)
    · rename_i hstarts
      refine .inr (.inr ⟨?_, hplain h⟩)
      rintro _ ⟨rfl⟩
      exact Bool.eq_false_iff.mpr hstarts
  · rename_i hstring
    exact .inr (.inr ⟨fun input hinput => absurd hinput (hstring input), hplain h⟩)

/-- The parameters of a task are an object, if there are any. -/
theorem parameters_of_ofParts {first second third : Node} {outline : TaskOutline}
    (h : TaskOutline.ofParts first second third = .ok outline) {value : Json}
    (hvalue : outline.parameters = some value) : ∃ fields, value = .object fields := by
  rcases TaskOutline.ofParts_cases h with ⟨entries, parameters, path, rfl, hparameters, -, rfl⟩ |
    ⟨input, path, -, -, -, rfl⟩ | ⟨-, -, path, -, rfl⟩
  · cases hvalue
    exact exists_object_of_readData hparameters
  · cases hvalue
  · cases hvalue

theorem parameters_of_ofNode {node : Node} {outline : TaskOutline}
    (h : TaskOutline.ofNode node = .ok outline) {value : Json}
    (hvalue : outline.parameters = some value) : ∃ fields, value = .object fields := by
  unfold TaskOutline.ofNode at h
  split at h
  · cases h
  · cases h
    cases hvalue
  · exact parameters_of_ofParts h hvalue
  · exact parameters_of_ofParts h hvalue
  · cases h
  · cases h
    cases hvalue

/-- A reference stands for a machine only if the resolver answers with one. -/
theorem Setting.resolve_yields (setting : Setting) (reference : String) :
    (setting.resolve reference).Yields fun resolved => resolved.isMachine = true →
      ∃ value, setting.resolver reference = .ok (some value) ∧ resolved = .ofJson value := by
  unfold Setting.resolve
  split
  · exact .throw _
  · exact .pure nofun
  · rename_i value hvalue
    exact .after fun _ => .pure fun _ => ⟨value, hvalue, rfl⟩

/-- A machine that is read is decoded from data. -/
theorem exists_of_readMachine {cause : DecodeError → SyntaxError} {node : Node} {b : Branch}
    (h : readMachine cause node = .ok b) :
    ∃ value, Property.readData node = .ok value ∧ Branch.ofJson value = .ok b := by
  unfold readMachine at h
  obtain ⟨value, hvalue, h⟩ := ok_of_bind h
  split at h
  · rename_i hdecoded
    cases h
    exact ⟨value, hvalue, hdecoded⟩
  · cases h

/-- What holds of shorthand tasks: of those with a resource, and of those whose reference stands for
a machine. -/
theorem Setting.shorthand_yields {setting : Setting} {S : State → Prop} {Q : Node → Prop}
    (fresh : Bool) (node : Node)
    (hresolve : ∀ reference, node = .string reference → (setting.resolve reference).Yields Q)
    (hnode : Q node)
    (htask : ∀ {name resource parameters inputPath resultPath},
      (∀ value, parameters = some value → ∃ fields, value = .object fields) →
      S { State.named name .task with
        resource := some resource, parameters, inputPath, resultPath })
    (hmachine : ∀ {resolved name machine cause}, Q resolved → resolved.isMachine = true →
      readMachine cause resolved = .ok machine →
      S { State.named name .parallel with branches := some [machine], outputPath := lastOutput }) :
    (setting.shorthand fresh node).Yields S := by
  have hresolved : ∀ resolved, Q resolved →
      Compile.Yields (if resolved.isMachine then submachineState (node.string?.getD "") resolved
        else do
          let outline ← Compile.ofExcept (TaskOutline.ofNode resolved)
          taskState fresh outline) S := by
    intro resolved hQ
    split
    · rename_i hread
      unfold submachineState
      refine (Compile.Yields.ofExcept fun machine hmachine => hmachine).bind
        fun machine hdecoded => ?_
      exact .after fun name => .pure (hmachine hQ hread hdecoded)
    · have houtline : (Compile.ofExcept (TaskOutline.ofNode resolved)).Yields fun outline =>
          ∀ value, outline.parameters = some value → ∃ fields, value = .object fields :=
        .ofExcept fun outline h value hvalue => parameters_of_ofNode h hvalue
      refine houtline.bind fun outline hparameters => ?_
      unfold taskState
      split
      · exact .after fun name => .pure (htask hparameters)
      · exact .refuse _
  unfold Setting.shorthand
  dsimp only
  split
  · exact (hresolve _ rfl).bind hresolved
  · exact (Compile.Yields.pure hnode).bind hresolved

/-! ## Choices and reshaped inputs -/

theorem choiceState_yields (payload : Node) :
    (choiceState payload).Yields fun s =>
      ∃ name rules default,
        s = { State.named name .choice with choices := some rules, default := default } := by
  unfold choiceState
  dsimp only
  iterate 7 refine .after fun _ => ?_
  split
  · iterate 4 refine .after fun _ => ?_
    exact .pure ⟨_, _, _, rfl⟩
  · iterate 6 refine .after fun _ => ?_
    exact .pure ⟨_, _, _, rfl⟩

theorem parametersState_yields (payload : Node) :
    (parametersState payload).Yields fun s =>
      (∃ name path, s = { State.named name .pass with outputPath := some path }) ∨
        ∃ name fields, s = { State.named name .pass with parameters := some (.object fields) } := by
  unfold parametersState
  refine .after fun name => ?_
  dsimp only
  split
  · exact .pure (.inl ⟨name, _, rfl⟩)
  · exact .pure (.inr ⟨name, _, rfl⟩)
  · refine (Compile.Yields.ofExcept fun value => exists_object_of_readData).bind
      fun value hvalue => ?_
    obtain ⟨fields, rfl⟩ := hvalue
    exact .pure (.inr ⟨name, fields, rfl⟩)
  · exact .refuse _

end Flowscript
