import Flowscript.Proofs.Absence
import Flowscript.Proofs.GeneratedNames

/-!
# Defaults

What the defaults of a state come to: which properties are refused, what stands in the place of a
null, what comes behind the properties that are written, and when a name is generated. Whatever else
is written keeps its value and its place. Properties that are refused are handed back as they came
in, and leave nothing behind in the memory.
-/

namespace Flowscript

/-- The names that are generated for states of a type start with the type in lower case. -/
theorem StateType.stem_eq (type : StateType) : type.stem = type.name.toLower := by
  have hlower : type.name.toLower = type.name.map Char.toLower := rfl
  rw [hlower, ← String.toList_inj, String.toList_map]
  cases type <;> rfl

/-- The next name of a type's stem has the number to which the stem's counter has come. -/
theorem Symbols.next_stem (symbols : Symbols) (type : StateType) :
    (symbols.next type.stem).1 = name type.stem (symbols.count type.stem) ∧
      ∀ stem, (symbols.next type.stem).2.count stem =
        symbols.count stem + if stem = type.stem then 1 else 0 := by
  have heffective : effectiveStem type.stem = type.stem := by cases type <;> rfl
  refine ⟨by rw [next, heffective], fun stem => ?_⟩
  rw [count_next, heffective]
  split <;> rfl

namespace Properties

variable {properties : Properties}

/-! ## Properties that are refused -/

section ReadGiven

variable {α : Type} {read : Node → Except SyntaxError α} {write : α → Node}
  (hread : ∀ {node a}, read node = .ok a ↔ node = write a)

include hread

theorem readGiven_eq_ok_iff {given : Option Node} {value : Option α} :
    readGiven read given = .ok value ↔ given = value.map write := by
  cases given with
  | none => cases value <;> simp [readGiven]
  | some node =>
    constructor
    · intro h
      obtain ⟨a, ha, rfl⟩ := ok_of_map h
      exact congrArg some (hread.mp ha)
    · intro h
      cases value with
      | none => cases h
      | some a =>
        have ha : read node = .ok a := hread.mpr (Option.some.inj h)
        rw [readGiven, ha]
        rfl

theorem exists_of_readGiven_error {given : Option Node} {cause : SyntaxError}
    (h : readGiven read given = .error cause) : ∃ node, given = some node ∧ ∀ a, node ≠ write a := by
  cases given with
  | none => cases h
  | some node =>
    refine ⟨node, rfl, ?_⟩
    rintro a rfl
    rw [readGiven, hread.mpr rfl] at h
    cases h

end ReadGiven

theorem readText_eq_ok_iff (p : Property) {node : Node} {text : String} :
    p.readText node = .ok text ↔ node = .string text := by
  cases node <;> simp [Property.readText]

/-- A type is read from its name only. -/
theorem readType_eq_ok_iff {node : Node} {type : StateType} :
    Property.readType node = .ok type ↔ node = .string type.name := by
  constructor
  · intro h
    obtain ⟨name, hname, h⟩ := ok_of_bind h
    rw [(readText_eq_ok_iff _).mp hname]
    split at h
    · rename_i hfound
      cases h
      rw [StateType.name_of_ofName? hfound]
    · cases h
  · rintro rfl
    simp [Property.readType, Property.readText, bind, Except.bind, pure, Except.pure]

/-- What is given for the type is no type, what is given for the name is no text, or what is given
for the resource is no text, in a state that is declared to be of another type than a task. -/
inductive Unfit (properties : Properties) : Prop
  | type {node : Node} : properties.given? .type = some node →
      (∀ type : StateType, node ≠ .string type.name) → Unfit properties
  | name {node : Node} : properties.given? .name = some node →
      (∀ text, node ≠ .string text) → Unfit properties
  | resource {type : StateType} {node : Node} :
      properties.given? .type = some (.string type.name) → type ≠ .task →
      properties.given? .resource = some node → (∀ text, node ≠ .string text) → Unfit properties

/-- The outline of properties says what is given for the type and the name. -/
theorem given?_of_outline {outline : Outline} (h : properties.outline = .ok outline) :
    properties.given? .type = outline.written.map (fun type => .string type.name) ∧
      properties.given? .name = outline.name.map .string := by
  obtain ⟨htype, hname, -⟩ := outline_eq_ok h
  rw [type?_eq] at htype
  rw [text?_eq] at hname
  exact ⟨(readGiven_eq_ok_iff readType_eq_ok_iff).mp htype,
    (readGiven_eq_ok_iff (readText_eq_ok_iff _)).mp hname⟩

/-- Properties have no outline exactly if they are unfit. -/
theorem outline_eq_error_iff :
    (∃ cause, properties.outline = .error cause) ↔ properties.Unfit := by
  constructor
  -- the type is read first, then the name, and the resource only if the type does not settle it
  · rintro ⟨cause, h⟩
    rcases error_of_bind h with htype | ⟨written, htype, h⟩
    · rw [type?_eq] at htype
      obtain ⟨node, hgiven, hno⟩ := exists_of_readGiven_error readType_eq_ok_iff htype
      exact .type hgiven hno
    rcases error_of_bind h with hname | ⟨name, -, h⟩
    · rw [text?_eq] at hname
      obtain ⟨node, hgiven, hno⟩ := exists_of_readGiven_error (readText_eq_ok_iff _) hname
      exact .name hgiven hno
    dsimp only [bind, Except.bind] at h
    split at h
    · cases h
    · rename_i hother
      rcases error_of_bind h with hresource | ⟨resource, -, h⟩
      · rw [text?_eq] at hresource
        obtain ⟨node, hgiven, hno⟩ := exists_of_readGiven_error (readText_eq_ok_iff _) hresource
        rw [type?_eq, readGiven_eq_ok_iff readType_eq_ok_iff] at htype
        cases written with
        | none => exact absurd rfl hother
        | some type => exact .resource htype hother hgiven hno
      · cases h
  · intro hunfit
    cases h : properties.outline with
    | error cause => exact ⟨cause, rfl⟩
    | ok outline =>
      exfalso
      obtain ⟨htype, hname⟩ := given?_of_outline h
      rcases hunfit with ⟨hgiven, hno⟩ | ⟨hgiven, hno⟩ | ⟨hgiven, hother, hresource, hno⟩
      · rw [htype] at hgiven
        obtain ⟨type, -, rfl⟩ := Option.map_eq_some_iff.mp hgiven
        exact hno type rfl
      · rw [hname] at hgiven
        obtain ⟨name, -, rfl⟩ := Option.map_eq_some_iff.mp hgiven
        exact hno name rfl
      · rename_i type node
        rw [htype] at hgiven
        obtain ⟨written, hwritten, hsame⟩ := Option.map_eq_some_iff.mp hgiven
        have htypes : outline.type = type := by
          rw [Outline.type, hwritten]
          exact StateType.name_injective (Node.string.inj hsame)
        obtain ⟨resource, hread⟩ := (outline_eq_ok h).2.2.2 (htypes ▸ hother)
        rw [text?_eq, readGiven_eq_ok_iff (readText_eq_ok_iff _), hresource] at hread
        obtain ⟨text, -, rfl⟩ := Option.map_eq_some_iff.mp hread.symm
        exact hno text rfl

/-! ## What is filled in -/

/-- An entry with null for its value takes what is supplied for its property. -/
def fill (supplied : Properties) (entry : Property × Node) : Property × Node :=
  if entry.2.isNull then (entry.1, (supplied.get? entry.1).getD .null) else entry

/-- What is supplied stands in the place of a null, or behind what is written. -/
def filledWith (properties supplied : Properties) : Properties :=
  properties.map (fill supplied) ++ supplied.filter fun entry => !properties.has entry.1

theorem fill_singleton (h : properties.Distinct) {p : Property} {node : Node}
    (hgiven : ∀ other, properties.given? p = some other → other = node)
    {entry : Property × Node} (hentry : entry ∈ properties) :
    fill [(p, node)] entry = if entry.1 = p then (p, node) else entry := by
  obtain ⟨q, other⟩ := entry
  unfold fill
  dsimp only
  by_cases hq : q = p
  · subst hq
    cases hnull : other.isNull with
    | true => simp [Entries.get?]
    | false =>
      have hother : properties.given? q = some other := by
        rw [given?, Entries.get?_eq_of_mem h hentry]
        simp [Option.filter, hnull]
      simp [hgiven other hother]
  · cases other <;> simp [Entries.get?, Node.isNull, hq, Ne.symm hq]

/-- Writing over what is not given fills it in. -/
theorem insert_eq_filledWith (h : properties.Distinct) {p : Property} {node : Node}
    (hgiven : ∀ other, properties.given? p = some other → other = node) :
    Entries.insert p node properties = properties.filledWith [(p, node)] := by
  have hmap : properties.map (fill [(p, node)]) =
      properties.map fun entry => if entry.1 = p then (p, node) else entry :=
    List.map_congr_left fun entry hentry => fill_singleton h hgiven hentry
  rw [filledWith, hmap, Entries.insert_eq_map h]
  split
  · rename_i hkey
    have hhas : properties.has p = true := Entries.mem_keys_iff.mp hkey
    simp [hhas]
  · rename_i hkey
    have hsame : (properties.map fun entry => if entry.1 = p then (p, node) else entry) =
        properties.map id := by
      refine List.map_congr_left fun entry hentry => if_neg ?_
      rintro rfl
      exact hkey (List.mem_map_of_mem hentry)
    have hhas : properties.has p = false :=
      Bool.eq_false_iff.mpr fun h => hkey (Entries.mem_keys_iff.mpr h)
    simp [hhas, hsame]

/-- Filling in one property after another is filling in both of them. -/
theorem fill_fill {p q : Property} {first second : Node} (hnull : first.isNull = false)
    (entry : Property × Node) :
    fill [(q, second)] (fill [(p, first)] entry) = fill [(p, first), (q, second)] entry := by
  obtain ⟨key, node⟩ := entry
  cases node with
  | null =>
    have hempty : Node.null.isNull = true := rfl
    by_cases hp : p = key
    · subst hp
      simp [fill, Entries.get?, hempty, hnull]
    · simp [fill, Entries.get?, hempty, hp]
  | _ => rfl

/-- The name and the type are filled in unless they are given. -/
theorem typed_eq_filledWith (h : properties.Distinct) {outline : Outline} {name : String}
    (hname : ∀ node, properties.given? .name = some node → node = .string name)
    (htype : ∀ node, properties.given? .type = some node → node = .string outline.finalType.name) :
    properties.typed outline name = properties.filledWith
      [(.name, .string name), (.type, .string outline.finalType.name)] := by
  have hkept : (Entries.insert .name (.string name) properties).get? .type =
      properties.get? .type := Entries.get?_insert_ne (by decide) _ _
  have hhas : (Entries.insert .name (.string name) properties).has .type =
      properties.has .type := congrArg Option.isSome hkept
  have hdistinct : (Entries.insert .name (.string name) properties).Distinct :=
    Entries.distinct_insert h
  have hgiven : ∀ node, given? .type (Entries.insert .name (.string name) properties) = some node →
      node = .string outline.finalType.name := by
    intro node hnode
    rw [given?, hkept] at hnode
    exact htype node hnode
  have hfill : fill [(.type, .string outline.finalType.name)] ∘ fill [(.name, .string name)] =
      fill [(.name, .string name), (.type, .string outline.finalType.name)] :=
    funext (fill_fill rfl)
  rw [typed, insert_eq_filledWith hdistinct hgiven, filledWith, filledWith]
  -- the name that is put behind the others is no null, so filling in the type leaves it there
  simp only [List.filter_cons, hhas]
  rw [insert_eq_filledWith h hname, filledWith, List.map_append, List.map_map, hfill,
    List.append_assoc]
  congr 1
  cases hpresent : properties.has .name <;> simp [hpresent, fill, Node.isNull]

/-- Properties with the given type and name: what stands in the place of a null or behind what is
written, and the resource of a task that is named and in which none is written. -/
def defaulted (type : StateType) (name : String) (named : Bool) (properties : Properties) :
    Properties :=
  properties.filledWith [(.name, .string name), (.type, .string type.name)] ++
    if type = .task ∧ named = true ∧ properties.has .resource = false then
      [(.resource, .string name)]
    else []

theorem finalType_eq {outline : Outline} (h : properties.outline = .ok outline) :
    outline.finalType =
      outline.written.getD (if outline.name.isSome = true then .task else .pass) := by
  have hresource := (outline_eq_ok h).2.2.1
  unfold Outline.finalType Outline.type at *
  cases hwritten : outline.written with
  | some type => simp
  | none =>
    rw [hwritten] at hresource
    rw [hresource rfl]
    cases outline.name <;> rfl

theorem complete_eq_defaulted (h : properties.Distinct) {outline : Outline}
    (houtline : properties.outline = .ok outline) {name : String}
    (hname : ∀ text, outline.name = some text → name = text) :
    properties.complete outline name =
      properties.defaulted outline.finalType name outline.name.isSome := by
  obtain ⟨hwritten, hgiven⟩ := given?_of_outline houtline
  have htyped : properties.typed outline name = properties.filledWith
      [(.name, .string name), (.type, .string outline.finalType.name)] := by
    refine typed_eq_filledWith h ?_ ?_
    · intro node hnode
      rw [hgiven] at hnode
      obtain ⟨text, htext, rfl⟩ := Option.map_eq_some_iff.mp hnode
      rw [hname text htext]
    · intro node hnode
      rw [hwritten] at hnode
      obtain ⟨type, htype, rfl⟩ := Option.map_eq_some_iff.mp hnode
      rw [finalType_eq houtline, htype]
      rfl
  rw [complete_eq, defaulted, ← htyped, finalType_eq houtline, Outline.resource?, Outline.type]
  cases hnamed : outline.name with
  | none => cases outline.written <;> simp
  | some text =>
    obtain rfl := hname text hnamed
    have happend : properties.has .resource = false →
        Entries.insert .resource (.string name) (properties.typed outline name) =
          properties.typed outline name ++ [(.resource, .string name)] := by
      intro hhas
      refine Entries.insert_of_notMem ?_ _
      rw [Entries.mem_keys_iff, get?_typed (by decide) (by decide)]
      exact Bool.eq_false_iff.mp hhas
    simp only [Option.isSome_some, if_true]
    by_cases htask : outline.written.getD .task = .task
    · cases hhas : properties.has .resource with
      | false => simp [htask, happend hhas]
      | true => simp [htask]
    · simp [htask]

/-- What is written keeps its place, and its value unless that is null and filled in. -/
theorem getElem?_defaulted {i : Nat} {entry : Property × Node} (h : properties[i]? = some entry)
    (hkept : entry.2.isNull = true → entry.1 ≠ .name ∧ entry.1 ≠ .type) (type : StateType)
    (name : String) (named : Bool) : (properties.defaulted type name named)[i]? = some entry := by
  have hfill : fill [(.name, .string name), (.type, .string type.name)] entry = entry := by
    obtain ⟨p, node⟩ := entry
    cases node with
    | null =>
      obtain ⟨hname, htype⟩ := hkept rfl
      simp [fill, Entries.get?, Node.isNull, Ne.symm hname, Ne.symm htype]
    | _ => rfl
  have hmapped : (properties.map
      (fill [(.name, .string name), (.type, .string type.name)]))[i]? = some entry := by
    rw [List.getElem?_map, h, Option.map_some, hfill]
  obtain ⟨hbound, -⟩ := List.getElem?_eq_some_iff.mp hmapped
  rw [defaulted, filledWith, List.append_assoc, List.getElem?_append_left hbound, hmapped]

/-! ## Names -/

/-- The name of a state, and the memory behind it: a name that is given leaves the memory alone; any
other is the next one of the type's stem, and the counter of that stem goes forward by one. -/
def Names (written : Option StateType) (given : Option String) (memory : Memory) (name : String)
    (after : Memory) : Prop :=
  match given with
  | some text => name = text ∧ after = memory
  | none =>
    let stem := (written.getD .task).name.toLower
    name = Symbols.name stem (memory.symbols.count stem) ∧ after.names = memory.names ∧
      ∀ other, after.symbols.count other =
        memory.symbols.count other + if other = stem then 1 else 0

theorem Outline.exists_naming (outline : Outline) (memory : Memory) :
    ∃ name after, outline.naming.outcome memory = (.ok name, after) ∧
      Names outline.written outline.name memory name after := by
  unfold Outline.naming
  cases outline.name with
  | some text => exact ⟨text, memory, rfl, rfl, rfl⟩
  | none =>
    obtain ⟨hnext, hcount⟩ := memory.symbols.next_stem outline.type
    refine ⟨_, _, Compile.outcome_generateName outline.type.stem memory, ?_⟩
    rw [Names, ← StateType.stem_eq]
    exact ⟨hnext, rfl, hcount⟩

/-! ## The main statement -/

/-- What the defaults of distinct properties come to, from any memory. Unfit properties are refused,
and nothing else is; then the properties and the memory are as they were. Otherwise the type is the
one that is given, or else that of a task if a name is given and of a pass if not; the name is the
one that is given, or else a generated one; and it is the resource of a task if it is given and no
resource is written. What is written stays in its place with its value, unless it is a type or a
name of null. -/
theorem withDefaults_exact (h : properties.Distinct) (memory : Memory) :
    (properties.Unfit → ∃ cause,
      applyDefaults.outcome properties memory = (.error cause, properties, memory) ∧
      properties.withDefaults.outcome memory = (.error cause, memory)) ∧
    (¬ properties.Unfit → ∃ written given name completed after,
      properties.given? .type = Option.map (fun type : StateType => .string type.name) written ∧
      properties.given? .name = Option.map .string given ∧
      Names written given memory name after ∧
      completed = properties.defaulted
        (written.getD (if given.isSome = true then .task else .pass)) name given.isSome ∧
      applyDefaults.outcome properties memory = (.ok (), completed, after) ∧
      properties.withDefaults.outcome memory = (.ok completed, after) ∧
      ∀ (i : Nat) (entry : Property × Node), properties[i]? = some entry →
        (entry.2.isNull = true → entry.1 ≠ .name ∧ entry.1 ≠ .type) →
          completed[i]? = some entry) := by
  constructor
  · intro hunfit
    obtain ⟨cause, houtline⟩ := outline_eq_error_iff.mpr hunfit
    have houtcome : properties.withDefaults.outcome memory = (.error (.refused cause), memory) := by
      rw [withDefaults_eq, houtline]
      rfl
    refine ⟨.refused cause, ?_, houtcome⟩
    rw [outcome_applyDefaults, ← withDefaults_eq, houtcome]
  · intro hfit
    cases houtline : properties.outline with
    | error cause => exact absurd (outline_eq_error_iff.mp ⟨cause, houtline⟩) hfit
    | ok outline =>
      obtain ⟨htype, hname⟩ := given?_of_outline houtline
      obtain ⟨name, after, hnaming, hnames⟩ := outline.exists_naming memory
      have hgiven : ∀ text, outline.name = some text → name = text := by
        intro text htext
        rw [htext] at hnames
        exact hnames.1
      have houtcome : properties.withDefaults.outcome memory =
          (.ok (properties.complete outline name), after) := by
        rw [withDefaults_eq, Compile.outcome_bind_ok (Compile.outcome_ofExcept_ok houtline memory),
          Compile.outcome_bind_ok hnaming]
        rfl
      have hcompleted := complete_eq_defaulted h houtline hgiven
      rw [finalType_eq houtline] at hcompleted
      refine ⟨outline.written, outline.name, name, _, after, htype, hname, hnames, hcompleted, ?_,
        houtcome, fun i entry hentry hkept => ?_⟩
      · rw [outcome_applyDefaults, ← withDefaults_eq, houtcome]
      · rw [hcompleted]
        exact getElem?_defaulted hentry hkept _ _ _

/-- A resource that is no text is refused in a declared pass, and the properties are left as they
are. Without the declaration it is left alone: the state becomes a pass, and its name is generated
as for a task. -/
theorem withDefaults_exact_pass :
    let declared : Properties := [(.type, .string "Pass"), (.resource, .bool true)]
    let untyped : Properties := [(.type, .null), (.resource, .bool true)]
    (∃ cause, applyDefaults.outcome declared {} = (.error cause, declared, {}) ∧
      declared.withDefaults.outcome {} = (.error cause, {})) ∧
      ∃ completed after,
        completed = [(.type, .string "Pass"), (.resource, .bool true), (.name, .string "task_0")] ∧
        applyDefaults.outcome untyped {} = (.ok (), completed, after) ∧
        untyped.withDefaults.outcome {} = (.ok completed, after) := by
  intro declared untyped
  have hunfit : declared.Unfit := by
    have htype : declared.given? .type = some (.string StateType.pass.name) := rfl
    refine .resource htype (by decide) rfl ?_
    intro text htext
    cases htext
  have hfit : ¬ untyped.Unfit := by
    rintro (⟨hgiven, -⟩ | ⟨hgiven, -⟩ | ⟨hgiven, -⟩) <;> cases hgiven
  refine ⟨(withDefaults_exact (by simp [declared, Entries.Distinct, Entries.keys]) {}).1 hunfit, ?_⟩
  obtain ⟨written, given, name, completed, after, hwritten, hgiven, hnames, hcompleted, hplace,
    houtcome, -⟩ :=
    (withDefaults_exact (by simp [untyped, Entries.Distinct, Entries.keys]) {}).2 hfit
  obtain rfl : written = none := Option.map_eq_none_iff.mp hwritten.symm
  obtain rfl : given = none := Option.map_eq_none_iff.mp hgiven.symm
  obtain ⟨hname, -⟩ := hnames
  have hstem : (Option.getD none StateType.task).name.toLower = "task" :=
    (StateType.stem_eq .task).symm
  rw [hstem] at hname
  refine ⟨completed, after, ?_, hplace, houtcome⟩
  rw [hcompleted, hname]
  rfl

end Properties
end Flowscript
