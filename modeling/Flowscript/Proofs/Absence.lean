import Flowscript.Proofs.KeyOrder

/-!
# Null and absent properties

A property whose value is null is read as if it were not there, and the defaults take it for absent,
with one exception: a resource of null keeps a task from getting its name for a resource. The main
statement compares what properties describe with what they describe without their nulls.
-/

namespace Flowscript

namespace Entries

variable {κ α : Type} [DecidableEq κ]

theorem erase_insert_of_ne {key other : κ} (h : key ≠ other) (value : α) (entries : Entries κ α) :
    (entries.insert key value).erase other = (entries.erase other).insert key value := by
  induction entries with
  | nil => simp [insert, Entries.erase, h]
  | cons entry rest ih =>
    obtain ⟨k, v⟩ := entry
    by_cases hkey : k = key
    · subst hkey
      simp [insert, Entries.erase, h]
    · by_cases hother : k = other
      · subst hother
        simp [insert, Entries.erase, hkey]
      · simp [insert, Entries.erase, hkey, hother, ih]

theorem erase_of_notMem {key : κ} {entries : Entries κ α} (h : key ∉ entries.keys) :
    entries.erase key = entries := by
  induction entries with
  | nil => rfl
  | cons entry rest ih =>
    obtain ⟨k, v⟩ := entry
    have hkey : k ≠ key := by
      rintro rfl
      exact h List.mem_cons_self
    rw [Entries.erase, if_neg hkey, ih fun hmem => h (List.mem_cons_of_mem _ hmem)]

theorem get?_filter {entries : Entries κ α} (h : entries.Distinct) (kept : α → Bool) (key : κ) :
    get? key (entries.filter fun entry => kept entry.2) = (entries.get? key).filter kept := by
  induction entries with
  | nil => rfl
  | cons entry rest ih =>
    obtain ⟨k, v⟩ := entry
    have hrest := ih (List.nodup_cons.mp h).2
    by_cases hk : k = key
    · subst hk
      have habsent : get? k rest = none := by
        have hkeys : k ∉ keys rest := (List.nodup_cons.mp h).1
        rw [mem_keys_iff] at hkeys
        simpa using hkeys
      cases hv : kept v <;> simp [hv, get?, hrest, habsent, Option.filter]
    · cases hv : kept v <;> simp [hv, get?, hk, hrest]

end Entries

/-- A map that changes nothing of the value, if there is one. -/
theorem map_eq_self {ε α : Type} {value : Except ε α} {f : α → α}
    (h : ∀ a, value = .ok a → f a = a) : value.map f = value := by
  cases value with
  | error cause => rfl
  | ok a => exact congrArg Except.ok (h a rfl)

/-! ## Reading fields around one of them -/

namespace State

/-- A field that no entry names may be set before the entries are read or behind them. -/
theorem foldlM_adopt {p : Property} (source : State) {entries : Properties}
    (h : p ∉ Entries.keys entries) (s : State) :
    entries.foldlM readEntry (s.adopt p source) =
      (entries.foldlM readEntry s).map (·.adopt p source) := by
  induction entries generalizing s with
  | nil => rfl
  | cons entry rest ih =>
    obtain ⟨q, node⟩ := entry
    have hne : p ≠ q := by
      rintro rfl
      exact h List.mem_cons_self
    have hrest := ih fun hmem => h (List.mem_cons_of_mem _ hmem)
    rw [List.foldlM_cons, List.foldlM_cons]
    unfold readEntry
    cases hnull : node.isNull with
    | true => exact hrest s
    | false =>
      simp only [Bool.false_eq_true, if_false]
      rw [read_eq_adopt (s.adopt p source) q node, read_eq_adopt s q node]
      cases ({} : State).read q node with
      | error cause => rfl
      | ok t =>
        simp only [Except.map, bind, Except.bind]
        rw [adopt_comm hne]
        exact hrest (s.adopt q t)

/-- The state without its resource. -/
def withoutResource (s : State) : State := { s with resource := none }

theorem withoutResource_of_none {s : State} (h : s.resource = none) : s.withoutResource = s := by
  cases s
  cases h
  rfl

/-- Writing a value that can be read sets its field, whatever stands around it. -/
theorem foldlM_insert {p : Property} {node : Node} {t : State} (hnull : node.isNull = false)
    (hread : ({} : State).read p node = .ok t) {entries : Properties} (h : entries.Distinct)
    (s : State) :
    (Entries.insert p node entries).foldlM readEntry s =
      ((Entries.erase p entries).foldlM readEntry s).map (·.adopt p t) := by
  have hentry (s : State) : s.readEntry (p, node) = .ok (s.adopt p t) := by
    rw [readEntry, hnull, if_neg Bool.false_ne_true, read_eq_adopt, hread]
    rfl
  induction entries generalizing s with
  | nil =>
    rw [Entries.insert, List.foldlM_cons, hentry]
    rfl
  | cons entry rest ih =>
    obtain ⟨q, value⟩ := entry
    obtain ⟨hfresh, hrest⟩ := List.nodup_cons.mp h
    by_cases hq : q = p
    · subst hq
      rw [Entries.insert, if_pos rfl, Entries.erase, if_pos rfl, List.foldlM_cons, hentry]
      exact foldlM_adopt t hfresh s
    · rw [Entries.insert, if_neg hq, Entries.erase, if_neg hq, List.foldlM_cons, List.foldlM_cons]
      cases s.readEntry (q, value) with
      | error cause => rfl
      | ok u => exact ih hrest u

end State

namespace Properties

/-! ## Properties that are given -/

/-- What is given for a property. Null counts for nothing. -/
def given? (p : Property) (properties : Properties) : Option Node :=
  (properties.get? p).filter fun node => !node.isNull

/-- Reads what is given, if anything is. -/
def readGiven {α : Type} (read : Node → Except SyntaxError α) :
    Option Node → Except SyntaxError (Option α)
  | none => .ok none
  | some node => (read node).map some

theorem text?_eq (p : Property) (properties : Properties) :
    properties.text? p = readGiven p.readText (properties.given? p) := by
  unfold text? given?
  cases properties.get? p with
  | none => rfl
  | some node => cases node <;> rfl

theorem type?_eq (properties : Properties) :
    properties.type? = readGiven Property.readType (properties.given? .type) := by
  unfold type? given?
  cases properties.get? .type with
  | none => rfl
  | some node => cases node <;> rfl

/-! ## Properties without nulls -/

/-- Properties without those that are null. -/
def withoutNulls (properties : Properties) : Properties :=
  properties.filter fun entry => !entry.2.isNull

variable {properties : Properties}

theorem toState_withoutNulls (properties : Properties) :
    properties.withoutNulls.toState = properties.toState := by
  suffices ∀ s : State, properties.withoutNulls.foldlM State.readEntry s =
      properties.foldlM State.readEntry s from this {}
  unfold withoutNulls
  induction properties with
  | nil =>
    intro s
    rfl
  | cons entry rest ih =>
    intro s
    cases hnull : entry.2.isNull with
    | true =>
      have hskip : s.readEntry entry = .ok s := by simp [State.readEntry, hnull]
      rw [List.filter_cons_of_neg (by simp [hnull]), List.foldlM_cons, hskip]
      exact ih s
    | false =>
      rw [List.filter_cons_of_pos (by simp [hnull]), List.foldlM_cons, List.foldlM_cons]
      cases s.readEntry entry with
      | error cause => rfl
      | ok t => exact ih t

theorem distinct_withoutNulls (h : properties.Distinct) : properties.withoutNulls.Distinct :=
  List.Nodup.sublist (List.Sublist.map _ List.filter_sublist) h

theorem get?_withoutNulls (h : properties.Distinct) (p : Property) :
    properties.withoutNulls.get? p = (properties.get? p).filter fun node => !node.isNull :=
  Entries.get?_filter h (fun node => !node.isNull) p

theorem erase_withoutNulls (h : properties.Distinct) (p : Property) :
    Entries.erase p properties.withoutNulls = withoutNulls (Entries.erase p properties) := by
  rw [Entries.erase_eq_filter (distinct_withoutNulls h), Entries.erase_eq_filter h]
  unfold withoutNulls
  rw [List.filter_filter, List.filter_filter]
  simp only [Bool.and_comm]

theorem given?_withoutNulls (h : properties.Distinct) (p : Property) :
    properties.withoutNulls.given? p = properties.given? p := by
  unfold given?
  rw [get?_withoutNulls h, Option.filter_filter]
  simp

theorem text?_withoutNulls (h : properties.Distinct) (p : Property) :
    properties.withoutNulls.text? p = properties.text? p := by
  rw [text?_eq, text?_eq, given?_withoutNulls h]

theorem outline_withoutNulls (h : properties.Distinct) :
    properties.withoutNulls.outline = properties.outline := by
  have htype : properties.withoutNulls.type? = properties.type? := by
    rw [type?_eq, type?_eq, given?_withoutNulls h]
  unfold outline
  rw [htype, text?_withoutNulls h, text?_withoutNulls h]

theorem branches?_withoutNulls (h : properties.Distinct) :
    properties.withoutNulls.branches? = properties.branches? := given?_withoutNulls h .branches

/-! ## Completed properties -/

/-- Properties with the given name and with the type that their outline tells. -/
def typed (outline : Outline) (name : String) (properties : Properties) : Properties :=
  (Entries.insert .name (.string name) properties).insert .type (.string outline.finalType.name)

/-- Completing properties names and types them, and adds the resource that the name stands for,
unless there is one. -/
theorem complete_eq (outline : Outline) (name : String) (properties : Properties) :
    properties.complete outline name =
      match outline.resource? with
      | none => properties.typed outline name
      | some resource =>
        if properties.has .resource then properties.typed outline name
        else (properties.typed outline name).insert .resource (.string resource) := by
  have hhas : (properties.typed outline name).has .resource = properties.has .resource := by
    unfold typed Entries.has
    rw [Entries.get?_insert_ne (by decide), Entries.get?_insert_ne (by decide)]
  rw [← hhas]
  unfold complete typed
  dsimp only
  split
  next resource hresource => simp only [hresource]
  next hresource => simp only [hresource]

theorem distinct_typed (h : properties.Distinct) (outline : Outline) (name : String) :
    (properties.typed outline name).Distinct :=
  Entries.distinct_insert (Entries.distinct_insert h)

/-- A name and a type can always be read, so it does not matter where they stand. -/
theorem toState_typed (h : properties.Distinct) (outline : Outline) (name : String) :
    (properties.typed outline name).toState =
      ((toState (Entries.erase .name (Entries.erase .type properties))).map
        (·.adopt .name { name := some name })).map
          (·.adopt .type { type := outline.finalType }) := by
  have hname : ({} : State).read .name (.string name) = .ok { name := some name } := rfl
  have htype : ({} : State).read .type (.string outline.finalType.name) =
      .ok { type := outline.finalType } := by
    simp [State.read, Property.readType, Property.readText, bind, Except.bind, pure, Except.pure]
  have hnamed : (Entries.insert .name (.string name) properties).Distinct :=
    Entries.distinct_insert h
  have htyped := State.foldlM_insert rfl htype hnamed {}
  rw [Entries.erase_insert_of_ne (by decide),
    State.foldlM_insert rfl hname (Entries.distinct_erase h .type)] at htyped
  exact htyped

theorem toState_typed_withoutNulls (h : properties.Distinct) (outline : Outline) (name : String) :
    (properties.withoutNulls.typed outline name).toState =
      (properties.typed outline name).toState := by
  rw [toState_typed h, toState_typed (distinct_withoutNulls h), erase_withoutNulls h,
    erase_withoutNulls (Entries.distinct_erase h _), toState_withoutNulls]

theorem get?_typed {p : Property} (hname : p ≠ .name) (htype : p ≠ .type) (outline : Outline)
    (name : String) (properties : Properties) :
    (properties.typed outline name).get? p = properties.get? p := by
  rw [typed, Entries.get?_insert_ne htype, Entries.get?_insert_ne hname]

/-- Completing properties leaves their branches alone. -/
theorem branches?_complete (outline : Outline) (name : String) (properties : Properties) :
    (properties.complete outline name).branches? = properties.branches? := by
  unfold branches?
  rw [complete_eq]
  split
  · rw [get?_typed (by decide) (by decide)]
  · split
    · rw [get?_typed (by decide) (by decide)]
    · rw [Entries.get?_insert_ne (by decide), get?_typed (by decide) (by decide)]

/-- A state has no resource if its properties have none. -/
theorem resource_of_toState (h : properties.get? .resource = none) {s : State}
    (hs : properties.toState = .ok s) : s.resource = none := by
  refine toState_keeps (I := fun s => s.resource = none) rfl ?_ hs
  intro p node s t hmem _ hresource hread
  have hne : p ≠ .resource := by
    rintro rfl
    have hkey : Property.resource ∈ Entries.keys properties := List.mem_map_of_mem hmem
    rw [Entries.mem_keys_iff, h] at hkey
    cases hkey
  rw [(State.eq_adopt_of_read hread).1]
  cases p <;> first | exact hresource | contradiction

/-- A resource that is added is the resource of the state. -/
theorem toState_insert_resource (h : properties.Distinct)
    (habsent : properties.get? .resource = none) (resource : String) :
    toState (Entries.insert .resource (.string resource) properties) =
      properties.toState.map fun s => { s with resource := some resource } := by
  have hread : ({} : State).read .resource (.string resource) =
      .ok { resource := some resource } := rfl
  have hkey : Property.resource ∉ Entries.keys properties := by
    rw [Entries.mem_keys_iff, habsent]
    simp
  have hinsert := State.foldlM_insert rfl hread h {}
  rw [Entries.erase_of_notMem hkey] at hinsert
  exact hinsert

/-- Properties are completed to the state that they describe with a name and a type, and without a
resource of their own to the one with the resource that the name stands for. -/
theorem toState_complete (h : properties.Distinct) (outline : Outline) (name : String) :
    (properties.complete outline name).toState =
      (properties.typed outline name).toState.map fun s =>
        if properties.has .resource then s else { s with resource := outline.resource? } := by
  have htyped : (properties.typed outline name).get? .resource = properties.get? .resource :=
    get?_typed (by decide) (by decide) _ _ _
  rw [complete_eq]
  cases hresource : properties.has .resource with
  | true =>
    have hkept : (properties.typed outline name).toState.map (fun s => if true = true then s
        else { s with resource := outline.resource? }) = (properties.typed outline name).toState :=
      map_eq_self fun s hs => rfl
    rw [hkept]
    split <;> rfl
  | false =>
    have habsent : properties.get? .resource = none := by simpa [Entries.has] using hresource
    rw [habsent] at htyped
    simp only [Bool.false_eq_true, if_false]
    cases outline.resource? with
    | none =>
      exact (map_eq_self fun s hs =>
        State.withoutResource_of_none (resource_of_toState htyped hs)).symm
    | some resource => exact toState_insert_resource (distinct_typed h outline name) htyped resource

/-- Whether a resource of null is written. -/
def nullsResource (properties : Properties) : Bool := (properties.get? .resource).any Node.isNull

/-- Without their nulls properties are completed to the same state, but a resource of null keeps the
state from having one. -/
theorem toState_complete_withoutNulls (h : properties.Distinct) (outline : Outline)
    (name : String) : (properties.complete outline name).toState =
      (properties.withoutNulls.complete outline name).toState.map fun s =>
        if properties.nullsResource then s.withoutResource else s := by
  rw [toState_complete h, toState_complete (distinct_withoutNulls h),
    toState_typed_withoutNulls h]
  have hkept := get?_withoutNulls h .resource
  unfold nullsResource Entries.has
  rw [hkept]
  cases hs : (properties.typed outline name).toState with
  | error cause => rfl
  | ok s =>
    cases hresource : properties.get? .resource with
    | none => rfl
    | some node =>
      cases hnull : node.isNull with
      | true =>
        have hbare : s.resource = none := by
          rw [← toState_typed_withoutNulls h] at hs
          refine resource_of_toState ?_ hs
          rw [get?_typed (by decide) (by decide), hkept, hresource]
          simp [Option.filter, hnull]
        simp only [Except.map, Option.filter, Option.any_some, hnull, Option.isSome_some, if_true]
        exact congrArg Except.ok (State.withoutResource_of_none hbare).symm
      | false => simp [Except.map, Option.filter, hnull]

/-! ## The main statement -/

/-- The state that properties describe with their defaults, and the branches that are left to be
compiled. -/
def described (properties : Properties) : Compile (State × Option Node) := do
  let completed ← properties.withDefaults
  let s ← Compile.ofExcept completed.toState
  return (s, completed.branches?)

/-- What properties describe, told from what they describe without their nulls. -/
theorem described_eq (h : properties.Distinct) :
    properties.described = (do
      let (s, left?) ← properties.withoutNulls.described
      return (if properties.nullsResource then s.withoutResource else s, left?)) := by
  unfold described
  rw [withDefaults_eq, withDefaults_eq, outline_withoutNulls h]
  simp only [bind_assoc, pure_bind]
  congr
  funext outline
  congr
  funext name
  rw [toState_complete_withoutNulls h, branches?_complete, branches?_complete,
    branches?_withoutNulls h]
  cases (properties.withoutNulls.complete outline name).toState with
  | error cause => rfl
  | ok s => rfl

/-- Nulls count for nothing among the properties of a state: without them the outcome is the same,
in what is described, in the failure and in what is remembered. The exception is a resource of null,
by which a state is left without the resource that its name would stand for. -/
theorem described_withoutNulls (h : properties.Distinct) (memory : Memory) :
    (properties.get? .resource ≠ some .null →
      properties.described.outcome memory = properties.withoutNulls.described.outcome memory) ∧
    (properties.get? .resource = some .null →
      properties.described.outcome memory = (do
        let (s, left?) ← properties.withoutNulls.described
        return (s.withoutResource, left?)).outcome memory) := by
  rw [described_eq h]
  constructor
  · intro hresource
    have hnulls : properties.nullsResource = false := by
      unfold nullsResource
      cases hnode : properties.get? .resource with
      | none => rfl
      | some node => cases node <;> first | rfl | contradiction
    simp [hnulls]
  · intro hresource
    have hnulls : properties.nullsResource = true := by
      rw [nullsResource, hresource]
      rfl
    simp [hnulls]

/-- A task with a name, three nulls and a resource of null among them. -/
theorem described_withoutNulls_task :
    let properties : Properties :=
      [(.type, .null), (.name, .string "fetch"), (.branches, .null), (.resource, .null)]
    properties.Distinct ∧ properties.get? .resource = some .null ∧
      properties.described.outcome {} = (do
        let (s, left?) ← properties.withoutNulls.described
        return (s.withoutResource, left?)).outcome {} := by
  intro properties
  have hdistinct : properties.Distinct := by
    simp [properties, Entries.Distinct, Entries.keys]
  exact ⟨hdistinct, rfl, (described_withoutNulls hdistinct {}).2 rfl⟩

/-- A null that is written makes a difference: the task of a name has that name for its resource,
but none with a resource of null. -/
theorem null_resource_counts :
    let properties : Properties := [(.name, .string "fetch"), (.resource, .null)]
    (∃ s left? after, properties.described.outcome {} = (.ok (s, left?), after) ∧
      s.type = .task ∧ s.resource = none) ∧
    ∃ s left? after, properties.withoutNulls.described.outcome {} = (.ok (s, left?), after) ∧
      s.type = .task ∧ s.resource = some "fetch" := by
  intro properties
  have hwritten : (properties.described.outcome {}).1.toOption.any
      (fun result => result.1.type = .task ∧ result.1.resource = none) = true := by
    decide +kernel
  have habsent : (properties.withoutNulls.described.outcome {}).1.toOption.any
      (fun result => result.1.type = .task ∧ result.1.resource = some "fetch") = true := by
    decide +kernel
  obtain ⟨⟨s, left?⟩, after, hs, hstate⟩ := Compile.exists_of_any hwritten
  obtain ⟨⟨t, right?⟩, later, ht, hother⟩ := Compile.exists_of_any habsent
  exact ⟨⟨s, left?, after, hs, of_decide_eq_true hstate⟩,
    ⟨t, right?, later, ht, of_decide_eq_true hother⟩⟩

end Properties
end Flowscript
