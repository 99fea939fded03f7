import Flowscript.Proofs.Codec
import Flowscript.Proofs.Invariance
import Flowscript.Proofs.SingleStates

/-!
# Storable machines

Machines that are decoded or compiled lose nothing when they are stored as JSON: they hold no null
and no name that JSON could not tell.
-/

namespace Flowscript

theorem State.Storable.nullFree {s : State} (h : s.Storable) : s.NullFree := by
  cases h with
  | intro hfree hbranches => exact hfree

theorem State.Storable.branches {s : State} (h : s.Storable) {branches : List Branch}
    (hbranches : s.branches = some branches) : ∀ b ∈ branches, b.Storable := by
  cases h with
  | intro hfree hstored => exact hstored branches hbranches

theorem State.storable_iff {s : State} :
    s.Storable ↔ s.NullFree ∧ ∀ branches, s.branches = some branches → ∀ b ∈ branches, b.Storable :=
  ⟨fun h => ⟨h.nullFree, fun _ => h.branches⟩, fun ⟨hfree, hbranches⟩ => .intro hfree hbranches⟩

/-- Only the data and the branches of a state matter. -/
theorem State.Storable.congr {s t : State} (h : s.Storable)
    (hparameters : t.parameters = s.parameters) (hresult : t.result = s.result)
    (hbranches : t.branches = s.branches) : t.Storable := by
  refine State.storable_iff.mpr ⟨⟨?_, ?_⟩, ?_⟩
  · rw [hparameters]
    exact h.nullFree.parameters
  · rw [hresult]
    exact h.nullFree.result
  · rw [hbranches]
    exact fun branches => h.branches

theorem State.Storable.settle {s : State} (h : s.Storable) (following : Option String) :
    (s.settle following).Storable := by
  rw [State.settle_eq]
  exact h.congr rfl rfl rfl

/-! ## Decoded machines -/

namespace State

/-- What is true of a state while its fields are taken up. -/
structure Draft.Storable (draft : Draft) : Prop where
  name : draft.state.name = none
  state : draft.state.Storable

/-- Taking up a field leaves the name and the branches as they are, and adds no null. -/
theorem Draft.eq_of_set {draft d : Draft} {p : Property} {value : Json}
    (h : draft.set p value = .ok d) :
    d.state.name = draft.state.name ∧ d.state.branches = draft.state.branches ∧
      (draft.state.NullFree → d.state.NullFree) := by
  cases p with
  | parameters | result =>
    cases value with
    | null =>
      cases h
      exact ⟨rfl, rfl, fun h => ⟨by simp [h.parameters], by simp [h.result]⟩⟩
    | _ =>
      cases h
      exact ⟨rfl, rfl, fun h => ⟨by simp [h.parameters], by simp [h.result]⟩⟩
  | branches | name | other =>
    cases h
    exact ⟨rfl, rfl, id⟩
  | type =>
    simp only [Draft.set] at h
    obtain ⟨type, -, rfl⟩ := ok_of_map h
    exact ⟨rfl, rfl, fun h => ⟨h.parameters, h.result⟩⟩
  | _ =>
    simp only [Draft.set] at h
    obtain ⟨s, hs, rfl⟩ := ok_of_map h
    obtain ⟨v, -, rfl⟩ := ok_of_map hs
    exact ⟨rfl, rfl, fun h => ⟨h.parameters, h.result⟩⟩

theorem Draft.Storable.set {draft d : Draft} (hdraft : draft.Storable) {p : Property} {value : Json}
    (h : draft.set p value = .ok d) : d.Storable := by
  obtain ⟨hname, hbranches, hfree⟩ := Draft.eq_of_set h
  refine ⟨hname.trans hdraft.name, State.storable_iff.mpr ⟨hfree hdraft.state.nullFree, ?_⟩⟩
  rw [hbranches]
  exact fun branches => hdraft.state.branches

end State

theorem State.Draft.Storable.withBranches {draft : State.Draft} (hdraft : draft.Storable)
    {branches : Option (List Branch)} (h : ∀ bs, branches = some bs → ∀ b ∈ bs, b.Storable) :
    State.Draft.Storable { draft with state := { draft.state with branches } } :=
  ⟨hdraft.name, State.storable_iff.mpr ⟨⟨hdraft.state.nullFree.parameters,
    hdraft.state.nullFree.result⟩, h⟩⟩

theorem State.Draft.Storable.empty : State.Draft.Storable {} :=
  ⟨rfl, State.storable_iff.mpr ⟨⟨nofun, nofun⟩, nofun⟩⟩

theorem State.Draft.Storable.finish {draft : State.Draft} (hdraft : draft.Storable) {s : State}
    (h : draft.finish = .ok s) : s.name = none ∧ s.Storable := by
  unfold State.Draft.finish at h
  split at h
  · cases h
    exact ⟨hdraft.name, hdraft.state⟩
  · cases h

theorem Branch.storable_of_states {b : Branch}
    (h : ∀ entry ∈ b.states, entry.2.name = none ∧ entry.2.Storable) : b.Storable :=
  .intro (fun entry hentry => (h entry hentry).1) fun entry hentry => (h entry hentry).2

mutual

/-- A decoded state is storable, and has no name. -/
theorem State.storable_ofJson (value : Json) {s : State} (h : State.ofJson value = .ok s) :
    s.name = none ∧ s.Storable := by
  cases value with
  | object fields =>
    rw [State.ofJson] at h
    obtain ⟨draft, hdraft, h⟩ := ok_of_bind h
    exact (State.storable_ofFields fields .empty hdraft).finish h
  | array items =>
    rw [State.ofJson] at h
    obtain ⟨draft, hdraft, h⟩ := ok_of_bind h
    obtain ⟨-, -, h⟩ := ok_of_bind h
    exact (State.storable_ofItems State.fieldOrder items .empty hdraft).finish h
  | _ =>
    rw [State.ofJson] at h
    cases h

theorem State.storable_ofFields (fields : List (String × Json)) {draft d : State.Draft}
    (hdraft : draft.Storable) (h : State.ofFields draft fields = .ok d) : d.Storable := by
  cases fields with
  | nil =>
    rw [State.ofFields] at h
    cases h
    exact hdraft
  | cons field rest =>
    obtain ⟨name, value⟩ := field
    rw [State.ofFields] at h
    split at h
    · obtain ⟨branches, hbranches, h⟩ := ok_of_bind h
      exact State.storable_ofFields rest
        (hdraft.withBranches (storable_optionalBranches value hbranches)) h
    · obtain ⟨next, hnext, h⟩ := ok_of_bind h
      exact State.storable_ofFields rest (hdraft.set hnext) h

theorem State.storable_ofItems (ps : List Property) (items : List Json) {draft d : State.Draft}
    (hdraft : draft.Storable) (h : State.ofItems draft ps items = .ok d) : d.Storable := by
  cases ps with
  | nil =>
    simp only [State.ofItems] at h
    cases h
    exact hdraft
  | cons p ps =>
    cases items with
    | nil =>
      simp only [State.ofItems] at h
      cases h
      exact hdraft
    | cons value rest =>
      rw [State.ofItems] at h
      split at h
      · obtain ⟨branches, hbranches, h⟩ := ok_of_bind h
        exact State.storable_ofItems ps rest
          (hdraft.withBranches (storable_optionalBranches value hbranches)) h
      · obtain ⟨next, hnext, h⟩ := ok_of_bind h
        exact State.storable_ofItems ps rest (hdraft.set hnext) h

theorem storable_optionalBranches (value : Json) {branches : Option (List Branch)}
    (h : optionalBranches value = .ok branches) :
    ∀ bs, branches = some bs → ∀ b ∈ bs, b.Storable := by
  cases value with
  | null =>
    rw [optionalBranches] at h
    cases h
    nofun
  | array items =>
    rw [optionalBranches] at h
    obtain ⟨decoded, hitems, rfl⟩ := ok_of_map h
    rintro bs ⟨rfl⟩
    exact storable_branchesOfJson items hitems
  | _ =>
    rw [optionalBranches] at h
    cases h

theorem storable_branchesOfJson (items : List Json) {branches : List Branch}
    (h : branchesOfJson items = .ok branches) : ∀ b ∈ branches, b.Storable := by
  cases items with
  | nil =>
    rw [branchesOfJson] at h
    cases h
    simp
  | cons value rest =>
    rw [branchesOfJson] at h
    obtain ⟨first, hfirst, h⟩ := ok_of_bind h
    obtain ⟨others, hothers, h⟩ := ok_of_bind h
    cases h
    intro b hb
    rcases List.mem_cons.mp hb with rfl | hb
    · exact Branch.storable_ofJson value hfirst
    · exact storable_branchesOfJson rest hothers b hb

/-- A decoded branch is storable. -/
theorem Branch.storable_ofJson (value : Json) {b : Branch} (h : Branch.ofJson value = .ok b) :
    b.Storable := by
  cases value with
  | object fields =>
    rw [Branch.ofJson] at h
    obtain ⟨⟨startAt, states⟩, hfields, h⟩ := ok_of_bind h
    obtain ⟨start, -, h⟩ := ok_of_bind h
    obtain ⟨found, hfound, h⟩ := ok_of_bind h
    cases h
    cases states with
    | none => cases hfound
    | some states =>
      cases hfound
      exact Branch.storable_of_states (storable_branchFields fields (by simp) hfields _ rfl)
  | array items =>
    match items with
    | [] =>
      rw [Branch.ofJson] at h
      cases h
    | [start] =>
      rw [Branch.ofJson] at h
      obtain ⟨-, -, h⟩ := ok_of_bind h
      cases h
    | start :: states :: rest =>
      rw [Branch.ofJson] at h
      obtain ⟨text, htext, h⟩ := ok_of_bind h
      obtain ⟨found, hfound, h⟩ := ok_of_bind h
      split at h
      · cases h
        exact Branch.storable_of_states (storable_statesOfJson states hfound)
      · cases h
  | _ =>
    rw [Branch.ofJson] at h
    cases h

theorem storable_branchFields (fields : List (String × Json)) {startAt start : Option String}
    {states found : Option (List (String × State))}
    (hstates : ∀ ss, states = some ss → ∀ entry ∈ ss, entry.2.name = none ∧ entry.2.Storable)
    (h : Branch.ofFields startAt states fields = .ok (start, found)) :
    ∀ ss, found = some ss → ∀ entry ∈ ss, entry.2.name = none ∧ entry.2.Storable := by
  cases fields with
  | nil =>
    rw [Branch.ofFields] at h
    cases h
    exact hstates
  | cons field rest =>
    obtain ⟨name, value⟩ := field
    rw [Branch.ofFields] at h
    split at h
    · obtain ⟨text, -, h⟩ := ok_of_bind h
      exact storable_branchFields rest hstates h
    · split at h
      · obtain ⟨decoded, hdecoded, h⟩ := ok_of_bind h
        refine storable_branchFields rest ?_ h
        rintro ss ⟨rfl⟩
        exact storable_statesOfJson value hdecoded
      · exact storable_branchFields rest hstates h

theorem storable_statesOfJson (value : Json) {states : List (String × State)}
    (h : statesOfJson value = .ok states) :
    ∀ entry ∈ states, entry.2.name = none ∧ entry.2.Storable := by
  cases value with
  | object fields =>
    rw [statesOfJson] at h
    exact storable_stateEntries fields h
  | _ =>
    rw [statesOfJson] at h
    cases h

theorem storable_stateEntries (fields : List (String × Json)) {states : List (String × State)}
    (h : stateEntriesOfJson fields = .ok states) :
    ∀ entry ∈ states, entry.2.name = none ∧ entry.2.Storable := by
  cases fields with
  | nil =>
    rw [stateEntriesOfJson] at h
    cases h
    simp
  | cons field rest =>
    obtain ⟨name, value⟩ := field
    rw [stateEntriesOfJson] at h
    obtain ⟨s, hs, h⟩ := ok_of_bind h
    obtain ⟨others, hothers, h⟩ := ok_of_bind h
    cases h
    intro entry hentry
    rcases List.mem_cons.mp hentry with rfl | hentry
    · exact State.storable_ofJson value hs
    · exact storable_stateEntries rest hothers entry hentry

end

/-! ## Compiled machines -/

/-- A result that is written out is no path. -/
def State.PlainResult (s : State) : Prop :=
  ∀ value, s.result = some value → Properties.isPath (.ofJson value) = false

/-- What is true of every compiled state: it is storable, and if only readers of the notation are
used, then its result is `plain`. -/
structure State.Compiled (plain : Prop) (s : State) : Prop where
  storable : s.Storable
  result : plain → s.PlainResult

section Compiled

variable {plain : Prop}

/-- A state without branches, parameters or a result. -/
theorem State.Compiled.of_none {s : State} (hparameters : s.parameters ≠ some .null)
    (hresult : s.result = none) (hbranches : s.branches = none) : s.Compiled plain where
  storable := State.storable_iff.mpr ⟨⟨hparameters, by simp [hresult]⟩, by simp [hbranches]⟩
  result _ := by simp [State.PlainResult, hresult]

theorem State.Compiled.congr {s t : State} (h : s.Compiled plain)
    (hparameters : t.parameters = s.parameters) (hresult : t.result = s.result)
    (hbranches : t.branches = s.branches) : t.Compiled plain where
  storable := h.storable.congr hparameters hresult hbranches
  result hplain := by
    unfold State.PlainResult
    rw [hresult]
    exact h.result hplain

/-- Branches can be set if they are storable. -/
theorem State.Compiled.withBranches {s : State} (h : s.Compiled plain) {branches : List Branch}
    (hb : ∀ b ∈ branches, b.Storable) :
    State.Compiled plain { s with branches := some branches } where
  storable := State.storable_iff.mpr
    ⟨⟨h.storable.nullFree.parameters, h.storable.nullFree.result⟩, by
      rintro other ⟨rfl⟩
      exact hb⟩
  result hplain := h.result hplain

theorem ne_null_of_readData {node : Node} {value : Json} (hnode : node.isNull = false)
    (h : Property.readData node = .ok value) : value ≠ .null := by
  rintro rfl
  rw [Node.eq_ofJson_of_readData h] at hnode
  cases hnode

/-- Reading a property that is neither the parameters nor the result keeps both. -/
theorem State.data_read {s t : State} {p : Property} {node : Node} (h : s.read p node = .ok t)
    (hparameters : p ≠ .parameters) (hresult : p ≠ .result) (hs : s.NullFree ∧ s.PlainResult) :
    t.NullFree ∧ t.PlainResult := by
  have hsame : t.parameters = s.parameters := State.fieldJson_read h (Ne.symm hparameters)
  have hkept : t.result = s.result := State.fieldJson_read h (Ne.symm hresult)
  refine ⟨⟨?_, ?_⟩, ?_⟩
  · rw [hsame]
    exact hs.1.parameters
  · rw [hkept]
    exact hs.1.result
  · unfold State.PlainResult
    rw [hkept]
    exact hs.2

/-- A state that is written out holds no null: a property that is null is not read. -/
theorem explicitState_compiled (forced : Option StateType) (entries : Entries String Node) :
    (explicitState forced entries).Yields (State.Compiled plain) := by
  have hdata : (explicitState forced entries).Yields fun s => s.NullFree ∧ s.PlainResult := by
    refine explicitState_yields forced ⟨⟨nofun, nofun⟩, nofun⟩ ?_ ?_
    · intro p text s t hp hs hread
      refine State.data_read hread ?_ ?_ hs <;> rintro rfl <;> simp at hp
    · intro p node s t hmem hnull hs hread
      -- only two fields hold data, and null is not read for them
      by_cases hparameters : p = .parameters
      · subst hparameters
        obtain ⟨value, hvalue, hread⟩ := ok_of_bind hread
        cases hread
        refine ⟨⟨?_, hs.1.result⟩, hs.2⟩
        rintro ⟨rfl⟩
        exact ne_null_of_readData hnull hvalue rfl
      · by_cases hresult : p = .result
        · subst hresult
          obtain ⟨value, hvalue, hread⟩ := ok_of_bind hread
          cases hread
          refine ⟨⟨hs.1.parameters, ?_⟩, ?_⟩
          · rintro ⟨rfl⟩
            exact ne_null_of_readData hnull hvalue rfl
          -- a path would have moved to the result's path
          · rintro other ⟨rfl⟩
            rw [← Node.eq_ofJson_of_readData hvalue]
            exact Properties.isPath_of_mem_ofEntries hmem
        · exact State.data_read hread hparameters hresult hs
  intro memory s after h
  obtain ⟨hfree, hresult⟩ := hdata memory s after h
  have hbranches : s.branches = none := explicitState_branches forced entries memory s after h
  exact ⟨State.storable_iff.mpr ⟨hfree, by simp [hbranches]⟩, fun _ => hresult⟩

theorem storable_of_readMachine {cause : DecodeError → SyntaxError} {node : Node} {b : Branch}
    (h : readMachine cause node = .ok b) : b.Storable := by
  obtain ⟨value, -, hdecoded⟩ := exists_of_readMachine h
  exact Branch.storable_ofJson value hdecoded

/-- Linked states are stored without their names. -/
theorem Branch.storable_ofItems {items : List (String × State)}
    (h : ∀ entry ∈ items, entry.2.Storable) : (Branch.ofItems items).Storable := by
  refine Branch.storable_of_states fun entry hentry => ?_
  obtain ⟨s, following, hitem, -, hentry⟩ := Branch.mem_settleAll hentry
  rw [hentry]
  exact ⟨rfl, ((h _ hitem).settle following).congr rfl rfl rfl⟩

/-- Every way in which a state or a branch is compiled keeps them storable. -/
theorem invariant_compiled {setting : Setting}
    (hreaders : ∀ tag compile, setting.readers.get? tag = some (.custom compile) →
      ∀ payload, (compile payload).Yields (State.Compiled plain)) :
    setting.Invariant (fun _ => True)
      (fun reader _ => ∀ compile, reader = .custom compile →
        ∀ payload, (compile payload).Yields (State.Compiled plain))
      (State.Compiled plain) Branch.Storable where
  null := trivial
  reader := by
    rintro tag payload reader - hreader compile rfl
    exact hreaders tag compile hreader
  shorthand fresh node _ := by
    refine Setting.shorthand_yields fresh node (fun _ _ => .trivial _) trivial ?_ ?_
    · intro name resource parameters inputPath resultPath hparameters
      refine .of_none ?_ rfl rfl
      rintro ⟨rfl⟩
      obtain ⟨fields, hfields⟩ := hparameters _ rfl
      cases hfields
    · intro resolved name machine cause _ _ hread
      have hplain : State.Compiled plain
          { State.named name .parallel with outputPath := lastOutput } := .of_none nofun rfl rfl
      exact hplain.withBranches (by simpa using storable_of_readMachine hread)
  explicit {forced entries} _ := (explicitState_compiled forced entries).mono fun s hs =>
    .of_kept hs (fun _ hb => hs.withBranches hb) entries
  choice payload _ := by
    refine (choiceState_yields payload).mono ?_
    rintro s ⟨name, rules, default, rfl⟩
    exact .of_none nofun rfl rfl
  parameters payload := by
    refine (parametersState_yields payload).mono ?_
    rintro s (⟨name, path, rfl⟩ | ⟨name, fields, rfl⟩)
    · exact .of_none nofun rfl rfl
    · exact .of_none nofun rfl rfl
  custom payload hr := hr _ rfl payload
  parallel name branches _ hb := by
    have hnamed : (State.named name .parallel).Compiled plain := .of_none nofun rfl rfl
    exact hnamed.withBranches hb
  guard _ s hs clauses := hs.congr rfl rfl rfl
  retry hs clauses := hs.congr rfl rfl rfl
  next _ s hs target := hs.congr rfl rfl rfl
  finish hs := hs.congr rfl rfl rfl
  machine _ _ hread := storable_of_readMachine hread
  sequenced _ _ hs _ := Branch.storable_ofItems fun entry hentry => (hs entry hentry).storable

end Compiled

end Flowscript
