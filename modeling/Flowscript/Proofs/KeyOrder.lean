import Mathlib.Data.List.Nodup
import Flowscript.Proofs.NormalForm
import Flowscript.Proofs.Remembering
import Flowscript.Proofs.SingleStates

/-!
# The order of keys

The entries of a mapping may be written in any order, as long as those whose keys mean the same
property keep theirs. The properties then stand in another order, but each has the same value; the
defaults are the same; and the fields of a state are read apart from each other, so that either all
can be read in both orders, or some field cannot be read in either. Which failure is met first may
differ, and so may the journal.
-/

namespace Flowscript

/-! ## Tables that differ in their order -/

namespace Entries

variable {κ α : Type} [DecidableEq κ]

/-- Every key has the same value in both tables. -/
def Same (first second : Entries κ α) : Prop := ∀ key, first.get? key = second.get? key

namespace Same

variable {first second : Entries κ α}

theorem has (h : Same first second) (key : κ) : first.has key = second.has key := by
  unfold Entries.has
  rw [h key]

theorem insert (h : Same first second) (key : κ) (value : α) :
    Same (first.insert key value) (second.insert key value) := by
  intro other
  by_cases hother : other = key
  · rw [hother, get?_insert_self, get?_insert_self]
  · rw [get?_insert_ne hother, get?_insert_ne hother, h other]

theorem erase (h : Same first second) (hfirst : first.Distinct) (hsecond : second.Distinct)
    (key : κ) : Same (first.erase key) (second.erase key) := by
  intro other
  by_cases hother : other = key
  · rw [hother, get?_erase_self hfirst, get?_erase_self hsecond]
  · rw [get?_erase_ne hother, get?_erase_ne hother, h other]

/-- Such tables have the same entries. -/
theorem perm (h : Same first second) (hfirst : first.Distinct) (hsecond : second.Distinct) :
    first.Perm second := by
  apply (List.perm_ext_iff_of_nodup (List.Nodup.of_map _ hfirst) (List.Nodup.of_map _ hsecond)).mpr
  intro entry
  constructor
  · intro hentry
    apply mem_of_get?
    rw [← h]
    exact get?_eq_of_mem hfirst hentry
  · intro hentry
    apply mem_of_get?
    rw [h]
    exact get?_eq_of_mem hsecond hentry

end Same
end Entries

/-! ## Properties -/

namespace Properties

open Entries (Same)

variable {first second : Properties}

theorem same_move (h : Same first second) (hfirst : first.Distinct) (hsecond : second.Distinct)
    (source target : Property) (kind : Node → Bool) :
    Same (move source target kind first) (move source target kind second) := by
  unfold move
  rw [h source]
  split
  · split
    · exact (h.erase hfirst hsecond source).insert target _
    · exact h
  · exact h

/-- Two entries that do not mean the same property stand in no group together. -/
theorem group_swap {entry other : String × Node}
    (h : Property.ofKey? entry.1 ≠ Property.ofKey? other.1) (rest : Entries String Node)
    (p : Property) : group p (entry :: other :: rest) = group p (other :: entry :: rest) := by
  unfold group
  by_cases hentry : Property.ofKey? entry.1 = some p
  · have hother : Property.ofKey? other.1 ≠ some p := fun hmeant => h (hentry.trans hmeant.symm)
    simp [hentry, hother]
  · simp [List.filter_cons, hentry]

/-- Entries whose groups are the same mean the same. -/
theorem same_ofEntries {entries others : Entries String Node}
    (h : ∀ p, group p entries = group p others) : Same (ofEntries entries) (ofEntries others) := by
  have hfirst := distinct_named entries
  have hsecond := distinct_named others
  have hnamed : Same (named entries).properties (named others).properties := by
    intro p
    rw [(groups_named entries).value, (groups_named others).value, h p]
  exact same_move (same_move hnamed hfirst hsecond _ _ _) (distinct_move hfirst)
    (distinct_move hsecond) _ _ _

theorem same_outline (h : Same first second) : first.outline = second.outline := by
  unfold outline type? text?
  rw [h .type, h .name, h .resource]

theorem same_complete (h : Same first second) (outline : Outline) (name : String) :
    Same (first.complete outline name) (second.complete outline name) := by
  have htyped := (h.insert .name (.string name)).insert .type (.string outline.finalType.name)
  unfold complete
  dsimp only
  split
  · rw [htyped.has]
    split
    · exact htyped
    · exact htyped.insert _ _
  · exact htyped

end Properties

/-! ## Fields -/

namespace State

/-- What is read from a property does not depend on the other fields. -/
theorem read_eq_adopt (s : State) (p : Property) (node : Node) :
    s.read p node = (({} : State).read p node).map (s.adopt p) := by
  cases p with
  | branches =>
    cases s
    rfl
  | other text => rfl
  | _ =>
    simp only [read, bind, Except.bind]
    split <;> rfl

/-- The state each of whose fields is that of some state. -/
def gather (field : Property → State) : State where
  name := (field .name).name
  type := (field .type).type
  comment := (field .comment).comment
  resource := (field .resource).resource
  parameters := (field .parameters).parameters
  result := (field .result).result
  inputPath := (field .inputPath).inputPath
  outputPath := (field .outputPath).outputPath
  resultPath := (field .resultPath).resultPath
  next := (field .next).next
  finish := (field .finish).finish
  retry := (field .retry).retry
  catches := (field .catches).catches
  branches := (field .branches).branches
  choices := (field .choices).choices
  default := (field .default).default
  timeoutSeconds := (field .timeoutSeconds).timeoutSeconds
  heartbeatSeconds := (field .heartbeatSeconds).heartbeatSeconds
  seconds := (field .seconds).seconds
  secondsPath := (field .secondsPath).secondsPath
  timestamp := (field .timestamp).timestamp
  timestampPath := (field .timestampPath).timestampPath
  cause := (field .cause).cause
  error := (field .error).error

theorem adopt_gather (field : Property → State) (p : Property) (source : State) :
    (gather field).adopt p source =
      gather fun q => if q = p then (field q).adopt p source else field q := by
  cases p <;> rfl

/-- Fields of two properties are taken over in either order. -/
theorem adopt_comm {p q : Property} (h : p ≠ q) (s first second : State) :
    (s.adopt p first).adopt q second = (s.adopt q second).adopt p first := by
  have hself : s = gather fun _ => s := by
    cases s
    rfl
  rw [hself, adopt_gather, adopt_gather, adopt_gather, adopt_gather]
  congr 1
  funext r
  by_cases hp : r = p
  · simp [hp, h]
  · by_cases hq : r = q <;> simp [hp, hq, Ne.symm h]

/-- Sets the field that a property names, unless its value is null. -/
def readEntry (s : State) (entry : Property × Node) : Except SyntaxError State :=
  if entry.2.isNull then .ok s else s.read entry.1 entry.2

/-- Two properties can be read in either order, or in none. -/
theorem readEntry_comm {first second : Property × Node} (h : first.1 ≠ second.1) (s : State) :
    (s.readEntry first >>= (·.readEntry second)).toOption =
      (s.readEntry second >>= (·.readEntry first)).toOption := by
  obtain ⟨p, node⟩ := first
  obtain ⟨q, other⟩ := second
  unfold readEntry
  by_cases hnode : node.isNull = true
  · by_cases hother : other.isNull = true
    · simp [hnode, hother, bind, Except.bind]
    · simp only [hnode, hother, if_true, bind, Except.bind]
      cases s.read q other <;> rfl
  · by_cases hother : other.isNull = true
    · simp only [hnode, hother, if_true, bind, Except.bind]
      cases s.read p node <;> rfl
    · simp only [hnode, hother, bind, Except.bind]
      rw [read_eq_adopt s p node, read_eq_adopt s q other]
      cases hfirst : ({} : State).read p node with
      | error cause =>
        cases ({} : State).read q other with
        | error fault => rfl
        | ok t =>
          simp [Except.map, read_eq_adopt (s.adopt q t) p node, hfirst, Except.toOption]
      | ok t =>
        cases hsecond : ({} : State).read q other with
        | error fault =>
          simp [Except.map, read_eq_adopt (s.adopt p t) q other, hsecond, Except.toOption]
        | ok u =>
          have hcomm := adopt_comm h s t u
          simp [Except.map, read_eq_adopt (s.adopt p t) q other, hsecond,
            read_eq_adopt (s.adopt q u) p node, hfirst, hcomm]

end State

theorem toOption_bind {ε α β : Type} (value : Except ε α) (next : α → Except ε β) :
    (value >>= next).toOption = value.toOption.bind fun a => (next a).toOption := by
  cases value <;> rfl

namespace Properties

/-- Properties in another order are read as the same state, or cannot be read either. -/
theorem toState_perm {first second : Properties} (h : first.Perm second)
    (hdistinct : first.Distinct) : first.toState.toOption = second.toState.toOption := by
  suffices ∀ s : State, (first.foldlM State.readEntry s).toOption =
      (second.foldlM State.readEntry s).toOption from this {}
  induction h with
  | nil =>
    intro s
    rfl
  | cons entry h ih =>
    intro s
    have hrest := ih (List.nodup_cons.mp hdistinct).2
    rw [List.foldlM_cons, List.foldlM_cons]
    cases s.readEntry entry with
    | error cause => rfl
    | ok t => exact hrest t
  | swap entry other rest =>
    intro s
    have hne : entry.1 ≠ other.1 := Entries.ne_of_distinct_cons hdistinct List.mem_cons_self
    have hcomm := State.readEntry_comm hne.symm s
    simp only [List.foldlM_cons, ← bind_assoc]
    rw [toOption_bind (s.readEntry other >>= _), hcomm, ← toOption_bind]
  | trans h _ ih ih' =>
    intro s
    have hdistinct' : Entries.Distinct _ := (h.map Prod.fst).nodup_iff.mp hdistinct
    exact (ih hdistinct s).trans (ih' hdistinct' s)

end Properties

/-! ## Steps that match -/

namespace Compile

variable {α β γ δ : Type} {R : Memory → Memory → Prop} {Q : α → β → Prop}

/-- From related memories both steps fail, or give back related values; and they lead to related
memories. -/
def Matching (step : Compile α) (R : Memory → Memory → Prop) (Q : α → β → Prop)
    (other : Compile β) : Prop :=
  ∀ first second, R first second →
    Option.Rel Q (step.outcome first).1.toOption (other.outcome second).1.toOption ∧
      R (step.outcome first).2 (other.outcome second).2

theorem Matching.pure {a : α} {b : β} (h : Q a b) :
    Matching (Pure.pure a) R Q (Pure.pure b) := fun _ _ hR => ⟨.some h, hR⟩

theorem Matching.ofExcept {value : Except SyntaxError α} {other : Except SyntaxError β}
    (h : Option.Rel Q value.toOption other.toOption) :
    (Compile.ofExcept value).Matching R Q (Compile.ofExcept other) := by
  intro first second hR
  cases value with
  | error cause =>
    cases other with
    | error fault => exact ⟨.none, hR⟩
    | ok b => cases h
  | ok a =>
    cases other with
    | error fault => cases h
    | ok b =>
      cases h with
      | some hQ => exact ⟨.some hQ, hR⟩

theorem Matching.bind {S : γ → δ → Prop} {step : Compile α} {other : Compile β}
    {next : α → Compile γ} {following : β → Compile δ} (h : step.Matching R Q other)
    (hn : ∀ a b, Q a b → (next a).Matching R S (following b)) :
    (step >>= next).Matching R S (other >>= following) := by
  intro first second hR
  obtain ⟨hresult, hafter⟩ := h first second hR
  rw [outcome_bind, outcome_bind]
  rcases hs : step.outcome first with ⟨cause | a, after⟩ <;>
    rcases ho : other.outcome second with ⟨fault | b, later⟩ <;>
    rw [hs, ho] at hresult hafter
  · exact ⟨.none, hafter⟩
  · cases hresult
  · cases hresult
  · cases hresult with
    | some hQ => exact hn a b hQ after later hafter

theorem eq_of_rel {value other : Option α} (h : Option.Rel (· = ·) value other) :
    value = other := by
  cases h with
  | some hsame => rw [hsame]
  | none => rfl

theorem rel_of_eq {value other : Option α} (h : value = other) :
    Option.Rel (· = ·) value other := by
  subst h
  cases value with
  | none => exact .none
  | some a => exact .some rfl

/-- Steps that agree match. -/
theorem Agree.matching {step other : Compile α} (h : step.Agree R other) :
    step.Matching R (· = ·) other := by
  intro first second hR
  obtain ⟨hresult, hafter⟩ := h first second hR
  exact ⟨rel_of_eq (congrArg Except.toOption hresult), hafter⟩

/-- What holds behind a step tells something of the steps that match it. -/
theorem Matching.yields {P : β → Prop} {step : Compile α} {other : Compile β}
    (h : step.Matching Memory.JournalsApart Q other) (hother : other.Yields P) :
    step.Yields fun a => ∃ b, Q a b ∧ P b := by
  intro memory a after ha
  obtain ⟨hresult, -⟩ := h memory memory ⟨rfl, rfl⟩
  rw [ha] at hresult
  rcases ho : other.outcome memory with ⟨cause | b, later⟩ <;> rw [ho] at hresult
  · cases hresult
  · cases hresult with
    | some hQ => exact ⟨b, hQ, hother _ _ _ ho⟩

/-- A step that matches one which succeeds does so as well. -/
theorem Matching.outcome_ok {step : Compile α} {other : Compile β}
    (h : step.Matching Memory.JournalsApart Q other) {memory after : Memory} {b : β}
    (hother : other.outcome memory = (.ok b, after)) :
    ∃ a later, step.outcome memory = (.ok a, later) ∧ Q a b ∧ later.JournalsApart after := by
  obtain ⟨hresult, hafter⟩ := h memory memory ⟨rfl, rfl⟩
  rw [hother] at hresult hafter
  rcases hstep : step.outcome memory with ⟨cause | a, later⟩ <;> rw [hstep] at hresult hafter
  · cases hresult
  · cases hresult with
    | some hQ => exact ⟨a, later, rfl, hQ, hafter⟩

/-- A step that matches another with a change behind it matches the other up to that change. -/
theorem Matching.of_map {f : β → α} {step : Compile α} {other : Compile β}
    (h : step.Matching R (· = ·) (other >>= fun b => Pure.pure (f b))) :
    step.Matching R (fun a b => a = f b) other := by
  intro first second hR
  obtain ⟨hresult, hafter⟩ := h first second hR
  rw [outcome_bind] at hresult hafter
  rcases ho : other.outcome second with ⟨cause | b, later⟩ <;> rw [ho] at hresult hafter
  · exact ⟨eq_of_rel hresult ▸ .none, hafter⟩
  · exact ⟨eq_of_rel hresult ▸ .some rfl, hafter⟩

theorem outcome_forM_note (notices : List Notice) (memory : Memory) :
    (notices.forM note).outcome memory =
      (.ok (), { memory with journal := notices.reverse ++ memory.journal }) := by
  induction notices generalizing memory with
  | nil => rfl
  | cons notice rest ih =>
    have hrest := ih (memory.noting notice)
    simpa [Memory.noting, outcome_bind] using hrest

/-- Whatever is reported, only the journals differ behind it. -/
theorem matching_note (notices others : List Notice) :
    (notices.forM note).Matching Memory.JournalsApart (fun _ _ => True) (others.forM note) := by
  intro first second h
  rw [outcome_forM_note, outcome_forM_note]
  exact ⟨.some trivial, h.symbols, h.names⟩

end Compile

/-! ## The mapping of a state -/

/-- Properties of one outline get the same defaults. -/
theorem Properties.matching_withDefaults {Q : Properties → Properties → Prop}
    {first second : Properties} (houtline : first.outline = second.outline)
    (hcomplete : ∀ outline name, Q (first.complete outline name) (second.complete outline name)) :
    first.withDefaults.Matching Memory.JournalsApart Q second.withDefaults := by
  rw [withDefaults_eq, withDefaults_eq, houtline]
  refine (Compile.Agree.ofExcept second.outline).matching.bind fun outline _ hsame => ?_
  cases hsame
  rw [Outline.naming]
  cases outline.name with
  | some name => exact .pure (hcomplete outline name)
  | none =>
    refine (Memory.lockstep_journalsApart.generating _).matching.bind fun name _ hname => ?_
    cases hname
    exact .pure (hcomplete outline name)

/-- Two orders of the same properties, none of which stands twice. -/
structure Properties.Reordered (first second : Properties) : Prop where
  same : Entries.Same first second
  distinct : first.Distinct
  distinct' : second.Distinct

namespace Properties.Reordered

open Compile (Matching)

variable {first second : Properties}

theorem insert (h : Reordered first second) (p : Property) (node : Node) :
    Reordered (Entries.insert p node first) (Entries.insert p node second) :=
  ⟨h.same.insert p node, Entries.distinct_insert h.distinct, Entries.distinct_insert h.distinct'⟩

theorem complete (h : Reordered first second) (outline : Outline) (name : String) :
    Reordered (first.complete outline name) (second.complete outline name) :=
  ⟨same_complete h.same outline name, (complete_named outline name h.distinct).1,
    (complete_named outline name h.distinct').1⟩

/-- Both get the same defaults. -/
theorem withDefaults (h : Reordered first second) :
    first.withDefaults.Matching Memory.JournalsApart Reordered second.withDefaults :=
  matching_withDefaults (same_outline h.same) h.complete

/-- Both describe the same state, or none. -/
theorem toState (h : Reordered first second) :
    (Compile.ofExcept first.toState).Matching Memory.JournalsApart (· = ·)
      (Compile.ofExcept second.toState) :=
  .ofExcept (Compile.rel_of_eq (toState_perm (h.same.perm h.distinct h.distinct') h.distinct))

end Properties.Reordered

namespace Setting

open Compile (Matching)
open Properties (group)

variable {setting : Setting} {entries others : Entries String Node}

/-- The fields of a state apart from its branches. -/
theorem matching_explicitState (h : ∀ p, group p entries = group p others)
    (forced : Option StateType) :
    (explicitState forced entries).Matching Memory.JournalsApart (· = ·)
      (explicitState forced others) := by
  have hmapping : Properties.Reordered (.ofEntries entries) (.ofEntries others) :=
    ⟨Properties.same_ofEntries h, Properties.distinct_ofEntries entries,
      Properties.distinct_ofEntries others⟩
  have hforced :
      Properties.Reordered (.ofMapping forced entries) (.ofMapping forced others) := by
    cases forced with
    | none => exact hmapping
    | some type => exact hmapping.insert .type (.string type.name)
  rw [explicitState_eq, explicitState_eq]
  exact (Compile.matching_note _ _).bind fun _ _ _ =>
    hforced.withDefaults.bind fun _ _ hcompleted => hcompleted.toState

/-- Compiles the branches that were left, if any, for a state. -/
def giveBranches (setting : Setting) (left? : Option Node) (s : State) : Compile State :=
  match left? with
  | none => return s
  | some node => do
    let branches ← setting.branchList node.arguments
    return { s with branches := some branches }

theorem mappingState_eq (setting : Setting) (forced : Option StateType)
    (entries : Entries String Node) :
    setting.mappingState forced entries =
      explicitState forced entries >>=
        setting.giveBranches (Properties.ofEntries entries).branches? := by
  rw [mappingState.eq_def]
  congr
  funext s
  unfold Properties.branches?
  split
  next hnone =>
    rw [hnone]
    rfl
  next node hnode =>
    rw [hnode]
    by_cases hnull : node.isNull = true <;> simp [giveBranches, Option.filter, hnull]

theorem agree_giveBranches (hreaders : setting.readers.Agree Memory.JournalsApart)
    (left? : Option Node) (s : State) :
    (setting.giveBranches left? s).Agree Memory.JournalsApart (setting.giveBranches left? s) := by
  cases left? with
  | none => exact .pure s
  | some node =>
    have hlist : (setting.branchList node.arguments).Agree Memory.JournalsApart
        (setting.branchList node.arguments) :=
      agree_branchList Memory.lockstep_journalsApart hreaders node.arguments
        fun _ _ => setting.saysAlike_self
    exact hlist.bind fun branches => .pure _

/-- The whole state, from memories that differ in their journals. -/
theorem matching_mappingState (hreaders : setting.readers.Agree Memory.JournalsApart)
    (h : ∀ p, group p entries = group p others) (forced : Option StateType) :
    (setting.mappingState forced entries).Matching Memory.JournalsApart (· = ·)
      (setting.mappingState forced others) := by
  have hbranches : (Properties.ofEntries entries).branches? =
      (Properties.ofEntries others).branches? := by
    unfold Properties.branches?
    rw [Properties.same_ofEntries h .branches]
  rw [mappingState_eq, mappingState_eq, hbranches]
  refine (matching_explicitState h forced).bind fun s _ hs => ?_
  cases hs
  exact (agree_giveBranches hreaders _ s).matching

/-- The order of keys that mean different properties does not matter: mappings in which the entries
of each property are the same, in the same order, compile to the same state, or neither compiles. In
both cases the same names are generated and stored. Only the journals differ, so readers from
outside the notation must not look at them. -/
theorem mappingState_reordered (hreaders : setting.readers.Agree Memory.JournalsApart)
    (h : ∀ p, group p entries = group p others) (forced : Option StateType) (memory : Memory) :
    ((setting.mappingState forced entries).outcome memory).1.toOption =
        ((setting.mappingState forced others).outcome memory).1.toOption ∧
      ((setting.mappingState forced entries).outcome memory).2.symbols =
        ((setting.mappingState forced others).outcome memory).2.symbols ∧
      ((setting.mappingState forced entries).outcome memory).2.names =
        ((setting.mappingState forced others).outcome memory).2.names := by
  obtain ⟨hresult, hafter⟩ := matching_mappingState hreaders h forced memory memory ⟨rfl, rfl⟩
  exact ⟨Compile.eq_of_rel hresult, hafter.symbols, hafter.names⟩

theorem mappingState_reordered_branches :
    let setting : Setting := {}
    let type := ("Type", Node.string "Parallel")
    let branches := ("Branches", Node.sequence [.sequence [.string "arn:task:load"]])
    (∀ p, group p [type, branches] = group p [branches, type]) ∧
      ((setting.mappingState none [type, branches]).outcome {}).1.toOption =
        ((setting.mappingState none [branches, type]).outcome {}).1.toOption ∧
      ((setting.mappingState none [type, branches]).outcome {}).2.symbols =
        ((setting.mappingState none [branches, type]).outcome {}).2.symbols ∧
      ((setting.mappingState none [type, branches]).outcome {}).2.names =
        ((setting.mappingState none [branches, type]).outcome {}).2.names := by
  intro setting type branches
  have htype : Property.ofKey? "Type" = some .type := Property.ofKey?_text (p := .type) (by decide)
  have hbranches : Property.ofKey? "Branches" = some .branches :=
    Property.ofKey?_text (p := .branches) (by decide)
  have hswap (p : Property) : group p [type, branches] = group p [branches, type] := by
    apply Properties.group_swap
    rw [htype, hbranches]
    decide
  have hreaders := ReaderTable.standard_builtIn.agree Memory.JournalsApart
  exact ⟨hswap, mappingState_reordered hreaders hswap none {}⟩

end Setting
end Flowscript
