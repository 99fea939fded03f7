import Flowscript.Proofs.Structure

/-!
# Well-formed machines

What a machine must be like to run, said without the list of its problems: rules for one branch,
which every branch inside it keeps as well. The main statement is that the check of a machine
succeeds exactly if the machine is well formed, and lists a problem exactly if some branch, at any
depth, breaks the rule that the problem names.
-/

namespace Flowscript

/-! ## Rules of one branch -/

/-- A state names a target that it may go on with: as its next state, as its default, in a rule of
a choice, or in a clause for failures. -/
inductive State.Leads (s : State) : String → Prop
  | next {target : String} : s.next = some target → s.Leads target
  | default {target : String} : s.default = some target → s.Leads target
  | choice {rules : List ChoiceClause} {rule : ChoiceClause} :
    s.choices = some rules → rule ∈ rules → s.Leads rule.next
  | failure {clauses : List CatchClause} {clause : CatchClause} :
    s.catches = some clauses → clause ∈ clauses → s.Leads clause.next

/-- A branch breaks the rule of a problem by itself, whatever is inside its states. A branch
without states has no start that could be missing. -/
def Branch.Breaks (b : Branch) : Problem → Prop
  | .emptyBranch => b.states = []
  | .missingStart name => b.states ≠ [] ∧ b.startAt = name ∧ name ∉ b.stateNames
  | .danglingReference name target =>
    ∃ s, (name, s) ∈ b.states ∧ s.Leads target ∧ target ∉ b.stateNames
  | .missingTransition name =>
    ∃ s, (name, s) ∈ b.states ∧ s.isTerminal = false ∧ s.next = none ∧ s.finish ≠ some true
  | .conflictingTransition name =>
    ∃ s, (name, s) ∈ b.states ∧ s.isTerminal = false ∧ s.next ≠ none ∧ s.finish = some true

/-! ## Branches inside a branch -/

/-- A branch lies directly in a state of another one. -/
def Branch.Member (inner outer : Branch) : Prop :=
  ∃ entry ∈ outer.states, ∃ branches, entry.2.branches = some branches ∧ inner ∈ branches

/-- A branch is another one or lies inside it, at any depth. -/
inductive Branch.Inside : Branch → Branch → Prop
  | self (b : Branch) : b.Inside b
  | member {b inner outer : Branch} : b.Inside inner → inner.Member outer → b.Inside outer

/-- A machine that can run: a branch with states that starts at one of them, whose states lead only
to states of their own branch and, if they have no control flow of their own, either go on or end,
and inside which all branches are like that. -/
inductive Branch.WellFormed : Branch → Prop
  | intro {b : Branch} : b.states ≠ [] → b.startAt ∈ b.stateNames →
    (∀ entry ∈ b.states, ∀ target, entry.2.Leads target → target ∈ b.stateNames) →
    (∀ entry ∈ b.states, entry.2.isTerminal = false →
      (entry.2.next ≠ none ↔ entry.2.finish ≠ some true)) →
    (∀ inner : Branch, inner.Member b → inner.WellFormed) → b.WellFormed

theorem Branch.Member.sizeOf_lt {inner outer : Branch} (h : inner.Member outer) :
    sizeOf inner < sizeOf outer := by
  obtain ⟨⟨name, s⟩, hentry, branches, hbranches, hinner⟩ := h
  obtain ⟨startAt, states⟩ := outer
  have hstate : sizeOf s < sizeOf states := by
    have := List.sizeOf_lt_of_mem hentry
    simp only [Prod.mk.sizeOf_spec] at this
    omega
  have hbranch : sizeOf inner < sizeOf s := by
    have hlist := List.sizeOf_lt_of_mem hinner
    cases s
    simp only at hbranches
    subst hbranches
    simp only [State.mk.sizeOf_spec, Option.some.sizeOf_spec]
    omega
  simp only [Branch.mk.sizeOf_spec]
  omega

/-- What holds of a branch whenever it holds of the branches directly in its states holds of every
branch. -/
theorem Branch.nested_induction {P : Branch → Prop}
    (step : ∀ b : Branch, (∀ inner, inner.Member b → P inner) → P b) (b : Branch) : P b :=
  step b fun inner hinner =>
    have := hinner.sizeOf_lt
    nested_induction step inner
termination_by sizeOf b

/-! ## The problems of one branch -/

theorem State.mem_targets {s : State} {target : String} :
    target ∈ s.targets ↔ s.Leads target := by
  constructor
  · intro h
    simp only [State.targets, List.mem_append, Option.mem_toList, List.mem_map] at h
    rcases h with ((hnext | hdefault) | ⟨rule, hrule, rfl⟩) | ⟨clause, hclause, rfl⟩
    · exact .next hnext
    · exact .default hdefault
    · cases hchoices : s.choices with
      | none => simp [hchoices] at hrule
      | some rules => exact .choice hchoices (by simpa [hchoices] using hrule)
    · cases hcatches : s.catches with
      | none => simp [hcatches] at hclause
      | some clauses => exact .failure hcatches (by simpa [hcatches] using hclause)
  · rintro (hnext | hdefault | ⟨hchoices, hrule⟩ | ⟨hcatches, hclause⟩)
    · simp [State.targets, hnext]
    · simp [State.targets, hdefault]
    · simp only [State.targets, hchoices, Option.getD_some, List.mem_append, List.mem_map]
      exact .inl (.inr ⟨_, hrule, rfl⟩)
    · simp only [State.targets, hcatches, Option.getD_some, List.mem_append, List.mem_map]
      exact .inr ⟨_, hclause, rfl⟩

/-- The problems that one state among states of the given names has by itself. -/
theorem State.mem_ownProblems {names : List String} {name : String} {s : State}
    {problem : Problem} :
    problem ∈ s.ownProblems names name ↔
      (∃ target, s.Leads target ∧ target ∉ names ∧ problem = .danglingReference name target) ∨
      (s.isTerminal = false ∧ s.next = none ∧ s.finish ≠ some true ∧
        problem = .missingTransition name) ∨
      (s.isTerminal = false ∧ s.next ≠ none ∧ s.finish = some true ∧
        problem = .conflictingTransition name) := by
  have hdangling : problem ∈ ((s.targets.filter fun target => target ∉ names).map fun target =>
        Problem.danglingReference name target) ↔
      ∃ target, s.Leads target ∧ target ∉ names ∧ problem = .danglingReference name target := by
    simp only [List.mem_map, List.mem_filter, State.mem_targets, decide_eq_true_eq, and_assoc,
      eq_comm (a := problem)]
  rw [State.ownProblems, List.mem_append, hdangling]
  refine or_congr Iff.rfl ?_
  cases hterminal : s.isTerminal with
  | true => simp
  | false =>
    rcases hnext : s.next with _ | next <;> rcases hfinish : s.finish with _ | (_ | _) <;> simp

theorem mem_startProblems {startAt : String} {names : List String} {problem : Problem} :
    problem ∈ Branch.startProblems startAt names ↔
      startAt ∉ names ∧ problem = .missingStart startAt := by
  unfold Branch.startProblems
  split <;> simp_all

/-- A branch with states breaks its own rules exactly if its start or one of its states does. -/
theorem Branch.breaks_iff {b : Branch} (hstates : b.states ≠ []) {problem : Problem} :
    b.Breaks problem ↔
      problem ∈ Branch.startProblems b.startAt b.stateNames ∨
        ∃ entry ∈ b.states, problem ∈ entry.2.ownProblems b.stateNames entry.1 := by
  simp only [mem_startProblems, State.mem_ownProblems, Prod.exists]
  cases problem with
  | emptyBranch => simp [Branch.Breaks, hstates]
  | missingStart name =>
    simp only [Branch.Breaks, hstates, ne_eq, not_false_eq_true, true_and,
      Problem.missingStart.injEq, reduceCtorEq, and_false, exists_false, or_false]
    constructor
    · rintro ⟨rfl, hmissing⟩
      exact ⟨hmissing, rfl⟩
    · rintro ⟨hmissing, rfl⟩
      exact ⟨rfl, hmissing⟩
  | danglingReference name target =>
    simp only [Branch.Breaks, reduceCtorEq, and_false, false_or, or_false,
      Problem.danglingReference.injEq]
    constructor
    · rintro ⟨s, hs, hleads, hmissing⟩
      exact ⟨name, s, hs, target, hleads, hmissing, rfl, rfl⟩
    · rintro ⟨_, s, hs, _, hleads, hmissing, rfl, rfl⟩
      exact ⟨s, hs, hleads, hmissing⟩
  | missingTransition name =>
    simp only [Branch.Breaks, reduceCtorEq, and_false, exists_false, false_or, or_false,
      Problem.missingTransition.injEq]
    constructor
    · rintro ⟨s, hs, hterminal, hnext, hfinish⟩
      exact ⟨name, s, hs, hterminal, hnext, hfinish, rfl⟩
    · rintro ⟨_, s, hs, hterminal, hnext, hfinish, rfl⟩
      exact ⟨s, hs, hterminal, hnext, hfinish⟩
  | conflictingTransition name =>
    simp only [Branch.Breaks, reduceCtorEq, and_false, exists_false, false_or,
      Problem.conflictingTransition.injEq]
    constructor
    · rintro ⟨s, hs, hterminal, hnext, hfinish⟩
      exact ⟨name, s, hs, hterminal, hnext, hfinish, rfl⟩
    · rintro ⟨_, s, hs, hterminal, hnext, hfinish, rfl⟩
      exact ⟨s, hs, hterminal, hnext, hfinish⟩

/-- The problems inside the states of a branch are those of the branches in them. -/
theorem Branch.mem_nestedProblems {b : Branch} {problem : Problem} :
    (∃ entry ∈ b.states, problem ∈ entry.2.nestedProblems) ↔
      ∃ inner : Branch, inner.Member b ∧ problem ∈ inner.problems := by
  constructor
  · rintro ⟨entry, hentry, hproblem⟩
    obtain ⟨inner, hinner, hproblem⟩ := State.mem_nestedProblems.mp hproblem
    cases hbranches : entry.2.branches with
    | none => simp [hbranches] at hinner
    | some branches =>
      exact ⟨inner, ⟨entry, hentry, branches, hbranches, by simpa [hbranches] using hinner⟩,
        hproblem⟩
  · rintro ⟨inner, ⟨entry, hentry, branches, hbranches, hinner⟩, hproblem⟩
    refine ⟨entry, hentry, State.mem_nestedProblems.mpr ⟨inner, ?_, hproblem⟩⟩
    simpa [hbranches] using hinner

/-- The problems of a branch: those of the rules that it breaks itself, and those of the branches in
its states. -/
theorem Branch.mem_problems_step {b : Branch} {problem : Problem} :
    problem ∈ b.problems ↔
      b.Breaks problem ∨ ∃ inner : Branch, inner.Member b ∧ problem ∈ inner.problems := by
  rw [← Branch.mem_nestedProblems]
  obtain ⟨startAt, states⟩ := b
  cases states with
  | nil => cases problem <;> simp [Branch.problems, Branch.Breaks]
  | cons first rest =>
    rw [Branch.problems, List.mem_append, mem_stateProblems,
      Branch.breaks_iff (List.cons_ne_nil first rest), or_assoc, ← exists_or]
    simp only [← and_or_left]
    rfl

/-! ## The problems of all branches -/

/-- A problem is listed exactly if the branch, or one inside it, breaks its rule. -/
theorem Branch.mem_problems {b : Branch} {problem : Problem} :
    problem ∈ b.problems ↔ ∃ inner : Branch, inner.Inside b ∧ inner.Breaks problem := by
  constructor
  · induction b using Branch.nested_induction with
    | step b ih =>
      intro hproblem
      rcases Branch.mem_problems_step.mp hproblem with hown | ⟨inner, hinner, hproblem⟩
      · exact ⟨b, .self b, hown⟩
      · obtain ⟨deep, hdeep, hbreaks⟩ := ih inner hinner hproblem
        exact ⟨deep, .member hdeep hinner, hbreaks⟩
  · rintro ⟨inner, hinside, hbreaks⟩
    induction hinside with
    | self => exact Branch.mem_problems_step.mpr (.inl hbreaks)
    | member _ hmember ih => exact Branch.mem_problems_step.mpr (.inr ⟨_, hmember, ih⟩)

/-- A branch breaks no rule itself if the parts of well-formedness hold that speak of it alone. -/
theorem Branch.not_breaks_iff {b : Branch} :
    (∀ problem, ¬ b.Breaks problem) ↔
      b.states ≠ [] ∧ b.startAt ∈ b.stateNames ∧
      (∀ entry ∈ b.states, ∀ target, entry.2.Leads target → target ∈ b.stateNames) ∧
      ∀ entry ∈ b.states, entry.2.isTerminal = false →
        (entry.2.next ≠ none ↔ entry.2.finish ≠ some true) := by
  constructor
  · intro h
    have hstates : b.states ≠ [] := h .emptyBranch
    refine ⟨hstates, ?_, ?_, ?_⟩
    · exact Decidable.byContradiction fun hmissing =>
        h (.missingStart b.startAt) ⟨hstates, rfl, hmissing⟩
    · intro entry hentry target hleads
      exact Decidable.byContradiction fun hmissing =>
        h (.danglingReference entry.1 target) ⟨entry.2, hentry, hleads, hmissing⟩
    · intro entry hentry hterminal
      constructor
      · intro hnext hfinish
        exact h (.conflictingTransition entry.1) ⟨entry.2, hentry, hterminal, hnext, hfinish⟩
      · intro hfinish hnext
        exact h (.missingTransition entry.1) ⟨entry.2, hentry, hterminal, hnext, hfinish⟩
  · rintro ⟨hstates, hstart, htargets, htransitions⟩ problem hbreaks
    cases problem with
    | emptyBranch => exact hstates hbreaks
    | missingStart name =>
      obtain ⟨-, rfl, hmissing⟩ := hbreaks
      exact hmissing hstart
    | danglingReference name target =>
      obtain ⟨s, hs, hleads, hmissing⟩ := hbreaks
      exact hmissing (htargets _ hs target hleads)
    | missingTransition name =>
      obtain ⟨s, hs, hterminal, hnext, hfinish⟩ := hbreaks
      exact (htransitions _ hs hterminal).mpr hfinish hnext
    | conflictingTransition name =>
      obtain ⟨s, hs, hterminal, hnext, hfinish⟩ := hbreaks
      exact (htransitions _ hs hterminal).mp hnext hfinish

/-- A machine without problems is a well-formed one. -/
theorem Branch.problems_eq_nil_iff {b : Branch} : b.problems = [] ↔ b.WellFormed := by
  rw [List.eq_nil_iff_forall_not_mem]
  constructor
  · induction b using Branch.nested_induction with
    | step b ih =>
      intro h
      obtain ⟨hstates, hstart, htargets, htransitions⟩ := Branch.not_breaks_iff.mp
        fun problem hbreaks => h problem (Branch.mem_problems_step.mpr (.inl hbreaks))
      refine .intro hstates hstart htargets htransitions fun inner hinner => ?_
      exact ih inner hinner fun problem hproblem =>
        h problem (Branch.mem_problems_step.mpr (.inr ⟨inner, hinner, hproblem⟩))
  · intro h
    induction h with
    | intro hstates hstart htargets htransitions _ ih =>
      intro problem hproblem
      rcases Branch.mem_problems_step.mp hproblem with hown | ⟨inner, hinner, hproblem⟩
      · exact Branch.not_breaks_iff.mpr ⟨hstates, hstart, htargets, htransitions⟩ problem hown
      · exact ih inner hinner problem hproblem

/-! ## The check of a machine -/

theorem outcome_validate_ok_iff {b : Branch} {memory : Memory} :
    ((validate b).outcome memory).1 = .ok () ↔ b.problems = [] := by
  refine ⟨fun h => ?_, fun h => outcome_validate h memory⟩
  cases hproblems : b.problems with
  | nil => rfl
  | cons problem rest => simp [validate, Compile.outcome_bind, hproblems] at h

/-- The check of a machine succeeds exactly if the machine is well formed, and a problem is listed
exactly if some branch of the machine, at any depth, breaks the rule of that problem. -/
theorem validate_exact (b : Branch) :
    (∀ memory, ((validate b).outcome memory).1 = .ok () ↔ b.WellFormed) ∧
    ∀ problem, problem ∈ b.problems ↔ ∃ inner : Branch, inner.Inside b ∧ inner.Breaks problem :=
  ⟨fun _ => outcome_validate_ok_iff.trans Branch.problems_eq_nil_iff,
    fun _ => Branch.mem_problems⟩

/-- A branch without states is reported as empty and for nothing else, although the state that it
starts at is none of its states. -/
theorem empty_branch_start :
    ¬ (Problem.missingStart "entry" ∈ (⟨"entry", []⟩ : Branch).problems ↔
      ∃ inner : Branch, inner.Inside ⟨"entry", []⟩ ∧ inner.startAt = "entry" ∧
        "entry" ∉ inner.stateNames) := by
  have hlisted : Problem.missingStart "entry" ∉ (⟨"entry", []⟩ : Branch).problems := by
    simp [Branch.problems]
  intro h
  exact hlisted (h.mpr ⟨⟨"entry", []⟩, .self _, rfl, by simp [Branch.stateNames, Entries.keys]⟩)

end Flowscript
