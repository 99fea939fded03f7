import Mathlib.Data.List.Basic
import Flowscript.Proofs.Remembering

/-!
# Modifiers

A retry, a catch, a next state and an end are written around a node. Each of them compiles the node
once and then sets its own part of the state: so they can be nested in any order, the outermost of
several that set the same part decides, and a failure is that of the node inside. The compiler is
opened for one modifier only; nests of them follow by induction.
-/

namespace Flowscript

/-! ## What is written -/

/-- What a whole number among the arguments says; null stands for the default. -/
def Node.Counts (default : UInt64) (node : Node) (count : UInt64) : Prop :=
  (node = .null ∧ count = default) ∨ ∃ n, node = .number n ∧ n.toUInt64? = some count

/-- What the growth of intervals says; null stands for none. -/
def Node.Grows (node : Node) (rate : Double) : Prop :=
  (node = .null ∧ rate = Double.one) ∨ ∃ n, node = .number n ∧ n.toDouble? = some rate

/-- The arguments behind the first one of a retry say what the clause is. -/
structure RetryClause.SaidBy (clause : RetryClause) (arguments : List Node) : Prop where
  length : arguments.length ≤ 3
  errors : clause.errorEquals = [allErrors]
  attempts : (arguments.getD 0 .null).Counts 3 clause.maxAttempts.toUInt64
  interval : (arguments.getD 1 .null).Counts 1 clause.intervalSeconds
  backoff : (arguments.getD 2 .null).Grows clause.backoffRate

/-- What can be written around a node to change the state that it compiles to. -/
inductive Modifier where
  | retry (clause : RetryClause)
  | guard (target : String)
  | next (target : String)
  | finish
deriving DecidableEq

/-- The parts of a state that modifiers set. -/
inductive Modifier.Part where
  | retry | catches | transition
deriving DecidableEq

namespace Modifier

/-- The part of a state that a modifier sets. -/
def part : Modifier → Part
  | .retry _ => .retry
  | .guard _ => .catches
  | .next _ | .finish => .transition

/-- The reader of a modifier's tag. -/
def reader : Modifier → Reader
  | .retry _ => .retry
  | .guard _ => .guard
  | .next _ => .next
  | .finish => .finish

/-- The payload says which modifier stands around which node. -/
def SaidBy (m : Modifier) (payload inner : Node) : Prop :=
  match m with
  | .retry clause => ∃ rest, payload.arguments = inner :: rest ∧ clause.SaidBy rest
  | .guard target => payload.arguments = [inner, .string target]
  | .next target => payload.arguments = [inner, .string target]
  | .finish => payload = inner

/-- The state with its part set. A catch stores the failure under the state's name and goes on with
the target by its short name. -/
def apply (name : String → String) (m : Modifier) (s : State) : State :=
  match m with
  | .retry clause => { s with retry := some [clause] }
  | .guard target => { s with catches := some [catchAll s (name target)] }
  | .next target => { s with next := some target, finish := none }
  | .finish => { s with next := none, finish := some true }

end Modifier

/-- The node is a modifier around another one. -/
def Setting.Around (setting : Setting) (m : Modifier) (inner node : Node) : Prop :=
  ∃ tag payload, node = .tagged tag payload ∧ setting.readers.get? tag = some m.reader ∧
    m.SaidBy payload inner

/-- The node is a nest of modifiers, of which the first is the outermost, around another one. -/
inductive Setting.Nest (setting : Setting) (inner : Node) : List Modifier → Node → Prop where
  | bare : Nest setting inner [] inner
  | around {m ms between node} (h : setting.Around m between node)
      (hn : Nest setting inner ms between) : Nest setting inner (m :: ms) node

/-! ## Parts are set on their own -/

namespace Modifier

variable {name : String → String}

theorem apply_name (m : Modifier) (s : State) : (m.apply name s).name = s.name := by
  cases m <;> rfl

/-- Different parts are set in any order. -/
theorem apply_comm {m n : Modifier} (h : m.part ≠ n.part) (s : State) :
    m.apply name (n.apply name s) = n.apply name (m.apply name s) := by
  cases m <;> cases n <;> first | rfl | exact absurd rfl h

/-- A part that is set again is as if it was set only then. -/
theorem apply_apply {m n : Modifier} (h : m.part = n.part) (s : State) :
    m.apply name (n.apply name s) = m.apply name s := by
  cases m <;> cases n <;> first | rfl | cases h

/-- The state with the parts set from the innermost modifier on. -/
def applyAll (name : String → String) (ms : List Modifier) (s : State) : State :=
  ms.foldr (apply name) s

theorem applyAll_perm {ms ns : List Modifier} (h : ms.Perm ns) (hparts : (ms.map part).Nodup) :
    applyAll name ms = applyAll name ns := by
  funext s
  unfold applyAll
  induction h with
  | nil => rfl
  | cons m h ih =>
    have hrest := ih (List.nodup_cons.mp hparts).2
    rw [List.foldr_cons, List.foldr_cons, hrest]
  | swap m n rest =>
    have hne : n.part ≠ m.part := by
      intro heq
      simp [heq] at hparts
    rw [List.foldr_cons, List.foldr_cons, List.foldr_cons, List.foldr_cons, apply_comm hne]
  | trans h _ ih ih' =>
    have hparts' := (h.map part).nodup_iff.mp hparts
    exact (ih hparts).trans (ih' hparts')

/-- Nothing is left of the modifiers inside whose part is set again. -/
theorem applyAll_filter (m : Modifier) (ms : List Modifier) :
    applyAll name (m :: ms) = applyAll name (m :: ms.filter fun n => n.part ≠ m.part) := by
  funext s
  show m.apply name (applyAll name ms s) = m.apply name (applyAll name (ms.filter _) s)
  induction ms with
  | nil => rfl
  | cons n rest ih =>
    by_cases hpart : n.part = m.part
    · rw [List.filter_cons_of_neg (by simp [hpart]), ← ih]
      exact apply_apply hpart.symm _
    · have hne : m.part ≠ n.part := fun heq => hpart heq.symm
      rw [List.filter_cons_of_pos (by simp [hpart])]
      show m.apply name (n.apply name _) = m.apply name (n.apply name _)
      rw [apply_comm hne, apply_comm hne]
      exact congrArg (n.apply name) ih

end Modifier

/-! ## Names of targets -/

/-- The short name of a reference, which is stored or is to be stored. -/
def Memory.nameOf (memory : Memory) (reference : String) : String :=
  if ':' ∉ reference.toList then reference
  else (memory.names.get? reference).getD (Compile.lastSegment reference)

/-- The memories generate the same names and have the same short names. -/
structure Memory.NamesAlike (first second : Memory) : Prop where
  symbols : first.symbols = second.symbols
  nameOf : first.nameOf = second.nameOf

theorem Memory.JournalsApart.namesAlike {first second : Memory} (h : first.JournalsApart second) :
    first.NamesAlike second := by
  refine ⟨h.symbols, ?_⟩
  unfold Memory.nameOf
  rw [h.names]

theorem Memory.nameOf_naming {memory : Memory} {reference : String}
    (h : memory.names.get? reference = none) :
    (memory.naming reference).nameOf = memory.nameOf := by
  funext other
  unfold Memory.nameOf Memory.naming
  by_cases hother : other = reference
  · simp [hother, Entries.get?_insert_self, h]
  · simp [Entries.get?_insert_ne hother]

/-- To store a short name changes no short name. -/
theorem Compile.outcome_shortName_nameOf (reference : String) (memory : Memory) :
    ∃ after, (shortName false reference).outcome memory = (.ok (memory.nameOf reference), after) ∧
      after.NamesAlike memory := by
  rw [outcome_shortName]
  by_cases hcolon : ':' ∉ reference.toList
  · rw [if_pos hcolon]
    have hself : memory.nameOf reference = reference := if_pos hcolon
    exact ⟨memory, by rw [hself], rfl, rfl⟩
  · rw [if_neg hcolon]
    have hstored : memory.nameOf reference =
        (memory.names.get? reference).getD (lastSegment reference) := if_neg hcolon
    cases hname : memory.names.get? reference with
    | some name => exact ⟨memory, by rw [hstored, hname]; rfl, rfl, rfl⟩
    | none =>
      exact ⟨memory.naming reference, by rw [hstored, hname]; rfl, rfl, Memory.nameOf_naming hname⟩

/-! ## Arguments -/

theorem ArgumentList.check_eq {list : ArgumentList} {payload : Node}
    (hleast : list.least ≤ payload.arguments.length)
    (hmost : payload.arguments.length ≤ list.most) : list.check payload = pure () := by
  unfold ArgumentList.check
  dsimp only
  rw [if_neg (by simp; omega)]

/-- A payload that is checked to have two arguments, the second of which is a text. -/
theorem ArgumentList.check_pair {list : ArgumentList} (hlist : list.least = 2 ∧ list.most = 2)
    {payload inner : Node} {target : String}
    (harguments : payload.arguments = [inner, .string target]) :
    list.check payload = pure () ∧ payload.argument 0 = inner ∧
      payload.argument 1 = .string target := by
  refine ⟨ArgumentList.check_eq ?_ ?_, ?_, ?_⟩
  · simp [harguments, hlist.1]
  · simp [harguments, hlist.2]
  · simp [Node.argument, harguments]
  · simp [Node.argument, harguments]

theorem CountArgument.read_eq {argument : CountArgument} {default count : UInt64} {node : Node}
    (h : node.Counts default count) : argument.read default node = pure count := by
  rcases h with ⟨rfl, rfl⟩ | ⟨n, rfl, hn⟩
  · rfl
  · unfold CountArgument.read
    simp only [hn]

theorem readBackoff_eq {node : Node} {rate : Double} (h : node.Grows rate) :
    readBackoff node = pure rate := by
  rcases h with ⟨rfl, rfl⟩ | ⟨n, rfl, hn⟩
  · rfl
  · unfold readBackoff
    simp only [hn]

/-- A retry is read as the clause that is written. -/
theorem readRetry_eq {payload inner : Node} {rest : List Node} {clause : RetryClause}
    (harguments : payload.arguments = inner :: rest) (h : clause.SaidBy rest) :
    readRetry payload = pure clause := by
  obtain ⟨errors, attempts, interval, backoff⟩ := clause
  have hcheck : ArgumentList.retry.check payload = pure () := by
    apply ArgumentList.check_eq
    · simp [harguments, ArgumentList.least]
    · have hlength := h.length
      simp only [harguments, List.length_cons, ArgumentList.most]
      omega
  have hargument (index : Nat) : payload.argument (index + 1) = rest.getD index .null := by
    simp [Node.argument, harguments]
  have herrors : errors = [allErrors] := h.errors
  have hsmall : ¬ UInt32.size ≤ attempts.toNat := Nat.not_le.mpr attempts.toNat_lt
  unfold readRetry
  rw [hcheck, hargument 0, hargument 1, hargument 2, CountArgument.read_eq h.attempts,
    CountArgument.read_eq h.interval, readBackoff_eq h.backoff]
  simp [hsmall, herrors]

/-! ### Whatever is accepted is written so -/

theorem ArgumentList.check_yields (list : ArgumentList) (payload : Node) :
    (list.check payload).Yields fun _ =>
      list.least ≤ payload.arguments.length ∧ payload.arguments.length ≤ list.most := by
  unfold ArgumentList.check
  dsimp only
  split
  next => exact .refuse _
  next hcount =>
    apply Compile.Yields.pure
    simp only [Bool.or_eq_true, decide_eq_true_eq] at hcount
    omega

theorem TextArgument.read_yields (argument : TextArgument) (node : Node) :
    (argument.read node).Yields (node = .string ·) := by
  unfold TextArgument.read
  split
  next => exact .pure rfl
  next => exact .refuse _

/-- What is accepted as two arguments, the second of which is a text. -/
theorem ArgumentList.arguments_pair {list : ArgumentList} (hlist : list.least = 2 ∧ list.most = 2)
    {payload : Node} {target : String}
    (hlength : list.least ≤ payload.arguments.length ∧ payload.arguments.length ≤ list.most)
    (htarget : payload.argument 1 = .string target) :
    payload.arguments = [payload.argument 0, .string target] := by
  rw [hlist.1, hlist.2] at hlength
  obtain ⟨first, second, harguments⟩ := List.length_eq_two.mp (Nat.le_antisymm hlength.2 hlength.1)
  rw [harguments]
  simp only [Node.argument, harguments] at htarget ⊢
  rw [← htarget]
  rfl

theorem CountArgument.read_yields (argument : CountArgument) (default : UInt64) (node : Node) :
    (argument.read default node).Yields (node.Counts default) := by
  unfold CountArgument.read
  split
  next => exact .pure (.inl ⟨rfl, rfl⟩)
  next n =>
    split
    next hcount => exact .pure (.inr ⟨n, rfl, hcount⟩)
    next => exact .refuse _
  next => exact .refuse _

theorem readBackoff_yields (node : Node) : (readBackoff node).Yields node.Grows := by
  unfold readBackoff
  split
  next => exact .pure (.inl ⟨rfl, rfl⟩)
  next n =>
    split
    next hrate => exact .pure (.inr ⟨n, rfl, hrate⟩)
    next => exact .refuse _
  next => exact .refuse _

theorem readRetry_yields (payload : Node) :
    (readRetry payload).Yields fun clause =>
      ∃ inner rest, payload.arguments = inner :: rest ∧ clause.SaidBy rest := by
  refine (ArgumentList.check_yields _ payload).bind fun _ hlength => ?_
  refine (CountArgument.read_yields _ _ _).bind fun attempts hattempts => ?_
  split
  next => exact .refuse _
  next hsmall =>
    refine (CountArgument.read_yields _ _ _).bind fun interval hinterval => ?_
    refine (readBackoff_yields _).bind fun rate hrate => .pure ?_
    cases harguments : payload.arguments with
    | nil => simp [harguments, ArgumentList.least] at hlength
    | cons inner rest =>
      refine ⟨inner, rest, rfl, ?_, rfl, ?_, ?_, ?_⟩
      · simp only [harguments, List.length_cons, ArgumentList.most] at hlength
        omega
      · have hkept : attempts.toUInt32.toUInt64 = attempts := by
          apply UInt64.toNat.inj
          simp only [UInt32.toNat_toUInt64, UInt64.toNat_toUInt32]
          exact Nat.mod_eq_of_lt (Nat.not_le.mp hsmall)
        simpa [Node.argument, harguments, hkept] using hattempts
      · simpa [Node.argument, harguments] using hinterval
      · simpa [Node.argument, harguments] using hrate

/-! ## One modifier -/

/-- What a modifier does with the state of the node inside. -/
def Modifier.change (m : Modifier) (s : State) : Compile State :=
  match m with
  | .retry clause => return { s with retry := some [clause] }
  | .guard target => do
    let target ← Compile.shortName false target
    return { s with catches := some [catchAll s target] }
  | .next target => return s.forceNext target
  | .finish => return s.forceEnd

namespace Setting

variable {setting : Setting} {m : Modifier} {ms : List Modifier} {payload inner node : Node}

/-- A modifier compiles the node inside once and then changes the state. -/
theorem read_modifier (h : m.SaidBy payload inner) :
    setting.read m.reader payload = setting.state false inner >>= m.change := by
  rw [read.eq_def]
  cases m with
  | retry clause =>
    obtain ⟨rest, harguments, hclause⟩ := h
    have hinner : payload.argument 0 = inner := by simp [Node.argument, harguments]
    simp only [Modifier.reader]
    rw [readRetry_eq harguments hclause, hinner, pure_bind]
    rfl
  | guard target =>
    obtain ⟨hcheck, hinner, htarget⟩ := ArgumentList.guard.check_pair ⟨rfl, rfl⟩ h
    simp only [Modifier.reader]
    rw [hcheck, hinner, htarget, pure_bind]
    rfl
  | next target =>
    obtain ⟨hcheck, hinner, htarget⟩ := ArgumentList.target.check_pair ⟨rfl, rfl⟩ h
    simp only [Modifier.reader]
    rw [hcheck, hinner, htarget, pure_bind]
    rfl
  | finish =>
    cases h
    rfl

/-- What compiles under the tag of a modifier says a modifier and a node. -/
theorem exists_saidBy (m : Modifier) (payload : Node) :
    (setting.read m.reader payload).Yields fun _ =>
      ∃ n : Modifier, n.reader = m.reader ∧ ∃ inner, n.SaidBy payload inner := by
  rw [read.eq_def]
  cases m with
  | retry clause =>
    refine (readRetry_yields payload).bind fun written hwritten => ?_
    obtain ⟨inner, rest, harguments, hsaid⟩ := hwritten
    exact .after fun _ => .pure ⟨.retry written, rfl, inner, rest, harguments, hsaid⟩
  | guard target =>
    refine (ArgumentList.check_yields _ payload).bind fun _ hlength => ?_
    refine (TextArgument.read_yields _ _).bind fun written hwritten => ?_
    have harguments := ArgumentList.arguments_pair ⟨rfl, rfl⟩ hlength hwritten
    exact .after fun _ => .after fun _ => .pure ⟨.guard written, rfl, _, harguments⟩
  | next target =>
    refine (ArgumentList.check_yields _ payload).bind fun _ hlength => ?_
    refine (TextArgument.read_yields _ _).bind fun written hwritten => ?_
    have harguments := ArgumentList.arguments_pair ⟨rfl, rfl⟩ hlength hwritten
    exact .after fun _ => .pure ⟨.next written, rfl, _, harguments⟩
  | finish => exact .after fun _ => .pure ⟨.finish, rfl, payload, rfl⟩

/-- What is set depends on nothing but the short names. -/
theorem outcome_change (m : Modifier) (s : State) (memory : Memory) :
    ∃ after, (m.change s).outcome memory = (.ok (m.apply memory.nameOf s), after) ∧
      after.NamesAlike memory := by
  cases m with
  | guard target =>
    obtain ⟨after, hname, halike⟩ := Compile.outcome_shortName_nameOf target memory
    refine ⟨after, ?_, halike⟩
    unfold Modifier.change
    dsimp only
    rw [Compile.outcome_bind_ok hname]
    rfl
  | _ => exact ⟨memory, rfl, rfl, rfl⟩

/-- A step: the state is that of the node inside with one part set, a failure is that of the node
inside, and the same names are generated. -/
theorem outcome_around (hreaders : setting.readers.Agree Memory.JournalsApart)
    (h : setting.Around m inner node) (fresh : Bool) (memory : Memory) :
    ((setting.state fresh node).outcome memory).1 =
        ((setting.state false inner).outcome memory).1.map
          (m.apply ((setting.state false inner).outcome memory).2.nameOf) ∧
      ((setting.state fresh node).outcome memory).2.NamesAlike
        ((setting.state false inner).outcome memory).2 := by
  obtain ⟨tag, payload, rfl, hreader, hpayload⟩ := h
  have houter : (setting.state fresh (.tagged tag payload)).outcome memory =
      (setting.state false inner >>= m.change).outcome
        (memory.noting (.readerChosen tag)) := by
    rw [state.eq_def]
    simp only [hreader]
    rw [read_modifier hpayload]
    rfl
  -- the node inside is compiled from a memory with one notice more
  have hagree : (setting.state false inner).Agree Memory.JournalsApart
      (setting.state false inner) :=
    agree_state Memory.lockstep_journalsApart hreaders false inner setting.saysAlike_self
  obtain ⟨hresult, hafter⟩ := hagree (memory.noting (.readerChosen tag)) memory ⟨rfl, rfl⟩
  have hnames := hafter.namesAlike
  rw [houter, Compile.outcome_bind, ← hresult]
  match hinner : (setting.state false inner).outcome (memory.noting (.readerChosen tag)) with
  | (.error cause, between) =>
    rw [hinner] at hnames
    exact ⟨rfl, hnames⟩
  | (.ok s, between) =>
    rw [hinner] at hnames
    obtain ⟨after, hchange, halike⟩ := outcome_change m s between
    dsimp only at hnames ⊢
    rw [hchange, hnames.nameOf]
    exact ⟨rfl, halike.symbols.trans hnames.symbols, halike.nameOf.trans hnames.nameOf⟩

/-- A run over the nest: the parts are set from the innermost modifier on. -/
theorem outcome_nest (hreaders : setting.readers.Agree Memory.JournalsApart)
    (h : setting.Nest inner ms node) (memory : Memory) :
    ((setting.state false node).outcome memory).1 =
        ((setting.state false inner).outcome memory).1.map
          (Modifier.applyAll ((setting.state false inner).outcome memory).2.nameOf ms) ∧
      ((setting.state false node).outcome memory).2.NamesAlike
        ((setting.state false inner).outcome memory).2 := by
  induction h with
  | bare =>
    refine ⟨?_, rfl, rfl⟩
    cases ((setting.state false inner).outcome memory).1 <;> rfl
  | around h hn ih =>
    obtain ⟨hresult, halike⟩ := ih
    obtain ⟨houter, halike'⟩ := outcome_around hreaders h false memory
    rw [houter, hresult, halike.nameOf]
    refine ⟨?_, halike'.symbols.trans halike.symbols, halike'.nameOf.trans halike.nameOf⟩
    cases ((setting.state false inner).outcome memory).1 <;> rfl

/-! ## The main statement -/

/-- Modifiers keep to their own parts. Around a node, one changes only its part of the state, and
fails as the node does; nested with others that set other parts, the order does not matter; nested
around others that set its part, only the outermost counts; the name stays; and what goes on with
another state does not end, and the other way round. Readers from outside the notation may do what
they like, but not look at the journal. -/
theorem modifiers_apart (hreaders : setting.readers.Agree Memory.JournalsApart) (x : Node)
    (memory : Memory) :
    (∀ m node, setting.Around m x node → ∀ fresh,
      ((setting.state fresh node).outcome memory).1 =
          ((setting.state false x).outcome memory).1.map
            (m.apply ((setting.state false x).outcome memory).2.nameOf) ∧
        ((setting.state fresh node).outcome memory).2.symbols =
          ((setting.state false x).outcome memory).2.symbols) ∧
    (∀ ms ns node other, setting.Nest x ms node → setting.Nest x ns other → ms.Perm ns →
      (ms.map Modifier.part).Nodup →
      ((setting.state false node).outcome memory).1 =
          ((setting.state false other).outcome memory).1 ∧
        ((setting.state false node).outcome memory).2.symbols =
          ((setting.state false other).outcome memory).2.symbols) ∧
    (∀ m ms node alone, setting.Nest x (m :: ms) node →
      setting.Nest x (m :: ms.filter fun n => n.part ≠ m.part) alone →
      ((setting.state false node).outcome memory).1 =
          ((setting.state false alone).outcome memory).1 ∧
        ((setting.state false node).outcome memory).2.symbols =
          ((setting.state false alone).outcome memory).2.symbols) ∧
    (∀ m node t, setting.Around m x node →
      ((setting.state false node).outcome memory).1 = .ok t →
      (∃ s, ((setting.state false x).outcome memory).1 = .ok s ∧ t.name = s.name) ∧
        (∀ target, m = .next target → t.next = some target ∧ t.finish = none) ∧
        (m = .finish → t.next = none ∧ t.finish = some true)) := by
  refine ⟨?_, ?_, ?_, ?_⟩
  · intro m node h fresh
    obtain ⟨hresult, halike⟩ := outcome_around hreaders h fresh memory
    exact ⟨hresult, halike.symbols⟩
  · intro ms ns node other h h' hperm hparts
    obtain ⟨hresult, halike⟩ := outcome_nest hreaders h memory
    obtain ⟨hresult', halike'⟩ := outcome_nest hreaders h' memory
    rw [hresult, hresult', Modifier.applyAll_perm hperm hparts]
    exact ⟨rfl, halike.symbols.trans halike'.symbols.symm⟩
  · intro m ms node alone h h'
    obtain ⟨hresult, halike⟩ := outcome_nest hreaders h memory
    obtain ⟨hresult', halike'⟩ := outcome_nest hreaders h' memory
    rw [hresult, hresult', Modifier.applyAll_filter]
    exact ⟨rfl, halike.symbols.trans halike'.symbols.symm⟩
  · intro m node t h ht
    rw [(outcome_around hreaders h false memory).1] at ht
    obtain ⟨s, hs, rfl⟩ := ok_of_map ht
    refine ⟨⟨s, hs, m.apply_name s⟩, fun target hm => ?_, fun hm => ?_⟩
    · rw [hm]
      exact ⟨rfl, rfl⟩
    · rw [hm]
      exact ⟨rfl, rfl⟩

theorem modifiers_apart_retry :
    let setting : Setting := {}
    let task := Node.string "arn:task:load"
    let twice := Node.tagged "retry" (.sequence [task, .number (.whole 2)])
    let linked := Node.tagged "next" (.sequence [task, .string "store"])
    ((setting.state false (.tagged "next" (.sequence [twice, .string "store"]))).outcome {}).1 =
        ((setting.state false (.tagged "retry" (.sequence [linked, .number (.whole 2)]))).outcome
          {}).1 ∧
      ((setting.state false (.tagged "retry" twice)).outcome {}).1 =
        ((setting.state false (.tagged "retry" task)).outcome {}).1 := by
  intro setting task twice linked
  have hreaders : setting.readers.Agree Memory.JournalsApart :=
    ReaderTable.standard_builtIn.agree _
  obtain ⟨-, horder, houter, -⟩ := modifiers_apart hreaders task {}
  let two : Modifier := .retry ⟨[allErrors], 2, 1, Double.one⟩
  let three : Modifier := .retry ⟨[allErrors], 3, 1, Double.one⟩
  have htwo (inner : Node) :
      setting.Around two inner (.tagged "retry" (.sequence [inner, .number (.whole 2)])) :=
    ⟨"retry", _, rfl, rfl, _, rfl,
      ⟨by decide, rfl, .inr ⟨_, rfl, rfl⟩, .inl ⟨rfl, rfl⟩, .inl ⟨rfl, rfl⟩⟩⟩
  have hthree (inner : Node) (h : inner.arguments = [inner]) :
      setting.Around three inner (.tagged "retry" inner) :=
    ⟨"retry", _, rfl, rfl, _, h,
      ⟨by decide, rfl, .inl ⟨rfl, rfl⟩, .inl ⟨rfl, rfl⟩, .inl ⟨rfl, rfl⟩⟩⟩
  have hnext (inner : Node) : setting.Around (.next "store") inner
      (.tagged "next" (.sequence [inner, .string "store"])) := ⟨"next", _, rfl, rfl, rfl⟩
  constructor
  · exact (horder _ _ _ _ (.around (hnext _) (.around (htwo task) .bare))
      (.around (htwo _) (.around (hnext task) .bare)) (.swap _ _ _) (by decide)).1
  · exact (houter three [two] _ _ (.around (hthree _ rfl) (.around (htwo task) .bare))
      (.around (hthree task rfl) .bare)).1

end Setting
end Flowscript
