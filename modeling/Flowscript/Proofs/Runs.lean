import Flowscript.Proofs.Remembering
import Flowscript.Stream

/-!
# Runs of a compiler

A compiler is used for one operation after the other. Each starts from what those before it left
behind, whether they succeeded or failed. In every memory that a compiler comes to in this way, the
names that are stored for references are their last segments, so a name does not depend on what was
compiled before.
-/

namespace Flowscript

open Node (All)

/-! ## Computations that cannot fail -/

namespace Memory

variable {α β : Type} {R : Memory → Memory → Prop}

/-- From related memories both computations give back the same and lead to related memories. -/
def Alike (R : Memory → Memory → Prop) (step other : StateM Memory α) : Prop :=
  ∀ first second, R first second →
    (step.run first).1 = (other.run second).1 ∧ R (step.run first).2 (other.run second).2

theorem Alike.pure (a : α) : Alike R (Pure.pure a) (Pure.pure a) := fun _ _ hR => ⟨rfl, hR⟩

theorem Alike.bind {step other : StateM Memory α} {next following : α → StateM Memory β}
    (h : Alike R step other) (hn : ∀ a, Alike R (next a) (following a)) :
    Alike R (step >>= next) (other >>= following) := by
  intro first second hR
  obtain ⟨hresult, hafter⟩ := h first second hR
  show ((next (step.run first).1).run (step.run first).2).1 =
      ((following (other.run second).1).run (other.run second).2).1 ∧
    R ((next (step.run first).1).run (step.run first).2).2
      ((following (other.run second).1).run (other.run second).2).2
  rw [← hresult]
  exact hn _ _ _ hafter

end Memory

/-! ## Sources and streams -/

namespace Setting

open Compile (Agree)
open Memory (Alike)

variable {setting : Setting} {R : Memory → Memory → Prop}

theorem all_of_mem_documentItems {P : Node → Prop} {document item : Node} (h : All P document)
    (hitem : item ∈ documentItems document) : All P item := by
  cases document with
  | sequence items => exact h.item hitem
  | _ =>
    obtain rfl := List.mem_singleton.mp hitem
    exact h

theorem agree_compileDocuments {resolver : Resolver} (hR : Memory.Lockstep R)
    (hreaders : setting.readers.Agree R) {documents : List Node}
    (hn : ∀ document ∈ documents, All (setting.SaysAlike resolver) document) :
    (setting.compileDocuments documents).Agree R
      ((setting.withResolver resolver).compileDocuments documents) := by
  have hitems : ∀ item ∈ documents.flatMap documentItems,
      All (setting.SaysAlike resolver) item := by
    intro item hitem
    obtain ⟨document, hdocument, hitem⟩ := List.mem_flatMap.mp hitem
    exact all_of_mem_documentItems (hn document hdocument) hitem
  have hsequence := All.sequence SaysAlike.sequence hitems
  unfold compileDocuments
  dsimp only
  split
  · exact .refuse _
  · refine (hR.note rfl).bind fun _ => ?_
    split
    · rename_i item hitem
      rw [hitem] at hitems hsequence
      split
      · exact agree_branch hR hreaders _ (hitems item List.mem_cons_self)
      · exact agree_branch hR hreaders _ hsequence
    · exact agree_branch hR hreaders _ hsequence

theorem agree_readDocuments (hR : Memory.Lockstep R)
    (documents : List (Except Yaml.Fault Yaml.Value)) :
    (readDocuments documents).Agree R (readDocuments documents) := by
  induction documents with
  | nil => exact .pure _
  | cons document rest ih =>
    cases document with
    | error cause => exact .throw _
    | ok value =>
      rw [readDocuments]
      split
      · exact (hR.note rfl).bind fun _ => ih
      · exact (Agree.ofExcept _).bind fun node => ih.bind fun _ => .pure _

theorem agree_compileText (hR : Memory.Lockstep R) (hreaders : setting.readers.Agree R)
    (text : String) : (setting.compileText text).Agree R (setting.compileText text) := by
  have hparse : (parseDocuments text).Agree R (parseDocuments text) :=
    (agree_readDocuments hR _).bind fun _ => (hR.note rfl).bind fun _ => .pure _
  exact hparse.bind fun documents => (hR.note rfl).bind fun _ =>
    agree_compileDocuments hR hreaders fun _ _ => setting.saysAlike_self

theorem agree_compileLineOrWarn (hR : Memory.Lockstep R) (hreaders : setting.readers.Agree R)
    (number : Nat) (line : String) (parse : LineParser) :
    (setting.compileLineOrWarn number line parse).Agree R
      (setting.compileLineOrWarn number line parse) := by
  have hline : (setting.compileLine number line parse).Agree R
      (setting.compileLine number line parse) := by
    unfold compileLine
    split
    · exact .throw _
    · split
      · exact (hR.note rfl).bind fun _ => .pure _
      · refine Agree.bind ?_ fun _ => .pure _
        exact agree_compileDocuments hR hreaders fun _ _ => setting.saysAlike_self
  exact hline.tryCatch fun cause => (hR.note rfl).bind fun _ => .throw _

theorem alike_pull (hR : Memory.Lockstep R) (hreaders : setting.readers.Agree R)
    (parse : LineParser) (s : StreamState) : Alike R (setting.pull parse s) (setting.pull parse s) := by
  rw [pull]
  split
  next line rest hlines =>
    have hbehind := StreamState.takeLine_behind hlines
    have hrest := alike_pull hR hreaders parse (s.takeLine rest)
    split
    · exact hrest.bind fun pulled => .pure _
    · have hline : Alike R (setting.compileLineOrWarn (s.passed + 1) line parse).run
          (setting.compileLineOrWarn (s.passed + 1) line parse).run :=
        agree_compileLineOrWarn hR hreaders (s.passed + 1) line parse
      refine hline.bind fun result => ?_
      split
      · exact hrest.bind fun pulled => .pure _
      · exact .pure _
      · exact .pure _
  next hlines =>
    split
    next => exact .pure _
    next hexhausted =>
      split
      next text rest hchunks =>
        have hbehind : (s.takeChunk text rest).Behind s := StreamState.takeChunk_behind hchunks
        exact (alike_pull hR hreaders parse (s.takeChunk text rest)).bind fun pulled => .pure _
      next => exact .pure _
      next hchunks =>
        have hbehind := StreamState.takeEnd_behind hexhausted
        exact (alike_pull hR hreaders parse s.takeEnd).bind fun pulled => .pure _
termination_by s
decreasing_by all_goals exact hbehind

theorem alike_next (hR : Memory.Lockstep R) (hreaders : setting.readers.Agree R)
    (parse : LineParser) (s : StreamState) : Alike R (setting.next parse s) (setting.next parse s) := by
  rw [next]
  split
  · exact .pure _
  · refine (alike_pull hR hreaders parse s).bind fun pulled => ?_
    split <;> exact .pure _

theorem alike_items (hR : Memory.Lockstep R) (hreaders : setting.readers.Agree R)
    (parse : LineParser) (s : StreamState) :
    Alike R (setting.items parse s) (setting.items parse s) := by
  rw [items]
  refine (alike_next hR hreaders parse s).bind fun pulled => ?_
  split
  next => exact .pure _
  next item t =>
    have hbehind := t.2
    exact (alike_items hR hreaders parse t).bind fun others => .pure _
termination_by s
decreasing_by exact hbehind

end Setting

/-! ## Operations -/

/-- What a compiler can be asked to do. -/
inductive Operation where
  | state (fresh : Bool) (node : Node)
  | mapping (forced : Option StateType) (entries : Entries String Node)
  | shorthand (fresh : Bool) (node : Node)
  | branch (node : Node)
  | parallel (node : Node)
  | resolve (reference : String)
  | generateName (stem : String)
  | shortName (fresh : Bool) (reference : String)
  | documents (nodes : List Node)
  | text (source : String)
  /-- Pulls the next item of a stream. -/
  | item (parse : LineParser) (s : StreamState)
  /-- Pulls all items of a stream. -/
  | stream (parse : LineParser) (chunks : List Chunk)

namespace Operation

/-- What the compiler remembers behind an operation, which may have failed. -/
def after (setting : Setting) (operation : Operation) (memory : Memory) : Memory :=
  match operation with
  | .state fresh node => ((setting.state fresh node).outcome memory).2
  | .mapping forced entries => ((setting.mappingState forced entries).outcome memory).2
  | .shorthand fresh node => ((setting.shorthand fresh node).outcome memory).2
  | .branch node => ((setting.branch node).outcome memory).2
  | .parallel node => ((setting.parallel node).outcome memory).2
  | .resolve reference => ((setting.resolve reference).outcome memory).2
  | .generateName stem => ((Compile.generateName stem).outcome memory).2
  | .shortName fresh reference => ((Compile.shortName fresh reference).outcome memory).2
  | .documents nodes => ((setting.compileDocuments nodes).outcome memory).2
  | .text source => ((setting.compileText source).outcome memory).2
  | .item parse s => ((setting.next parse s).run memory).2
  | .stream parse chunks => ((setting.items parse { chunks }).run memory).2

/-- What an operation gives back. -/
inductive Answer where
  | state (result : Except CompileError State)
  | branch (result : Except CompileError Branch)
  | node (result : Except CompileError Node)
  | name (result : Except CompileError String)
  | item (result : Option (StreamItem × StreamState))
  | items (result : List StreamItem)

/-- What an operation gives back to a compiler with the given memory. -/
def answer (setting : Setting) (operation : Operation) (memory : Memory) : Answer :=
  match operation with
  | .state fresh node => .state ((setting.state fresh node).outcome memory).1
  | .mapping forced entries => .state ((setting.mappingState forced entries).outcome memory).1
  | .shorthand fresh node => .state ((setting.shorthand fresh node).outcome memory).1
  | .branch node => .branch ((setting.branch node).outcome memory).1
  | .parallel node => .state ((setting.parallel node).outcome memory).1
  | .resolve reference => .node ((setting.resolve reference).outcome memory).1
  | .generateName stem => .name ((Compile.generateName stem).outcome memory).1
  | .shortName fresh reference => .name ((Compile.shortName fresh reference).outcome memory).1
  | .documents nodes => .branch ((setting.compileDocuments nodes).outcome memory).1
  | .text source => .branch ((setting.compileText source).outcome memory).1
  | .item parse s =>
    .item (((setting.next parse s).run memory).1.map fun pulled => (pulled.1, pulled.2.1))
  | .stream parse chunks => .items ((setting.items parse { chunks }).run memory).1

/-- In lockstep every operation gives back the same to both compilers. -/
theorem agree {setting : Setting} {R : Memory → Memory → Prop} (hR : Memory.Lockstep R)
    (hreaders : setting.readers.Agree R) (operation : Operation) {first second : Memory}
    (h : R first second) :
    operation.answer setting first = operation.answer setting second ∧
      R (operation.after setting first) (operation.after setting second) := by
  have hself {node : Node} : All (setting.SaysAlike setting.resolver) node := setting.saysAlike_self
  cases operation with
  | state fresh node =>
    exact (Setting.agree_state hR hreaders fresh node hself first second h).imp (congrArg Answer.state) id
  | mapping forced entries =>
    exact (Setting.agree_mappingState hR hreaders forced entries hself first second h).imp
      (congrArg Answer.state) id
  | shorthand fresh node =>
    exact (hR.shorthand fresh hself.self first second h).imp (congrArg Answer.state) id
  | branch node =>
    exact (Setting.agree_branch hR hreaders node hself first second h).imp (congrArg Answer.branch) id
  | parallel node =>
    exact (Setting.agree_parallel hR hreaders node hself first second h).imp (congrArg Answer.state) id
  | resolve reference => exact (hR.resolve rfl first second h).imp (congrArg Answer.node) id
  | generateName stem => exact (hR.generating stem first second h).imp (congrArg Answer.name) id
  | shortName fresh reference =>
    exact (hR.shortName fresh reference first second h).imp (congrArg Answer.name) id
  | documents nodes =>
    exact (Setting.agree_compileDocuments hR hreaders (fun _ _ => hself) first second h).imp
      (congrArg Answer.branch) id
  | text source =>
    exact (Setting.agree_compileText hR hreaders source first second h).imp (congrArg Answer.branch) id
  | item parse s =>
    refine (Setting.alike_next hR hreaders parse s first second h).imp (fun hitem => ?_) id
    rw [answer, answer, hitem]
  | stream parse chunks =>
    exact (Setting.alike_items hR hreaders parse _ first second h).imp (congrArg Answer.items) id

/-- Every operation keeps what lasts. -/
theorem keeps {setting : Setting} {I : Memory → Prop} (hI : Memory.Lasting I)
    (hreaders : setting.readers.Keep I) (operation : Operation) {memory : Memory} (h : I memory) :
    I (operation.after setting memory) :=
  (operation.agree hI.lockstep hreaders.agree ⟨rfl, h⟩).2.2

end Operation

/-! ## Names of references -/

namespace Compile

/-- A reference without a colon is its own last segment. -/
theorem lastSegment_eq {reference : String} (h : ':' ∉ reference.toList) :
    lastSegment reference = reference := by
  have hall : ∀ c ∈ reference.toList.reverse, decide (c ≠ ':') = true := by
    intro c hc
    rw [List.mem_reverse] at hc
    exact decide_eq_true fun hcolon => h (hcolon ▸ hc)
  rw [lastSegment, ← List.append_nil reference.toList.reverse,
    List.takeWhile_append_of_pos hall, List.takeWhile_nil, List.append_nil, List.reverse_reverse,
    String.ofList_toList]

end Compile

namespace Memory

/-- Every stored name is the last segment of its reference. -/
def Coherent (memory : Memory) : Prop :=
  ∀ reference name, memory.names.get? reference = some name →
    name = Compile.lastSegment reference

theorem lasting_coherent : Lasting Coherent where
  noting h _ := h
  generating _ h := h
  naming {memory reference} h := by
    intro other name hname
    by_cases heq : other = reference
    · subst heq
      rw [naming, Entries.get?_insert_self] at hname
      exact (Option.some.inj hname).symm
    · rw [naming, Entries.get?_insert_ne heq] at hname
      exact h other name hname

/-- The memories that compilers come to: with no names at the start, and behind operations of
whatever setting. Readers from outside the notation cannot make stored names differ from last
segments, for they reach them by operations only. -/
inductive Reachable : Memory → Prop
  | start (symbols : Symbols) : Reachable { symbols }
  | renewed {memory : Memory} (symbols : Symbols) :
    Reachable memory → Reachable { memory with symbols }
  | after {setting : Setting} {memory : Memory} (operation : Operation) :
    setting.readers.Keep Coherent → Reachable memory → Reachable (operation.after setting memory)

theorem Reachable.coherent {memory : Memory} (h : memory.Reachable) : memory.Coherent := by
  induction h with
  | start symbols => exact nofun
  | renewed symbols _ ih => exact ih
  | after operation hreaders _ ih => exact operation.keeps lasting_coherent hreaders ih

end Memory

/-- The name of a reference is its last segment. -/
theorem Memory.Coherent.outcome_shortName {memory : Memory} (h : memory.Coherent)
    (reference : String) :
    ((Compile.shortName false reference).outcome memory).1 =
        .ok (Compile.lastSegment reference) ∧
      ((Compile.shortName false reference).outcome memory).2.symbols = memory.symbols := by
  rw [Compile.outcome_shortName]
  split
  · rename_i hplain
    rw [Compile.lastSegment_eq hplain]
    exact ⟨rfl, rfl⟩
  · split
    · rename_i found hfound
      rw [h reference found hfound]
      exact ⟨rfl, rfl⟩
    · exact ⟨rfl, rfl⟩

theorem Compile.ensures_shortName (reference : String) :
    (Compile.shortName false reference).Ensures Memory.Coherent
      (· = Compile.lastSegment reference) := by
  intro memory hmemory
  refine ⟨(Memory.lasting_coherent.shortName false reference memory hmemory).1, ?_⟩
  rw [(hmemory.outcome_shortName reference).1]
  rintro name ⟨rfl⟩
  rfl

end Flowscript
