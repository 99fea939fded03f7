import Flowscript.Proofs.Agreement

/-!
# What the compiler remembers

While it works, the compiler enters notices into its journal, generates names, and stores the names
of namespaced references. A property of memories that lasts through each of these lasts through
everything that is compiled, whether it succeeds or fails: two compilers that start from the same
memory with the property come to the same memory, and it has the property.
-/

namespace Flowscript

/-- The memories are the same and have a property. -/
def Memory.Both (I : Memory → Prop) (first second : Memory) : Prop := first = second ∧ I first

/-! ## Steps from a memory with a property -/

namespace Compile

variable {α β : Type} {I : Memory → Prop} {P Q : α → Prop}

/-- From every memory with the property `I` the step leads to another one, and what it gives back
when it succeeds has the property `P`. -/
def Ensures (step : Compile α) (I : Memory → Prop) (P : α → Prop) : Prop :=
  ∀ memory, I memory →
    I (step.outcome memory).2 ∧ ∀ a, (step.outcome memory).1 = .ok a → P a

/-- The step keeps a property of the memory. -/
abbrev Keeps (step : Compile α) (I : Memory → Prop) : Prop := Ensures step I fun _ => True

theorem Ensures.pure {a : α} (h : P a) : Ensures (Pure.pure a : Compile α) I P := by
  rintro memory hI
  refine ⟨hI, ?_⟩
  rintro b ⟨rfl⟩
  exact h

theorem Ensures.throw (cause : CompileError) :
    Ensures (throwThe CompileError cause : Compile α) I P :=
  fun _ hI => ⟨hI, nofun⟩

theorem Ensures.refuse (cause : SyntaxError) : Ensures (Compile.refuse cause : Compile α) I P :=
  .throw _

theorem Ensures.ofExcept {value : Except SyntaxError α} (h : ∀ a, value = .ok a → P a) :
    Ensures (Compile.ofExcept value) I P := by
  cases value with
  | ok a => exact .pure (h a rfl)
  | error cause => exact .refuse cause

theorem Ensures.mono {step : Compile α} (h : step.Ensures I P) (hPQ : ∀ a, P a → Q a) :
    step.Ensures I Q :=
  fun memory hI => ⟨(h memory hI).1, fun a ha => hPQ a ((h memory hI).2 a ha)⟩

theorem Ensures.bind {R : β → Prop} {step : Compile α} {next : α → Compile β}
    (h : step.Ensures I P) (hn : ∀ a, P a → (next a).Ensures I R) :
    (step >>= next).Ensures I R := by
  intro memory hI
  obtain ⟨hafter, hP⟩ := h memory hI
  rw [outcome_bind]
  match hs : step.outcome memory with
  | (.error cause, after) =>
    rw [hs] at hafter
    exact ⟨hafter, nofun⟩
  | (.ok a, after) =>
    rw [hs] at hafter hP
    exact hn a (hP a rfl) after hafter

/-- What a step gives back from any memory it gives back from those with the property. -/
theorem Keeps.ensures {step : Compile α} (h : step.Keeps I) (hyields : step.Yields P) :
    step.Ensures I P :=
  fun memory hI => ⟨(h memory hI).1, fun a ha => hyields memory a _ (Prod.ext ha rfl)⟩

/-- A step of which only the memory matters. -/
theorem Keeps.bind {R : β → Prop} {step : Compile α} {next : α → Compile β}
    (h : step.Keeps I) (hn : ∀ a, (next a).Ensures I R) : (step >>= next).Ensures I R :=
  Ensures.bind h fun a _ => hn a

theorem Agree.keeps {step : Compile α} (h : step.Agree (Memory.Both I) step) : step.Keeps I :=
  fun memory hI => ⟨(h memory memory ⟨rfl, hI⟩).2.2, fun _ _ => trivial⟩

theorem Keeps.agree {step : Compile α} (h : step.Keeps I) : step.Agree (Memory.Both I) step := by
  rintro memory _ ⟨rfl, hI⟩
  exact ⟨rfl, rfl, (h memory hI).1⟩

/-! ### Arguments -/

theorem keeps_check (list : ArgumentList) (payload : Node) : (list.check payload).Keeps I :=
  (agree_check list payload).keeps

theorem ensures_text (argument : TextArgument) (node : Node) :
    (argument.read node).Ensures I (node = .string ·) := by
  unfold TextArgument.read
  split
  · exact .pure rfl
  · exact .refuse _

theorem keeps_retry (payload : Node) : (readRetry payload).Keeps I := (agree_retry payload).keeps

end Compile

/-! ## Lasting properties -/

/-- The memory with the name of a reference. -/
def Memory.naming (memory : Memory) (reference : String) : Memory :=
  let segment := Compile.lastSegment reference
  { memory.noting (.referenceNamed reference segment) with
    names := memory.names.insert reference segment }

/-- The name of a reference is stored when the reference is met for the first time, unless the
reference is its own name. -/
theorem Compile.outcome_shortName (reference : String) (memory : Memory) :
    (Compile.shortName false reference).outcome memory =
      if ':' ∉ reference.toList then (.ok reference, memory)
      else
        match memory.names.get? reference with
        | some name => (.ok name, memory)
        | none => (.ok (Compile.lastSegment reference), memory.naming reference) := by
  unfold shortName
  dsimp only
  rw [if_neg Bool.false_ne_true]
  split
  · rfl
  · rw [outcome_bind_ok (rfl : (get : Compile Memory).outcome memory = (.ok memory, memory))]
    cases memory.names.get? reference <;> rfl

/-- A generated name is given back and remembered. -/
theorem Compile.outcome_generateName (stem : String) (memory : Memory) :
    (generateName stem).outcome memory =
      (.ok (memory.symbols.next stem).1,
        { memory with symbols := (memory.symbols.next stem).2 }.noting
          (.symbolAllocated (memory.symbols.next stem).1)) := rfl

/-- The memories differ in their journals at most. -/
structure Memory.JournalsApart (first second : Memory) : Prop where
  symbols : first.symbols = second.symbols
  names : first.names = second.names

/-- Nothing that is compiled depends on the journal. -/
theorem Memory.lockstep_journalsApart : Lockstep JournalsApart where
  noting h _ := ⟨h.symbols, h.names⟩
  generating stem first second h := by
    rw [Compile.outcome_generateName, Compile.outcome_generateName, h.symbols]
    exact ⟨rfl, rfl, h.names⟩
  naming reference first second h := by
    rw [Compile.outcome_shortName, Compile.outcome_shortName, h.names]
    split
    · exact ⟨rfl, h⟩
    · split
      · exact ⟨rfl, h⟩
      · refine ⟨rfl, h.symbols, ?_⟩
        simp only [Memory.naming, h.names]

/-- A property of memories that lasts through every change which the compiler makes. -/
structure Memory.Lasting (I : Memory → Prop) : Prop where
  noting : ∀ {memory notice}, I memory → Notice.allocates notice = false → I (memory.noting notice)
  generating : ∀ {memory} stem, I memory → I ((Compile.generateName stem).outcome memory).2
  naming : ∀ {memory reference}, I memory → I (memory.naming reference)

namespace Memory.Lasting

open Compile (Keeps Ensures)

variable {I : Memory → Prop} (hI : Memory.Lasting I)

include hI

theorem note {notice : Notice} (h : notice.allocates = false) : (Compile.note notice).Keeps I :=
  fun _ hmemory => ⟨hI.noting hmemory h, fun _ _ => trivial⟩

theorem generateName (stem : String) : (Compile.generateName stem).Keeps I :=
  fun _ hmemory => ⟨hI.generating stem hmemory, fun _ _ => trivial⟩

theorem shortName (fresh : Bool) (reference : String) :
    (Compile.shortName fresh reference).Keeps I := by
  cases fresh with
  | true => exact hI.generateName _
  | false =>
    intro memory hmemory
    rw [Compile.outcome_shortName]
    refine ⟨?_, fun _ _ => trivial⟩
    split
    · exact hmemory
    · split
      · exact hmemory
      · exact hI.naming hmemory

theorem lockstep : Memory.Lockstep (Memory.Both I) where
  noting := by
    rintro memory _ notice ⟨rfl, hmemory⟩ hnotice
    exact ⟨rfl, hI.noting hmemory hnotice⟩
  generating stem := (hI.generateName stem).agree
  naming reference := (hI.shortName false reference).agree

theorem forM_note {notices : List Notice} (h : ∀ notice ∈ notices, notice.allocates = false) :
    (notices.forM Compile.note).Keeps I := (hI.lockstep.forM_note h).keeps

theorem explicitState (forced : Option StateType) (entries : Entries String Node) :
    (explicitState forced entries).Keeps I := (hI.lockstep.explicitState forced entries).keeps

theorem resolve (setting : Setting) (reference : String) : (setting.resolve reference).Keeps I := by
  have hresolve : (setting.resolve reference).Agree (Memory.Both I)
      ((setting.withResolver setting.resolver).resolve reference) := hI.lockstep.resolve rfl
  exact hresolve.keeps

end Memory.Lasting

/-! ## The compiler -/

/-- The readers from outside the notation keep a property of the memory. -/
def ReaderTable.Keep (readers : ReaderTable) (I : Memory → Prop) : Prop :=
  ∀ tag compile, readers.get? tag = some (.custom compile) →
    ∀ payload, (compile payload).Keeps I

theorem ReaderTable.BuiltIn.keep {readers : ReaderTable} (h : readers.BuiltIn)
    (I : Memory → Prop) : readers.Keep I := by
  intro tag compile hreader
  cases h.reader hreader

theorem ReaderTable.Keep.agree {readers : ReaderTable} {I : Memory → Prop} (h : readers.Keep I) :
    readers.Agree (Memory.Both I) :=
  fun tag compile hreader payload => (h tag compile hreader payload).agree

namespace Setting

variable {setting : Setting} {I : Memory → Prop}

theorem keeps_state (hI : Memory.Lasting I) (hreaders : setting.readers.Keep I) (fresh : Bool)
    (node : Node) : (setting.state fresh node).Keeps I :=
  (agree_state hI.lockstep hreaders.agree fresh node setting.saysAlike_self).keeps

theorem keeps_mappingState (hI : Memory.Lasting I) (hreaders : setting.readers.Keep I)
    (forced : Option StateType) (entries : Entries String Node) :
    (setting.mappingState forced entries).Keeps I :=
  (agree_mappingState hI.lockstep hreaders.agree forced entries setting.saysAlike_self).keeps

theorem keeps_namedItem (hI : Memory.Lasting I) (hreaders : setting.readers.Keep I) (item : Node) :
    (setting.namedItem item).Keeps I := by
  have hitem : (setting.itemState item).Keeps I :=
    (agree_itemState hI.lockstep hreaders.agree item setting.saysAlike_self).keeps
  rw [namedItem, ← itemState_eq]
  refine hitem.bind fun s => ?_
  split
  · exact .pure trivial
  · exact (hI.generateName _).bind fun name => .pure trivial

end Setting
end Flowscript
