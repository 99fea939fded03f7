import Flowscript.Compile

/-!
# Outcomes of compilation steps

What the primitive steps give back and remember, how the outcome of two steps in a row follows from
their own outcomes, and properties of everything that a step gives back when it succeeds.
-/

namespace Flowscript

/-- A computation that succeeds in two parts succeeds in each. -/
theorem ok_of_bind {ε α β : Type} {first : Except ε α} {next : α → Except ε β} {b : β}
    (h : first >>= next = .ok b) : ∃ a, first = .ok a ∧ next a = .ok b := by
  cases first with
  | error fault => cases h
  | ok a => exact ⟨a, rfl, h⟩

/-- A computation that fails in two parts fails in one of them. -/
theorem error_of_bind {ε α β : Type} {first : Except ε α} {next : α → Except ε β} {fault : ε}
    (h : first >>= next = .error fault) :
    first = .error fault ∨ ∃ a, first = .ok a ∧ next a = .error fault := by
  cases first with
  | error other =>
    cases h
    exact .inl rfl
  | ok a => exact .inr ⟨a, rfl, h⟩

theorem ok_of_map {ε α β : Type} {f : α → β} {value : Except ε α} {b : β}
    (h : value.map f = .ok b) : ∃ a, value = .ok a ∧ f a = b := by
  cases value with
  | error fault => cases h
  | ok a => exact ⟨a, rfl, Except.ok.inj h⟩

/-- The memory with one more notice. -/
def Memory.noting (memory : Memory) (notice : Notice) : Memory :=
  { memory with journal := notice :: memory.journal }

namespace Compile

variable {α β : Type} {P Q : α → Prop}

/-! ## Outcomes -/

@[simp] theorem outcome_pure (a : α) (memory : Memory) :
    (pure a : Compile α).outcome memory = (.ok a, memory) := rfl

@[simp] theorem outcome_refuse (cause : SyntaxError) (memory : Memory) :
    (refuse cause : Compile α).outcome memory = (.error (.refused cause), memory) := rfl

@[simp] theorem outcome_throw (cause : CompileError) (memory : Memory) :
    (throw cause : Compile α).outcome memory = (.error cause, memory) := rfl

@[simp] theorem outcome_note (notice : Notice) (memory : Memory) :
    (note notice).outcome memory =
      (.ok (), { memory with journal := notice :: memory.journal }) := rfl

/-- Two steps in a row: the second starts from what the first remembers, and is not taken if the
first fails. -/
theorem outcome_bind (step : Compile α) (next : α → Compile β) (memory : Memory) :
    (step >>= next).outcome memory =
      match step.outcome memory with
      | (.ok a, after) => (next a).outcome after
      | (.error cause, after) => (.error cause, after) := by
  simp only [outcome, ExceptT.run_bind, StateT.run_bind]
  cases (ExceptT.run step).run memory with
  | mk result after => cases result <;> rfl

theorem outcome_map (f : α → β) (step : Compile α) (memory : Memory) :
    (f <$> step).outcome memory =
      match step.outcome memory with
      | (.ok a, after) => (.ok (f a), after)
      | (.error cause, after) => (.error cause, after) := by
  rw [← bind_pure_comp, outcome_bind]
  rfl

theorem outcome_bind_ok {step : Compile α} {memory after : Memory} {a : α}
    (h : step.outcome memory = (.ok a, after)) (next : α → Compile β) :
    (step >>= next).outcome memory = (next a).outcome after := by
  rw [outcome_bind, h]

/-- What goes on behind a step whether it fails or not. -/
theorem run_bind (step : Compile α) (next : Except CompileError α → StateM Memory β)
    (memory : Memory) :
    (step.run >>= next).run memory =
      (next (step.outcome memory).1).run (step.outcome memory).2 := rfl

/-- A step whose failure is handled: the handler starts from what the step remembers. -/
theorem outcome_tryCatch (step : Compile α) (handle : CompileError → Compile α) (memory : Memory) :
    (tryCatch step handle).outcome memory =
      match step.outcome memory with
      | (.ok a, after) => (.ok a, after)
      | (.error cause, after) => (handle cause).outcome after := by
  change (ExceptT.run (ExceptT.tryCatch step handle)).run memory = _
  simp only [outcome, ExceptT.tryCatch, ExceptT.run_mk, StateT.run_bind]
  match (ExceptT.run step).run memory with
  | (.ok a, after) => rfl
  | (.error cause, after) => rfl

/-- A step that succeeds in two parts succeeds in each. -/
theorem ok_of_bind {step : Compile α} {next : α → Compile β} {memory after : Memory} {b : β}
    (h : (step >>= next).outcome memory = (.ok b, after)) :
    ∃ a between, step.outcome memory = (.ok a, between) ∧
      (next a).outcome between = (.ok b, after) := by
  rw [outcome_bind] at h
  match hs : step.outcome memory with
  | (.ok a, between) => exact ⟨a, between, rfl, by simpa [hs] using h⟩
  | (.error cause, between) => simp [hs] at h

/-- What a step is seen to give back it gives back. -/
theorem exists_of_any {step : Compile α} {memory : Memory} {holds : α → Bool}
    (h : (step.outcome memory).1.toOption.any holds = true) :
    ∃ a after, step.outcome memory = (.ok a, after) ∧ holds a = true := by
  match hs : step.outcome memory with
  | (.ok a, after) => exact ⟨a, after, rfl, by simpa [hs, Except.toOption] using h⟩
  | (.error cause, after) => simp [hs, Except.toOption] at h

theorem outcome_ofExcept_ok {value : Except SyntaxError α} {a : α} (h : value = .ok a)
    (memory : Memory) : (ofExcept value).outcome memory = (.ok a, memory) := by
  rw [h]
  rfl

theorem ofExcept_bind (value : Except SyntaxError α) (next : α → Except SyntaxError β) :
    ofExcept (value >>= next) = ofExcept value >>= fun a => ofExcept (next a) := by
  cases value <;> rfl

/-! ## What a step yields -/

/-- Whatever the step gives back when it succeeds has the property. -/
def Yields (step : Compile α) (P : α → Prop) : Prop :=
  ∀ memory a after, step.outcome memory = (.ok a, after) → P a

theorem Yields.pure {a : α} (h : P a) : Yields (Pure.pure a : Compile α) P := by
  intro memory b after hb
  cases hb
  exact h

theorem Yields.refuse (cause : SyntaxError) : Yields (Compile.refuse cause : Compile α) P := by
  intro memory b after hb
  cases hb

theorem Yields.throw (cause : CompileError) :
    Yields (throwThe CompileError cause : Compile α) P := by
  intro memory b after hb
  cases hb

theorem Yields.trivial (step : Compile α) : Yields step fun _ => True :=
  fun _ _ _ _ => True.intro

theorem Yields.mono {step : Compile α} (h : Yields step P) (hPQ : ∀ a, P a → Q a) :
    Yields step Q := fun memory a after ha => hPQ a (h memory a after ha)

theorem Yields.and {step : Compile α} (h : Yields step P) (h' : Yields step Q) :
    Yields step fun a => P a ∧ Q a :=
  fun memory a after ha => ⟨h memory a after ha, h' memory a after ha⟩

theorem Yields.bind {R : β → Prop} {step : Compile α} {next : α → Compile β}
    (h : Yields step P) (hn : ∀ a, P a → Yields (next a) R) : Yields (step >>= next) R := by
  intro memory b after hb
  obtain ⟨a, between, ha, hb⟩ := ok_of_bind hb
  exact hn a (h memory a between ha) between b after hb

/-- A step of which only the failure matters. -/
theorem Yields.after {R : β → Prop} {step : Compile α} {next : α → Compile β}
    (hn : ∀ a, Yields (next a) R) : Yields (step >>= next) R :=
  (Yields.trivial step).bind fun a _ => hn a

theorem Yields.ofExcept {value : Except SyntaxError α} (h : ∀ a, value = .ok a → P a) :
    Yields (Compile.ofExcept value) P := by
  cases value with
  | ok a => exact .pure (h a rfl)
  | error cause => exact .refuse cause

end Compile
end Flowscript
