import Mathlib.Data.List.TakeWhile
import Flowscript.Proofs.Runs

/-!
# What results do not depend on

The compiler stores the names of namespaced references and asks its resolver for strings. Which
names it has stored does not show in anything that it gives back, for what it stores is what it
would find out again. And its resolver is asked for strings of the input only: an answer is not
searched for further references, whatever it is.
-/

namespace Flowscript

open Node (All)

/-! ## Stored names -/

namespace Compile

theorem notMem_lastSegment (reference : String) : ':' ∉ (lastSegment reference).toList := by
  intro h
  rw [lastSegment, String.toList_ofList, List.mem_reverse] at h
  exact absurd (List.mem_takeWhile_imp h) (by simp)

/-- The last segment is the text behind the last colon, or the whole text if it has no colon. -/
theorem eq_lastSegment_or (reference : String) :
    reference = lastSegment reference ∨
      ∃ front, reference = front ++ ":" ++ lastSegment reference := by
  by_cases hcolon : ':' ∈ reference.toList
  · right
    have hsplit := List.takeWhile_append_dropWhile (p := (· ≠ ':')) (l := reference.toList.reverse)
    have hseparator := List.head?_dropWhile_not (· ≠ ':') reference.toList.reverse
    cases hback : reference.toList.reverse.dropWhile (· ≠ ':') with
    | nil =>
      have hall := List.dropWhile_eq_nil_iff.mp hback ':' (List.mem_reverse.mpr hcolon)
      simp at hall
    | cons separator back =>
      rw [hback] at hsplit hseparator
      obtain rfl : separator = ':' := by simpa using hseparator
      refine ⟨String.ofList back.reverse, String.toList_inj.mp ?_⟩
      rw [← List.reverse_inj, ← hsplit]
      simp [lastSegment]
  · exact .inl (lastSegment_eq hcolon).symm

end Compile

namespace Memory

/-- The memories have the same counters, and whatever names they store are last segments. -/
structure NamesApart (first second : Memory) : Prop where
  symbols : first.symbols = second.symbols
  left : first.Coherent
  right : second.Coherent

theorem lockstep_namesApart : Lockstep NamesApart where
  noting h _ := ⟨h.symbols, h.left, h.right⟩
  generating stem first second h := by
    have hnext : first.symbols.next stem = second.symbols.next stem := by rw [h.symbols]
    rw [Compile.outcome_generateName, Compile.outcome_generateName]
    exact ⟨congrArg (Except.ok ∘ Prod.fst) hnext, congrArg Prod.snd hnext, h.left, h.right⟩
  naming reference first second h := by
    -- one may find the name where the other has to make it
    obtain ⟨hfirst, hsymbols⟩ := h.left.outcome_shortName reference
    obtain ⟨hsecond, hcounters⟩ := h.right.outcome_shortName reference
    refine ⟨hfirst.trans hsecond.symm, ?_, ?_, ?_⟩
    · rw [hsymbols, hcounters, h.symbols]
    · exact (lasting_coherent.shortName false reference first h.left).1
    · exact (lasting_coherent.shortName false reference second h.right).1

end Memory

/-- In every memory that a compiler comes to, the name of a reference is the text behind its last
colon. So whatever names two compilers have stored, with the same counters they give the same
answers, and their counters are the same behind that. -/
theorem names_transparent {memory : Memory} (h : memory.Reachable) :
    (∀ reference, ∃ name, ((Compile.shortName false reference).outcome memory).1 = .ok name ∧
      ':' ∉ name.toList ∧ (reference = name ∨ ∃ front, reference = front ++ ":" ++ name)) ∧
    ∀ setting : Setting, setting.readers.BuiltIn → ∀ other : Memory, other.Reachable →
      other.symbols = memory.symbols → ∀ operation : Operation,
        operation.answer setting memory = operation.answer setting other ∧
          (operation.after setting memory).symbols = (operation.after setting other).symbols := by
  refine ⟨fun reference => ?_, fun setting hreaders other hother hsymbols operation => ?_⟩
  · exact ⟨_, (h.coherent.outcome_shortName reference).1, Compile.notMem_lastSegment reference,
      Compile.eq_lastSegment_or reference⟩
  · exact (operation.agree Memory.lockstep_namesApart (hreaders.agree _)
      ⟨hsymbols.symm, h.coherent, hother.coherent⟩).imp id Memory.NamesApart.symbols

/-- A compiler that has stored the name of a reference, and a new one. -/
theorem names_transparent_stored :
    let store : Operation := .shortName false "arn:x:done"
    let guarded : Operation := .branch (.sequence [.tagged "try" (.sequence [.string "a:work",
      .string "arn:x:done"])])
    (store.after {} {}).names = [("arn:x:done", "done")] ∧ (store.after {} {}).Reachable ∧
    ({} : Setting).readers.BuiltIn ∧ ({} : Memory).Reachable ∧
    guarded.answer {} (store.after {} {}) = guarded.answer {} {} := by
  intro store guarded
  have hstart : ({} : Memory).Reachable := .start {}
  have hreaders : ({} : Setting).readers.BuiltIn := ReaderTable.standard_builtIn
  have hstored : (store.after {} {}).Reachable := .after store (hreaders.keep _) hstart
  exact ⟨by decide +kernel, hstored, hreaders, hstart,
    ((names_transparent hstored).2 {} hreaders {} hstart rfl guarded).1⟩

/-! ## Answers of the resolver -/

theorem Memory.lockstep_eq : Lockstep (· = ·) where
  noting h _ := by rw [h]
  generating _ _ _ h := by rw [h]; exact ⟨rfl, rfl⟩
  naming _ _ _ h := by rw [h]; exact ⟨rfl, rfl⟩

/-- Steps that agree from equal memories have the same outcome. -/
theorem Compile.Agree.outcome_eq {α : Type} {step other : Compile α}
    (h : step.Agree (· = ·) other) (memory : Memory) :
    step.outcome memory = other.outcome memory := by
  obtain ⟨hresult, hafter⟩ := h memory memory rfl
  exact Prod.ext hresult hafter

/-- Two resolvers that say the same of every string of the input, whether nothing, a value or an
error, lead to the same results and the same memory. What an answer has in it is not looked up. -/
theorem resolution_local {setting : Setting} (hreaders : setting.readers.BuiltIn)
    {resolver : Resolver} {documents : List Node}
    (h : ∀ document ∈ documents, ∀ reference, .string reference ∈ document.subnodes →
      setting.resolver reference = resolver reference) (memory : Memory) :
    let other := setting.withResolver resolver
    (setting.compileDocuments documents).outcome memory =
        (other.compileDocuments documents).outcome memory ∧
    ∀ node ∈ documents,
      (∀ fresh, (setting.state fresh node).outcome memory =
        (other.state fresh node).outcome memory) ∧
      (setting.branch node).outcome memory = (other.branch node).outcome memory ∧
      (setting.parallel node).outcome memory = (other.parallel node).outcome memory := by
  intro other
  have halike : ∀ document ∈ documents, All (setting.SaysAlike resolver) document := by
    rintro document hdocument _ hnode reference rfl
    exact h document hdocument reference hnode
  have hagree := hreaders.agree (· = ·)
  refine ⟨?_, fun node hnode => ⟨fun fresh => ?_, ?_, ?_⟩⟩
  · exact (Setting.agree_compileDocuments Memory.lockstep_eq hagree halike).outcome_eq memory
  · exact (Setting.agree_state Memory.lockstep_eq hagree fresh node
      (halike node hnode)).outcome_eq memory
  · exact (Setting.agree_branch Memory.lockstep_eq hagree node (halike node hnode)).outcome_eq memory
  · exact (Setting.agree_parallel Memory.lockstep_eq hagree node
      (halike node hnode)).outcome_eq memory

/-- An answer that is a reference itself, to a value for one resolver and to none for the other. -/
theorem resolution_local_chain :
    let setting : Setting :=
      { resolver := fun reference => .ok (if reference = "fetch" then some (.string "again")
          else if reference = "again" then some (.string "arn:x:deeper") else none) }
    let strict : Resolver := fun reference =>
      if reference = "fetch" then .ok (some (.string "again")) else .error "unknown"
    let documents := [Node.string "fetch"]
    setting.readers.BuiltIn ∧
    (∀ document ∈ documents, ∀ reference, .string reference ∈ document.subnodes →
      setting.resolver reference = strict reference) ∧
    (setting.compileDocuments documents).outcome {} =
      ((setting.withResolver strict).compileDocuments documents).outcome {} := by
  intro setting strict documents
  have hreaders : setting.readers.BuiltIn := ReaderTable.standard_builtIn
  have halike : ∀ document ∈ documents, ∀ reference, .string reference ∈ document.subnodes →
      setting.resolver reference = strict reference := by
    simp [documents, setting, strict, Node.subnodes]
  exact ⟨hreaders, halike, (resolution_local hreaders halike {}).1⟩

end Flowscript
