import Flowscript.Proofs.Runs

/-!
# Generated names

A generated name tells its stem and its number: the number is what stands behind the last
underscore. A stem's counter only goes forward, so no name is generated twice while a compiler is
used, whatever stems its names are generated from.
-/

namespace Flowscript

/-! ## Names and their numbers -/

/-- The last of a separator parts a text in one way only. -/
theorem append_cons_inj_of_notMem_right {α : Type} {a : α} {front other back rest : List α}
    (hback : a ∉ back) (hrest : a ∉ rest) (h : front ++ a :: back = other ++ a :: rest) :
    front = other ∧ back = rest := by
  rcases List.append_eq_append_iff.mp h with ⟨between, rfl, hbetween⟩ | ⟨between, rfl, hbetween⟩
  · cases between with
    | nil => simpa using hbetween
    | cons b bs =>
      obtain ⟨rfl, rfl⟩ := List.cons.inj hbetween
      simp at hback
  · cases between with
    | nil => simpa using hbetween.symm
    | cons b bs =>
      obtain ⟨rfl, rfl⟩ := List.cons.inj hbetween
      simp at hrest

namespace Symbols

theorem notMem_toDigits (number : Nat) : '_' ∉ Nat.toDigits 10 number := by
  intro h
  have hdigit := Nat.isDigit_of_mem_toDigits (by omega) (by omega) h
  exact absurd hdigit (by decide)

/-- A name tells its stem and its number, also if the stem has underscores and digits in it. -/
theorem name_injective {stem other : String} {number count : Nat}
    (h : name stem number = name other count) : stem = other ∧ number = count := by
  have htexts : stem.toList ++ '_' :: Nat.toDigits 10 number =
      other.toList ++ '_' :: Nat.toDigits 10 count := by
    simpa [name] using congrArg String.toList h
  obtain ⟨hstem, hdigits⟩ :=
    append_cons_inj_of_notMem_right (notMem_toDigits number) (notMem_toDigits count) htexts
  have hread := congrArg (fun digits => Nat.ofDigitChars 10 digits 0) hdigits
  exact ⟨String.toList_inj.mp hstem, by simpa using hread⟩

/-- The counter of a stem goes forward by one when a name is generated from the stem, and at no
other time. -/
theorem count_next (symbols : Symbols) (stem other : String) :
    (symbols.next stem).2.count other =
      if other = effectiveStem stem then symbols.count other + 1 else symbols.count other := by
  split
  · rename_i h
    rw [h, count_next_self]
  · rename_i h
    rw [count_next_ne symbols h]

end Symbols

/-! ## Names in the journal -/

/-- The name whose generation a notice reports. -/
def Notice.generated? : Notice → Option String
  | .symbolAllocated name => some name
  | _ => none

namespace Memory

/-- The names that were generated, the latest first. -/
def generated (memory : Memory) : List String := memory.journal.filterMap Notice.generated?

theorem generated_noting (memory : Memory) {notice : Notice} (h : notice.allocates = false) :
    (memory.noting notice).generated = memory.generated := by
  cases notice with
  | symbolAllocated name => cases h
  | _ => rfl

theorem generated_generateName (stem : String) (memory : Memory) :
    ((Compile.generateName stem).outcome memory).2.generated =
      (memory.symbols.next stem).1 :: memory.generated := rfl

/-- No counter has gone back. -/
def AheadOf (symbols : Symbols) (memory : Memory) : Prop :=
  ∀ stem, symbols.count stem ≤ memory.symbols.count stem

theorem lasting_aheadOf (symbols : Symbols) : Lasting (AheadOf symbols) where
  noting h _ := h
  generating {memory} stem h other := by
    have hcount := Symbols.count_next memory.symbols stem other
    have hother := h other
    rw [Compile.outcome_generateName]
    show symbols.count other ≤ (memory.symbols.next stem).2.count other
    split at hcount <;> omega
  naming h := h

/-- Since the counters stood as given, the generated names were those of the numbers that the
counters went through, each of them once. -/
structure CountedFrom (symbols : Symbols) (memory : Memory) : Prop where
  distinct : memory.generated.Nodup
  mem_iff : ∀ name, name ∈ memory.generated ↔ ∃ stem number,
    symbols.count stem ≤ number ∧ number < memory.symbols.count stem ∧
      name = Symbols.name stem number
  ahead : memory.AheadOf symbols

theorem CountedFrom.start (symbols : Symbols) (names : Entries String String) :
    CountedFrom symbols { symbols, names } where
  distinct := List.nodup_nil
  mem_iff name := by
    constructor
    · intro h
      cases h
    · rintro ⟨stem, number, hleast, hbound, -⟩
      exact absurd hbound (Nat.not_lt.mpr hleast)
  ahead stem := Nat.le_refl _

/-- The next name of a stem has the first number that the stem's counter has not gone through. -/
theorem CountedFrom.generateName {symbols : Symbols} {memory : Memory}
    (h : memory.CountedFrom symbols) (stem : String) :
    ((Compile.generateName stem).outcome memory).2.CountedFrom symbols where
  distinct := by
    rw [generated_generateName, List.nodup_cons]
    refine ⟨fun hmem => ?_, h.distinct⟩
    obtain ⟨other, number, -, hbound, hname⟩ := (h.mem_iff _).mp hmem
    obtain ⟨rfl, rfl⟩ := Symbols.name_injective hname
    exact Nat.lt_irrefl _ hbound
  mem_iff name := by
    have hcount := Symbols.count_next memory.symbols stem
    rw [generated_generateName, List.mem_cons, h.mem_iff, Compile.outcome_generateName]
    show _ ↔ ∃ other number, symbols.count other ≤ number ∧
      number < (memory.symbols.next stem).2.count other ∧ name = Symbols.name other number
    constructor
    · rintro (rfl | ⟨other, number, hleast, hbound, rfl⟩)
      · refine ⟨Symbols.effectiveStem stem, _, h.ahead _, ?_, rfl⟩
        rw [hcount, if_pos rfl]
        omega
      · refine ⟨other, number, hleast, ?_, rfl⟩
        rw [hcount]
        split <;> omega
    · rintro ⟨other, number, hleast, hbound, rfl⟩
      rw [hcount] at hbound
      by_cases hstem : other = Symbols.effectiveStem stem
      · subst hstem
        rw [if_pos rfl] at hbound
        rcases Nat.lt_or_eq_of_le (Nat.le_of_lt_succ hbound) with hbound | rfl
        · exact .inr ⟨_, number, hleast, hbound, rfl⟩
        · exact .inl rfl
      · rw [if_neg hstem] at hbound
        exact .inr ⟨other, number, hleast, hbound, rfl⟩
  ahead := (lasting_aheadOf symbols).generating stem h.ahead

theorem lasting_countedFrom (symbols : Symbols) : Lasting (CountedFrom symbols) where
  noting {memory notice} h hnotice :=
    ⟨by rw [generated_noting memory hnotice]; exact h.distinct,
      by rw [generated_noting memory hnotice]; exact h.mem_iff, h.ahead⟩
  generating stem h := h.generateName stem
  naming h := ⟨h.distinct, h.mem_iff, h.ahead⟩

end Memory

/-! ## Runs -/

namespace Operation

/-- What the compiler remembers behind operations, one after the other. -/
def afterAll (setting : Setting) (operations : List Operation) (memory : Memory) : Memory :=
  operations.foldl (fun memory operation => operation.after setting memory) memory

theorem keepsAll {setting : Setting} {I : Memory → Prop} (hI : Memory.Lasting I)
    (hreaders : setting.readers.Keep I) (operations : List Operation) {memory : Memory}
    (h : I memory) : I (afterAll setting operations memory) := by
  induction operations generalizing memory with
  | nil => exact h
  | cons operation rest ih => exact ih (operation.keeps hI hreaders h)

end Operation

/-- However a compiler is used, whatever its counters are at the start, and whether its operations
succeed or fail, it generates no name twice. The names are those of the numbers that the counters
go through, and no counter goes back. -/
theorem generated_names_distinct {setting : Setting} (hreaders : setting.readers.BuiltIn)
    (symbols : Symbols) (names : Entries String String) (operations : List Operation) :
    let memory := Operation.afterAll setting operations { symbols, names }
    memory.generated.Nodup ∧
    (∀ name, name ∈ memory.generated ↔ ∃ stem number, symbols.count stem ≤ number ∧
      number < memory.symbols.count stem ∧ name = Symbols.name stem number) ∧
    (∀ stem, symbols.count stem ≤ memory.symbols.count stem) ∧
    ∀ (further : List Operation) (stem : String), memory.symbols.count stem ≤
      (Operation.afterAll setting further memory).symbols.count stem := by
  intro memory
  have hcounted : memory.CountedFrom symbols :=
    Operation.keepsAll (Memory.lasting_countedFrom symbols) (hreaders.keep _) operations
      (.start symbols names)
  refine ⟨hcounted.distinct, hcounted.mem_iff, hcounted.ahead, fun further stem => ?_⟩
  exact Operation.keepsAll (Memory.lasting_aheadOf memory.symbols) (hreaders.keep _) further
    (fun _ => Nat.le_refl _) stem

/-- The stem `sym` shares its counter with the empty one, a stem may be a name itself, and the third
operation fails behind the generation of its name. -/
theorem generated_names_distinct_sym :
    let operations : List Operation := [.generateName "", .generateName "sym",
      .state false (.tagged "params" (.bool true)), .shortName true "arn:sym_0"]
    ({} : Setting).readers.BuiltIn ∧
    (Operation.afterAll {} operations {}).generated = ["sym_0_0", "pass_0", "sym_1", "sym_0"] ∧
    (Operation.afterAll {} operations {}).generated.Nodup := by
  intro operations
  have hreaders : ({} : Setting).readers.BuiltIn := ReaderTable.standard_builtIn
  have hreader : ReaderTable.standard.get? "params" = some .parameters := rfl
  refine ⟨hreaders, ?_, (generated_names_distinct hreaders {} [] operations).1⟩
  simp only [operations, Operation.afterAll, List.foldl, Operation.after, Setting.state,
    Setting.read, hreader]
  decide +kernel

end Flowscript
