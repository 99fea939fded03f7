import Mathlib.Algebra.Group.Nat.Defs
import Flowscript.Proofs.Absence
import Flowscript.Proofs.Kept
import Flowscript.Proofs.Modifiers
import Flowscript.Proofs.Spelling

/-!
# Retries

A retry is written around a mapping, as the arguments of a tag, or inside it, as a clause with named
fields. The numbers of the one are checked as arguments and those of the other by the decoder of
clauses. The main statement is that both take the same numbers, and that they then give the mapping
the same clause and change nothing else.
-/

namespace Flowscript

/-! ## Numbers -/

namespace Double

/-- Rounding a quotient goes up by one at most. -/
theorem le_roundQuotient (num den : Nat) :
    num / den ≤ roundQuotient num den ∧ roundQuotient num den ≤ num / den + 1 := by
  unfold roundQuotient
  dsimp only
  split
  · omega
  split
  · omega
  split <;> omega

theorem floorLog2_one {n : Nat} (h : n ≠ 0) : floorLog2 n 1 = Nat.log2 n := by
  have hle : 2 ^ Nat.log2 n ≤ n := Nat.log2_self_le h
  have hone : Nat.log2 1 = 0 := by decide
  unfold floorLog2
  simp [Nat.shiftLeft_eq, hone, hle]

/-- A whole number that is scaled to 53 bits. -/
theorem scaled_bounds {n : Nat} (h : n ≠ 0) :
    2 ^ 52 ≤ (n <<< (52 - Nat.log2 n)) / (1 <<< (Nat.log2 n - 52)) ∧
      (n <<< (52 - Nat.log2 n)) / (1 <<< (Nat.log2 n - 52)) < 2 ^ 53 := by
  have hlow := Nat.log2_self_le h
  have hhigh := (Nat.log2_lt h).mp (Nat.lt_succ_self (Nat.log2 n))
  rw [Nat.shiftLeft_eq, Nat.shiftLeft_eq, Nat.one_mul]
  generalize Nat.log2 n = k at *
  rcases Nat.le_total k 52 with hk | hk
  · obtain ⟨j, hj⟩ := Nat.exists_eq_add_of_le hk
    have hpow : (2 : Nat) ^ 52 = 2 ^ k * 2 ^ j := by rw [hj, Nat.pow_add]
    have hpow' : (2 : Nat) ^ 53 = 2 ^ (k + 1) * 2 ^ j := by
      rw [← Nat.pow_add]
      congr 1
      omega
    rw [show 52 - k = j by omega, show k - 52 = 0 by omega, Nat.pow_zero, Nat.div_one, hpow, hpow']
    exact ⟨Nat.mul_le_mul_right _ hlow, Nat.mul_lt_mul_of_pos_right hhigh (Nat.two_pow_pos j)⟩
  · obtain ⟨j, rfl⟩ := Nat.exists_eq_add_of_le hk
    rw [show 52 - (52 + j) = 0 by omega, show 52 + j - 52 = j by omega, Nat.pow_zero, Nat.mul_one]
    rw [Nat.le_div_iff_mul_le (Nat.two_pow_pos j), Nat.div_lt_iff_lt_mul (Nat.two_pow_pos j),
      ← Nat.pow_add, ← Nat.pow_add]
    refine ⟨hlow, ?_⟩
    rwa [show 53 + j = (52 + j).succ by omega]

/-- Every whole number of 64 bits has a nearest number. -/
theorem exists_ofInt? {n : Int} (h : Number.Holds n) : ∃ x, ofInt? n = some x := by
  have hbound : n.natAbs < 2 ^ 65 := by
    obtain ⟨hlow, hhigh⟩ := h
    have hleast : Int64.minValue.toInt = -2 ^ 63 := by decide
    have hmost : (UInt64.size : Int) = 2 ^ 64 := by decide
    omega
  unfold ofInt? ofRatio?
  split
  · exact ⟨_, rfl⟩
  rename_i hne
  have hlog : Nat.log2 n.natAbs < 65 := (Nat.log2_lt hne).mpr hbound
  have hexponent : max (-1074) (floorLog2 n.natAbs 1 - 52) = Nat.log2 n.natAbs - 52 := by
    rw [floorLog2_one hne]
    omega
  have hup : (-((Nat.log2 n.natAbs : Int) - 52)).toNat = 52 - Nat.log2 n.natAbs := by omega
  have hdown : ((Nat.log2 n.natAbs : Int) - 52).toNat = Nat.log2 n.natAbs - 52 := by omega
  obtain ⟨hleast, hmost⟩ := scaled_bounds hne
  obtain ⟨hlow, hhigh⟩ := le_roundQuotient (n.natAbs <<< (52 - Nat.log2 n.natAbs))
    (1 <<< (Nat.log2 n.natAbs - 52))
  rw [hexponent]
  dsimp only
  rw [hup, hdown]
  generalize roundQuotient _ _ = rounded at *
  have hrange : ∀ pair : Nat × Int, pair =
      (if rounded = 1 <<< 53 then (1 <<< 52, (Nat.log2 n.natAbs : Int) - 52 + 1)
        else (rounded, (Nat.log2 n.natAbs : Int) - 52)) → InRange pair.1 pair.2 := by
    rintro pair rfl
    have htwo : (1 <<< 53 : Nat) = 2 ^ 53 := rfl
    split
    · exact ⟨by dsimp only; decide, by dsimp only; omega, by dsimp only; omega,
        .inl (by dsimp only; decide)⟩
    · exact ⟨by dsimp only; omega, by dsimp only; omega, by dsimp only; omega,
        .inl (Nat.le_trans hleast hlow)⟩
  exact ⟨_, dif_pos (hrange _ rfl)⟩

end Double

/-- Whole numbers that are not negative count themselves, up to 64 bits. -/
theorem Number.toUInt64?_eq_some_iff {n : Number} {count : UInt64} :
    n.toUInt64? = some count ↔ n = .whole count.toNat := by
  cases n with
  | real x => simp [toUInt64?]
  | whole n =>
    have hbound : count.toNat < UInt64.size := count.toNat_lt
    simp only [toUInt64?, Number.whole.injEq]
    constructor
    · intro h
      split at h
      · rename_i hn
        cases h
        have hsmall : n.toNat < UInt64.size := by omega
        rw [UInt64.toNat_ofNat_of_lt' hsmall, Int.toNat_of_nonneg hn.1]
      · cases h
    · rintro rfl
      rw [if_pos ⟨by omega, by omega⟩]
      simp

/-! ## Clauses -/

/-- Three nodes tell the numbers of a clause for every failure: how many attempts, the interval, and
its growth. -/
structure RetryClause.Told (clause : RetryClause) (attempts interval growth : Node) : Prop where
  errors : clause.errorEquals = [allErrors]
  attempts : attempts = .number (.whole clause.maxAttempts.toNat)
  interval : interval = .number (.whole clause.intervalSeconds.toNat)
  growth : ∃ x, growth = .number x ∧ x.toDouble? = some clause.backoffRate

/-- The clause for every failure, with its numbers under their names. -/
def Node.retryClause (attempts interval growth : Node) : Node :=
  .mapping [("ErrorEquals", .sequence [.string allErrors]), ("MaxAttempts", attempts),
    ("IntervalSeconds", interval), ("BackoffRate", growth)]

section Numbers

variable {attempts interval growth : Node} {clause : RetryClause}

/-- Which numbers tell a clause: any for the growth that a document can hold. -/
theorem exists_told_iff (hgrowth : ∀ n, growth = .number (.whole n) → Number.Holds n) :
    (∃ clause : RetryClause, clause.Told attempts interval growth) ↔
      (∃ n : Nat, n < 2 ^ 32 ∧ attempts = .number (.whole n)) ∧
        (∃ n : Nat, n < 2 ^ 64 ∧ interval = .number (.whole n)) ∧ ∃ x, growth = .number x := by
  constructor
  · rintro ⟨clause, h⟩
    obtain ⟨x, hx, -⟩ := h.growth
    exact ⟨⟨_, clause.maxAttempts.toNat_lt, h.attempts⟩,
      ⟨_, clause.intervalSeconds.toNat_lt, h.interval⟩, x, hx⟩
  · rintro ⟨⟨n, hn, rfl⟩, ⟨m, hm, rfl⟩, x, rfl⟩
    have hrate : ∃ rate, x.toDouble? = some rate := by
      cases x with
      | real x => exact ⟨x, rfl⟩
      | whole n => exact Double.exists_ofInt? (hgrowth n rfl)
    obtain ⟨rate, hrate⟩ := hrate
    refine ⟨⟨[allErrors], UInt32.ofNat n, UInt64.ofNat m, rate⟩, rfl, ?_, ?_, x, rfl, hrate⟩
    · rw [UInt32.toNat_ofNat_of_lt' hn]
    · rw [UInt64.toNat_ofNat_of_lt' hm]

/-- As arguments of a tag, nodes other than null say what they tell. -/
theorem saidBy_iff_told (hattempts : attempts ≠ .null) (hinterval : interval ≠ .null)
    (hgrowth : growth ≠ .null) :
    clause.SaidBy [attempts, interval, growth] ↔ clause.Told attempts interval growth := by
  have hcounts {node : Node} (hnode : node ≠ .null) (default count : UInt64) :
      node.Counts default count ↔ node = .number (.whole count.toNat) := by
    unfold Node.Counts
    simp [hnode, Number.toUInt64?_eq_some_iff]
  constructor
  · intro h
    refine ⟨h.errors, ?_, (hcounts hinterval _ _).mp h.interval, ?_⟩
    · simpa using (hcounts hattempts _ _).mp h.attempts
    · rcases h.backoff with ⟨hnull, -⟩ | hnumber
      · exact absurd hnull hgrowth
      · exact hnumber
  · intro h
    refine ⟨by simp, h.errors, ?_, (hcounts hinterval _ _).mpr h.interval, .inr h.growth⟩
    exact (hcounts hattempts _ _).mpr (by simpa using h.attempts)

/-- The decoder of clauses takes what its decoders of fields take. -/
theorem RetryClause.ofJson_eq_ok_iff {attempts interval growth : Json} :
    ofJson (.object [("ErrorEquals", .array [.string allErrors]), ("MaxAttempts", attempts),
      ("IntervalSeconds", interval), ("BackoffRate", growth)]) = .ok clause ↔
      clause.errorEquals = [allErrors] ∧ Decoder.count32 attempts = .ok clause.maxAttempts ∧
        Decoder.count64 interval = .ok clause.intervalSeconds ∧
        Decoder.real growth = .ok clause.backoffRate := by
  constructor
  · intro h
    obtain ⟨draft, hdraft, h⟩ := ok_of_bind h
    obtain ⟨first, hfirst, hdraft⟩ := ok_of_bind hdraft
    obtain ⟨second, hsecond, hdraft⟩ := ok_of_bind hdraft
    obtain ⟨third, hthird, hdraft⟩ := ok_of_bind hdraft
    obtain ⟨fourth, hfourth, hdraft⟩ := ok_of_bind hdraft
    cases hdraft
    cases hfirst
    obtain ⟨count, hcount, rfl⟩ := ok_of_map hsecond
    obtain ⟨seconds, hseconds, rfl⟩ := ok_of_map hthird
    obtain ⟨rate, hrate, rfl⟩ := ok_of_map hfourth
    cases h
    exact ⟨rfl, hcount, hseconds, hrate⟩
  · rintro ⟨herrors, hattempts, hinterval, hgrowth⟩
    exact ofJson_object (by rw [herrors]; rfl) hattempts hinterval hgrowth

theorem Decoder.real_eq_ok_iff {value : Json} {rate : Double} :
    real value = .ok rate ↔ ∃ x, value = .number x ∧ x.toDouble? = some rate := by
  cases value with
  | number x =>
    cases hx : x.toDouble? with
    | none => simp [real, hx]
    | some y => simp [real, hx]
  | _ => simp [real]

/-- A clause that stands without a list is a list of one. -/
theorem readClauses_object {α : Type} {decode : Decoder α} {p : Property} {node : Node}
    {fields : List (String × Json)} (h : Property.readData node = .ok (.object fields))
    {clauses : List α} :
    Property.readClauses decode p node = .ok clauses ↔
      ∃ clause, clauses = [clause] ∧ decode (.object fields) = .ok clause := by
  have hlist : [Json.object fields].mapM decode = (decode (.object fields)).map ([·]) := by
    rw [List.mapM_cons]
    cases decode (.object fields) <;> rfl
  unfold Property.readClauses
  rw [h]
  simp only [bind, Except.bind]
  rw [hlist]
  cases decode (.object fields) with
  | error fault => simp [Except.map, throw, throwThe, MonadExceptOf.throw]
  | ok clause => simp [Except.map, pure, Except.pure, eq_comm]

/-- What is read of a clause with named fields. -/
theorem readData_retryClause {value : Json}
    (h : Property.readData (.retryClause attempts interval growth) = .ok value) :
    ∃ first second third, attempts = .ofJson first ∧ interval = .ofJson second ∧
      growth = .ofJson third ∧
      value = .object [("ErrorEquals", .array [.string allErrors]), ("MaxAttempts", first),
        ("IntervalSeconds", second), ("BackoffRate", third)] := by
  have hnode := Node.eq_ofJson_of_readData h
  cases value with
  | object fields =>
    simp only [Node.retryClause, Node.ofJson, Node.ofJsonFields_eq_map, Node.mapping.injEq] at hnode
    obtain ⟨errors, fields, rfl, herrors, hnode⟩ := List.map_eq_cons_iff.mp hnode.symm
    obtain ⟨first, fields, rfl, hfirst, hnode⟩ := List.map_eq_cons_iff.mp hnode
    obtain ⟨second, fields, rfl, hsecond, hnode⟩ := List.map_eq_cons_iff.mp hnode
    obtain ⟨third, fields, rfl, hthird, hnode⟩ := List.map_eq_cons_iff.mp hnode
    cases List.map_eq_nil_iff.mp hnode
    have hlist : errors = ("ErrorEquals", Json.array [.string allErrors]) := by
      obtain ⟨name, list⟩ := errors
      obtain ⟨rfl, hlist⟩ := Prod.mk.inj herrors
      have hdata := Node.readData_ofJson list
      rw [hlist] at hdata
      rw [← Except.ok.inj hdata]
    have hname {field : String × Json} {name : String} {node : Node}
        (hfield : (field.1, Node.ofJson field.2) = (name, node)) :
        ∃ value, field = (name, value) ∧ node = .ofJson value := by
      obtain ⟨rfl, rfl⟩ := Prod.mk.inj hfield
      exact ⟨field.2, rfl, rfl⟩
    obtain ⟨first, rfl, rfl⟩ := hname hfirst
    obtain ⟨second, rfl, rfl⟩ := hname hsecond
    obtain ⟨third, rfl, rfl⟩ := hname hthird
    exact ⟨first, second, third, rfl, rfl, rfl, by rw [hlist]⟩
  | _ => cases hnode

/-- As a clause with named fields, nodes say what they tell. -/
theorem readClauses_retryClause {clauses : List RetryClause} :
    Property.readClauses RetryClause.ofJson .retry (.retryClause attempts interval growth) =
        .ok clauses ↔
      ∃ clause : RetryClause, clauses = [clause] ∧ clause.Told attempts interval growth := by
  constructor
  · intro h
    obtain ⟨value, hvalue, -⟩ := ok_of_bind h
    obtain ⟨first, second, third, rfl, rfl, rfl, rfl⟩ := readData_retryClause hvalue
    obtain ⟨clause, rfl, hclause⟩ := (readClauses_object hvalue).mp h
    obtain ⟨herrors, hattempts, hinterval, hgrowth⟩ := RetryClause.ofJson_eq_ok_iff.mp hclause
    obtain ⟨x, rfl, hx⟩ := Decoder.real_eq_ok_iff.mp hgrowth
    refine ⟨clause, rfl, herrors, ?_, ?_, x, rfl, hx⟩
    · rw [Decoder.eq_of_count32 hattempts]
      rfl
    · rw [Decoder.eq_of_count64 hinterval]
      rfl
  · rintro ⟨clause, rfl, herrors, rfl, rfl, x, rfl, hx⟩
    have hread := Node.readData_ofJson (.object [("ErrorEquals", .array [.string allErrors]),
      ("MaxAttempts", countNumber clause.maxAttempts.toNat),
      ("IntervalSeconds", countNumber clause.intervalSeconds.toNat), ("BackoffRate", .number x)])
    exact (readClauses_object hread).mpr ⟨clause, rfl, RetryClause.ofJson_eq_ok_iff.mpr
      ⟨herrors, Decoder.count32_countNumber _, Decoder.count64_countNumber _,
        Decoder.real_eq_ok_iff.mpr ⟨x, rfl, hx⟩⟩⟩

end Numbers

/-! ## One property more -/

namespace Properties

section Decided

variable {entries : Entries String Node} {p : Property} {key : String}

theorem decided?_of_unmeant (hkeys : ∀ entry ∈ entries, Property.ofKey? entry.1 ≠ some p) :
    decided? p entries = none := by
  have hgroup : group p entries = [] := by
    simpa [group, List.filter_eq_nil_iff] using hkeys
  rw [decided?, hgroup]
  rfl

/-- A new entry decides about its property if no other means it, and about no other property. -/
theorem decided?_append (hkeys : ∀ entry ∈ entries, Property.ofKey? entry.1 ≠ some p)
    (hkey : Property.ofKey? key = some p) (node : Node) (q : Property) :
    decided? q (entries ++ [(key, node)]) = if q = p then some node else decided? q entries := by
  unfold decided?
  rw [group_append, hkey]
  by_cases hq : q = p
  · subst hq
    have hgroup : group q entries = [] := by
      simpa [group, List.filter_eq_nil_iff] using hkeys
    rw [if_pos rfl, if_pos rfl, deciding?_append, hgroup]
    rfl
  · rw [if_neg hq, if_neg]
    intro heq
    exact hq (Option.some.inj heq).symm

end Decided

/-- The properties are others and one more, in any order. -/
structure Extended (p : Property) (node : Node) (properties others : Properties) : Prop where
  same : Entries.Same properties (Entries.insert p node others)
  distinct : properties.Distinct
  distinct' : others.Distinct
  fresh : p ∉ Entries.keys others

variable {p q : Property} {node value : Node} {properties others : Properties}

/-- A key that alone means its property gives the mapping that property, if no value moves from
there or to it. -/
theorem Extended.ofEntries {entries : Entries String Node} {key : String}
    (hp : p ∉ Property.supplied)
    (hkeys : ∀ entry ∈ entries, Property.ofKey? entry.1 ≠ some p)
    (hkey : Property.ofKey? key = some p) :
    Extended p node (.ofEntries (entries ++ [(key, node)])) (.ofEntries entries) := by
  have hmoves : p ≠ .result ∧ p ≠ .resource ∧ p ≠ .resultPath := by
    refine ⟨?_, ?_, ?_⟩ <;> rintro rfl <;> exact hp (by decide)
  obtain ⟨hresult, hresource, hpath⟩ := hmoves
  have harriving (q : Property) :
      arriving? q (entries ++ [(key, node)]) = arriving? q entries := by
    unfold arriving?
    split
    · rw [decided?_append hkeys hkey, if_neg hresult.symm]
    · rw [decided?_append hkeys hkey, if_neg hresource.symm]
    · rfl
  have hnone : arriving? p entries = none := by
    cases p <;> first | rfl | contradiction
  refine ⟨fun q => ?_, distinct_ofEntries _, distinct_ofEntries _, ?_⟩
  · rw [get?_ofEntries, harriving]
    by_cases hq : q = p
    · subst hq
      rw [hnone, staying?_of_ne hresult hresource, decided?_append hkeys hkey, if_pos rfl,
        Entries.get?_insert_self]
      rfl
    · rw [Entries.get?_insert_ne hq, get?_ofEntries]
      unfold staying?
      rw [decided?_append hkeys hkey, if_neg hq]
  · rw [Entries.mem_keys_iff, get?_ofEntries, hnone, staying?_of_ne hresult hresource,
      decided?_of_unmeant hkeys]
    simp

namespace Extended

theorem get? (h : Extended p node properties others) (hq : q ≠ p) :
    properties.get? q = others.get? q := by
  rw [h.same q, Entries.get?_insert_ne hq]

/-- Another property may be written to both. -/
theorem insert (h : Extended p node properties others) (hq : q ≠ p) :
    Extended p node (Entries.insert q value properties) (Entries.insert q value others) := by
  refine ⟨fun r => ?_, Entries.distinct_insert h.distinct, Entries.distinct_insert h.distinct', ?_⟩
  · by_cases hr : r = q
    · subst hr
      rw [Entries.get?_insert_self, Entries.get?_insert_ne hq, Entries.get?_insert_self]
    · rw [Entries.get?_insert_ne hr, h.same r]
      by_cases hp : r = p
      · rw [hp, Entries.get?_insert_self, Entries.get?_insert_self]
      · rw [Entries.get?_insert_ne hp, Entries.get?_insert_ne hp, Entries.get?_insert_ne hr]
  · rw [Entries.mem_keys_iff, Entries.get?_insert_ne hq.symm, ← Entries.mem_keys_iff]
    exact h.fresh

theorem typed (h : Extended p node properties others) (hp : p ∉ Property.supplied)
    (outline : Outline) (name : String) :
    Extended p node (properties.typed outline name) (others.typed outline name) := by
  refine (h.insert ?_).insert ?_ <;> rintro rfl <;> exact hp (by decide)

theorem complete (h : Extended p node properties others) (hp : p ∉ Property.supplied)
    (outline : Outline) (name : String) :
    Extended p node (properties.complete outline name) (others.complete outline name) := by
  have hresource : Property.resource ≠ p := by
    rintro rfl
    exact hp (by decide)
  have htyped := h.typed hp outline name
  rw [complete_eq, complete_eq, Entries.has, Entries.has, h.get? hresource]
  split
  · exact htyped
  · split
    · exact htyped
    · exact htyped.insert hresource

theorem outline (h : Extended p node properties others) (hp : p ∉ Property.supplied) :
    properties.outline = others.outline := by
  have hsame (q : Property) (hq : q ∈ Property.supplied) : properties.get? q = others.get? q :=
    h.get? fun heq => hp (heq ▸ hq)
  unfold Properties.outline type? text?
  rw [hsame .type (by decide), hsame .name (by decide), hsame .resource (by decide)]

/-- Both get the same defaults. -/
theorem withDefaults (h : Extended p node properties others) (hp : p ∉ Property.supplied) :
    properties.withDefaults.Matching Memory.JournalsApart (Extended p node)
      others.withDefaults :=
  matching_withDefaults (h.outline hp) (h.complete hp)

/-- The property is read into the state that the others describe. -/
theorem toState (h : Extended p node properties others) (hnull : node.isNull = false) :
    properties.toState.toOption = (others.toState >>= fun s => s.read p node).toOption := by
  have hperm : properties.Perm (others ++ [(p, node)]) := by
    rw [← Entries.insert_of_notMem h.fresh]
    exact h.same.perm h.distinct (Entries.distinct_insert h.distinct')
  have hlast : Properties.toState (others ++ [(p, node)]) =
      others.toState >>= fun s => s.read p node := by
    unfold Properties.toState
    rw [List.foldlM_append]
    simp [hnull]
  rw [toState_perm hperm h.distinct, hlast]

end Extended
end Properties

namespace Setting

open Compile (Matching)

variable {setting : Setting} {entries : Entries String Node} {p : Property} {key : String}
  {node : Node}

/-- The fields of a state apart from its branches, one of them by a key that alone means it. -/
theorem matching_explicitState_append (hp : p ∉ Property.supplied)
    (hkeys : ∀ entry ∈ entries, Property.ofKey? entry.1 ≠ some p)
    (hkey : Property.ofKey? key = some p) (hnull : node.isNull = false) :
    (explicitState none (entries ++ [(key, node)])).Matching Memory.JournalsApart (· = ·)
      (explicitState none entries >>= fun s => Compile.ofExcept (s.read p node)) := by
  have hextended : Properties.Extended p node (.ofEntries (entries ++ [(key, node)]))
      (.ofEntries entries) := .ofEntries hp hkeys hkey
  rw [explicitState_eq, explicitState_eq, bind_assoc]
  refine (Compile.matching_note _ _).bind fun _ _ _ => ?_
  rw [bind_assoc]
  refine (hextended.withDefaults hp).bind fun completed others hcompleted => ?_
  rw [← Compile.ofExcept_bind]
  apply Matching.ofExcept
  rw [hcompleted.toState hnull]
  exact Compile.rel_of_eq rfl

/-- A property that cannot be read makes the mapping fail. -/
theorem mappingState_append_of_error (hp : p ∉ Property.supplied)
    (hkeys : ∀ entry ∈ entries, Property.ofKey? entry.1 ≠ some p)
    (hkey : Property.ofKey? key = some p) (hnull : node.isNull = false) {cause : SyntaxError}
    (hread : ({} : State).read p node = .error cause) :
    (setting.mappingState none (entries ++ [(key, node)])).Yields fun _ => False := by
  have hrefused : (explicitState none entries >>= fun s =>
      Compile.ofExcept (s.read p node)).Yields fun _ => False := by
    refine .after fun s => .ofExcept fun t ht => ?_
    rw [State.read_eq_adopt, hread] at ht
    cases ht
  have hexplicit := (matching_explicitState_append hp hkeys hkey hnull).yields hrefused
  rw [mappingState_eq]
  exact hexplicit.bind fun _ ⟨_, _, hfalse⟩ => hfalse.elim

/-- A property that can be read is set in the state, and changes nothing else. -/
theorem matching_mappingState_append (hreaders : setting.readers.Agree Memory.JournalsApart)
    (hp : p ∉ Property.supplied) (hbranches : p ≠ .branches)
    (hkeys : ∀ entry ∈ entries, Property.ofKey? entry.1 ≠ some p)
    (hkey : Property.ofKey? key = some p) (hnull : node.isNull = false) {t : State}
    (hread : ({} : State).read p node = .ok t) :
    (setting.mappingState none (entries ++ [(key, node)])).Matching Memory.JournalsApart
      (fun s other => s = other.adopt p t) (setting.mappingState none entries) := by
  have hextended : Properties.Extended p node (.ofEntries (entries ++ [(key, node)]))
      (.ofEntries entries) := .ofEntries hp hkeys hkey
  have hleft : (Properties.ofEntries (entries ++ [(key, node)])).branches? =
      (Properties.ofEntries entries).branches? := by
    unfold Properties.branches?
    rw [hextended.get? hbranches.symm]
  have hexplicit : (explicitState none (entries ++ [(key, node)])).Matching Memory.JournalsApart
      (fun s other => s = other.adopt p t) (explicitState none entries) := by
    have hset (s : State) : Compile.ofExcept (s.read p node) = pure (s.adopt p t) := by
      rw [State.read_eq_adopt, hread]
      rfl
    have happend := matching_explicitState_append hp hkeys hkey hnull
    simp only [hset] at happend
    exact Compile.Matching.of_map happend
  rw [mappingState_eq, mappingState_eq, hleft]
  refine hexplicit.bind fun s other hs => ?_
  cases (Properties.ofEntries entries).branches? with
  | none => exact .pure hs
  | some left =>
    have hlist : (setting.branchList left.arguments).Agree Memory.JournalsApart
        (setting.branchList left.arguments) :=
      agree_branchList Memory.lockstep_journalsApart hreaders left.arguments
        fun _ _ => setting.saysAlike_self
    refine hlist.matching.bind fun branches _ heq => .pure ?_
    rw [hs, heq]
    cases p <;> first | rfl | contradiction

/-! ## A retry in both forms -/

/-- Around a node that compiles, a retry with three arguments sets the clause that they tell. -/
theorem matching_retry (hreaders : setting.readers.Agree Memory.JournalsApart) {tag : String}
    (htag : setting.readers.get? tag = some .retry) {payload inner : Node} {clause : RetryClause}
    (hsaid : (Modifier.retry clause).SaidBy payload inner) (fresh : Bool) :
    (setting.state fresh (.tagged tag payload)).Matching Memory.JournalsApart
      (fun s other => s = { other with retry := some [clause] }) (setting.state false inner) := by
  have hstate : setting.state fresh (.tagged tag payload) =
      (do
        Compile.note (.readerChosen tag)
        setting.state false inner >>= (Modifier.retry clause).change) := by
    rw [state.eq_def]
    simp only [htag]
    rw [← read_modifier hsaid]
    rfl
  have hinner : (setting.state false inner).Agree Memory.JournalsApart
      (setting.state false inner) :=
    agree_state Memory.lockstep_journalsApart hreaders false inner setting.saysAlike_self
  have hchange : (setting.state false inner >>= (Modifier.retry clause).change).Matching
      Memory.JournalsApart (· = ·)
      (setting.state false inner >>= fun s => pure { s with retry := some [clause] }) :=
    hinner.matching.bind fun s other hs => by
      cases hs
      exact .pure rfl
  intro first second hR
  rw [hstate]
  exact Compile.Matching.of_map hchange (first.noting (.readerChosen tag)) second
    ⟨hR.symbols, hR.names⟩

section Retry

variable {tag : String} {attempts interval growth : Node}

/-- What compiles under the tag with three arguments tells a clause. -/
theorem told_around (htag : setting.readers.get? tag = some .retry) (hattempts : attempts ≠ .null)
    (hinterval : interval ≠ .null) (hgrowth : growth ≠ .null) (fresh : Bool) (inner : Node) :
    (setting.state fresh (.tagged tag (.sequence [inner, attempts, interval, growth]))).Yields
      fun _ => ∃ clause : RetryClause, clause.Told attempts interval growth := by
  rw [state.eq_def]
  simp only [htag]
  rw [read.eq_def]
  refine .after fun _ => (readRetry_yields _).bind fun clause hclause => ?_
  obtain ⟨first, rest, harguments, hsaid⟩ := hclause
  cases harguments
  exact .after fun _ => .pure ⟨clause, (saidBy_iff_told hattempts hinterval hgrowth).mp hsaid⟩

/-- A clause in a mapping is read as the one that it tells. -/
theorem read_retryClause {t : State} :
    ({} : State).read .retry (.retryClause attempts interval growth) = .ok t ↔
      ∃ clause : RetryClause, t = { retry := some [clause] } ∧
        clause.Told attempts interval growth := by
  constructor
  · intro h
    obtain ⟨clauses, hclauses, h⟩ := ok_of_bind h
    cases h
    obtain ⟨clause, rfl, htold⟩ := readClauses_retryClause.mp hclauses
    exact ⟨clause, rfl, htold⟩
  · rintro ⟨clause, rfl, htold⟩
    have hclauses := readClauses_retryClause.mpr ⟨clause, rfl, htold⟩
    rw [State.read, hclauses]
    rfl

/-- A mapping that compiles with a clause for every failure tells that clause. -/
theorem told_within (hkeys : ∀ entry ∈ entries, Property.ofKey? entry.1 ≠ some .retry)
    (hkey : Property.ofKey? key = some .retry) :
    (setting.mappingState none (entries ++ [(key, .retryClause attempts interval growth)])).Yields
      fun _ => ∃ clause : RetryClause, clause.Told attempts interval growth := by
  cases hread : ({} : State).read .retry (.retryClause attempts interval growth) with
  | error cause =>
    exact (mappingState_append_of_error (by decide) hkeys hkey rfl hread).mono
      fun _ hfalse => hfalse.elim
  | ok t =>
    obtain ⟨clause, -, htold⟩ := read_retryClause.mp hread
    exact fun _ _ _ _ => ⟨clause, htold⟩

/-- A clause that is told is set in both forms, and nothing else differs but the journals. -/
theorem matching_of_told (hreaders : setting.readers.Agree Memory.JournalsApart)
    (htag : setting.readers.get? tag = some .retry)
    (hkeys : ∀ entry ∈ entries, Property.ofKey? entry.1 ≠ some .retry)
    (hkey : Property.ofKey? key = some .retry) (hattempts : attempts ≠ .null)
    (hinterval : interval ≠ .null) (hgrowth : growth ≠ .null) {clause : RetryClause}
    (h : clause.Told attempts interval growth) (fresh : Bool) :
    (setting.state fresh
        (.tagged tag (.sequence [.mapping entries, attempts, interval, growth]))).Matching
      Memory.JournalsApart (fun s other => s = { other with retry := some [clause] })
      (setting.mappingState none entries) ∧
    (setting.mappingState none
        (entries ++ [(key, .retryClause attempts interval growth)])).Matching
      Memory.JournalsApart (fun s other => s = { other with retry := some [clause] })
      (setting.mappingState none entries) := by
  constructor
  · have hsaid : (Modifier.retry clause).SaidBy
        (.sequence [.mapping entries, attempts, interval, growth]) (.mapping entries) :=
      ⟨_, rfl, (saidBy_iff_told hattempts hinterval hgrowth).mpr h⟩
    have hmapping : setting.state false (.mapping entries) = setting.mappingState none entries := by
      rw [state.eq_def]
    rw [← hmapping]
    exact matching_retry hreaders htag hsaid fresh
  · exact matching_mappingState_append hreaders (by decide) (by decide) hkeys hkey rfl
      (read_retryClause.mpr ⟨clause, rfl, h⟩)

/-- A retry around a mapping is the same as a clause in it. If the mapping compiles and has no key
for retries, then both forms compile, or neither does: they compile exactly if the attempts are a
whole number of 32 bits, the interval is one of 64 bits, and the growth is a number. Both give the
mapping's state with the clause that the numbers tell, and they generate and store the same names.
Readers from outside the notation may do what they like, but not look at the journal. -/
theorem retry_written_out (hreaders : setting.readers.Agree Memory.JournalsApart)
    (htag : setting.readers.get? tag = some .retry)
    (hkeys : ∀ entry ∈ entries, Property.ofKey? entry.1 ≠ some .retry) (fresh : Bool)
    {memory after : Memory} {s : State}
    (hs : (setting.state fresh (.mapping entries)).outcome memory = (.ok s, after))
    (hattempts : attempts ≠ .null) (hinterval : interval ≠ .null) (hgrowth : growth ≠ .null)
    (hholds : ∀ n, growth = .number (.whole n) → Number.Holds n) :
    let around := (setting.state fresh
      (.tagged tag (.sequence [.mapping entries, attempts, interval, growth]))).outcome memory
    let within := (setting.state fresh (.mapping
      (Entries.insert "Retry" (.retryClause attempts interval growth) entries))).outcome memory
    ((∃ t, around.1 = .ok t) ↔ ∃ t, within.1 = .ok t) ∧
      ((∃ t, within.1 = .ok t) ↔
        (∃ n : Nat, n < 2 ^ 32 ∧ attempts = .number (.whole n)) ∧
          (∃ n : Nat, n < 2 ^ 64 ∧ interval = .number (.whole n)) ∧ ∃ x, growth = .number x) ∧
      ∀ t, around.1 = .ok t →
        within.1 = .ok t ∧ around.2.symbols = within.2.symbols ∧
          around.2.names = within.2.names ∧
            ∃ clause : RetryClause, clause.Told attempts interval growth ∧
              t = { s with retry := some [clause] } := by
  intro around within
  have hkey : Property.ofKey? "Retry" = some .retry :=
    Property.ofKey?_text (p := .retry) (by decide)
  have hfresh : "Retry" ∉ Entries.keys entries := by
    intro hmem
    obtain ⟨entry, hentry, heq⟩ := List.mem_map.mp hmem
    exact hkeys entry hentry (heq ▸ hkey)
  have hmapping (entries : Entries String Node) :
      setting.state fresh (.mapping entries) = setting.mappingState none entries := by
    rw [state.eq_def]
  have hwithin : within = (setting.mappingState none
      (entries ++ [("Retry", .retryClause attempts interval growth)])).outcome memory := by
    rw [← Entries.insert_of_notMem hfresh, ← hmapping]
  rw [hmapping] at hs
  -- a clause that is told makes both forms succeed
  have htold {clause : RetryClause} (h : clause.Told attempts interval growth) :
      around.1 = .ok { s with retry := some [clause] } ∧
        within.1 = .ok { s with retry := some [clause] } ∧ around.2.JournalsApart within.2 := by
    obtain ⟨haround, hwithin'⟩ :=
      matching_of_told hreaders htag hkeys hkey hattempts hinterval hgrowth h fresh
    obtain ⟨t, later, houtcome, rfl, hmemory⟩ := haround.outcome_ok hs
    obtain ⟨t', later', houtcome', rfl, hmemory'⟩ := hwithin'.outcome_ok hs
    rw [hwithin, houtcome', show around = _ from houtcome]
    exact ⟨rfl, rfl, hmemory.symbols.trans hmemory'.symbols.symm,
      hmemory.names.trans hmemory'.names.symm⟩
  have hsome {t : State} (ht : around.1 = .ok t) :
      ∃ clause : RetryClause, clause.Told attempts interval growth :=
    told_around htag hattempts hinterval hgrowth fresh _ memory t _ (Prod.ext ht rfl)
  have hsome' {t : State} (ht : within.1 = .ok t) :
      ∃ clause : RetryClause, clause.Told attempts interval growth :=
    told_within hkeys hkey memory t _ (Prod.ext (hwithin ▸ ht) rfl)
  refine ⟨⟨?_, ?_⟩, ?_, ?_⟩
  · rintro ⟨t, ht⟩
    obtain ⟨clause, h⟩ := hsome ht
    exact ⟨_, (htold h).2.1⟩
  · rintro ⟨t, ht⟩
    obtain ⟨clause, h⟩ := hsome' ht
    exact ⟨_, (htold h).1⟩
  · rw [← exists_told_iff hholds]
    exact ⟨fun ⟨t, ht⟩ => hsome' ht, fun ⟨clause, h⟩ => ⟨_, (htold h).2.1⟩⟩
  · intro t ht
    obtain ⟨clause, h⟩ := hsome ht
    obtain ⟨haround, hresult, hmemory⟩ := htold h
    obtain rfl := Except.ok.inj (ht.symm.trans haround)
    exact ⟨hresult, hmemory.symbols, hmemory.names, clause, h, rfl⟩

/-- The greatest number of attempts is taken in both forms, and the one above it in neither. -/
theorem retry_written_out_bound :
    let setting : Setting := {}
    let entries := [("Name", Node.string "load")]
    let interval := Node.number (.whole 5)
    let growth := Node.number (.real Double.one)
    let around (count : Nat) := (setting.state false (.tagged "retry"
      (.sequence [.mapping entries, .number (.whole count), interval, growth]))).outcome {}
    let within (count : Nat) := (setting.state false (.mapping (Entries.insert "Retry"
      (.retryClause (.number (.whole count)) interval growth) entries))).outcome {}
    (∃ t, (around 4294967295).1 = .ok t ∧ (within 4294967295).1 = .ok t) ∧
      ¬ (∃ t, (around 4294967296).1 = .ok t) ∧ ¬ ∃ t, (within 4294967296).1 = .ok t := by
  intro setting entries interval growth around within
  have hkey : Property.ofKey? "Name" = some .name := Property.ofKey?_text (p := .name) (by decide)
  have hkeys : ∀ entry ∈ entries, Property.ofKey? entry.1 ≠ some .retry := by
    rintro entry hentry
    rw [List.mem_singleton.mp hentry, hkey]
    decide
  have hok : ((explicitState none entries).outcome {}).1.toOption.any (fun _ => true) = true := by
    decide +kernel
  have hbranches : (Properties.ofEntries entries).branches?.isNone = true := by decide +kernel
  obtain ⟨s, after, hexplicit, -⟩ := Compile.exists_of_any hok
  have hs : (setting.state false (.mapping entries)).outcome {} = (.ok s, after) := by
    rw [state.eq_def]
    dsimp only
    rw [mappingState_eq, Option.isNone_iff_eq_none.mp hbranches, Compile.outcome_bind_ok hexplicit]
    rfl
  have hgrowth : ∀ n, growth = .number (.whole n) → Number.Holds n := by
    intro n hn
    injection hn with hn
    cases hn
  have hboth (count : Nat) :=
    @retry_written_out setting entries "retry" (.number (.whole count)) interval growth
      (ReaderTable.standard_builtIn.agree _) rfl hkeys false {} after s hs
      (by simp) (by simp [interval]) (by simp [growth]) hgrowth
  have hnumbers : (∃ n : Nat, n < 2 ^ 64 ∧ interval = .number (.whole n)) ∧
      ∃ x, growth = .number x := ⟨⟨5, by decide, rfl⟩, _, rfl⟩
  constructor
  · obtain ⟨hagree, haccepts, hsame⟩ := hboth 4294967295
    obtain ⟨t, ht⟩ := hagree.mpr (haccepts.mpr ⟨⟨4294967295, by decide, rfl⟩, hnumbers⟩)
    exact ⟨t, ht, (hsame t ht).1⟩
  · obtain ⟨hagree, haccepts, -⟩ := hboth 4294967296
    have hrefused : ¬ ∃ t, (within 4294967296).1 = .ok t := by
      intro h
      obtain ⟨⟨n, hn, heq⟩, -⟩ := haccepts.mp h
      injection heq with heq
      injection heq with heq
      omega
    exact ⟨fun h => hrefused (hagree.mp h), hrefused⟩

end Retry

end Setting
end Flowscript
