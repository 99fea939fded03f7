/-!
# Ordered entries

A finite map that remembers the order in which its keys first came in: a list of pairs. Writing to
a key that is present replaces the value where it stands; writing to a new key appends. Every
operation keeps the keys distinct, which is the predicate `Entries.Distinct`.
-/

namespace Flowscript

/-- Pairs of key and value in the order of first insertion. -/
abbrev Entries (κ α : Type) := List (κ × α)

namespace Entries

variable {κ α : Type}

/-- The keys, in order. -/
def keys (entries : Entries κ α) : List κ := entries.map Prod.fst

/-- No key stands twice. -/
def Distinct (entries : Entries κ α) : Prop := entries.keys.Nodup

variable [DecidableEq κ]

/-- The value written under `key`, if there is one. -/
def get? (key : κ) : Entries κ α → Option α
  | [] => none
  | (k, v) :: rest => if k = key then some v else get? key rest

/-- Whether `key` has a value. -/
def has (key : κ) (entries : Entries κ α) : Bool := (entries.get? key).isSome

/-- Writes `value` under `key`: in place if the key is present, else at the end. -/
def insert (key : κ) (value : α) : Entries κ α → Entries κ α
  | [] => [(key, value)]
  | (k, v) :: rest => if k = key then (k, value) :: rest else (k, v) :: insert key value rest

/-- Removes `key` and keeps the order of the others. -/
def erase (key : κ) : Entries κ α → Entries κ α
  | [] => []
  | (k, v) :: rest => if k = key then rest else (k, v) :: erase key rest

/-- Writes the pairs one after the other into an empty map. -/
def ofPairs (pairs : List (κ × α)) : Entries κ α :=
  pairs.foldl (fun entries pair => entries.insert pair.1 pair.2) []

theorem get?_insert_self (key : κ) (value : α) (entries : Entries κ α) :
    (entries.insert key value).get? key = some value := by
  induction entries with
  | nil => simp [insert, get?]
  | cons pair rest ih =>
    obtain ⟨k, v⟩ := pair
    by_cases h : k = key <;> simp [insert, get?, h, ih]

theorem get?_insert_ne {key other : κ} (h : other ≠ key) (value : α) (entries : Entries κ α) :
    (entries.insert key value).get? other = entries.get? other := by
  induction entries with
  | nil => simp [insert, get?, Ne.symm h]
  | cons pair rest ih =>
    obtain ⟨k, v⟩ := pair
    by_cases hk : k = key
    · subst hk
      simp [insert, get?, Ne.symm h]
    · by_cases ho : k = other
      · subst ho
        simp [insert, get?, hk]
      · simp [insert, get?, hk, ho, ih]

theorem mem_of_mem_erase {key : κ} {entries : Entries κ α}
    {entry : κ × α} (h : entry ∈ entries.erase key) : entry ∈ entries := by
  induction entries with
  | nil => simp_all [Entries.erase]
  | cons pair rest ih =>
    obtain ⟨k, v⟩ := pair
    by_cases hk : k = key <;> simp only [Entries.erase, hk, if_true, if_false] at h <;> grind

theorem mem_erase_of_ne {key : κ} {entries : Entries κ α} {entry : κ × α} (h : entry ∈ entries)
    (hne : entry.1 ≠ key) : entry ∈ entries.erase key := by
  induction entries with
  | nil => cases h
  | cons first rest ih =>
    obtain ⟨k, v⟩ := first
    rw [Entries.erase]
    rcases List.mem_cons.mp h with rfl | h
    · rw [if_neg hne]
      exact List.mem_cons_self
    · split
      · exact h
      · exact List.mem_cons_of_mem _ (ih h)

theorem mem_of_get? {key : κ} {value : α} {entries : Entries κ α}
    (h : entries.get? key = some value) : (key, value) ∈ entries := by
  induction entries with
  | nil => simp [Entries.get?] at h
  | cons pair rest ih =>
    obtain ⟨k, v⟩ := pair
    by_cases hk : k = key <;> simp only [Entries.get?, hk, if_true, if_false] at h <;> grind

theorem eq_or_mem_of_mem_insert {key : κ} {value : α} {entries : Entries κ α} {entry : κ × α}
    (h : entry ∈ entries.insert key value) : entry = (key, value) ∨ entry ∈ entries := by
  induction entries with
  | nil => exact .inl (by simpa [insert] using h)
  | cons first rest ih =>
    obtain ⟨k, v⟩ := first
    by_cases hk : k = key
    · subst hk
      simp only [insert, if_true, List.mem_cons] at h
      rcases h with h | h
      · exact .inl h
      · exact .inr (by simp [h])
    · simp only [insert, hk, if_false, List.mem_cons] at h
      rcases h with h | h
      · exact .inr (by simp [h])
      · exact (ih h).imp id fun h => by simp [h]

theorem mem_insert {key : κ} {value : α} {entries : Entries κ α} {entry : κ × α}
    (h : entry ∈ entries.insert key value) : entry.2 = value ∨ entry ∈ entries :=
  (eq_or_mem_of_mem_insert h).imp (congrArg Prod.snd) id

/-- Writing a new key appends it. -/
theorem insert_of_notMem {key : κ} {entries : Entries κ α} (h : key ∉ entries.keys) (value : α) :
    entries.insert key value = entries ++ [(key, value)] := by
  induction entries with
  | nil => rfl
  | cons first rest ih =>
    obtain ⟨k, v⟩ := first
    have hne : k ≠ key := by
      rintro rfl
      exact h (by simp [keys])
    have hrest : key ∉ keys rest := fun hmem => h (List.mem_cons_of_mem _ hmem)
    simp [insert, hne, ih hrest]

/-- Writing the value that is there changes nothing. -/
theorem insert_of_get? {key : κ} {value : α} {entries : Entries κ α}
    (h : entries.get? key = some value) : entries.insert key value = entries := by
  induction entries with
  | nil => cases h
  | cons first rest ih =>
    obtain ⟨k, v⟩ := first
    by_cases hk : k = key
    · simp only [get?, hk, if_true, Option.some.injEq] at h
      simp [insert, hk, h]
    · simp only [get?, hk, if_false] at h
      simp [insert, hk, ih h]

/-- Writing a key that is there keeps the keys; any other comes last. -/
theorem keys_insert (key : κ) (value : α) (entries : Entries κ α) :
    (entries.insert key value).keys =
      if key ∈ entries.keys then entries.keys else entries.keys ++ [key] := by
  induction entries with
  | nil => simp [insert, keys]
  | cons first rest ih =>
    obtain ⟨k, v⟩ := first
    by_cases hk : k = key
    · simp [insert, keys, hk]
    · have hne : key ≠ k := Ne.symm hk
      simp only [keys] at ih
      by_cases hmem : key ∈ rest.map Prod.fst <;> simp [insert, keys, hk, hne, ih, hmem]

theorem distinct_insert {key : κ} {value : α} {entries : Entries κ α} (h : entries.Distinct) :
    (entries.insert key value).Distinct := by
  unfold Distinct at h ⊢
  rw [keys_insert]
  split
  · exact h
  · rename_i hkey
    rw [List.nodup_append]
    refine ⟨h, by simp, fun k hk l hl hkl => hkey ?_⟩
    obtain rfl := List.mem_singleton.mp hl
    exact hkl ▸ hk

theorem keys_erase (key : κ) (entries : Entries κ α) :
    (entries.erase key).keys = entries.keys.erase key := by
  induction entries with
  | nil => rfl
  | cons first rest ih =>
    obtain ⟨k, v⟩ := first
    simp only [keys] at ih
    by_cases hk : k = key
    · simp [Entries.erase, keys, hk]
    · simp [Entries.erase, keys, hk, List.erase_cons_tail, ih]

theorem get?_eq_of_mem {key : κ} {value : α} {entries : Entries κ α} (h : entries.Distinct)
    (hmem : (key, value) ∈ entries) : entries.get? key = some value := by
  induction entries with
  | nil => simp at hmem
  | cons first rest ih =>
    obtain ⟨k, v⟩ := first
    simp only [Distinct, keys, List.map_cons, List.nodup_cons] at h
    rcases List.mem_cons.mp hmem with hmem | hmem
    · cases hmem
      simp [get?]
    · have hne : k ≠ key := by
        rintro rfl
        exact h.1 (List.mem_map.mpr ⟨(k, value), hmem, rfl⟩)
      simp only [get?, if_neg hne]
      exact ih h.2 hmem

theorem has_eq_mem (key : κ) (entries : Entries κ α) :
    Entries.has key entries = decide (key ∈ entries.map Prod.fst) := by
  induction entries with
  | nil => rfl
  | cons entry rest ih =>
    obtain ⟨k, v⟩ := entry
    by_cases h : k = key
    · simp [Entries.has, Entries.get?, h]
    · have hne : key ≠ k := Ne.symm h
      have hrest : (Entries.get? key rest).isSome = decide (key ∈ rest.map Prod.fst) := ih
      simp [Entries.has, Entries.get?, h, hne, hrest]

omit [DecidableEq κ] in
/-- The keys among a list for which there is a value. -/
theorem keys_filterMap (candidates : List κ) (value? : κ → Option α) :
    keys (candidates.filterMap fun key => (value? key).map fun value => (key, value)) =
      candidates.filter fun key => (value? key).isSome := by
  induction candidates with
  | nil => rfl
  | cons key rest ih =>
    simp only [keys] at ih
    cases h : value? key <;> simp [keys, h, ih]

theorem get?_filterMap (candidates : List κ) (value? : κ → Option α) (key : κ) :
    get? key (candidates.filterMap fun key => (value? key).map fun value => (key, value)) =
      if key ∈ candidates then value? key else none := by
  induction candidates with
  | nil => rfl
  | cons first rest ih =>
    by_cases hk : first = key
    · subst hk
      cases h : value? first with
      | none =>
        simp only [List.filterMap_cons, h, Option.map_none, ih]
        simp
      | some value => simp [h, get?]
    · have hne : key ≠ first := Ne.symm hk
      cases h : value? first <;> simp [h, get?, hk, hne, ih]

theorem mem_keys_iff {key : κ} {entries : Entries κ α} :
    key ∈ entries.keys ↔ (entries.get? key).isSome = true := by
  have h := has_eq_mem key entries
  simp only [has] at h
  simp [h, keys]

/-- The keys with their values are the entries. -/
theorem filterMap_keys {entries : Entries κ α} (h : entries.Distinct) :
    (entries.keys.filterMap fun key => (entries.get? key).map fun value => (key, value)) =
      entries := by
  suffices ∀ part : Entries κ α,
      (∀ entry ∈ part, entries.get? entry.1 = some entry.2) →
      (part.keys.filterMap fun key => (entries.get? key).map fun value => (key, value)) = part from
    this entries fun entry hentry => get?_eq_of_mem h hentry
  intro part
  induction part with
  | nil =>
    intro hpart
    rfl
  | cons entry rest ih =>
    intro hpart
    have hrest := ih fun other hother => hpart other (List.mem_cons_of_mem _ hother)
    have hvalue := hpart entry List.mem_cons_self
    simp only [keys] at hrest
    simp [keys, hvalue, hrest]

omit [DecidableEq κ] in
theorem ne_of_distinct_cons {entry other : κ × α} {rest : Entries κ α}
    (h : Distinct (entry :: rest)) (hother : other ∈ rest) : other.1 ≠ entry.1 := by
  intro heq
  have hentry : entry.1 ∉ keys rest := (List.nodup_cons.mp h).1
  exact hentry (heq ▸ List.mem_map_of_mem hother)

/-- Removing a key leaves the other entries. -/
theorem erase_eq_filter {entries : Entries κ α} (h : entries.Distinct) (key : κ) :
    entries.erase key = entries.filter fun entry => entry.1 ≠ key := by
  induction entries with
  | nil => rfl
  | cons entry rest ih =>
    have hrest : Distinct rest := (List.nodup_cons.mp h).2
    by_cases hkey : entry.1 = key
    · have hothers : rest.filter (fun other => other.1 ≠ key) = rest := by
        rw [List.filter_eq_self]
        intro other hother
        simpa [hkey] using ne_of_distinct_cons h hother
      rw [List.filter_cons_of_neg (by simp [hkey]), hothers]
      simp [Entries.erase, hkey]
    · rw [List.filter_cons_of_pos (by simp [hkey]), ← ih hrest]
      simp [Entries.erase, hkey]

theorem get?_erase_self {entries : Entries κ α} (h : entries.Distinct) (key : κ) :
    (entries.erase key).get? key = none := by
  have habsent : key ∉ (entries.erase key).keys := by
    rw [keys_erase]
    exact List.Nodup.not_mem_erase h
  rw [mem_keys_iff] at habsent
  simpa using habsent

theorem get?_erase_ne {key other : κ} (h : other ≠ key) (entries : Entries κ α) :
    (entries.erase key).get? other = entries.get? other := by
  induction entries with
  | nil => rfl
  | cons entry rest ih =>
    obtain ⟨k, v⟩ := entry
    by_cases hk : k = key
    · subst hk
      simp [Entries.erase, get?, Ne.symm h]
    · rw [Entries.erase, if_neg hk, get?, get?, ih]

/-- Writing replaces the value where the key stands; a new key comes last. -/
theorem insert_eq_map {entries : Entries κ α} (h : entries.Distinct) (key : κ) (value : α) :
    entries.insert key value =
      if key ∈ entries.keys then
        entries.map fun entry => if entry.1 = key then (key, value) else entry
      else entries ++ [(key, value)] := by
  split
  next hmem =>
    induction entries with
    | nil => simp [keys] at hmem
    | cons entry rest ih =>
      have hrest : Distinct rest := (List.nodup_cons.mp h).2
      by_cases hkey : entry.1 = key
      · have hothers : rest.map (fun other => if other.1 = key then (key, value) else other) =
            rest.map id := by
          apply List.map_congr_left
          intro other hother
          exact if_neg (hkey ▸ ne_of_distinct_cons h hother)
        simp [insert, hkey, hothers]
      · have hmem : key ∈ keys rest := by simpa [keys, Ne.symm hkey] using hmem
        simp [insert, hkey, ih hrest hmem]
  next hmem => exact insert_of_notMem hmem value

theorem distinct_erase {entries : Entries κ α} (h : entries.Distinct) (key : κ) :
    (entries.erase key).Distinct := by
  rw [Distinct, keys_erase]
  exact List.Nodup.erase _ h

/-! ## Pairs written one after the other -/

theorem distinct_ofPairs (pairs : List (κ × α)) : (ofPairs pairs).Distinct := by
  suffices ∀ known : Entries κ α, known.Distinct →
      Distinct (pairs.foldl (fun entries pair => entries.insert pair.1 pair.2) known) from
    this [] List.nodup_nil
  induction pairs with
  | nil => exact fun _ h => h
  | cons pair rest ih => exact fun known h => ih _ (distinct_insert h)

/-- Pairs are written without a loss exactly if no key stands twice among them. -/
theorem ofPairs_eq_self_iff {pairs : List (κ × α)} : ofPairs pairs = pairs ↔ Distinct pairs := by
  constructor
  · intro h
    exact h ▸ distinct_ofPairs pairs
  · suffices ∀ known : Entries κ α, Distinct (known ++ pairs) →
        pairs.foldl (fun entries pair => entries.insert pair.1 pair.2) known = known ++ pairs from
      this []
    -- each pair comes behind those that are known
    induction pairs with
    | nil => exact fun known _ => (List.append_nil known).symm
    | cons pair rest ih =>
      intro known h
      have hfresh : pair.1 ∉ keys known := by
        intro hmem
        simp only [Distinct, keys, List.map_append, List.nodup_append] at h
        exact h.2.2 pair.1 hmem pair.1 (by simp) rfl
      rw [List.foldl_cons, insert_of_notMem hfresh, ih _ (by simpa using h)]
      simp

/-! ## Entries in another order -/

section Perm

variable {first second : Entries κ α}

omit [DecidableEq κ] in
theorem Distinct.perm (h : first.Distinct) (hperm : first.Perm second) : second.Distinct :=
  (hperm.map Prod.fst).nodup h

/-- Where an entry stands does not matter to look-ups. -/
theorem get?_perm (hperm : first.Perm second) (h : first.Distinct) (key : κ) :
    first.get? key = second.get? key := by
  cases hfirst : first.get? key with
  | some value =>
    have hmem : (key, value) ∈ second := hperm.mem_iff.mp (mem_of_get? hfirst)
    exact (get?_eq_of_mem (h.perm hperm) hmem).symm
  | none =>
    cases hsecond : second.get? key with
    | none => rfl
    | some value =>
      have hmem : (key, value) ∈ first := hperm.mem_iff.mpr (mem_of_get? hsecond)
      rw [get?_eq_of_mem h hmem] at hfirst
      cases hfirst

theorem erase_perm (hperm : first.Perm second) (h : first.Distinct) (key : κ) :
    (first.erase key).Perm (second.erase key) := by
  rw [erase_eq_filter h, erase_eq_filter (h.perm hperm)]
  exact hperm.filter _

/-- An entry may be taken out and put in front. -/
theorem perm_cons_erase {key : κ} {value : α} {entries : Entries κ α}
    (h : entries.get? key = some value) : entries.Perm ((key, value) :: entries.erase key) := by
  induction entries with
  | nil => cases h
  | cons entry rest ih =>
    obtain ⟨k, v⟩ := entry
    by_cases hk : k = key
    · simp only [get?, hk, if_true, Option.some.injEq] at h
      rw [Entries.erase, if_pos hk, hk, h]
    · simp only [get?, hk, if_false] at h
      rw [Entries.erase, if_neg hk]
      exact ((ih h).cons _).trans (List.Perm.swap _ _ _)

end Perm

end Entries
end Flowscript
