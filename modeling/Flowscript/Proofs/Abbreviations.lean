import Mathlib.Data.List.Induction
import Flowscript.Property.Matching

/-!
# What an abbreviation means

Candidates are compared with a word one after the other, and the best of them so far is kept. Here
the outcome is told from the whole list: a word means the first candidate whose name it spells in
full, in any case of the letters, or else the first of those whose names start most like the word.
-/

namespace Flowscript

/-! ## Common starts -/

/-- Two texts start with the same characters, `count` of them. -/
def ShareStart (count : Nat) (cs ds : List Char) : Prop :=
  ∃ start : List Char, start.length = count ∧ start <+: cs ∧ start <+: ds

theorem shareStart_zero (cs ds : List Char) : ShareStart 0 cs ds :=
  ⟨[], rfl, List.nil_prefix, List.nil_prefix⟩

theorem shareStart_cons {count : Nat} {c d : Char} {cs ds : List Char} :
    ShareStart (count + 1) (c :: cs) (d :: ds) ↔ c = d ∧ ShareStart count cs ds := by
  constructor
  · rintro ⟨start, hlength, hfirst, hsecond⟩
    obtain ⟨e, rest, rfl⟩ := List.exists_cons_of_length_eq_add_one hlength
    obtain ⟨hc, hcs⟩ := List.cons_prefix_cons.mp hfirst
    obtain ⟨hd, hds⟩ := List.cons_prefix_cons.mp hsecond
    exact ⟨hc.symm.trans hd, rest, by simpa using hlength, hcs, hds⟩
  · rintro ⟨rfl, start, hlength, hfirst, hsecond⟩
    exact ⟨c :: start, by simp [hlength], by simpa using hfirst, by simpa using hsecond⟩

/-- Nothing is shared with a text that has no characters. -/
theorem not_shareStart_nil {count : Nat} {cs ds : List Char} (h : cs = [] ∨ ds = []) :
    ¬ ShareStart (count + 1) cs ds := by
  rintro ⟨start, hlength, hfirst, hsecond⟩
  have hnil : start = [] := by
    rcases h with rfl | rfl
    · exact List.prefix_nil.mp hfirst
    · exact List.prefix_nil.mp hsecond
  simp [hnil] at hlength

/-- What is counted is the longest common start. -/
theorem shareStart_iff {count : Nat} {cs ds : List Char} :
    ShareStart count cs ds ↔ count ≤ sharedLength cs ds := by
  fun_induction sharedLength cs ds generalizing count with
  | case1 c cs ds ih =>
    cases count with
    | zero => simp [shareStart_zero]
    | succ count => simp [shareStart_cons, ih]
  | case2 c cs d ds hne =>
    cases count with
    | zero => simp [shareStart_zero]
    | succ count => simp [shareStart_cons, hne]
  | case3 cs ds hempty =>
    have hnil : cs = [] ∨ ds = [] := by
      cases cs with
      | nil => exact .inl rfl
      | cons c cs =>
        cases ds with
        | nil => exact .inr rfl
        | cons d ds => exact absurd rfl (hempty c cs d ds rfl)
    cases count with
    | zero => simp [shareStart_zero]
    | succ count => simp [not_shareStart_nil hnil]

/-- One character is shared if it is the first of both texts. -/
theorem shareStart_one {cs ds : List Char} :
    ShareStart 1 cs ds ↔ ∃ c, cs.head? = some c ∧ ds.head? = some c := by
  cases cs with
  | nil => simp [not_shareStart_nil (.inl rfl)]
  | cons c cs =>
    cases ds with
    | nil => simp [not_shareStart_nil (.inr rfl)]
    | cons d ds => simp [shareStart_cons, shareStart_zero, eq_comm]

/-! ## The first of the best -/

section FirstBest

variable {α : Type} {score : α → Nat} {candidates : List α} {a b : α}

/-- The first of the candidates with the greatest score, which is positive. -/
structure FirstGreatest (score : α → Nat) (candidates : List α) (a : α) : Prop where
  positive : 0 < score a
  split : ∃ before after, candidates = before ++ a :: after ∧
    (∀ b ∈ before, score b < score a) ∧ ∀ b ∈ after, score b ≤ score a

theorem FirstGreatest.le (h : FirstGreatest score candidates a) (hb : b ∈ candidates) :
    score b ≤ score a := by
  obtain ⟨before, after, rfl, hbefore, hafter⟩ := h.split
  rcases List.mem_append.mp hb with hb | hb
  · exact Nat.le_of_lt (hbefore b hb)
  · rcases List.mem_cons.mp hb with rfl | hb
    · exact Nat.le_refl _
    · exact hafter b hb

/-- There is only one: two that stand at different places would be better than each other. -/
theorem FirstGreatest.unique (h : FirstGreatest score candidates a)
    (h' : FirstGreatest score candidates b) : a = b := by
  have hscore : score a = score b := by
    obtain ⟨before, after, rfl, -, -⟩ := h.split
    have hle := h'.le (b := a) (by simp)
    obtain ⟨before', after', hsplit, -, -⟩ := h'.split
    have hge := h.le (b := b) (by simp [hsplit])
    exact Nat.le_antisymm hle hge
  obtain ⟨before, after, rfl, hbefore, -⟩ := h.split
  obtain ⟨before', after', hsplit, hbefore', -⟩ := h'.split
  rcases List.append_eq_append_iff.mp hsplit with ⟨rest, hrest, htail⟩ | ⟨rest, hrest, htail⟩
  · cases rest with
    | nil => exact (List.cons.inj htail).1
    | cons c rest =>
      obtain ⟨rfl, -⟩ := List.cons.inj htail
      have hlt := hbefore' a (by simp [hrest])
      omega
  · cases rest with
    | nil => exact (List.cons.inj htail).1.symm
    | cons c rest =>
      obtain ⟨rfl, -⟩ := List.cons.inj htail
      have hlt := hbefore b (by simp [hrest])
      omega

/-- One candidate more that is not better. -/
theorem FirstGreatest.concat (h : FirstGreatest score candidates a) (hb : score b ≤ score a) :
    FirstGreatest score (candidates ++ [b]) a := by
  obtain ⟨before, after, rfl, hbefore, hafter⟩ := h.split
  refine ⟨h.positive, before, after ++ [b], by simp, hbefore, ?_⟩
  intro c hc
  rcases List.mem_append.mp hc with hc | hc
  · exact hafter c hc
  · obtain rfl := List.mem_singleton.mp hc
    exact hb

/-- One candidate more that is better than all before it. -/
theorem firstGreatest_concat (hpositive : 0 < score b) (hb : ∀ c ∈ candidates, score c < score b) :
    FirstGreatest score (candidates ++ [b]) b :=
  ⟨hpositive, candidates, [], rfl, hb, nofun⟩

/-- The better one of the best candidate so far and one more. -/
def betterOf (score : α → Nat) (best : Option α) (b : α) : Option α :=
  match best with
  | none => if 0 < score b then some b else none
  | some a => if score a < score b then some b else some a

theorem firstBest?_concat (candidates : List α) (b : α) :
    firstBest? score (candidates ++ [b]) = betterOf score (firstBest? score candidates) b := by
  unfold firstBest?
  rw [List.foldl_append]
  rfl

/-- What is known of the best candidate so far. -/
def BestSoFar (score : α → Nat) (seen : List α) : Option α → Prop
  | none => ∀ b ∈ seen, score b = 0
  | some a => FirstGreatest score seen a

/-- A look at one candidate more. -/
theorem BestSoFar.concat {best : Option α} (h : BestSoFar score candidates best) (b : α) :
    BestSoFar score (candidates ++ [b]) (betterOf score best b) := by
  unfold betterOf
  cases best with
  | none =>
    dsimp only
    split
    next hpositive =>
      refine firstGreatest_concat hpositive fun c hc => ?_
      rw [h c hc]
      exact hpositive
    next hzero =>
      intro c hc
      rcases List.mem_append.mp hc with hc | hc
      · exact h c hc
      · obtain rfl := List.mem_singleton.mp hc
        omega
  | some a =>
    dsimp only
    split
    next hbetter =>
      have hpositive := Nat.lt_trans h.positive hbetter
      exact firstGreatest_concat hpositive fun c hc => Nat.lt_of_le_of_lt (h.le hc) hbetter
    next hworse => exact FirstGreatest.concat h (Nat.le_of_not_lt hworse)

theorem bestSoFar_firstBest? (score : α → Nat) (candidates : List α) :
    BestSoFar score candidates (firstBest? score candidates) := by
  induction candidates using List.reverseRecOn with
  | nil => exact nofun
  | append_singleton candidates b ih =>
    rw [firstBest?_concat]
    exact ih.concat b

theorem firstBest?_eq_some_iff :
    firstBest? score candidates = some a ↔ FirstGreatest score candidates a := by
  have hbest := bestSoFar_firstBest? score candidates
  constructor
  · intro h
    rw [h] at hbest
    exact hbest
  · intro h
    cases hfound : firstBest? score candidates with
    | none =>
      rw [hfound] at hbest
      obtain ⟨before, after, rfl, -, -⟩ := h.split
      have hzero := hbest a (by simp)
      have hpositive := h.positive
      omega
    | some b =>
      rw [hfound] at hbest
      rw [h.unique hbest]

theorem firstBest?_eq_none_iff :
    firstBest? score candidates = none ↔ ∀ b ∈ candidates, score b = 0 := by
  have hbest := bestSoFar_firstBest? score candidates
  cases hfound : firstBest? score candidates with
  | none =>
    rw [hfound] at hbest
    exact iff_of_true rfl hbest
  | some a =>
    rw [hfound] at hbest
    refine iff_of_false nofun fun hzero => ?_
    obtain ⟨before, after, rfl, -, -⟩ := hbest.split
    have hpositive := hbest.positive
    rw [hzero a (by simp)] at hpositive
    omega

end FirstBest

/-! ## Meanings -/

section Meaning

variable {α : Type} (name : α → String) (word : String)

/-- The word spells a candidate's name, in any case of the letters. -/
def Spells (a : α) : Prop :=
  Text.lowerCase (name a).toList = Text.lowerCase word.toList

/-- The word and a candidate's name start with the same characters, `count` of them, in any case. -/
def Shares (count : Nat) (a : α) : Prop :=
  ShareStart count (Text.lowerCase word.toList) (Text.lowerCase (name a).toList)

/-- Which of the candidates a word means. -/
inductive Meant (candidates : List α) (a : α) : Prop where
  /-- The first one whose name it spells, whatever it shares with those before. -/
  | spelled (before after : List α) (split : candidates = before ++ a :: after)
      (spells : Spells name word a) (first : ∀ b ∈ before, ¬ Spells name word b)
  /-- If it spells no name, the first one with which it shares most characters, and at least one:
  fewer with those before, and with none more. -/
  | started (count : Nat) (before after : List α) (split : candidates = before ++ a :: after)
      (unspelled : ∀ b ∈ candidates, ¬ Spells name word b) (positive : 0 < count)
      (shares : Shares name word count a) (first : ∀ b ∈ before, ¬ Shares name word count b)
      (most : ∀ b ∈ candidates, ¬ Shares name word (count + 1) b)

variable {name word} {candidates : List α} {a : α}

theorem firstGreatest_iff :
    FirstGreatest
        (fun b => sharedLength (Text.lowerCase word.toList) (Text.lowerCase (name b).toList))
        candidates a ↔
      ∃ count before after, candidates = before ++ a :: after ∧ 0 < count ∧
        Shares name word count a ∧ (∀ b ∈ before, ¬ Shares name word count b) ∧
        ∀ b ∈ candidates, ¬ Shares name word (count + 1) b := by
  unfold Shares
  simp only [shareStart_iff]
  constructor
  · intro h
    obtain ⟨before, after, hsplit, hbefore, -⟩ := h.split
    refine ⟨_, before, after, hsplit, h.positive, Nat.le_refl _, ?_, ?_⟩
    · intro b hb
      exact Nat.not_le.mpr (hbefore b hb)
    · intro b hb
      exact Nat.not_le.mpr (Nat.lt_succ_of_le (h.le hb))
  · rintro ⟨count, before, after, hsplit, hpositive, hshares, hfirst, hmost⟩
    refine ⟨Nat.lt_of_lt_of_le hpositive hshares, before, after, hsplit, ?_, ?_⟩
    · intro b hb
      exact Nat.lt_of_lt_of_le (Nat.not_le.mp (hfirst b hb)) hshares
    · intro b hb
      have hless := hmost b (by simp [hsplit, hb])
      omega

/-- A word means the first candidate whose name it spells in full, in any case of the letters; if
there is none, the first of those with which it shares the most characters at the start; and none
if it spells no name and shares the first character with none. -/
theorem bestMatch?_exact (name : α → String) (candidates : List α) (word : String) :
    (∀ a, bestMatch? name candidates word = some a ↔ Meant name word candidates a) ∧
      (bestMatch? name candidates word = none ↔
        ∀ b ∈ candidates, ¬ Spells name word b ∧
          ¬ ∃ c, (Text.lowerCase word.toList).head? = some c ∧
            (Text.lowerCase (name b).toList).head? = some c) := by
  unfold bestMatch?
  dsimp only
  split
  next found hfound =>
    obtain ⟨hspells, before, after, hsplit, hfirst⟩ := List.find?_eq_some_iff_append.mp hfound
    have hspells : Spells name word found := by simpa [Spells] using hspells
    have hfirst : ∀ b ∈ before, ¬ Spells name word b := by
      intro b hb
      simpa [Spells] using hfirst b hb
    have hmem : found ∈ candidates := by simp [hsplit]
    refine ⟨fun a => ⟨?_, ?_⟩, iff_of_false nofun fun h => (h found hmem).1 hspells⟩
    · intro h
      cases h
      exact .spelled before after hsplit hspells hfirst
    · rintro (⟨before', after', hsplit', hspells', hfirst'⟩ | ⟨_, _, _, _, hunspelled, _, _, _, _⟩)
      · have hfound' : candidates.find? (fun candidate =>
            Text.lowerCase (name candidate).toList = Text.lowerCase word.toList) = some a := by
          refine List.find?_eq_some_iff_append.mpr
            ⟨decide_eq_true hspells', before', after', hsplit', ?_⟩
          intro b hb
          simpa [Spells] using hfirst' b hb
        rw [← hfound, hfound']
      · exact absurd hspells (hunspelled found hmem)
  next hnone =>
    have hunspelled : ∀ b ∈ candidates, ¬ Spells name word b := by
      intro b hb
      simpa [Spells] using List.find?_eq_none.mp hnone b hb
    constructor
    · intro a
      rw [firstBest?_eq_some_iff, firstGreatest_iff]
      constructor
      · rintro ⟨count, before, after, hsplit, hpositive, hshares, hfirst, hmost⟩
        exact .started count before after hsplit hunspelled hpositive hshares hfirst hmost
      · rintro (⟨before, after, hsplit, hspells, -⟩ |
          ⟨count, before, after, hsplit, -, hpositive, hshares, hfirst, hmost⟩)
        · exact absurd hspells (hunspelled a (by simp [hsplit]))
        · exact ⟨count, before, after, hsplit, hpositive, hshares, hfirst, hmost⟩
    · rw [firstBest?_eq_none_iff]
      refine forall₂_congr fun b hb => ?_
      rw [← shareStart_one, shareStart_iff]
      simp [hunspelled b hb]

/-- Of names that fit a short word equally well, the name of a state comes before its successor. -/
example : Property.ofKey? "n" = some .name := by decide +kernel

end Meaning
end Flowscript
